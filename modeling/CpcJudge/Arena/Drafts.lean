import CpcJudge.Arena.Repeats

/-!
# `Arena.Drafts` — the bracket of a draft

Whatever happens to a draft, its matches are those of a bracket for as many participants as it has (`Bracketed`): a
change of the participants or of the third place match draws it again, and nothing else touches it. A place has a bye
or not whoever the participants are (`BracketPlan.same_places`), so that a bracket drawn again plays at the same
places.
-/

namespace CpcJudge
namespace Arena

open CpcJudge.Txn (bind_ok pure_ok)

/-- The matches of a tournament are those of a bracket for its participants, with its byes given. -/
structure Bracketed (db : Db) (t : Tournament) (d : BracketPlan) : Prop where
  fits : d.Fits
  count : d.tournament.participants.length = t.participants.length
  third : d.third = (t.thirdPlaceMatch && decide (2 ≤ d.rounds) && decide (4 ≤ t.participants.length))
  placed : ∀ m ∈ db.battles.rows, m.tournament = some t.id →
    ∃ n ∈ d.allMatches, m.spot = n.spot ∧ (d.HasBye n → m.status = .decided)
  filled : ∀ n ∈ d.allMatches, ∃ m ∈ db.battles.rows, m.tournament = some t.id ∧ m.spot = n.spot

/-- Every draft has its bracket. -/
def AllBracketed (db : Db) : Prop := ∀ t ∈ db.tournaments.rows, t.status = .draft → ∃ d, Bracketed db t d

/-! ## The places of two plans -/

namespace BracketPlan
variable {d d' : BracketPlan}

theorem node_spot (d : BracketPlan) (back position : ℕ) :
    (d.node back position).spot = (some (d.rounds - back), position, false) := by
  obtain ⟨_, _, _, heq, -⟩ := d.node_eq back position
  rw [heq]
  rfl

/-- Whether a seed of the first round is taken depends on how many participants there are. -/
theorem seatAt_isSome (fits : d.Fits) (fits' : d'.Fits)
    (hcount : d'.tournament.participants.length = d.tournament.participants.length) (i : ℕ) :
    ((seedingOrder d'.size)[i]?.bind d'.seat).isSome = ((seedingOrder d.size)[i]?.bind d.seat).isSome := by
  have hsize : d'.size = d.size := by rw [fits'.size, fits.size, hcount]
  rw [hsize]
  cases hseed : (seedingOrder d.size)[i]? with
  | none => rfl
  | some seed =>
      rw [fits.size, bracketSize_eq, seedingOrder_pow] at hseed
      have hlow := (mem_orderOf (List.mem_of_getElem? hseed)).1
      rw [Option.bind_some, Option.bind_some, Bool.eq_iff_iff, seat_isSome fits' hlow, seat_isSome fits hlow, hcount]

theorem node_status (fits : d.Fits) (fits' : d'.Fits)
    (hcount : d'.tournament.participants.length = d.tournament.participants.length) (back position : ℕ) :
    (d'.node back position).status = .pending ↔ (d.node back position).status = .pending := by
  have hrounds : d'.rounds = d.rounds := by rw [fits'.rounds, fits.rounds, hcount]
  unfold node
  rw [hrounds]
  split
  · rw [seatPlayers_status _ rfl, seatPlayers_status _ rfl]
    rw [show (d'.blank back position).position = (d.blank back position).position from rfl,
      seatAt_isSome fits fits' hcount, seatAt_isSome fits fits' hcount]
  · exact Iff.rfl

/-- A match of the first round is at the last level. -/
theorem hasBye_node (fits : d.Fits) {back position : ℕ} (hback : back < d.rounds) (hposition : position < 2 ^ back) :
    d.HasBye (d.node back position) ↔ back + 1 = d.rounds ∧ (d.node back position).status = .pending := by
  refine and_congr_left fun _ => ⟨fun h => ?_, fun h => ?_⟩
  · rw [roundMatches_eq fits (by omega)] at h
    obtain ⟨p, _, heq⟩ := List.mem_map.mp h
    have hspot := congrArg (·.1) ((d.node_spot (d.rounds - 1) p).symm.trans
      ((congrArg Match.spot heq).trans (d.node_spot back position)))
    have hround := Option.some.inj hspot
    omega
  · rw [roundMatches_eq fits (by omega), show d.rounds - 1 = back by omega]
    exact List.mem_map_of_mem (List.mem_range.mpr hposition)

theorem not_hasBye_third (fits : d.Fits) (hthird : d.third = true) : ¬ d.HasBye d.thirdMatch := by
  rintro ⟨h, -⟩
  have hrounds := fits.third hthird
  rw [roundMatches_eq fits (by omega)] at h
  obtain ⟨p, _, heq⟩ := List.mem_map.mp h
  have hspot := (d.node_spot (d.rounds - 1) p).symm.trans (congrArg Match.spot heq)
  cases congrArg (·.2.2) hspot

/-- Two plans for as many participants have the same places, and the same byes. -/
theorem same_places (fits : d.Fits) (fits' : d'.Fits)
    (hcount : d'.tournament.participants.length = d.tournament.participants.length) (hthird : d'.third = d.third)
    {n : Match} (hn : n ∈ d.allMatches) :
    ∃ n' ∈ d'.allMatches, n'.spot = n.spot ∧ (d'.HasBye n' ↔ d.HasBye n) := by
  have hrounds : d'.rounds = d.rounds := by rw [fits'.rounds, fits.rounds, hcount]
  rcases (mem_allMatches fits).mp hn with ⟨back, position, hback, hposition, rfl⟩ | ⟨hmatch, rfl⟩
  · refine ⟨d'.node back position,
      (mem_allMatches fits').mpr (.inl ⟨back, position, hrounds ▸ hback, hposition, rfl⟩), ?_, ?_⟩
    · rw [node_spot, node_spot, hrounds]
    · rw [hasBye_node fits' (hrounds ▸ hback) hposition, hasBye_node fits hback hposition, hrounds,
        node_status fits fits' hcount]
  · refine ⟨d'.thirdMatch, (mem_allMatches fits').mpr (.inr ⟨hthird.trans hmatch, rfl⟩), ?_, ?_⟩
    · show (some (d'.rounds - 0), 1, true) = (some (d.rounds - 0), 1, true)
      rw [hrounds]
    · exact iff_of_false (not_hasBye_third fits' (hthird.trans hmatch)) (not_hasBye_third fits hmatch)

end BracketPlan

/-! ## The tournaments after a bracket is drawn -/

section
variable {s t : Txn} {u : Unit} {db db' : Db} {m m' : Match} {id : TournamentId}

theorem giveByes_drafts {now : Time} {far : MatchId → Prop} {ids : List MatchId} (h : giveByes now ids s = .ok u t)
    (hids : ∀ i ∈ ids, far i ∧ ∃ m, AwaitsBye id far s.db i m) : DraftsStay s.db t.db :=
  giveByes_keeps (P := DraftsStay) (fun _ => .of_eq rfl) (fun h h' => h.trans h') h hids
    fun _ _ _ hadvanced => hadvanced.drafts

theorem restoreGames_tournaments {chosen : List (Place × List GameProblem)} : ∀ {ids : List MatchId} {s t : Txn},
    restoreGames chosen ids s = .ok u t → t.db.tournaments = s.db.tournaments
  | [], s, t, h => by rw [(pure_ok.mp h).2]
  | i :: ids, s, t, h => by
    simp only [restoreGames, tables_bind] at h
    cases here : s.db.match? i with
    | none =>
        simp only [here] at h
        exact restoreGames_tournaments h
    | some m =>
        simp only [here] at h
        rcases Txn.ite_ok.mp h with ⟨_, h⟩ | ⟨_, h⟩
        · exact restoreGames_tournaments h
        · obtain ⟨m', s1, hgames, h⟩ := bind_ok.mp h
          exact (restoreGames_tournaments h).trans (addGames_tournaments hgames)

namespace Builds
variable {site : Site} {row row' : Tournament} {d : BracketPlan} {drawn opened restored : Txn}

theorem result_id (h : Builds site row row' s t d drawn opened restored) : row'.id = row.id := by
  rw [h.result]
  exact h.tournament_id

theorem participants (h : Builds site row row' s t d drawn opened restored) :
    d.tournament.participants = row.participants := by
  rw [h.tournament]
  rfl

/-- A tournament after a bracket is drawn: its own, or a draft that was there. -/
theorem drafts (h : Builds site row row' s t d drawn opened restored)
    (hbelow : ∀ m ∈ s.db.battles.rows, m.id < s.db.nextId) {x : Tournament} (hx : x ∈ t.db.tournaments.rows)
    (hdraft : x.status = .draft) : x = row' ∨ (x.id ≠ row.id ∧ ∃ y ∈ s.db.tournaments.rows, y.Same x) := by
  rw [h.saved.2, restoreGames_tournaments h.chosen] at hx
  rcases Table.mem_put hx with rfl | ⟨hx, hne⟩
  · exact .inl rfl
  · have hne : x.id ≠ row.id := fun heq => hne (heq.trans h.result_id.symm)
    obtain ⟨y, hy, hsame⟩ := giveByes_drafts h.byes (h.awaits hbelow) x hx hdraft
    rw [h.tournaments] at hy
    rcases Table.mem_put hy with rfl | ⟨hy, _⟩
    · exact absurd (hsame.id.trans h.tournament_id) hne
    · exact .inr ⟨hne, y, hy, hsame⟩

/-- A bracket drawn is one for the participants of its tournament. -/
theorem bracketed (h : Builds site row row' s t d drawn opened restored)
    (hbelow : ∀ m ∈ s.db.battles.rows, m.id < s.db.nextId) : Bracketed t.db row' d := by
  have hparticipants : row'.participants = d.tournament.participants := by rw [h.result]
  refine ⟨h.fits, by rw [hparticipants], ?_, fun m hm hmine => ?_, fun n hn => ?_⟩
  · rw [h.third, hparticipants, h.participants, show row'.thirdPlaceMatch = row.thirdPlaceMatch by
      rw [h.result, h.tournament]; rfl]
  · rw [h.result_id] at hmine
    rcases h.cases hbelow hm with ⟨n, hn, hbuilt⟩ | ⟨_, hother⟩
    · exact ⟨n, hn, Match.spot_of hbuilt.static hbuilt.position, hbuilt.bye.mpr⟩
    · exact absurd hmine hother
  · obtain ⟨m, hm, hbuilt⟩ := h.find hbelow hn
    exact ⟨m, hm, h.result_id ▸ h.built_tournament hn hbuilt, Match.spot_of hbuilt.static hbuilt.position⟩

end Builds

/-! ## Turn after turn -/

/-- The same match, decided if it was. -/
structure Match.Endures (m m' : Match) : Prop where
  static : m'.static = m.static
  position : m'.position = m.position
  decided : m.status = .decided → m'.status = .decided

theorem Match.Remains.endures (h : m.Remains m') : m.Endures m' := ⟨h.static, h.position, h.decided⟩

theorem Match.Endures.refl (m : Match) : m.Endures m := ⟨rfl, rfl, fun h => h⟩

theorem Match.Endures.trans {a b c : Match} (h : a.Endures b) (h' : b.Endures c) : a.Endures c :=
  ⟨h'.static.trans h.static, h'.position.trans h.position, fun hd => h'.decided (h.decided hd)⟩

theorem Match.Endures.covers : Covers Match.Endures true fun _ => False where
  refl := Match.Endures.refl
  trans _ _ _ := Match.Endures.trans
  row _ _ own _ := own.elim
  decide _ _ own _ := own.elim
  receive m slot p seed _ := by
    obtain ⟨status, heq, hstatus⟩ := m.receive_eq slot (some p) seed
    rw [heq]
    refine ⟨rfl, rfl, fun hd => ?_⟩
    rcases hstatus with rfl | ⟨hwas, _⟩ | ⟨hwas, _⟩
    · exact hd
    · rw [hwas] at hd
      cases hd
    · rw [hwas] at hd
      cases hd

theorem Match.Endures.spot (h : m.Endures m') : m'.spot = m.spot := Match.spot_of h.static h.position

/-- The matches of a tournament endure, and there are no others. -/
structure BracketEndures (db db' : Db) (id : TournamentId) : Prop where
  back : ∀ m' ∈ db'.battles.rows, m'.tournament = some id → ∃ m ∈ db.battles.rows, m.Endures m'
  forth : ∀ m ∈ db.battles.rows, m.tournament = some id → ∃ m' ∈ db'.battles.rows, m.Endures m'

theorem BracketEndures.of_maps (h : Table.Maps Match.Endures db.battles db'.battles) : BracketEndures db db' id := by
  refine ⟨fun m' hm' _ => ?_, fun m hm _ => ?_⟩
  · obtain ⟨m, hm, _, hendures⟩ := h.back hm'
    exact ⟨m, hm, hendures⟩
  · obtain ⟨m', hm', hendures⟩ := h.forth (Table.get?_of_mem hm)
    exact ⟨m', Table.mem_of_get? hm', hendures⟩

theorem Bracketed.endures {row row' : Tournament} {d : BracketPlan} (h : Bracketed db row d)
    (hmatches : BracketEndures db db' row.id) (hsame : row.Same row') : Bracketed db' row' d := by
  refine ⟨h.fits, h.count.trans hsame.count.symm, ?_, fun m' hm' hmine => ?_, fun n hn => ?_⟩
  · rw [h.third, hsame.third, hsame.count]
  · obtain ⟨m, hm, hendures⟩ := hmatches.back m' hm' (hsame.id ▸ hmine)
    rw [Match.tournament_of_static hendures.static, hsame.id] at hmine
    obtain ⟨n, hn, hspot, hbye⟩ := h.placed m hm hmine
    exact ⟨n, hn, hendures.spot.trans hspot, fun hhas => hendures.decided (hbye hhas)⟩
  · obtain ⟨m, hm, hmine, hspot⟩ := h.filled n hn
    obtain ⟨m', hm', hendures⟩ := hmatches.forth m hm hmine
    refine ⟨m', hm', ?_, hendures.spot.trans hspot⟩
    rw [Match.tournament_of_static hendures.static, hsame.id]
    exact hmine

theorem AllBracketed.endures (hI : AllBracketed db) (hmatches : ∀ id, BracketEndures db db' id)
    (hdrafts : DraftsStay db db') : AllBracketed db' := by
  intro row' hrow' hdraft
  obtain ⟨row, hrow, hsame⟩ := hdrafts row' hrow' hdraft
  obtain ⟨d, hbracketed⟩ := hI row hrow hsame.draft
  exact ⟨d, hbracketed.endures (hmatches row.id) hsame⟩

/-- A row saved. -/
theorem AllBracketed.put (hI : AllBracketed db) {m m' : Match} (here : db.match? m.id = some m)
    (battles : db'.battles = db.battles.put m') (hendures : m.Endures m') (hdrafts : DraftsStay db db') :
    AllBracketed db' := by
  refine hI.endures (fun _ => .of_maps ?_) hdrafts
  rw [battles]
  refine Table.Maps.put (b := m) Match.Endures.refl ?_ hendures
  rw [show Keyed.key m' = m.id from Match.id_of_static hendures.static]
  exact here

theorem AllBracketed.turn {fair : Prop} {clear : Db → Match → Slot → Prop} (hI : AllBracketed db)
    (h : Turn fair clear db db') : AllBracketed db' := by
  cases h with
  | rest rests drafts => exact hI.endures (fun _ => .of_maps (rests.mono fun _ _ _ h => h.toRemains.endures)) drafts
  | lock here remains _ battles drafts => exact hI.put here battles remains.endures drafts
  | problems v here _ _ battles drafts => exact hI.put here battles ⟨rfl, rfl, fun h => h⟩ drafts
  | addGame here _ _ _ battles drafts => exact hI.put here battles ⟨rfl, rfl, fun h => h⟩ drafts
  | @replace m slot p display _ here _ battles drafts =>
      obtain ⟨status, heq, hstatus⟩ := m.replace_eq slot p display
      refine hI.put here battles ?_ drafts
      rw [heq]
      refine ⟨rfl, rfl, fun hd => ?_⟩
      rcases hstatus with rfl | ⟨hwas, _⟩
      · exact hd
      · rw [hwas] at hd
        cases hd
  | duel quick _ _ _ battles drafts =>
      refine hI.endures (fun id => ⟨fun m' hm' hmine => ?_, fun m hm _ => ⟨m, ?_, .refl m⟩⟩) drafts
      · rcases Table.mem_add (battles ▸ hm') with rfl | hm'
        · rw [quick] at hmine
          cases hmine
        · exact ⟨m', hm', .refl m'⟩
      · rw [battles]
        exact Table.mem_add_of_mem hm
  | @decide m m' slot db1 _ here remains _ _ _ battles drafts advanced =>
      have hsaved : AllBracketed db1 := hI.put here battles remains.endures drafts
      refine hsaved.endures (fun _ => .of_maps ?_) advanced.drafts
      exact (advanced.maps Match.Endures.covers).mono fun _ _ _ h => h.1
  | @redraw site actor row row' s u battles wellFormed here draft drafts run =>
      obtain ⟨d, _, _, _, hbuilds⟩ := buildBracket_builds run (wellFormed.seeded _ (Table.mem_of_get? here))
      intro x hx hdraft
      rcases hbuilds.drafts wellFormed.below hx hdraft with rfl | ⟨hne, y, hy, hsame⟩
      · exact ⟨d, hbuilds.bracketed wellFormed.below⟩
      · obtain ⟨z, hz, hsame'⟩ := drafts y hy (hsame.id ▸ hne) hsame.draft
        obtain ⟨d', hbracketed⟩ := hI z hz hsame'.draft
        have hzid : z.id ≠ row.id := fun heq => hne (hsame.id.trans (hsame'.id.trans heq))
        have hsame'' : z.Same x := ⟨hsame.id.trans hsame'.id, hsame'.draft, hsame.count.trans hsame'.count,
          hsame.third.trans hsame'.third⟩
        refine ⟨d', hbracketed.endures ⟨fun m' hm' hmine => ?_, fun m hm hmine => ⟨m, ?_, .refl m⟩⟩ hsame''⟩
        · rcases hbuilds.cases wellFormed.below hm' with ⟨n, hn, hbuilt⟩ | ⟨hm', _⟩
          · rw [hbuilds.built_tournament hn hbuilt] at hmine
            exact absurd (Option.some.inj hmine).symm hzid
          · exact ⟨m', battles ▸ hm', .refl m'⟩
        · refine hbuilds.keeps wellFormed.below (battles ▸ hm) fun heq => hzid ?_
          exact Option.some.inj (hmine.symm.trans heq)

theorem Run.allBracketed {allowed : Site → Op → Db → Prop} (hrun : Run allowed {} db) : AllBracketed db :=
  hrun.turns False (fun _ _ _ => True) .empty (fun _ hm => absurd hm List.not_mem_nil)
    (fun _ h => h.elim) (fun _ _ _ _ _ _ _ _ => trivial) AllBracketed.turn

end

end Arena
end CpcJudge
