import CpcJudge.Arena.Links
import CpcJudge.Arena.Versions

/-!
# `Arena.Feeding` — who sits where the winner of a match goes

In the match its winner goes to, the slot of a decided match holds its winner, with their seed, and the slot of a match
still to be decided nobody, however results, walkovers and corrections follow each other. One correction breaks it: of
a match whose winner has already been given the next one by walkover, and so has gone further. `set_winner` asks whether
that next match was played, and corrects no match after it.
-/

namespace CpcJudge
namespace Arena

/-- The slot the winner of `m` goes to in `n`. -/
def Fed (m n : Match) (p : MatchId × Slot) : Prop :=
  m.nextMatch = some p →
    (m.status = .decided → ∃ w, m.winnerSlot = some w ∧ n.players.get p.2 = m.players.get w ∧
      n.seeds.get p.2 = m.seeds.get w) ∧
    (m.status ≠ .decided → n.players.get p.2 = none)

/-- No player is replaced. -/
def NoReplacing (_ : Site) (op : Op) (_ : Db) : Prop :=
  match op with
  | .organize _ (.onMatch _ _ (.replace _ _ _)) => False
  | _ => True

/-- No player is replaced, and no winner is corrected who has already been sent on from the next match. -/
def SentOnce (_ : Site) (op : Op) (db : Db) : Prop :=
  match op with
  | .organize _ (.onMatch _ _ (.replace _ _ _)) => False
  | .organize _ (.onMatch id _ (.setWinner _)) => ∀ m q n, db.match? id = some m → m.nextMatch = some q →
      db.match? q.1 = some n → n.nextMatch ≠ none → n.status = .decided → n.winnerSlot ≠ some q.2
  | _ => True

/-- A match rewritten with the players, the seeds and the winner it had. -/
structure Match.Stays (m m' : Match) : Prop where
  static : m'.static = m.static
  decided : m'.status = .decided ↔ m.status = .decided
  winner : m'.winnerSlot = m.winnerSlot
  players : m'.players = m.players
  seeds : m'.seeds = m.seeds

section
variable {organizer : Bool} {scope : MatchId → Prop} {db db' db1 : Db} {m m' n n' : Match} {p q : MatchId × Slot}
  {w slot : Slot} {op : Op} {site : Site}

theorem Match.Stays.keepsLinks (h : m.Stays m') : m.KeepsLinks Fed m' := by
  refine ⟨h.static, fun n p hfed hnext => ?_, fun x p hfed => ?_⟩
  · rw [Match.nextMatch_of_static h.static] at hnext
    rw [ne_eq, h.decided, h.winner, h.players, h.seeds]
    exact hfed hnext
  · unfold Fed
    rw [h.players, h.seeds]
    exact hfed

theorem RowStep.stays (h : RowStep organizer m m') : m.Stays m' := by
  have hgoing : m.isOver = false → ∀ {s : MatchStatus}, s ≠ .decided → (s = .decided ↔ m.status = .decided) :=
    fun hm _ hs => iff_of_false hs fun hdecided => by simp [Match.isOver, hdecided] at hm
  cases h with
  | call _ _ ready => exact ⟨rfl, hgoing (by simp [Match.isOver, ready]) (by simp), rfl, rfl, rfl⟩
  | start _ _ _ _ going => exact ⟨rfl, hgoing going (by simp), rfl, rfl, rfl⟩
  | cancel _ _ _ going => exact ⟨rfl, hgoing going (by simp), rfl, rfl, rfl⟩
  | _ => exact ⟨rfl, Iff.rfl, rfl, rfl, rfl⟩

/-! ## A winner on their way -/

/-- A link that a player arriving at `q` has nothing to do with. -/
theorem Fed.seats (h : Fed m n p) (hm : m.Seats q m') (hn : n.Seats q n') (hid : n.id = p.1) (hother : p ≠ q)
    (hfree : m.status = .decided → ∀ w, m.winnerSlot = some w → (m.id, w) ≠ q) : Fed m' n' p := by
  intro hnext
  rw [Match.nextMatch_of_static hm.static] at hnext
  obtain ⟨hdecided, hgoing⟩ := h hnext
  obtain ⟨hplayers, hseeds⟩ := hn.seat p.2 (by rwa [hid])
  rw [ne_eq, hm.decided, hplayers, hseeds]
  refine ⟨fun hstatus => ?_, hgoing⟩
  obtain ⟨w, hw, hplayer, hseed⟩ := hdecided hstatus
  obtain ⟨hplayers', hseeds'⟩ := hm.seat w (hfree hstatus w hw)
  exact ⟨w, hm.winner.trans hw, hplayer.trans hplayers'.symm, hseed.trans hseeds'.symm⟩

/-- The winner of `m` arrives, and nothing that was sent on before depends on it. -/
theorem Placed.fed {profile : ProfileId} (hdb : WellFormed db) (hm : m ∈ db.battles.rows)
    (hdecided : m.status = .decided) (hw : m.winnerSlot = some w) (hnext : m.nextMatch = some q)
    (hprofile : m.players.get w = some profile)
    (hothers : ∀ x ∈ db.battles.rows, x.id ≠ m.id → ∀ p ∈ x.targets, ∀ n ∈ db.battles.rows, n.id = p.1 → Fed x n p)
    (hfree : ∀ n ∈ db.battles.rows, n.id = q.1 → n.nextMatch ≠ none → n.status = .decided →
      n.winnerSlot ≠ some q.2)
    (h : Placed (m.seeds.get w) db (some q) (some profile) db') : Joined Fed db' := by
  intro x' hx' p hp y' hy' hid'
  obtain ⟨x, hx, _, hxx'⟩ := h.seats.back hx'
  obtain ⟨y, hy, _, hyy'⟩ := h.seats.back hy'
  rw [Match.targets_of_static hxx'.static] at hp
  have hid : y.id = p.1 := (Match.id_of_static hyy'.static).symm.trans hid'
  have hqm : q ∈ m.targets := Match.mem_targets.mpr (.inl hnext)
  by_cases hmine : x.id = m.id
  · obtain rfl : x = m := Table.eq_of_key hx hm hmine
    intro hnext'
    rw [Match.nextMatch_of_static hxx'.static, hnext] at hnext'
    obtain rfl := Option.some.inj hnext'
    -- the match does not lead to itself, so its own players are those it had
    obtain ⟨hplayers, hseeds⟩ := hxx'.seat w fun heq => hdb.wired.other x hm q hqm (by rw [← heq])
    obtain ⟨hplayer, hseed⟩ := h.arrives hy' hid'
    refine ⟨fun _ => ⟨w, hxx'.winner.trans hw, ?_, ?_⟩, fun hnot => absurd (hxx'.decided.mpr hdecided) hnot⟩
    · rw [hplayer, hplayers, hprofile]
    · rw [hseed, hseeds]
  · have hother : p ≠ q := by
      rintro rfl
      exact hmine (hdb.wired.single x hx m hm p hp hqm)
    intro hnextx
    refine (hothers x hx hmine p hp y hy hid).seats hxx' hyy' hid hother (fun hstatus v hv heq => ?_) hnextx
    rw [Match.nextMatch_of_static hxx'.static] at hnextx
    refine hfree x hx (by rw [← heq]) (by simp [hnextx]) hstatus ?_
    rw [hv, ← heq]

/-- A loser arrives at the match for third place. -/
theorem Placed.fed_loser {seed : Option ℕ} {profile : ProfileId} (hI : Joined Fed db)
    (hlast : ∀ x ∈ db.battles.rows, x.id = q.1 → x.targets = []) (hnone : ∀ x ∈ db.battles.rows, x.nextMatch ≠ some q)
    (h : Placed seed db (some q) (some profile) db') : Joined Fed db' := by
  intro x' hx' p hp y' hy' hid'
  obtain ⟨x, hx, _, hxx'⟩ := h.seats.back hx'
  obtain ⟨y, hy, _, hyy'⟩ := h.seats.back hy'
  rw [Match.targets_of_static hxx'.static] at hp
  have hid : y.id = p.1 := (Match.id_of_static hyy'.static).symm.trans hid'
  intro hnextx
  have hnextx0 := hnextx
  rw [Match.nextMatch_of_static hxx'.static] at hnextx0
  have hother : p ≠ q := fun heq => hnone x hx (heq ▸ hnextx0)
  refine (hI x hx p hp y hy hid).seats hxx' hyy' hid hother (fun _ v _ heq => ?_) hnextx
  rw [hlast x hx (by rw [← heq])] at hp
  cases hp

/-- The players of a match just decided, or decided otherwise, take their places. -/
theorem Advanced.fed (hI : Joined Fed db) (hdb1 : WellFormed db1) (here : db.match? m.id = some m)
    (hstatic : m'.static = m.static) (hplayers : m'.players = m.players) (hseeds : m'.seeds = m.seeds)
    (hdecided : m'.status = .decided) (battles : db1.battles = db.battles.put m')
    (hfree : ∀ q, m.nextMatch = some q → ∀ n ∈ db.battles.rows, n.id = q.1 → n.nextMatch ≠ none →
      n.status = .decided → n.winnerSlot ≠ some q.2)
    (h : Advanced m' db1 db') : Joined Fed db' := by
  have hid : m'.id = m.id := Match.id_of_static hstatic
  have hm' : m' ∈ db1.battles.rows := by
    rw [battles]
    refine Table.mem_of_get? (Table.get?_put_self (b := m) ?_)
    rw [show Keyed.key m' = m.id from hid]
    exact here
  have hrows : ∀ x ∈ db1.battles.rows, x = m' ∨ (x ∈ db.battles.rows ∧ x.id ≠ m'.id) := fun x hx =>
    Table.mem_put (battles ▸ hx)
  -- the links from other matches are those of before
  have hothers : ∀ x ∈ db1.battles.rows, x.id ≠ m'.id → ∀ p ∈ x.targets, ∀ n ∈ db1.battles.rows, n.id = p.1 →
      Fed x n p := fun x hx hne p hp n hn hnp => by
    have hx : x ∈ db.battles.rows := ((hrows x hx).resolve_left fun heq => hne (by rw [heq])).1
    rcases hrows n hn with rfl | ⟨hn, _⟩
    · have hfed := hI x hx p hp m (Table.mem_of_get? here) (hid.symm.trans hnp)
      unfold Fed at hfed ⊢
      rwa [hplayers, hseeds]
    · exact hI x hx p hp n hn hnp
  have hstart : m'.nextMatch = none → Joined Fed db1 := fun hnone x hx p hp n hn hnp => by
    by_cases hmine : x.id = m'.id
    · obtain rfl : x = m' := Table.eq_of_key hx hm' hmine
      intro hnext
      rw [hnone] at hnext
      cases hnext
    · exact hothers x hx hmine p hp n hn hnp
  cases h with
  | quick hquick => exact hstart (by
      have hnone := hdb1.wired.quick m' hm' hquick
      cases hnext : m'.nextMatch with
      | none => rfl
      | some q =>
          have hq := Match.mem_targets.mpr (.inl hnext)
          rw [hnone] at hq
          cases hq)
  | @onward t w d2 d3 _ _ won seated next loser checked =>
      have hfed2 : Joined Fed d2 := by
        cases hnext : m'.nextMatch with
        | none =>
            rcases next.cases with rfl | ⟨q, _, hq, _⟩
            · exact hstart hnext
            · rw [hnext] at hq
              cases hq
        | some q =>
            obtain ⟨profile, hprofile⟩ := Option.isSome_iff_exists.mp seated
            rw [hnext, hprofile] at next
            refine next.fed hdb1 hm' hdecided won hnext hprofile hothers fun n hn hnq hleads hstatus => ?_
            have hnext' : m.nextMatch = some q := by rw [← Match.nextMatch_of_static hstatic, hnext]
            rcases hrows n hn with rfl | ⟨hn, _⟩
            · exact absurd hnq.symm (hdb1.wired.other n hm' q (Match.mem_targets.mpr (.inl hnext)))
            · exact hfree q hnext' n hn hnq hleads hstatus
      have hdb2 : WellFormed d2 := hdb1.placed next
      have hfed3 : Joined Fed d3 := by
        rcases loser.cases with rfl | ⟨q, profile, htarget, hprofile, hplaced⟩
        · exact hfed2
        · -- the match the loser comes from is still where it was
          have hcovers : Covers (Match.Lasts true) true fun _ => False := Match.Lasts.covers
          obtain ⟨m2, here2, hlasts, _⟩ := (next.maps hcovers).forth (Table.get?_of_mem hm')
          have hm2 := Table.mem_of_get? here2
          have hloser2 : m2.loserNextMatch = some q := by rw [Match.loserNextMatch_of_static hlasts.static, htarget]
          refine hplaced.fed_loser hfed2 (fun x hx hxq => hdb2.wired.last m2 hm2 q hloser2 x hx hxq)
            fun x hx hnextx => ?_
          have hsame : x = m2 := Table.eq_of_key hx hm2 (hdb2.wired.single x hx m2 hm2 q
            (Match.mem_targets.mpr (.inl hnextx)) (Match.mem_targets.mpr (.inr hloser2)))
          rw [hsame] at hnextx
          exact hdb2.wired.apart m2 hm2 q q hnextx hloser2 rfl
      exact hfed3.maps (checked.battles ▸ .refl Match.KeepsLinks.refl _)

/-! ## Runs -/

theorem Joined.fed_change (hI : Joined Fed db) (hdb : WellFormed db) (h : Change organizer scope db db') :
    Joined Fed db' := by
  refine hI.change hdb (fun _ _ step => step.stays.keepsLinks) (fun m n p hgoing hnone _ => ?_)
    (fun m m' db1 here step saves advanced => ?_) h
  · refine ⟨fun hdecided => ?_, fun _ => by rw [hnone, Pair.get_both]⟩
    simp [Match.isOver, hdecided] at hgoing
  · have hstatic : m'.static = m.static := step.static
    have hgoing : m.isOver = false := by
      cases step <;> assumption
    have hdb1 : WellFormed db1 := hdb.saves saves here hstatic fun hm => hm.decides step
    refine advanced.fed hI hdb1 here hstatic ?_ ?_ ?_ saves.battles fun q hnext n hn hid _ hstatus hwinner => ?_
    · cases step <;> rfl
    · cases step <;> rfl
    · cases step <;> rfl
    · -- nobody sits there yet, so nobody has won from there
      have hmem : m ∈ db.battles.rows := Table.mem_of_get? here
      have hnone := (hI m hmem q (Match.mem_targets.mpr (.inl hnext)) n hn hid hnext).2 fun hdecided => by
        simp [Match.isOver, hdecided] at hgoing
      obtain ⟨v, hv, hseated⟩ := (hdb.sound n hn).won hstatus
      rw [hwinner] at hv
      rw [← Option.some.inj hv, hnone] at hseated
      cases hseated

theorem Joined.fed_special (hI : Joined Fed db) (hdb : WellFormed db) (hallowed : SentOnce site op db)
    (h : op.special db db1) : Joined Fed db1 := by
  unfold Op.special at h
  split at h
  · refine hI.maps ?_
    rw [h.battles]
    exact Table.Maps.modify Match.KeepsLinks.refl fun _ _ _ => Match.Stays.keepsLinks ⟨rfl, Iff.rfl, rfl, rfl, rfl⟩
  · exact hallowed.elim
  · obtain ⟨m, hcorrects⟩ := h
    obtain ⟨tournament, db2, now, _, hreopened, hadvanced⟩ := hcorrects.moved
    have hid : m.id = _ := Table.key_of_get? hcorrects.here
    have here : db.match? m.id = some m := by
      rw [hid]
      exact hcorrects.here
    have hdb2 : WellFormed db2 := (hdb.corrected hcorrects now).reopened hreopened
    refine Advanced.fed hI hdb2 here ?_ ?_ ?_ ?_ hreopened.battles (fun q hnext n hn hnq hleads hstatus => ?_) hadvanced
    · rfl
    · rfl
    · rfl
    · exact hcorrects.decided
    refine hallowed m q n hcorrects.here hnext ?_ hleads hstatus
    rw [← hnq]
    exact Table.get?_of_mem hn
  · obtain ⟨t, hbegins⟩ := h
    exact hI.maps (hbegins.battles ▸ .refl Match.KeepsLinks.refl _)
  · rwa [h]

end

/-- In a run where no player is replaced, and no winner corrected who had been sent on from the next match, the winner
    of every decided match sits in the next one, with their seed, and the place of the others is empty. -/
theorem bracket_consistent {db : Db} (h : Run SentOnce {} db) : ∀ m ∈ db.battles.rows, ∀ n ∈ db.battles.rows,
    ∀ slot, m.nextMatch = some (n.id, slot) →
      (m.status = .decided → ∃ w winner, m.winnerSlot = some w ∧ m.players.get w = some winner ∧
        n.players.get slot = some winner ∧ n.seeds.get slot = m.seeds.get w) ∧
      (m.status ≠ .decided → n.players.get slot = none) := by
  obtain ⟨hdb, hI⟩ : WellFormed db ∧ Joined Fed db := Run.invariant h .empty .empty
    (fun hdb hI hchange => hI.fed_change hdb hchange) fun hallowed hdb hI hspecial => hI.fed_special hdb hallowed hspecial
  intro m hm n hn slot hnext
  obtain ⟨hdecided, hgoing⟩ := hI m hm (n.id, slot) (Match.mem_targets.mpr (.inl hnext)) n hn rfl hnext
  refine ⟨fun hstatus => ?_, hgoing⟩
  obtain ⟨w, hw, hplayer, hseed⟩ := hdecided hstatus
  obtain ⟨v, hv, hseated⟩ := (hdb.sound m hm).won hstatus
  obtain rfl : v = w := Option.some.inj (hv.symm.trans hw)
  obtain ⟨winner, hwinner⟩ := Option.isSome_iff_exists.mp hseated
  exact ⟨v, winner, hw, hwinner, hplayer.trans hwinner, hseed⟩

/-- The first of three players sits in the final, after a bye. -/
theorem bracket_consistent_bye : ∃ m ∈ cupDrawn.battles.rows, ∃ n ∈ cupDrawn.battles.rows, ∃ w winner,
    m.winnerSlot = some w ∧ m.players.get w = some winner ∧ n.players.a = some winner ∧ n.seeds.a = m.seeds.get w := by
  have hrun : Run SentOnce {} cupDrawn := Run.ofSteps _ fun step hstep _ => by
    obtain rfl := List.mem_singleton.mp hstep
    trivial
  have hbye : ∃ m ∈ cupDrawn.battles.rows, ∃ n ∈ cupDrawn.battles.rows,
      m.nextMatch = some (n.id, .a) ∧ m.status = .decided := by decide +kernel
  obtain ⟨m, hm, n, hn, hnext, hdecided⟩ := hbye
  exact ⟨m, hm, n, hn, (bracket_consistent hrun m hm n hn .a hnext).1 hdecided⟩

/-- Five players: the winner of the only match of the first round is given the semifinal, and then corrected. -/
def sentTwice : List (Site × Op) :=
  ([.organize 9 (.createTournament "Cup" [some 1, some 2, some 3, some 4, some 5] .manual false {} "" none true none
      .pending),
    .organize 9 (.onMatch 6 none (.walkover .a)),
    .organize 9 (.onMatch 3 none (.walkover .b)),
    .organize 9 (.onMatch 6 none (.setWinner .b))] : List Op).map fun op => ({ now := 0 }, op)

/-- The corrected winner is the one who won the semifinal, and the other plays the final. -/
theorem final_uncorrected : ∃ db, Run NoReplacing {} db ∧ ∃ m ∈ db.battles.rows, ∃ n ∈ db.battles.rows,
    m.nextMatch = some (n.id, .a) ∧ m.status = .decided ∧ m.winnerSlot = some .b ∧ n.players.a ≠ m.players.b := by
  refine ⟨Db.play {} sentTwice, Run.ofSteps _ fun step hstep db => ?_, ?_⟩
  · obtain ⟨op, hop, rfl⟩ := List.mem_map.mp hstep
    fin_cases hop <;> trivial
  · decide +kernel

end Arena
end CpcJudge
