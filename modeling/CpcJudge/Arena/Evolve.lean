import CpcJudge.Arena.WellFormed

/-!
# `Arena.Evolve` — what becomes of a match

How any sequence of changes leaves a match that was there before it: its place in the bracket stays, its version
only grows, its players may be replaced but do not leave, a decision stays, and the games that were started are
still there with a status further on. `Follows` says it of all the rows at once, for any relation on rows.
-/

namespace CpcJudge
namespace Arena

/-- How a match may have changed. -/
structure Match.Evolves (organizer : Bool) (m m' : Match) : Prop where
  static : m'.static = m.static
  version : m.version ≤ m'.version
  filled : ∀ slot, (m.players.get slot).isSome = true → (m'.players.get slot).isSome = true
  ended : m.isOver = true → m'.status = m.status
  winner : m.status = .decided → m'.winnerSlot = m.winnerSlot
  games : ∀ g ∈ m.games.rows, g.started = true →
    ∃ g' ∈ m'.games.rows, g'.id = g.id ∧ g'.started = true ∧ g.status.Onward organizer g'.status

namespace Match.Evolves
variable {organizer : Bool} {m m' m'' : Match}

theorem refl (m : Match) : m.Evolves organizer m :=
  ⟨rfl, le_refl _, fun _ h => h, fun _ => rfl, fun _ => rfl, fun g hg hs => ⟨g, hg, rfl, hs, .refl _⟩⟩

theorem trans (h : m.Evolves organizer m') (h' : m'.Evolves organizer m'') : m.Evolves organizer m'' := by
  refine ⟨h'.static.trans h.static, h.version.trans h'.version, fun slot hs => h'.filled slot (h.filled slot hs),
    fun hover => ?_, fun hdecided => ?_, fun g hg hs => ?_⟩
  · have hstatus := h.ended hover
    have hover' : m'.isOver = true := by rwa [isOver, hstatus]
    rw [h'.ended hover', hstatus]
  · have hstatus := h.ended (by simp [isOver, hdecided])
    rw [h'.winner (hstatus.trans hdecided), h.winner hdecided]
  · obtain ⟨g', hg', hid, hs', honward⟩ := h.games g hg hs
    obtain ⟨g'', hg'', hid', hs'', honward'⟩ := h'.games g' hg' hs'
    exact ⟨g'', hg'', hid'.trans hid, hs'', honward.trans honward'⟩

/-- A started match stays started. -/
theorem started (h : m.Evolves organizer m') (hs : m.started = true) : m'.started = true := by
  obtain ⟨g, hg, hgs⟩ := started_iff.mp hs
  obtain ⟨g', hg', _, hs', _⟩ := h.games g hg hgs
  exact started_iff.mpr ⟨g', hg', hs'⟩

/-- Nothing but columns outside the games changed. -/
theorem of_same (hstatic : m'.static = m.static) (hversion : m.version ≤ m'.version)
    (hplayers : ∀ slot, (m.players.get slot).isSome = true → (m'.players.get slot).isSome = true)
    (hover : m.isOver = true → m'.status = m.status) (hwinner : m.status = .decided → m'.winnerSlot = m.winnerSlot)
    (hgames : m'.games = m.games) : m.Evolves organizer m' :=
  ⟨hstatic, hversion, hplayers, hover, hwinner, fun g hg hs => ⟨g, by rwa [hgames], rfl, hs, .refl _⟩⟩

end Match.Evolves

namespace Match
variable {organizer : Bool} {m : Match} {g g' : Game}

/-- The games of a match one of which changed. -/
theorem onward_setGame (h : m.games.get? g.id = some g) (hid : g'.id = g.id)
    (hstarted : g.started = true → g'.started = true) (honward : g.status.Onward organizer g'.status) :
    ∀ x ∈ m.games.rows, x.started = true → ∃ x' ∈ (m.setGame g').games.rows,
      x'.id = x.id ∧ x'.started = true ∧ x.status.Onward organizer x'.status := by
  intro x hx hs
  by_cases hxg : x.id = g.id
  · obtain rfl : x = g := Table.eq_of_key hx (Table.mem_of_get? h) hxg
    have hself : (m.setGame g').games.get? g'.id = some g' :=
      Table.get?_put_self (b := x) (by rw [show Keyed.key g' = x.id from hid]; exact h)
    exact ⟨g', Table.mem_of_get? hself, hid, hstarted hs, honward⟩
  · exact ⟨x, Table.mem_put_of_ne hx (fun h => hxg (h.trans hid)), rfl, hs, .refl _⟩

theorem started_not_unplayed (h : g.started = true) : g.unplayed = false := by
  have hsome : g.contest.isSome = true := h
  cases hc : g.contest with
  | none => simp [hc] at hsome
  | some c => simp [Game.unplayed, hc]

theorem onward_dropUnplayed : ∀ x ∈ m.games.rows, x.started = true → ∃ x' ∈ m.dropUnplayed.games.rows,
    x'.id = x.id ∧ x'.started = true ∧ x.status.Onward organizer x'.status :=
  fun x hx hs => ⟨x, mem_dropUnplayed.mpr ⟨hx, started_not_unplayed hs⟩, rfl, hs, .refl _⟩

theorem onward_voidGames (now : Time) (decidedBy : Game → Option ProfileId) :
    ∀ x ∈ m.games.rows, x.started = true → ∃ x' ∈ (m.voidGames now decidedBy).games.rows,
      x'.id = x.id ∧ x'.started = true ∧ x.status.Onward true x'.status := by
  intro x hx hs
  refine ⟨_, List.mem_map_of_mem hx, ?_⟩
  by_cases hp : (x.status.active || x.status = .tie) = true
  · rw [if_pos hp]
    refine ⟨rfl, ?_, .inr ⟨?_, fun _ => rfl⟩⟩
    · simpa [Game.started, Game.void, Game.closeContest] using hs
    · show x.status.rank < GameStatus.rank .cancelled
      revert hp
      cases x.status <;> simp [GameStatus.active, GameStatus.rank]
  · rw [if_neg hp]
    exact ⟨rfl, hs, .refl _⟩

end Match

theorem RowStep.evolves {organizer : Bool} {m m' : Match} (h : RowStep organizer m m') :
    m.Evolves organizer m' := by
  cases h with
  | edit _ _ _ _ _ hv => exact .of_same rfl hv (fun _ h => h) (fun _ => rfl) (fun _ => rfl) rfl
  | length => exact .of_same rfl (le_refl _) (fun _ h => h) (fun _ => rfl) (fun _ => rfl) rfl
  | call _ _ hready hv =>
      refine .of_same rfl hv (fun _ h => h) (fun h => ?_) (fun _ => rfl) rfl
      simp [Match.isOver, hready] at h
  | addGame g _ _ _ =>
      exact ⟨rfl, le_refl _, fun _ h => h, fun _ => rfl, fun _ => rfl,
        fun x hx hs => ⟨x, Table.mem_add_of_mem hx, rfl, hs, .refl _⟩⟩
  | game _ hhere hstep hv =>
      exact ⟨rfl, hv, fun _ h => h, fun _ => rfl, fun _ => rfl,
        Match.onward_setGame hhere hstep.id (fun hs => hstep.contest.trans hs) hstep.onward⟩
  | start _ _ hhere hprepared hgoing _ _ hid hstatus hcontest _ hv =>
      refine ⟨rfl, hv, fun _ h => h, fun h => ?_, fun _ => rfl,
        Match.onward_setGame hhere hid (fun _ => hcontest) ?_⟩
      · rw [hgoing] at h
        cases h
      · rw [hprepared, hstatus]
        exact .inr ⟨by decide, by simp⟩
  | win _ hhere hwon _ _ hv =>
      exact ⟨rfl, hv, fun _ h => h, fun _ => rfl, fun _ => rfl,
        Match.onward_setGame hhere hwon.id (fun hs => hwon.contest.trans hs) hwon.onward⟩
  | voidGames now decidedBy horganizer =>
      subst horganizer
      exact ⟨rfl, le_refl _, fun _ h => h, fun _ => rfl, fun _ => rfl, Match.onward_voidGames now decidedBy⟩
  | dropUnplayed =>
      exact ⟨rfl, le_refl _, fun _ h => h, fun _ => rfl, fun _ => rfl, Match.onward_dropUnplayed⟩
  | cancel _ _ _ hgoing _ hv =>
      refine .of_same rfl hv (fun _ h => h) (fun h => ?_) (fun _ => rfl) rfl
      rw [hgoing] at h
      cases h

theorem Decides.evolves {organizer : Bool} {m m' : Match} (h : Decides organizer m m') :
    m.Evolves organizer m' := by
  cases h with
  | @game g g' slot reason moment v hhere hwon _ hgoing hv =>
      have hgoing' : ∀ {p : Prop}, m.isOver = true → p := fun h => by
        rw [hgoing] at h
        cases h
      refine ⟨rfl, hv, fun _ h => h, fun h => hgoing' h, fun h => hgoing' (by simp [Match.isOver, h]), ?_⟩
      intro x hx hs
      obtain ⟨x', hx', hid, hs', honward⟩ :=
        Match.onward_setGame hhere hwon.id (fun hs => hwon.contest.trans hs) hwon.onward x hx hs
      exact ⟨x', Match.mem_dropUnplayed.mpr ⟨hx', Match.started_not_unplayed hs'⟩, hid, hs', honward⟩
  | given _ _ _ _ _ hgoing hv =>
      have hgoing' : ∀ {p : Prop}, m.isOver = true → p := fun h => by
        rw [hgoing] at h
        cases h
      exact .of_same rfl hv (fun _ h => h) (fun h => hgoing' h)
        (fun h => hgoing' (by simp [Match.isOver, h])) rfl

theorem Match.receive_evolves {organizer : Bool} (m : Match) (slot : Slot) (p : ProfileId) (seed : Option ℕ) :
    m.Evolves organizer (m.receive slot (some p) seed) := by
  obtain ⟨status, heq, hstatus⟩ := m.receive_eq slot (some p) seed
  rw [heq]
  refine .of_same rfl (Nat.le_succ _) (fun s hs => ?_) (fun h => ?_) (fun _ => rfl) rfl
  · show ((m.players.set slot (some p)).get s).isSome = true
    by_cases hslot : s = slot
    · simp [hslot]
    · rwa [Pair.get_set_of_ne _ _ hslot]
  · rcases hstatus with rfl | ⟨hpending, _⟩ | ⟨hready, _⟩
    · rfl
    · simp [Match.isOver, hpending] at h
    · simp [Match.isOver, hready] at h

/-! ## All the rows -/

/-- Every match is still there, related by `R`, unless it was thrown away before it was played; no key is used
    again. -/
structure Follows (R : Match → Match → Prop) (db db' : Db) : Prop where
  nextId : db.nextId ≤ db'.nextId
  kept : ∀ id m, db.match? id = some m →
    (∃ m', db'.match? id = some m' ∧ R m m' ∧ (m.started = true → m'.started = true)) ∨
      (db'.match? id = none ∧ m.started = false)
  fresh : ∀ id, id < db.nextId → db.match? id = none → db'.match? id = none

namespace Follows
variable {R : Match → Match → Prop} {db db' db'' : Db}

theorem of_maps (hnext : db.nextId ≤ db'.nextId)
    (h : Table.Maps (fun m m' : Match => R m m' ∧ (m.started = true → m'.started = true)) db.battles db'.battles) :
    Follows R db db' := by
  refine ⟨hnext, fun id m hm => .inl ?_, fun id _ hnone => h.get?_eq_none hnone⟩
  obtain ⟨m', hm', hR, hs⟩ := h.forth hm
  exact ⟨m', hm', hR, hs⟩

theorem refl (hrefl : ∀ m, R m m) (db : Db) : Follows R db db :=
  .of_maps (le_refl _) (.refl (fun m => ⟨hrefl m, fun h => h⟩) _)

theorem trans (htrans : ∀ a b c, R a b → R b c → R a c) (hbelow : ∀ m ∈ db.battles.rows, m.id < db.nextId)
    (h : Follows R db db') (h' : Follows R db' db'') : Follows R db db'' := by
  refine ⟨h.nextId.trans h'.nextId, fun id m hm => ?_, fun id hid hnone => ?_⟩
  · rcases h.kept id m hm with ⟨m', hm', hR, hs⟩ | ⟨hnone, hs⟩
    · rcases h'.kept id m' hm' with ⟨m'', hm'', hR', hs'⟩ | ⟨hnone, hs'⟩
      · exact .inl ⟨m'', hm'', htrans _ _ _ hR hR', fun h => hs' (hs h)⟩
      · refine .inr ⟨hnone, ?_⟩
        cases hstarted : m.started with
        | false => rfl
        | true => rw [hs hstarted] at hs'; cases hs'
    · refine .inr ⟨h'.fresh id ?_ hnone, hs⟩
      have hid : m.id = id := Table.key_of_get? hm
      exact hid ▸ lt_of_lt_of_le (hbelow m (Table.mem_of_get? hm)) h.nextId
  · exact h'.fresh id (lt_of_lt_of_le hid h.nextId) (h.fresh id hid hnone)

/-- A match of both tables. -/
theorem rel (h : Follows R db db') {id : MatchId} {m m' : Match} (hm : db.match? id = some m)
    (hm' : db'.match? id = some m') : R m m' := by
  rcases h.kept id m hm with ⟨x, hx, hR, _⟩ | ⟨hnone, _⟩
  · rw [hm'] at hx
    cases hx
    exact hR
  · rw [hm'] at hnone
    cases hnone

end Follows

section
variable {R : Match → Match → Prop} {db db' : Db} {organizer : Bool} {scope : MatchId → Prop} {m m' : Match}

/-- `R` holds of whatever one change does to a match. -/
structure Covers (R : Match → Match → Prop) (organizer : Bool) (scope : MatchId → Prop) : Prop where
  refl : ∀ m, R m m
  trans : ∀ a b c, R a b → R b c → R a c
  row : ∀ m m', scope m.id → RowStep organizer m m' → R m m'
  decide : ∀ m m', scope m.id → Decides organizer m m' → R m m'
  receive : ∀ m slot p seed, m.started = false → R m (Match.receive m slot (some p) seed)

/-- `R`, of a match that stays started. -/
abbrev Match.Still (R : Match → Match → Prop) (m m' : Match) : Prop :=
  R m m' ∧ (m.started = true → m'.started = true)

theorem Covers.still_refl (hR : Covers R organizer scope) (m : Match) : m.Still R m := ⟨hR.refl m, fun h => h⟩

theorem Covers.still_trans (hR : Covers R organizer scope) (a b c : Match) (h : a.Still R b) (h' : b.Still R c) :
    a.Still R c := ⟨hR.trans a b c h.1 h'.1, fun hs => h'.2 (h.2 hs)⟩

theorem Placed.maps (hR : Covers R organizer scope) {seed : Option ℕ} {target : Option (MatchId × Slot)}
    {p : Option ProfileId} (h : Placed seed db target p db') :
    Table.Maps (Match.Still R) db.battles db'.battles := by
  cases h with
  | nobody => exact .refl hR.still_refl _
  | nowhere => exact .refl hR.still_refl _
  | @placed id n slot p here hunplayed =>
      refine Table.Maps.put (b := n) hR.still_refl ?_ ⟨hR.receive n slot p seed hunplayed, fun h => ?_⟩
      · show db.battles.get? (n.receive slot (some p) seed).id = some n
        rw [Match.id_of_static (n.receive_static slot (some p) seed), show n.id = id from Table.key_of_get? here]
        exact here
      · rw [hunplayed] at h
        cases h

theorem Checked.battles {id : TournamentId} (h : Checked id db db') : db'.battles = db.battles := by
  cases h with
  | finished _ _ _ _ _ _ battles => exact battles
  | same => rfl

theorem Advanced.maps (hR : Covers R organizer scope) (h : Advanced m db db') :
    Table.Maps (Match.Still R) db.battles db'.battles := by
  cases h with
  | quick => exact .refl hR.still_refl _
  | onward _ _ _ next loser checked =>
      rw [checked.battles]
      exact (next.maps hR).trans hR.still_trans (loser.maps hR)

theorem Placed.nextId {seed : Option ℕ} {target : Option (MatchId × Slot)} {p : Option ProfileId}
    (h : Placed seed db target p db') : db'.nextId = db.nextId := by
  cases h <;> rfl

theorem Checked.nextId {id : TournamentId} (h : Checked id db db') : db.nextId ≤ db'.nextId := by
  cases h with
  | finished _ _ _ _ _ _ _ _ logs => exact logs.nextId
  | same => exact le_refl _

theorem Advanced.nextId (h : Advanced m db db') : db.nextId ≤ db'.nextId := by
  cases h with
  | quick => exact le_refl _
  | onward _ _ _ next loser checked => exact (loser.nextId.trans next.nextId).symm.le.trans checked.nextId

/-- A change that decides a match. -/
def Change.Deciding (organizer : Bool) (scope : MatchId → Prop) (db db' : Db) : Prop :=
  ∃ m m' db1, db.match? m.id = some m ∧ scope m.id ∧ Decides organizer m m' ∧ Saves db m m' db1 ∧
    Advanced m' db1 db'

/-- A bracket drawn again throws away the matches of its tournament, and no key is used again. -/
theorem Db.match?_redrawn {d : BracketPlan} {id : MatchId} (hdb : WellFormed db) (fits : d.Fits)
    (base : d.base = db.nextId) (battles : db'.battles =
      d.allMatches.foldl Table.add (db.battles.filter fun m => m.tournament ≠ some d.tournament.id))
    (hm : db.match? id = some m) :
    db'.match? id = if m.tournament = some d.tournament.id then none else some m := by
  have hid : m.id = id := Table.key_of_get? hm
  by_cases htournament : m.tournament = some d.tournament.id
  · rw [if_pos htournament, Db.match?, Table.get?_eq_none_iff, battles]
    intro y hy hkey
    rcases Table.mem_foldl_add hy with hy | hy
    · obtain ⟨hy, hne⟩ := Table.mem_filter.mp hy
      obtain rfl : y = m := Table.eq_of_key hy (Table.mem_of_get? hm) (hkey.trans hid.symm)
      simp [htournament] at hne
    · have hlow := (d.id_bounds fits hy).1
      rw [show y.id = m.id from hkey.trans hid.symm, base] at hlow
      exact absurd (hdb.below m (Table.mem_of_get? hm)) (not_lt.mpr hlow)
  · rw [if_neg htournament]
    show db'.battles.get? id = some m
    rw [battles]
    refine Table.get?_eq_some_iff.mpr ⟨Table.mem_foldl_add_of_mem ?_, hid⟩
    exact Table.mem_filter.mpr ⟨Table.mem_of_get? hm, by simpa using htournament⟩

/-- A change decides a match and moves players, or it rewrites one row at most. -/
theorem Change.deciding_or_follows (hdb : WellFormed db) (h : Change organizer scope db db') :
    Change.Deciding organizer scope db db' ∨ ∀ R : Match → Match → Prop, (∀ m, R m m) →
      (∀ m m', scope m.id → RowStep organizer m m' → R m m') → Follows R db db' := by
  cases h with
  | @row m m' _ here own step saves =>
      refine .inr fun R hrefl hrow => .of_maps saves.nextId ?_
      rw [saves.battles]
      refine Table.Maps.put (b := m) (fun m => ⟨hrefl m, fun h => h⟩) ?_
        ⟨hrow m m' own step, step.evolves.started⟩
      show db.battles.get? m'.id = some m
      rw [Match.id_of_static step.static]
      exact here
  | @decide m m' db1 _ here own step saves advanced => exact .inl ⟨m, m', db1, here, own, step, saves, advanced⟩
  | @duel m _ _ _ _ _ _ _ fresh _ battles _ logs =>
      refine .inr fun R hrefl _ =>
        ⟨logs.nextId, fun id x hx => .inl ⟨x, ?_, hrefl x, fun h => h⟩, fun id hid hnone => ?_⟩
      · show db'.battles.get? id = some x
        rw [battles]
        exact Table.get?_eq_some_iff.mpr ⟨Table.mem_add_of_mem (Table.mem_of_get? hx), Table.key_of_get? hx⟩
      · show db'.battles.get? id = none
        rw [battles, Table.get?_add_of_ne (fun heq => ?_)]
        · exact hnone
        · exact absurd (show m.id < db.nextId from (show id = m.id from heq) ▸ hid) (not_lt.mpr fresh)
  | @bracket d _ _ fits _ _ base unplayed battles _ nextId logs =>
      refine .inr fun R hrefl _ => ⟨logs.nextId, fun id x hx => ?_, fun id hid hnone => ?_⟩
      · have hredrawn := Db.match?_redrawn hdb fits base battles hx
        by_cases htournament : x.tournament = some d.tournament.id
        · rw [if_pos htournament] at hredrawn
          exact .inr ⟨hredrawn, unplayed x (Table.mem_of_get? hx) htournament⟩
        · rw [if_neg htournament] at hredrawn
          exact .inl ⟨x, hredrawn, hrefl x, fun h => h⟩
      · rw [Db.match?, Table.get?_eq_none_iff, battles]
        intro y hy hkey
        rcases Table.mem_foldl_add hy with hy | hy
        · exact Table.get?_eq_none_iff.mp hnone y (Table.mem_filter.mp hy).1 hkey
        · have hlow := (d.id_bounds fits hy).1
          rw [show y.id = id from hkey, base] at hlow
          exact absurd hid (not_lt.mpr hlow)
  | tournament _ _ _ _ battles _ logs =>
      exact .inr fun R hrefl _ => .of_maps logs.nextId (battles ▸ .refl (fun m => ⟨hrefl m, fun h => h⟩) _)
  | newTournament _ _ _ _ battles _ logs =>
      exact .inr fun R hrefl _ => .of_maps logs.nextId (battles ▸ .refl (fun m => ⟨hrefl m, fun h => h⟩) _)
  | other battles _ logs =>
      exact .inr fun R hrefl _ => .of_maps logs.nextId (battles ▸ .refl (fun m => ⟨hrefl m, fun h => h⟩) _)

theorem Change.follows (hR : Covers R organizer scope) (hdb : WellFormed db)
    (h : Change organizer scope db db') : Follows R db db' := by
  rcases h.deciding_or_follows hdb with ⟨m, m', db1, here, own, step, saves, advanced⟩ | hfollows
  · refine .of_maps (saves.nextId.trans advanced.nextId) ?_
    refine Table.Maps.trans hR.still_trans ?_ (advanced.maps hR)
    rw [saves.battles]
    refine Table.Maps.put (b := m) hR.still_refl ?_ ⟨hR.decide m m' own step, step.evolves.started⟩
    show db.battles.get? m'.id = some m
    rw [Match.id_of_static step.static]
    exact here
  · exact hfollows R hR.refl hR.row

theorem Path.follows (hR : Covers R organizer scope) (hdb : WellFormed db) (h : Path organizer scope db db') :
    Follows R db db' := by
  induction h with
  | refl => exact .refl hR.refl db
  | tail hpath hstep ih =>
      exact ih.trans hR.trans hdb.below (hstep.follows hR (hdb.path hpath))

theorem Match.Evolves.covers (organizer : Bool) (scope : MatchId → Prop) :
    Covers (Match.Evolves organizer) organizer scope where
  refl := .refl
  trans _ _ _ h h' := h.trans h'
  row _ _ _ h := h.evolves
  decide _ _ _ h := h.evolves
  receive m slot p seed _ := m.receive_evolves slot p seed

end

end Arena
end CpcJudge
