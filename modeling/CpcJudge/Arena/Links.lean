import CpcJudge.Arena.Reachable

/-!
# `Arena.Links` — a match and the matches it sends its players to

What holds of every match and a match it leads to, for any relation between the two (`Joined`): which changes keep it
because they rewrite both as the relation allows (`Match.KeepsLinks`), and what is left to prove of the others, a
decided match whose players are on their way. `Vacant` is the first such relation: nobody sits where the player of a
match still to be decided will.
-/

namespace CpcJudge
namespace Arena

/-- `P` holds of every match, a match it leads to, and the slot it leads to there. -/
def Joined (P : Match → Match → MatchId × Slot → Prop) (db : Db) : Prop :=
  ∀ m ∈ db.battles.rows, ∀ p ∈ m.targets, ∀ n ∈ db.battles.rows, n.id = p.1 → P m n p

/-- A match rewritten so that `P` still holds between it and others. -/
structure Match.KeepsLinks (P : Match → Match → MatchId × Slot → Prop) (m m' : Match) : Prop where
  static : m'.static = m.static
  sends : ∀ n p, P m n p → P m' n p
  receives : ∀ x p, P x m p → P x m' p

section
variable {P : Match → Match → MatchId × Slot → Prop} {organizer : Bool} {scope : MatchId → Prop} {db db' db1 : Db}
  {m m' : Match} {op : Op}

theorem Match.KeepsLinks.refl (m : Match) : m.KeepsLinks P m := ⟨rfl, fun _ _ h => h, fun _ _ h => h⟩

theorem Joined.maps (h : Joined P db) (hmaps : Table.Maps (Match.KeepsLinks P) db.battles db'.battles) :
    Joined P db' := by
  intro m' hm' p hp n' hn' hid
  obtain ⟨m, hm, _, hmm'⟩ := hmaps.back hm'
  obtain ⟨n, hn, _, hnn'⟩ := hmaps.back hn'
  rw [Match.targets_of_static hmm'.static] at hp
  rw [Match.id_of_static hnn'.static] at hid
  exact hnn'.receives m' p (hmm'.sends n p (h m hm p hp n hn hid))

/-- One match is rewritten. -/
theorem Joined.put (h : Joined P db) (here : db.match? m.id = some m) (hm : m.KeepsLinks P m')
    (battles : db'.battles = db.battles.put m') : Joined P db' := by
  refine h.maps ?_
  rw [battles]
  refine Table.Maps.put (b := m) Match.KeepsLinks.refl ?_ hm
  rw [show Keyed.key m' = m.id from Match.id_of_static hm.static]
  exact here

/-- A new quick battle leads nowhere, and nothing leads to it. -/
theorem Joined.duel (h : Joined P db) (hdb : WellFormed db) (hnext : m.nextMatch = none)
    (hloser : m.loserNextMatch = none) (hfresh : db.nextId ≤ m.id) (battles : db'.battles = db.battles.add m) :
    Joined P db' := by
  intro x hx p hp n hn hid
  rw [battles] at hx hn
  rcases Table.mem_add hx with rfl | hold
  · rw [Match.targets, hnext, hloser] at hp
    cases hp
  · rcases Table.mem_add hn with rfl | hn
    · have hknown := hdb.wired.known x hold p hp
      rw [← hid] at hknown
      exact absurd hknown (not_lt.mpr hfresh)
    · exact h x hold p hp n hn hid

/-- The matches of a new bracket lead to each other. -/
theorem Joined.bracket {d : BracketPlan} (h : Joined P db) (hdb : WellFormed db) (fits : d.Fits)
    (base : d.base = db.nextId) (battles : db'.battles =
      d.allMatches.foldl Table.add (db.battles.filter fun m => m.tournament ≠ some d.tournament.id))
    (hnew : ∀ m n p, m.isOver = false → n.players = .both none → P m n p) : Joined P db' := by
  have hrows : ∀ x ∈ db'.battles.rows, x ∈ db.battles.rows ∨ x ∈ d.allMatches := fun x hx => by
    rcases Table.mem_foldl_add (battles ▸ hx) with hx | hx
    · exact .inl (Table.mem_filter.mp hx).1
    · exact .inr hx
  intro x hx p hp n hn hid
  rcases hrows x hx with hx | hx <;> rcases hrows n hn with hn | hn
  · exact h x hx p hp n hn hid
  · -- a match of before leads to matches of before
    have hknown := hdb.wired.known x hx p hp
    have hlow := (d.id_bounds fits hn).1
    rw [base, hid] at hlow
    exact absurd hknown (not_lt.mpr hlow)
  · have hlow := (d.target_bounds fits hx hp).1
    rw [base, ← hid] at hlow
    exact absurd (hdb.below n hn) (not_lt.mpr hlow)
  · exact hnew x n p (d.mem_fresh fits hx).2.2.2 (d.target_empty fits hx hn hp hid)

/-- A change keeps the links if the rewriting of one match does, and the deciding of one. -/
theorem Joined.change (h : Joined P db) (hdb : WellFormed db)
    (hrow : ∀ m m', RowStep organizer m m' → m.KeepsLinks P m')
    (hnew : ∀ m n p, m.isOver = false → n.players = .both none → P m n p)
    (hdecide : ∀ m m' db1, db.match? m.id = some m → Decides organizer m m' → Saves db m m' db1 →
      Advanced m' db1 db' → Joined P db') (hchange : Change organizer scope db db') : Joined P db' := by
  cases hchange with
  | row here _ step saves => exact h.put here (hrow _ _ step) saves.battles
  | decide here _ step saves advanced => exact hdecide _ _ _ here step saves advanced
  | duel _ next loser _ _ _ fresh _ battles => exact h.duel hdb next loser fresh battles
  | bracket fits _ _ base _ battles => exact h.bracket hdb fits base battles hnew
  | tournament _ _ _ _ battles => exact h.maps (battles ▸ .refl Match.KeepsLinks.refl _)
  | newTournament _ _ _ _ battles => exact h.maps (battles ▸ .refl Match.KeepsLinks.refl _)
  | other battles => exact h.maps (battles ▸ .refl Match.KeepsLinks.refl _)

theorem Joined.empty : Joined P {} := fun _ hm => absurd hm List.not_mem_nil

end

/-! ## A player on their way -/

/-- A match that may have received a player at one slot of one match. -/
structure Match.Seats (q : MatchId × Slot) (m m' : Match) : Prop where
  static : m'.static = m.static
  decided : m'.status = .decided ↔ m.status = .decided
  winner : m'.winnerSlot = m.winnerSlot
  seat : ∀ slot, (m.id, slot) ≠ q → m'.players.get slot = m.players.get slot ∧ m'.seeds.get slot = m.seeds.get slot

section
variable {organizer : Bool} {scope : MatchId → Prop} {db db' db1 : Db} {m m' n : Match} {q : MatchId × Slot}
  {seed : Option ℕ} {p : ProfileId} {target : Option (MatchId × Slot)}

theorem Match.Seats.refl (m : Match) : m.Seats q m := ⟨rfl, Iff.rfl, rfl, fun _ _ => ⟨rfl, rfl⟩⟩

theorem Match.Seats.receive (m : Match) (slot : Slot) (p : ProfileId) (seed : Option ℕ) :
    m.Seats (m.id, slot) (m.receive slot (some p) seed) := by
  obtain ⟨status, heq, hstatus⟩ := m.receive_eq slot (some p) seed
  rw [heq]
  refine ⟨rfl, ?_, rfl, fun s hs => ?_⟩
  · rcases hstatus with rfl | ⟨hpending, rfl⟩ | ⟨hready, rfl⟩
    · exact Iff.rfl
    · simp [hpending]
    · simp [hready]
  · have hne : s ≠ slot := fun heq => hs (by rw [heq])
    exact ⟨Pair.get_set_of_ne _ _ hne, Pair.get_set_of_ne _ _ hne⟩

/-- A player arrives, and nothing else happens. -/
theorem Placed.seats (h : Placed seed db (some q) (some p) db') : Table.Maps (Match.Seats q) db.battles db'.battles := by
  cases h with
  | @placed id n slot p here _ =>
      have hid : n.id = id := Table.key_of_get? here
      refine Table.Maps.put (b := n) Match.Seats.refl ?_ (hid ▸ Match.Seats.receive n slot p seed)
      show db.battles.get? (n.receive slot (some p) seed).id = some n
      rw [Match.id_of_static (n.receive_static slot (some p) seed), hid]
      exact here

/-- The player is where they were sent. -/
theorem Placed.arrives (h : Placed seed db (some q) (some p) db') (hn : n ∈ db'.battles.rows) (hid : n.id = q.1) :
    n.players.get q.2 = some p ∧ n.seeds.get q.2 = seed := by
  cases h with
  | @placed id x slot p here _ =>
      have hx : x.id = id := Table.key_of_get? here
      obtain ⟨status, heq, _⟩ := x.receive_eq slot (some p) seed
      rcases Table.mem_put hn with rfl | ⟨_, hne⟩
      · rw [heq]
        exact ⟨Pair.get_set_self _ _ _, Pair.get_set_self _ _ _⟩
      · refine absurd ?_ hne
        show n.id = (x.receive slot (some p) seed).id
        rw [Match.id_of_static (x.receive_static slot (some p) seed), hx, hid]

/-! ## Slots nobody sits at -/

/-- Nobody sits where a player of a match still to be decided will. -/
def Vacant (m n : Match) (p : MatchId × Slot) : Prop := m.status ≠ .decided → n.players.get p.2 = none

theorem RowStep.vacant (h : RowStep organizer m m') : m.KeepsLinks Vacant m' := by
  have hdecided : m.status = .decided → m'.status = .decided := fun hm =>
    (h.evolves.ended (by simp [Match.isOver, hm])).trans hm
  refine ⟨h.static, fun n p hn hm' => hn fun hm => hm' (hdecided hm), fun x p hx hnot => ?_⟩
  have hplayers : m'.players = m.players := by
    cases h <;> rfl
  rw [hplayers]
  exact hx hnot

theorem Joined.seats (h : Joined Vacant db) (hmaps : Table.Maps (Match.Seats q) db.battles db'.battles)
    (hfed : ∀ x ∈ db.battles.rows, q ∈ x.targets → x.status = .decided) : Joined Vacant db' := by
  intro m' hm' p hp n' hn' hid hnot
  obtain ⟨m, hm, _, hmm'⟩ := hmaps.back hm'
  obtain ⟨n, hn, _, hnn'⟩ := hmaps.back hn'
  rw [Match.targets_of_static hmm'.static] at hp
  rw [Match.id_of_static hnn'.static] at hid
  rw [ne_eq, hmm'.decided] at hnot
  -- the slot a player arrives at is another one: that one was decided
  have hother : (n.id, p.2) ≠ q := fun heq => hnot (hfed m hm (by rwa [← heq, hid]))
  rw [(hnn'.seat p.2 hother).1]
  exact h m hm p hp n hn hid hnot

/-- Nobody arrives, or someone does. -/
theorem Placed.cases {p : Option ProfileId} (h : Placed seed db target p db') :
    db' = db ∨ ∃ q profile, target = some q ∧ p = some profile ∧ Placed seed db (some q) (some profile) db' := by
  cases h with
  | nobody => exact .inl rfl
  | nowhere => exact .inl rfl
  | placed slot profile here unplayed => exact .inr ⟨_, profile, rfl, rfl, .placed slot profile here unplayed⟩

theorem Placed.vacant {p : Option ProfileId} (h : Placed seed db target p db') (hI : Joined Vacant db)
    (hfed : ∀ q, target = some q → ∀ x ∈ db.battles.rows, q ∈ x.targets → x.status = .decided) :
    Joined Vacant db' ∧ (∀ x' ∈ db'.battles.rows, ∃ x ∈ db.battles.rows, x'.targets = x.targets ∧
      (x'.status = .decided ↔ x.status = .decided)) := by
  rcases h.cases with rfl | ⟨q, profile, htarget, _, hplaced⟩
  · exact ⟨hI, fun x hx => ⟨x, hx, rfl, Iff.rfl⟩⟩
  · refine ⟨hI.seats hplaced.seats (hfed q htarget), fun x' hx' => ?_⟩
    obtain ⟨x, hx, _, hxx'⟩ := hplaced.seats.back hx'
    exact ⟨x, hx, Match.targets_of_static hxx'.static, hxx'.decided⟩

/-- The players of a decided match take slots that were kept for them. -/
theorem Advanced.vacant (h : Advanced m db db') (hdb : WellFormed db) (hm : m ∈ db.battles.rows)
    (hdecided : m.status = .decided) (hI : Joined Vacant db) : Joined Vacant db' := by
  have hfed : ∀ q ∈ m.targets, ∀ x ∈ db.battles.rows, q ∈ x.targets → x.status = .decided := fun q hq x hx hqx => by
    rwa [Table.eq_of_key hx hm (hdb.wired.single x hx m hm q hqx hq)]
  cases h with
  | quick => exact hI
  | onward _ _ _ next loser checked =>
      obtain ⟨hI1, hrows⟩ := next.vacant hI fun q hq => hfed q (Match.mem_targets.mpr (.inl hq))
      obtain ⟨hI2, _⟩ := loser.vacant hI1 fun q hq x' hx' hqx => by
        obtain ⟨x, hx, htargets, hstatus⟩ := hrows x' hx'
        rw [htargets] at hqx
        exact hstatus.mpr (hfed q (Match.mem_targets.mpr (.inr hq)) x hx hqx)
      exact hI2.maps (checked.battles ▸ .refl Match.KeepsLinks.refl _)

theorem Joined.vacant_change (hI : Joined Vacant db) (hdb : WellFormed db) (h : Change organizer scope db db') :
    Joined Vacant db' := by
  refine hI.change hdb (fun _ _ step => step.vacant) (fun _ _ p _ hnone _ => ?_)
    (fun m m' db1 here step saves advanced => ?_) h
  · rw [hnone, Pair.get_both]
  · have hstatic : m'.static = m.static := step.static
    have hdecided : m'.status = .decided := by
      cases step <;> rfl
    have hplayers : m'.players = m.players := by
      cases step <;> rfl
    have hkeeps : m.KeepsLinks Vacant m' :=
      ⟨hstatic, fun _ _ _ hnot => absurd hdecided hnot, fun _ _ hx hnot => by rw [hplayers]; exact hx hnot⟩
    have hdb1 : WellFormed db1 := hdb.saves saves here hstatic fun hm => hm.decides step
    have hmem : m' ∈ db1.battles.rows := by
      rw [saves.battles]
      refine Table.mem_of_get? (Table.get?_put_self (b := m) ?_)
      rw [show Keyed.key m' = m.id from Match.id_of_static hstatic]
      exact here
    exact advanced.vacant hdb1 hmem hdecided (hI.put here hkeeps saves.battles)

/-- A match with an empty slot has not been played. -/
theorem Joined.unplayed (hI : Joined Vacant db) (hdb : WellFormed db) (hm : m ∈ db.battles.rows)
    (hgoing : m.status ≠ .decided) (hq : q ∈ m.targets) (hn : n ∈ db.battles.rows) (hid : n.id = q.1) :
    n.started = false := by
  cases hstarted : n.started with
  | false => rfl
  | true =>
      have hready := (hdb.sound n hn).seated hstarted
      have hnone := hI m hm q hq n hn hid hgoing
      rw [Match.ready, Bool.and_eq_true] at hready
      cases hslot : q.2 with
      | a => simp [hslot, Pair.get] at hnone; simp [hnone] at hready
      | b => simp [hslot, Pair.get] at hnone; simp [hnone] at hready

end
end Arena
end CpcJudge
