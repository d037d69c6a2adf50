import CpcJudge.Arena.Recompute

/-!
# `Arena.Current` — the stored ranking along a run

After every operation of a run and its hooks, the stored ranking is the one `compute` gives on the battles there are by
then: the same rows, with the same counts and dates, and floats that `_same` takes for equal. `recompute` does not write
a float that moved less than that, so the two may still differ.
-/

namespace CpcJudge
namespace Arena

section
variable {organizer : Bool} {scope : MatchId → Prop} {db db' db1 : Db} {op : Op} {site : Site}

/-! ## The tournaments that matches name -/

theorem Linked.maps {R : Match → Match → Prop} (h : Linked db) (hnext : db.nextId ≤ db'.nextId)
    (hR : ∀ m m', R m m' → m'.static = m.static) (hmaps : Table.Maps R db.battles db'.battles) : Linked db' := by
  intro m' hm' t ht
  obtain ⟨m, hm, _, hmm'⟩ := hmaps.back hm'
  rw [Match.tournament_of_static (hR m m' hmm')] at ht
  exact lt_of_lt_of_le (h m hm t ht) hnext

theorem Linked.same (h : Linked db) (hnext : db.nextId ≤ db'.nextId) (hbattles : db'.battles = db.battles) :
    Linked db' := fun m hm t ht => lt_of_lt_of_le (h m (hbattles ▸ hm) t ht) hnext

theorem Linked.put {m m' : Match} (h : Linked db) (hnext : db.nextId ≤ db'.nextId) (here : db.match? m.id = some m)
    (hstatic : m'.static = m.static) (hbattles : db'.battles = db.battles.put m') : Linked db' := by
  intro x hx t ht
  rcases Table.mem_put (hbattles ▸ hx) with rfl | ⟨hx, _⟩
  · rw [Match.tournament_of_static hstatic] at ht
    exact lt_of_lt_of_le (h m (Table.mem_of_get? here) t ht) hnext
  · exact lt_of_lt_of_le (h x hx t ht) hnext

theorem Change.linked (hdb : WellFormed db) (hI : Linked db) (h : Change organizer scope db db') : Linked db' := by
  cases h with
  | row here _ step saves => exact hI.put saves.nextId here step.static saves.battles
  | decide here _ step saves advanced =>
      have hsaved := hI.put saves.nextId here step.static saves.battles
      exact hsaved.maps advanced.nextId (fun _ _ h => h.1.static)
        (advanced.maps (Match.Evolves.covers true fun _ => True))
  | duel quick _ _ _ _ _ _ _ battles _ logs =>
      intro x hx t ht
      rcases Table.mem_add (battles ▸ hx) with rfl | hx
      · rw [quick] at ht
        cases ht
      · exact lt_of_lt_of_le (hI x hx t ht) logs.nextId
  | @bracket d t _ fits here _ _ _ battles _ _ logs =>
      intro x hx i hi
      rcases Table.mem_foldl_add (battles ▸ hx) with hx | hx
      · exact lt_of_lt_of_le (hI x (Table.mem_filter.mp hx).1 i hi) logs.nextId
      · rw [(d.mem_fresh fits hx).1] at hi
        cases hi
        have hid : t.id = d.tournament.id := Table.key_of_get? here
        exact hid ▸ lt_of_lt_of_le (hdb.tournaments t (Table.mem_of_get? here)) logs.nextId
  | tournament _ _ _ _ battles _ logs => exact hI.same logs.nextId battles
  | newTournament _ _ _ _ battles _ logs => exact hI.same logs.nextId battles
  | other battles _ logs => exact hI.same logs.nextId battles

theorem Linked.special (hI : Linked db) (h : op.special db db1) : Linked db1 := by
  have hcovers : Covers (Match.Lasts true) true fun _ => True := Match.Lasts.covers
  exact hI.maps (Op.special_nextId h) (fun _ _ h => h.1.static) (Op.special_maps h hcovers Match.Lasts.coversSpecial)

/-! ## One operation -/

/-- An operation that changes the list of battles has the ranking worked out again. -/
theorem Op.recomputes (hdb : WellFormed db) (hlinked : Linked db) (h : battles (op.after site db) ≠ battles db) :
    .recompute ∈ op.hooks site db := by
  unfold Op.after at h
  unfold Op.hooks
  cases hresult : op.result site db with
  | ok a s =>
      simp only [hresult] at h
      exact ((op.heard hdb hlinked).ok _ a s rfl hresult).resolve_left h
  | error e s =>
      simp only [hresult] at h
      exact absurd rfl h

variable (g : Glicko) {stored : DuelRanking}

theorem closeTo_self (x : ℚ) : closeTo x x = true := by simp [closeTo]

theorem Rating.same_self (r : Rating) : r.same r = true := by
  simp [Rating.same, Strength.closeTo, closeTo_self]

theorem RatingChange.same_self (r : RatingChange) : r.same r = true := by
  simp [RatingChange.same, Strength.closeTo, closeTo_self]

theorem Glicko.check_recompute : g.check db (g.recompute db stored) = 0 := by
  simp only [Glicko.check, Glicko.recompute, Table.differences_sync Rating.same_self,
    Table.differences_sync RatingChange.same_self]

theorem Glicko.check_congr (h : battles db' = battles db) : g.check db' stored = g.check db stored := by
  rw [Glicko.check, Glicko.check, h]

/-- The hooks leave the ranking up to date if it was, or if one of them works it out again. -/
theorem Glicko.check_hooks {hooks : List Hook} (h : g.check db stored = 0 ∨ .recompute ∈ hooks) :
    g.check db (hooks.foldl (g.runHook db) stored) = 0 := by
  induction hooks generalizing stored with
  | nil => exact h.resolve_right List.not_mem_nil
  | cons hook hooks ih =>
      refine ih ?_
      cases hook with
      | refreshLock => exact h.imp_right fun hmem => by simpa using hmem
      | recompute => exact .inl g.check_recompute

end

/-! ## Every run -/

/-- The invariant of a run with its hooks. -/
structure Rated.Sound (g : Glicko) (r : Rated) : Prop where
  wellFormed : WellFormed r.db
  linked : Linked r.db
  current : g.check r.db r.stored = 0

theorem Rated.Sound.step {g : Glicko} {r : Rated} (h : r.Sound g) (site : Site) (op : Op) : (r.step g site op).Sound g := by
  have hkept : WellFormed (op.after site r.db) ∧ Linked (op.after site r.db) :=
    Op.keeps h.wellFormed h.linked (fun _ hop => h.linked.special hop) fun hdb hI hchange => hchange.linked hdb hI
  have hchanged : battles (op.after site r.db) ≠ battles r.db → .recompute ∈ op.hooks site r.db :=
    Op.recomputes h.wellFormed h.linked
  unfold Op.after at hkept hchanged
  unfold Op.hooks at hchanged
  unfold Rated.step
  cases hresult : op.result site r.db with
  | error e s => exact h
  | ok a s =>
      simp only [hresult] at hkept hchanged ⊢
      refine ⟨hkept.1, hkept.2, g.check_hooks ?_⟩
      by_cases hsame : battles s.db = battles r.db
      · exact .inl ((g.check_congr hsame).trans h.current)
      · exact .inr (hchanged hsame)

theorem Rated.Sound.play (g : Glicko) (steps : List (Site × Op)) : (Rated.play g steps).Sound g := by
  have hempty : ({} : Rated).Sound g := ⟨.empty, fun _ hm => absurd hm List.not_mem_nil, rfl⟩
  unfold Rated.play
  generalize ({} : Rated) = r at hempty
  induction steps generalizing r with
  | nil => exact hempty
  | cons step steps ih => exact ih _ (hempty.step step.1 step.2)

/-- Two floats that `_same` takes for equal. -/
def Near (old new : ℚ) : Prop := |old - new| ≤ 1 / 10 ^ 7

/-- A stored rating and the computed one of the same player. -/
structure Rating.Agrees (stored computed : Rating) : Prop where
  rating : Near stored.strength.rating computed.strength.rating
  deviation : Near stored.strength.deviation computed.strength.deviation
  volatility : Near stored.strength.volatility computed.strength.volatility
  counts : (stored.games, stored.wins, stored.battles) = (computed.games, computed.wins, computed.battles)
  lastPlayed : stored.lastPlayed = computed.lastPlayed

/-- A stored change and the computed one of the same player in the same battle. -/
structure RatingChange.Agrees (stored computed : RatingChange) : Prop where
  time : stored.time = computed.time
  before : Near stored.ratingBefore computed.ratingBefore
  rating : Near stored.after.rating computed.after.rating
  deviation : Near stored.after.deviation computed.after.deviation
  volatility : Near stored.after.volatility computed.after.volatility
  counts : (stored.games, stored.wins, stored.gamesTotal) = (computed.games, computed.wins, computed.gamesTotal)

theorem Rating.agrees_of_same {s c : Rating} (h : s.same c = true) : s.Agrees c := by
  simp only [Rating.same, Strength.closeTo, closeTo, Bool.and_eq_true, decide_eq_true_eq] at h
  obtain ⟨⟨⟨⟨⟨⟨hrating, hdeviation⟩, hvolatility⟩, hgames⟩, hwins⟩, hbattles⟩, hlast⟩ := h
  exact ⟨hrating, hdeviation, hvolatility, by rw [hgames, hwins, hbattles], hlast⟩

theorem RatingChange.agrees_of_same {s c : RatingChange} (h : s.same c = true) : s.Agrees c := by
  simp only [RatingChange.same, Strength.closeTo, closeTo, Bool.and_eq_true, decide_eq_true_eq] at h
  obtain ⟨⟨⟨⟨⟨htime, hbefore⟩, ⟨hrating, hdeviation⟩, hvolatility⟩, hgames⟩, hwins⟩, htotal⟩ := h
  exact ⟨htime, hbefore, hrating, hdeviation, hvolatility, by rw [hgames, hwins, htotal]⟩

theorem rel_of_differences {α : Type} [Keyed α] {same : α → α → Bool} {Agrees : α → α → Prop} {stored computed : Table α}
    (hsame : ∀ s c, same s c = true → Agrees s c) (h : Table.differences same stored computed = 0) (i : ℕ) :
    Option.Rel Agrees (stored.get? i) (computed.get? i) := by
  have hrel := Table.differences_eq_zero.mp h i
  generalize stored.get? i = s, computed.get? i = c at hrel ⊢
  cases hrel with
  | some hrel => exact .some (hsame _ _ hrel)
  | none => exact .none

/-- After every operation of a run and its hooks, the stored ranking has the rows that `compute` gives on the battles
    there are, with the same counts and dates and floats no further apart than `1e-7`; and an operation that changes
    the list of battles leaves `recompute` for after its commit. -/
theorem ranking_current (g : Glicko) (steps : List (Site × Op)) :
    (∀ profile, Option.Rel Rating.Agrees ((Rated.play g steps).stored.ratings.get? profile)
        ((g.compute (battles (Rated.play g steps).db)).ratings.get? profile)) ∧
      (∀ key, Option.Rel RatingChange.Agrees ((Rated.play g steps).stored.changes.get? key)
        ((g.compute (battles (Rated.play g steps).db)).changes.get? key)) ∧
      g.check (Rated.play g steps).db (Rated.play g steps).stored = 0 ∧
      ∀ site op, battles (Op.after site op (Rated.play g steps).db) ≠ battles (Rated.play g steps).db →
        .recompute ∈ Op.hooks site op (Rated.play g steps).db := by
  have hsound := Rated.Sound.play g steps
  obtain ⟨hratings, hchanges⟩ := Nat.add_eq_zero_iff.mp hsound.current
  refine ⟨fun profile => ?_, fun key => ?_, hsound.current, fun site op hne => ?_⟩
  · exact rel_of_differences (fun _ _ => Rating.agrees_of_same) hratings profile
  · exact rel_of_differences (fun _ _ => RatingChange.agrees_of_same) hchanges key
  · exact Op.recomputes hsound.wellFormed hsound.linked hne

/-- Formulas that move a rating by next to nothing. -/
def faintGlicko : Glicko where
  rate before results := { before with rating := before.rating + (results.map (·.1)).sum / 10 ^ 20 }
  grownDeviation deviation _ _ := deviation

/-- A quick battle that counts, its only game won by its first player. -/
def wonDuel (players : Pair (Option ProfileId)) (id : MatchId) (problem : ProblemId) : List Op :=
  [.organize 9 (.createDuel players [[{ id := problem }]] 1 {} (.both "") "" false .counts),
    .organize 9 (.onMatch id none (.start none true)),
    .organize 9 (.onMatch id none (.declare (id + 1) .a))]

/-- Two battles that count and share a player, and then the first of them left out. -/
def leftOut : List (Site × Op) :=
  (wonDuel ⟨some 1, some 2⟩ 1 7 ++ wonDuel ⟨some 3, some 1⟩ 4 8 ++
    [Op.organize 9 (.setMatchRanking 1 .excluded)]).map fun op => (({ now := 0 } : Site), op)

/-- The rating of a player whose rival lost a battle of theirs moves too little to be written. -/
theorem rating_behind : ∃ g steps profile, (Rated.play g steps).stored.ratings.get? profile ≠
    (g.compute (battles (Rated.play g steps).db)).ratings.get? profile := by
  refine ⟨faintGlicko, leftOut, 3, ?_⟩
  decide +kernel

end Arena
end CpcJudge
