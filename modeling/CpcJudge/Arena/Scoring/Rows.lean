import CpcJudge.Arena.Scoring.Cases

/-!
# `Scoring.Rows` — the events of one problem, read off the attempts

`_judged_events`, `worst_case` and `best_case` list the judged attempts first, then the pending ones, then
what may still come. On one problem that is a permutation of one event for each attempt, in the order of
the attempts (`row_perm`, `judgedEvents_row`). From here on only these rows are
compared, with the lemmas of `Scoring.Cases`.
-/

namespace CpcJudge
namespace Arena
namespace Scoring

open Decimal FirstBest

/-- The attempts on one problem. -/
def onProblem (attempts : List Attempt) (key : ℕ) : List Attempt := attempts.filter (·.problem = key)

/-- What the worst case takes an attempt for. -/
def worstEvent (partialPoints : Bool) (full : ℕ) (a : Attempt) : Event :=
  if a.pending then pendingEvent 0 true a else judgedEvent partialPoints full a

/-- What the best case takes an attempt for. -/
def bestEvent (partialPoints : Bool) (full : ℕ) (a : Attempt) : Event :=
  if a.pending then pendingEvent full false a else judgedEvent partialPoints full a

/-- The place of an attempt. -/
def Attempt.place (a : Attempt) : Order := toLex (a.date, (a.id : WithTop ℕ))

section
variable {partialPoints : Bool} {full : ℕ} {a : Attempt}

@[simp] theorem judgedEvent_order : (judgedEvent partialPoints full a).order = a.place := rfl

@[simp] theorem worstEvent_order : (worstEvent partialPoints full a).order = a.place := by
  unfold worstEvent; split <;> rfl

@[simp] theorem bestEvent_order : (bestEvent partialPoints full a).order = a.place := by
  unfold bestEvent; split <;> rfl

@[simp] theorem judgedEvent_problem : (judgedEvent partialPoints full a).problem = a.problem := rfl

@[simp] theorem worstEvent_problem : (worstEvent partialPoints full a).problem = a.problem := by
  unfold worstEvent; split <;> rfl

@[simp] theorem bestEvent_problem : (bestEvent partialPoints full a).problem = a.problem := by
  unfold bestEvent; split <;> rfl

@[simp] theorem judgedEvent_points :
    (judgedEvent partialPoints full a).points = pointsOf a full partialPoints := rfl

theorem judgedEvent_dated : (judgedEvent partialPoints full a).Dated := rfl

theorem worstEvent_dated : (worstEvent partialPoints full a).Dated := by
  unfold worstEvent; split <;> rfl

theorem bestEvent_dated : (bestEvent partialPoints full a).Dated := by
  unfold bestEvent; split <;> rfl

theorem worstEvent_rounded : Rounded (worstEvent partialPoints full a).points := by
  unfold worstEvent
  split
  · exact onGrid_zero
  · exact pointsOf_rounded _ _ _

theorem bestEvent_rounded : Rounded (bestEvent partialPoints full a).points := by
  unfold bestEvent
  split
  · exact onGrid_natCast (by norm_num) _
  · exact pointsOf_rounded _ _ _

theorem bestEvent_le : (bestEvent partialPoints full a).points ≤ full := by
  unfold bestEvent
  split
  · exact le_rfl
  · exact pointsOf_le _ _ _

theorem worstEvent_le_bestEvent :
    (worstEvent partialPoints full a).points ≤ (bestEvent partialPoints full a).points := by
  unfold worstEvent bestEvent
  split
  · exact Nat.cast_nonneg _
  · exact le_rfl

/-- What is a failed attempt in the best case is one in the worst. -/
theorem worstEvent_penalizable_of_best (h : (bestEvent partialPoints full a).penalizable = true) :
    (worstEvent partialPoints full a).penalizable = true := by
  unfold worstEvent
  unfold bestEvent at h
  split
  · rfl
  · rename_i hp
    rwa [if_neg hp] at h

end

theorem place_injOn {attempts : List Attempt} (h : (attempts.map (·.id)).Nodup) :
    (attempts.map Attempt.place).Nodup := by
  refine (List.nodup_map_iff_inj_on (List.Nodup.of_map _ h)).mpr fun x hx y hy hxy => ?_
  have hid : (x.id : WithTop ℕ) = y.id := congrArg (fun o : Order => (ofLex o).2) hxy
  exact List.inj_on_of_nodup_map h hx hy (by exact_mod_cast hid)

/-! ## One problem at a time -/

theorem lookup_of_mem {problems : List (ℕ × ℕ)} {key full : ℕ} (hkeys : (problems.map Prod.fst).Nodup)
    (hmem : (key, full) ∈ problems) : problems.lookup key = some full := by
  induction problems with
  | nil => cases hmem
  | cons item problems ih =>
      rw [List.map_cons, List.nodup_cons] at hkeys
      rw [List.lookup_cons]
      rcases List.mem_cons.mp hmem with rfl | hmem
      · simp
      · have hne : key ≠ item.1 := fun h => hkeys.1 (h ▸ List.mem_map_of_mem (f := Prod.fst) hmem)
        rw [beq_eq_false_iff_ne.mpr hne]
        exact ih hkeys.2 hmem

section
variable {problems : List (ℕ × ℕ)} {key full : ℕ} (hlookup : problems.lookup key = some full)
include hlookup

/-- The events kept for a problem are those of the attempts on it. -/
theorem rowEvents_filterMap (kept : Attempt → Bool) (event : ℕ → Attempt → Event)
    (hevent : ∀ n a, (event n a).problem = a.problem) (attempts : List Attempt) :
    rowEvents (attempts.filterMap fun a =>
        if kept a then (problems.lookup a.problem).map fun n => event n a else none) key =
      ((onProblem attempts key).filter kept).map (event full) := by
  induction attempts with
  | nil => rfl
  | cons a attempts ih =>
      unfold rowEvents onProblem at ih ⊢
      rw [List.filterMap_cons, List.filter_cons]
      by_cases hkey : a.problem = key
      · by_cases hkept : kept a = true
        · simp [hkey, hkept, hlookup, hevent, ih]
        · simp [hkey, hkept, ih]
      · by_cases hkept : kept a = true
        · cases hn : problems.lookup a.problem with
          | none => simp [hkey, hkept, ih]
          | some n => simp [hkey, hkept, hevent, ih]
        · simp [hkey, hkept, ih]

theorem judgedEvents_row (partialPoints : Bool) (attempts : List Attempt) :
    rowEvents (judgedEvents attempts problems partialPoints) key =
      ((onProblem attempts key).filter (!·.pending)).map (judgedEvent partialPoints full) := by
  rw [← rowEvents_filterMap hlookup (!·.pending) (judgedEvent partialPoints) fun _ _ => rfl]
  unfold judgedEvents
  congr 2
  funext a
  cases a.pending <;> rfl

/-- Reading the pending attempts after the judged ones only permutes the events of the attempts. -/
theorem row_perm (partialPoints : Bool) (event : ℕ → Attempt → Event)
    (hevent : ∀ n a, (event n a).problem = a.problem) (attempts : List Attempt) :
    (rowEvents (judgedEvents attempts problems partialPoints ++
        attempts.filterMap fun a =>
          if a.pending then (problems.lookup a.problem).map fun n => event n a else none) key).Perm
      ((onProblem attempts key).map fun a =>
        if a.pending then event full a else judgedEvent partialPoints full a) := by
  have hpending := rowEvents_filterMap hlookup (·.pending) event hevent attempts
  unfold rowEvents at hpending ⊢
  rw [List.filter_append, hpending]
  rw [← rowEvents, judgedEvents_row hlookup]
  set l := onProblem attempts key
  have hleft : (l.filter (!·.pending)).map (judgedEvent partialPoints full) =
      (l.filter (!·.pending)).map fun a =>
        if a.pending then event full a else judgedEvent partialPoints full a :=
    List.map_congr_left fun a ha => by
      have := (List.mem_filter.mp ha).2
      simp only [Bool.not_eq_true'] at this
      simp [this]
  have hright : (l.filter (·.pending)).map (event full) =
      (l.filter (·.pending)).map fun a =>
        if a.pending then event full a else judgedEvent partialPoints full a :=
    List.map_congr_left fun a ha => by simp [(List.mem_filter.mp ha).2]
  rw [hleft, hright, ← List.map_append]
  exact (List.perm_append_comm.trans (List.filter_append_perm _ l)).map _

end

section
variable {problems : List (ℕ × ℕ)} {key full : ℕ} (hkeys : (problems.map Prod.fst).Nodup)
  (hmem : (key, full) ∈ problems)
include hkeys hmem

/-- What is built from each item of a dictionary and tagged with its key: the part of one key. -/
theorem filter_filterMap_keys {α : Type*} {build : ℕ × ℕ → Option α} {tag : α → ℕ}
    (htag : ∀ item, ∀ x ∈ build item, tag x = item.1) :
    (problems.filterMap build).filter (tag · = key) = (build (key, full)).toList := by
  have hother : ∀ l : List (ℕ × ℕ), key ∉ l.map Prod.fst →
      (l.filterMap build).filter (tag · = key) = [] := by
    intro l hl
    refine List.filter_eq_nil_iff.mpr fun x hx => ?_
    obtain ⟨item, hitem, hbuild⟩ := List.mem_filterMap.mp hx
    have hkey := htag item x hbuild
    simp only [decide_eq_true_eq]
    rintro rfl
    exact hl (hkey ▸ List.mem_map_of_mem (f := Prod.fst) hitem)
  induction problems with
  | nil => cases hmem
  | cons item problems ih =>
      rw [List.map_cons, List.nodup_cons] at hkeys
      rcases List.mem_cons.mp hmem with rfl | hmem
      · have hrest := hother problems hkeys.1
        cases hbuild : build (key, full) with
        | none => rw [List.filterMap_cons_none hbuild]; exact hrest
        | some x =>
            rw [List.filterMap_cons_some hbuild, List.filter_cons_of_pos, hrest]
            · rfl
            · simpa using htag _ x hbuild
      · have hne : item.1 ≠ key := fun h => hkeys.1 (h ▸ List.mem_map_of_mem (f := Prod.fst) hmem)
        have hrest := ih hkeys.2 hmem
        cases hbuild : build item with
        | none => rw [List.filterMap_cons_none hbuild]; exact hrest
        | some x =>
            rw [List.filterMap_cons_some hbuild, List.filter_cons_of_neg, hrest]
            simp [htag item x hbuild, hne]

end

theorem futureEvent_eq_some {attempts : List Attempt} {events : List Event} {maxAttempts : ℕ}
    {moment : Time} {key full : ℕ} {e : Event}
    (h : futureEvent attempts events maxAttempts moment key full = some e) :
    e = { problem := key, date := moment, order := toLex (moment, ⊤), points := full,
          penalizable := false } := by
  unfold futureEvent at h
  simp only at h
  split at h
  · exact (Option.some.inj h).symm
  · cases h

end Scoring
end Arena
end CpcJudge
