import Mathlib.Data.List.Basic
import Mathlib.Tactic

/-!
# `Lib.Dict` — a dictionary as the list of its items

The items stand in the order in which their keys were first set, and a key that is set again keeps its place.
-/

namespace CpcJudge
namespace Dict

variable {ι κ α : Type*} [DecidableEq κ]

def set (d : List (κ × α)) (k : κ) (v : α) : List (κ × α) :=
  if d.any (·.1 = k) then d.map fun item => if item.1 = k then (k, v) else item else d ++ [(k, v)]

/-- The dictionary that a loop over `l` makes, when it sets the key of every item. -/
def ofList (key : α → κ) (l : List α) : List (κ × α) := l.foldl (fun d x => set d (key x) x) []

variable {d : List (κ × α)} {k k' : κ} {v v' : α} {key : α → κ} {l : List α} {x : α}

theorem mem_set : (k', v') ∈ set d k v ↔ k' = k ∧ v' = v ∨ k' ≠ k ∧ (k', v') ∈ d := by
  rw [set]
  split
  next hany =>
    obtain ⟨⟨first, old⟩, hold, hkey⟩ := List.any_eq_true.mp hany
    obtain rfl : first = k := of_decide_eq_true hkey
    rw [List.mem_map]
    constructor
    · rintro ⟨item, hitem, heq⟩
      split at heq
      next => exact .inl ⟨(Prod.ext_iff.mp heq).1.symm, (Prod.ext_iff.mp heq).2.symm⟩
      next hne =>
        subst heq
        exact .inr ⟨hne, hitem⟩
    · rintro (⟨rfl, rfl⟩ | ⟨hne, hmem⟩)
      · exact ⟨_, hold, if_pos rfl⟩
      · exact ⟨_, hmem, if_neg hne⟩
  next hany =>
    have hnew : ∀ item ∈ d, item.1 ≠ k := fun item hitem heq =>
      hany (List.any_eq_true.mpr ⟨item, hitem, decide_eq_true heq⟩)
    rw [List.mem_append, List.mem_singleton, Prod.mk.injEq, or_comm]
    refine or_congr_right ⟨fun hmem => ⟨hnew _ hmem, hmem⟩, And.right⟩

/-- A key holds the last of its items. -/
theorem mem_ofList : (k, x) ∈ ofList key l ↔ (l.filter (key · = k)).getLast? = some x := by
  induction l using List.reverseRecOn with
  | nil => simp [ofList]
  | append_singleton l y ih =>
      rw [ofList, List.foldl_append, List.foldl_cons, List.foldl_nil, mem_set, ← ofList, List.filter_append, ih]
      by_cases hkey : k = key y
      · simp [hkey, eq_comm]
      · simp [hkey, Ne.symm hkey]

/-! ## Lists under the keys -/

theorem keys_set : (set d k v).map Prod.fst = if k ∈ d.map Prod.fst then d.map Prod.fst else d.map Prod.fst ++ [k] := by
  have hany : (d.any (·.1 = k)) = true ↔ k ∈ d.map Prod.fst := by simp
  rw [set]
  by_cases h : k ∈ d.map Prod.fst
  · rw [if_pos (hany.mpr h), if_pos h, List.map_map]
    refine List.map_congr_left fun item _ => ?_
    by_cases hk : item.1 = k <;> simp [hk]
  · rw [if_neg (mt hany.mp h), if_neg h, List.map_append]
    rfl

theorem nodup_set (h : (d.map Prod.fst).Nodup) : ((set d k v).map Prod.fst).Nodup := by
  rw [keys_set]
  split
  next => exact h
  next hnew => exact List.nodup_append'.mpr ⟨h, List.nodup_singleton _, by simpa using hnew⟩

theorem find?_eq_some (hnodup : (d.map Prod.fst).Nodup) : d.find? (·.1 = k) = some (k, v) ↔ (k, v) ∈ d := by
  refine ⟨List.mem_of_find?_eq_some, fun hmem => ?_⟩
  cases hfind : d.find? (·.1 = k) with
  | none =>
      have hne := List.find?_eq_none.mp hfind _ hmem
      simp at hne
  | some item =>
      have hkey : item.1 = k := by simpa using List.find?_some hfind
      rw [List.inj_on_of_nodup_map hnodup (List.mem_of_find?_eq_some hfind) hmem hkey]

/-- What a key holds after it is set. -/
theorem find?_set : (set d k v).find? (·.1 = k') = if k = k' then some (k, v) else d.find? (·.1 = k') := by
  rw [set]
  split
  next hany =>
    have hkeys : ((fun item : κ × α => decide (item.1 = k')) ∘ fun item => if item.1 = k then (k, v) else item) =
        fun item => decide (item.1 = k') := by
      funext item
      by_cases hitem : item.1 = k <;> simp [hitem]
    rw [List.find?_map, hkeys]
    cases hfind : d.find? (·.1 = k') with
    | none =>
        obtain ⟨item, hitem, hkey⟩ := List.any_eq_true.mp hany
        have hne : k ≠ k' := fun heq => by
          have hnot := List.find?_eq_none.mp hfind item hitem
          rw [← heq] at hnot
          exact hnot hkey
        rw [if_neg hne]
        rfl
    | some item =>
        have hkey : item.1 = k' := by simpa using List.find?_some hfind
        by_cases hk : k = k'
        · simp [hk, hkey]
        · simp [hk, hkey, Ne.symm hk]
  next hany =>
    have hnew : d.find? (·.1 = k) = none := List.find?_eq_none.mpr fun item hitem heq =>
      hany (List.any_eq_true.mpr ⟨item, hitem, heq⟩)
    rw [List.find?_append]
    by_cases hk : k = k'
    · subst hk
      simp [hnew]
    · simp [hk]

/-- `setdefault(k, []).append(x)`. -/
def push (d : List (κ × List α)) (k : κ) (x : α) : List (κ × List α) :=
  set d k (((d.find? (·.1 = k)).map (·.2)).getD [] ++ [x])

/-- The items of a list, under the key of each. -/
def groupBy (key : α → κ) (l : List α) : List (κ × List α) := l.foldl (fun d x => push d (key x) x) []

theorem groupBy_append : groupBy key (l ++ [x]) = push (groupBy key l) (key x) x := by
  rw [groupBy, List.foldl_append]
  rfl

theorem nodup_groupBy : ((groupBy key l).map Prod.fst).Nodup := by
  induction l using List.reverseRecOn with
  | nil => exact List.nodup_nil
  | append_singleton l y ih =>
      rw [groupBy_append]
      exact nodup_set ih

/-- A group has the items of its key, in their order. -/
theorem mem_groupBy {xs : List α} : (k, xs) ∈ groupBy key l ↔ xs = l.filter (key · = k) ∧ xs ≠ [] := by
  induction l using List.reverseRecOn generalizing k xs with
  | nil => simp [groupBy]
  | append_singleton l y ih =>
      have hitems : (((groupBy key l).find? (·.1 = key y)).map (·.2)).getD [] = l.filter (key · = key y) := by
        by_cases hnone : l.filter (key · = key y) = []
        · rw [hnone]
          cases hfind : (groupBy key l).find? (·.1 = key y) with
          | none => rfl
          | some item =>
              have hkey : item.1 = key y := by simpa using List.find?_some hfind
              obtain ⟨hitem, hne⟩ := ih.mp (show (item.1, item.2) ∈ _ from List.mem_of_find?_eq_some hfind)
              rw [hkey] at hitem
              exact absurd (hitem.trans hnone) hne
        · rw [(find?_eq_some nodup_groupBy).mpr (ih.mpr ⟨rfl, hnone⟩)]
          rfl
      rw [groupBy_append, push, hitems, mem_set, ih, List.filter_append]
      by_cases hkey : key y = k
      · subst hkey
        simp only [decide_true, List.filter_cons_of_pos, List.filter_nil, ne_eq, not_true_eq_false, false_and, or_false,
          true_and]
        refine (and_iff_left_of_imp fun h => ?_).symm
        rw [h]
        exact List.append_ne_nil_of_right_ne_nil _ (List.cons_ne_nil _ _)
      · simp [hkey, Ne.symm hkey]

/-- A group can be set apart. -/
theorem groupBy_perm (h : l.filter (key · = k) ≠ []) :
    (groupBy key l).Perm ((k, l.filter (key · = k)) :: groupBy key (l.filter (key · ≠ k))) := by
  refine (List.perm_ext_iff_of_nodup (nodup_groupBy.of_map _) ?_).mpr fun ⟨k', xs⟩ => ?_
  · refine List.nodup_cons.mpr ⟨fun hmem => h ?_, nodup_groupBy.of_map _⟩
    rw [(mem_groupBy.mp hmem).1, List.filter_filter, List.filter_eq_nil_iff]
    simp
  · rw [List.mem_cons, mem_groupBy, mem_groupBy, List.filter_filter, Prod.mk.injEq]
    by_cases hkey : k' = k
    · subst hkey
      simp +contextual [h]
    · have hsame : (l.filter fun x => decide (key x = k') && decide (key x ≠ k)) = l.filter (key · = k') := by
        refine List.filter_congr fun x _ => ?_
        by_cases hx : key x = k' <;> simp [hx, hkey]
      rw [hsame]
      simp [hkey]

end Dict
end CpcJudge
