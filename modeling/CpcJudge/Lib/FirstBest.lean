import Mathlib.Data.List.Sort
import Mathlib.Data.Prod.Lex
import Mathlib.Tactic

/-!
# `Lib.FirstBest` — the earliest of the best items of a list

A list of items with a value and a place in an order (a date, a serial number). Sorting the list by place
and taking the first item whose value is the greatest gives *the first best*; the items before it are
those with a smaller place. Both facts are stated without the sort, so that two lists can be compared
item by item.
-/

namespace CpcJudge
namespace FirstBest

variable {α β κ : Type*} [LinearOrder κ] [LinearOrder β]

/-- `e` has the greatest value of `l`, and the smallest place among those who have it. -/
structure IsFirstBest (value : α → β) (place : α → κ) (l : List α) (e : α) : Prop where
  mem : e ∈ l
  best : ∀ x ∈ l, value x ≤ value e
  first : ∀ x ∈ l, value x = value e → place e ≤ place x

variable {value : α → β} {place : α → κ} {l l' : List α} {e e' : α}

theorem IsFirstBest.perm (h : IsFirstBest value place l e) (hp : l.Perm l') :
    IsFirstBest value place l' e where
  mem := hp.mem_iff.mp h.mem
  best x hx := h.best x (hp.mem_iff.mpr hx)
  first x hx := h.first x (hp.mem_iff.mpr hx)

/-- Two first bests of one list have the same value and the same place. -/
theorem IsFirstBest.value_eq (h : IsFirstBest value place l e) (h' : IsFirstBest value place l e') :
    value e = value e' :=
  le_antisymm (h'.best e h.mem) (h.best e' h'.mem)

theorem IsFirstBest.place_eq (h : IsFirstBest value place l e) (h' : IsFirstBest value place l e') :
    place e = place e' :=
  le_antisymm (h.first e' h'.mem (h'.value_eq h)) (h'.first e h.mem (h.value_eq h'))

/-! ## Reading the first best off a sorted list -/

/-- In a list sorted by place, the first item with the greatest value is the first best. -/
theorem isFirstBest_getElem {i : ℕ} (hl : l.Pairwise (place · ≤ place ·)) (he : l[i]? = some e)
    (hbest : ∀ x ∈ l, value x ≤ value e) (hbefore : ∀ x ∈ l.take i, value x < value e) :
    IsFirstBest value place l e := by
  obtain ⟨hlt, hget⟩ := List.getElem?_eq_some_iff.mp he
  refine ⟨hget ▸ List.getElem_mem hlt, hbest, fun x hx hvx => ?_⟩
  obtain ⟨j, hj, rfl⟩ := List.getElem_of_mem hx
  have hij : i ≤ j := by
    by_contra hji
    have hmem : l[j] ∈ l.take i := List.mem_take_iff_getElem.mpr ⟨j, by omega, rfl⟩
    exact absurd hvx (hbefore _ hmem).ne
  rcases hij.lt_or_eq with h | h
  · exact hget ▸ (List.pairwise_iff_getElem.mp hl) i j hlt hj h
  · subst h; rw [hget]

/-- In a list strictly sorted by place, the items before `e` are those of smaller place. -/
theorem countP_take_eq {i : ℕ} (hl : l.Pairwise (place · < place ·)) (he : l[i]? = some e)
    (q : α → Bool) :
    (l.take i).countP q = l.countP fun x => decide (place x < place e) && q x := by
  obtain ⟨hlt, hget⟩ := List.getElem?_eq_some_iff.mp he
  have hsplit : l = l.take i ++ l.drop i := (List.take_append_drop i l).symm
  have hsorted := List.pairwise_iff_getElem.mp hl
  have hbefore : ∀ x ∈ l.take i, place x < place e := by
    intro x hx
    obtain ⟨j, hj, rfl⟩ := List.getElem_of_mem hx
    rw [List.length_take] at hj
    rw [List.getElem_take, ← hget]
    exact hsorted j i (by omega) hlt (by omega)
  have hafter : ∀ x ∈ l.drop i, ¬ place x < place e := by
    intro x hx
    obtain ⟨j, hj, rfl⟩ := List.getElem_of_mem hx
    rw [List.length_drop] at hj
    rw [List.getElem_drop, ← hget, not_lt]
    rcases Nat.eq_zero_or_pos j with rfl | hpos
    · simp
    · exact (hsorted i (i + j) hlt (by omega) (by omega)).le
  conv_rhs => rw [hsplit, List.countP_append]
  have hzero : (l.drop i).countP (fun x => decide (place x < place e) && q x) = 0 := by
    rw [List.countP_eq_zero]
    intro x hx
    simp [hafter x hx]
  rw [hzero, Nat.add_zero]
  refine List.countP_congr fun x hx => ?_
  simp [hbefore x hx]

/-! ## Sorting -/

theorem pairwise_le_insertionSort (l : List α) :
    (l.insertionSort (place · ≤ place ·)).Pairwise (place · ≤ place ·) := by
  have : Std.Total (fun x y : α => place x ≤ place y) := ⟨fun x y => le_total _ _⟩
  have : IsTrans α (fun x y : α => place x ≤ place y) := ⟨fun x y z => le_trans⟩
  exact List.pairwise_insertionSort _ l

/-- With distinct places the sorted list is strictly sorted. -/
theorem pairwise_lt_insertionSort (h : (l.map place).Nodup) :
    (l.insertionSort (place · ≤ place ·)).Pairwise (place · < place ·) := by
  have hnd : ((l.insertionSort (place · ≤ place ·)).map place).Nodup :=
    ((List.perm_insertionSort _ l).map place).nodup_iff.mpr h
  have hne : (l.insertionSort (place · ≤ place ·)).Pairwise (place · ≠ place ·) :=
    List.pairwise_map.mp hnd
  exact ((pairwise_le_insertionSort l).and hne).imp fun ⟨hle, hne⟩ => lt_of_le_of_ne hle hne

theorem filter_orderedInsert (p : α → Bool) (a : α) (hl : l.Pairwise (place · ≤ place ·)) :
    (l.orderedInsert (place · ≤ place ·) a).filter p =
      if p a then (l.filter p).orderedInsert (place · ≤ place ·) a else l.filter p := by
  induction l with
  | nil => by_cases hp : p a = true <;> simp [hp]
  | cons b l ih =>
      rw [List.pairwise_cons] at hl
      have ih := ih hl.2
      by_cases hab : place a ≤ place b
      · rw [List.orderedInsert_cons, if_pos hab]
        by_cases hp : p a = true
        · rw [if_pos hp, List.filter_cons_of_pos hp]
          -- everything kept comes at `b` or later, so `a` goes first
          have hfirst : ∀ c ∈ (b :: l).filter p, place a ≤ place c := by
            intro c hc
            rcases List.mem_cons.mp (List.mem_of_mem_filter hc) with rfl | hc
            · exact hab
            · exact hab.trans (hl.1 c hc)
          cases hrest : (b :: l).filter p with
          | nil => rfl
          | cons c rest =>
              rw [List.orderedInsert_cons, if_pos (hfirst c (hrest ▸ List.mem_cons_self))]
        · rw [if_neg hp, List.filter_cons_of_neg hp]
      · rw [List.orderedInsert_cons, if_neg hab]
        by_cases hb : p b = true
        · rw [List.filter_cons_of_pos hb, List.filter_cons_of_pos hb, ih]
          split
          · rw [List.orderedInsert_cons, if_neg hab]
          · rfl
        · rw [List.filter_cons_of_neg hb, List.filter_cons_of_neg hb, ih]

/-- Sorting keeps the order of equals, so what is kept of a sorted list is the sorted list of what is
    kept. -/
theorem filter_insertionSort (p : α → Bool) (l : List α) :
    (l.insertionSort (place · ≤ place ·)).filter p = (l.filter p).insertionSort (place · ≤ place ·) := by
  induction l with
  | nil => rfl
  | cons a l ih =>
      rw [List.insertionSort_cons, filter_orderedInsert p a (pairwise_le_insertionSort l), ih]
      by_cases hp : p a = true
      · rw [if_pos hp, List.filter_cons_of_pos hp, List.insertionSort_cons]
      · rw [if_neg hp, List.filter_cons_of_neg hp]

/-- A sorted list is what comes before a place, and what comes from there on. -/
theorem filter_lt_append_filter_le (k : κ) (hl : l.Pairwise (place · ≤ place ·)) :
    (l.filter fun x => place x < k) ++ (l.filter fun x => k ≤ place x) = l := by
  induction l with
  | nil => rfl
  | cons a l ih =>
      rw [List.pairwise_cons] at hl
      by_cases ha : place a < k
      · rw [List.filter_cons_of_pos (by simpa using ha), List.filter_cons_of_neg (by simpa using ha),
          List.cons_append, ih hl.2]
      · rw [List.filter_cons_of_neg (by simpa using ha), List.filter_cons_of_pos (by simpa using ha)]
        have hnone : l.filter (fun x => place x < k) = [] := by
          rw [List.filter_eq_nil_iff]
          intro x hx
          simpa using (not_lt.mp ha).trans (hl.1 x hx)
        have hall := ih hl.2
        rw [hnone, List.nil_append] at hall ⊢
        rw [hall]

end FirstBest
end CpcJudge
