import Mathlib.Data.List.Nodup
import Mathlib.Tactic

/-!
# `Lib.Partition` — the items that satisfy a predicate, moved before the others

Each part keeps its order. Where an item comes after the move says what there was around it.
-/

namespace CpcJudge
namespace Partition

variable {α : Type*}

/-- The items of `l` that satisfy `p`, then the others. -/
def partition (p : α → Bool) (l : List α) : List α := l.filter p ++ l.filter fun a => !p a

variable {p : α → Bool} {l before after : List α} {x : α}

theorem mem_partition : x ∈ partition p l ↔ x ∈ l := by
  rw [partition, List.mem_append, List.mem_filter, List.mem_filter]
  cases p x <;> simp

theorem nodup_partition (h : l.Nodup) : (partition p l).Nodup := by
  refine (h.filter _).append (h.filter _) fun a hp hnot => ?_
  have hpos := (List.mem_filter.mp hp).2
  have hneg := (List.mem_filter.mp hnot).2
  simp [hpos] at hneg

theorem countP_not (p : α → Bool) (l : List α) : l.countP (fun a => !p a) = l.length - l.countP p := by
  have hall := List.length_eq_countP_add_countP p (l := l)
  simp only [Bool.not_eq_true, Bool.decide_eq_false] at hall
  omega

variable [BEq α] [LawfulBEq α]

theorem getElem?_eq_some_iff_idxOf (h : l.Nodup) (hx : x ∈ l) {i : ℕ} : l[i]? = some x ↔ l.idxOf x = i := by
  constructor
  · intro hi
    obtain ⟨hlt, rfl⟩ := List.getElem?_eq_some_iff.mp hi
    exact h.idxOf_getElem i hlt
  · rintro rfl
    have hlt := List.idxOf_lt_length_of_mem hx
    rw [List.getElem?_eq_getElem hlt, List.getElem_idxOf hlt]

/-- An item that moves comes after those before it that move. -/
theorem idxOf_partition_pos (h : (before ++ x :: after).Nodup) (hp : p x = true) :
    (partition p (before ++ x :: after)).idxOf x = before.countP p := by
  have hx : x ∉ before.filter p := fun hmem =>
    (List.nodup_middle.mp h).notMem (List.mem_append_left _ (List.mem_filter.mp hmem).1)
  rw [partition, List.filter_append, List.filter_cons_of_pos hp, List.append_assoc, List.idxOf_append_of_notMem hx,
    List.cons_append, List.idxOf_cons_self, Nat.add_zero, List.countP_eq_length_filter]

/-- An item that stays comes after all those before it, and those after it that move. -/
theorem idxOf_partition_neg (h : (before ++ x :: after).Nodup) (hp : p x = false) :
    (partition p (before ++ x :: after)).idxOf x = before.length + after.countP p := by
  have hx : x ∉ before.filter fun a => !p a := fun hmem =>
    (List.nodup_middle.mp h).notMem (List.mem_append_left _ (List.mem_filter.mp hmem).1)
  have hfirst : x ∉ (before ++ x :: after).filter p := fun hmem => by simp [hp] at hmem
  have hnot : (!p x) = true := by rw [hp]; rfl
  have hle := List.countP_le_length (p := p) (l := before)
  rw [partition, List.idxOf_append_of_notMem hfirst, List.filter_append (p := fun a => !p a),
    List.filter_cons_of_pos (p := fun a => !p a) hnot, List.idxOf_append_of_notMem hx, List.idxOf_cons_self,
    Nat.add_zero, ← List.countP_eq_length_filter, ← List.countP_eq_length_filter, countP_not, List.countP_append,
    List.countP_cons_of_neg (by simp [hp])]
  omega

/-- An item keeps its place if nothing moves over it. -/
theorem idxOf_partition_eq_length (h : (before ++ x :: after).Nodup) :
    (partition p (before ++ x :: after)).idxOf x = before.length ↔
      (p x = true → ∀ a ∈ before, p a = true) ∧ (p x = false → ∀ a ∈ after, p a = false) := by
  cases hp : p x with
  | true => rw [idxOf_partition_pos h hp, List.countP_eq_length]; simp
  | false =>
      rw [idxOf_partition_neg h hp, Nat.add_eq_left, List.countP_eq_zero]
      simp

/-- An item that keeps its place still comes before those it came before. -/
theorem idxOf_partition_lt {first last : List α} {y : α} (h : (before ++ x :: after).Nodup)
    (hsplit : before ++ x :: after = first ++ y :: last) (hlt : before.length < first.length)
    (hstays : (partition p (before ++ x :: after)).idxOf x = before.length) :
    before.length < (partition p (before ++ x :: after)).idxOf y := by
  cases hp : p y with
  | false =>
      rw [hsplit, idxOf_partition_neg (hsplit ▸ h) hp]
      omega
  | true =>
      obtain ⟨hpos, hneg⟩ := (idxOf_partition_eq_length h).mp hstays
      have hpre : before ++ [x] <+: first := by
        have hall : before ++ [x] <+: first ++ y :: last := by
          rw [← hsplit]
          exact ⟨after, by simp⟩
        exact List.prefix_of_prefix_length_le hall (List.prefix_append _ _) (by simpa using hlt)
      obtain ⟨rest, rfl⟩ := hpre
      have hx : p x = true := by
        by_contra hnot
        have hafter : y ∈ after := by
          have hrest : after = rest ++ y :: last := by simpa using hsplit
          simp [hrest]
        exact absurd (hneg (Bool.eq_false_iff.mpr hnot) y hafter) (by simp [hp])
      rw [hsplit, idxOf_partition_pos (hsplit ▸ h) hp, List.countP_append, List.countP_append,
        List.countP_eq_length.mpr (hpos hx), List.countP_singleton, if_pos hx]
      omega

end Partition
end CpcJudge
