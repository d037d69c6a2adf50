import Mathlib.Tactic

/-!
# `Lib.Feed` — a stream that arrives in pieces

What a peer has sent is read with `recv n`, which returns at least one element where there is any, at most `n`, and
otherwise as many as the network pleases: `cuts` says how many, read after read. Once nothing is left `recv` returns
the empty list for ever.
-/

namespace CpcJudge

variable {α : Type}

/-- What is left of a stream, and how the next reads cut it. -/
structure Feed (α : Type) where
  left : List α
  cuts : ℕ → ℕ

namespace Feed

variable (f : Feed α) {n : ℕ}

/-- How much the next read returns. -/
def size (n : ℕ) : ℕ := min (min n (f.cuts 0 + 1)) f.left.length

/-- What the next read returns. -/
def data (n : ℕ) : List α := f.left.take (f.size n)

/-- The stream after the next read. -/
def next (n : ℕ) : Feed α := ⟨f.left.drop (f.size n), fun i => f.cuts (i + 1)⟩

variable {f}

@[simp] theorem length_data : (f.data n).length = f.size n := by
  simp [data, size]

theorem size_le : f.size n ≤ n := (min_le_left _ _).trans (min_le_left _ _)

theorem size_le_left : f.size n ≤ f.left.length := min_le_right _ _

theorem size_pos (hn : 0 < n) (hleft : f.left ≠ []) : 0 < f.size n := by
  have hlength : 0 < f.left.length := List.length_pos_iff.mpr hleft
  exact lt_min (lt_min hn (Nat.succ_pos _)) hlength

theorem data_append : f.data n ++ (f.next n).left = f.left := List.take_append_drop _ _

theorem data_eq_nil_iff (hn : 0 < n) : f.data n = [] ↔ f.left = [] := by
  constructor
  · intro hdata
    by_contra hleft
    have hpos : 0 < f.size n := size_pos hn hleft
    rw [← length_data, hdata] at hpos
    exact absurd hpos (lt_irrefl _)
  · intro hleft
    rw [data, hleft, List.take_nil]

/-- A read returns the first part of whatever the stream starts with, or all of it and more. -/
theorem data_of_le {part rest : List α} (hleft : f.left = part ++ rest) (hsize : f.size n ≤ part.length) :
    part = f.data n ++ part.drop (f.size n) ∧ (f.next n).left = part.drop (f.size n) ++ rest := by
  have htake : f.data n = part.take (f.size n) := by
    rw [data, hleft, List.take_append_of_le_length hsize]
  refine ⟨?_, ?_⟩
  · rw [htake, List.take_append_drop]
  · show f.left.drop (f.size n) = _
    rw [hleft, List.drop_append_of_le_length hsize]

end Feed
end CpcJudge
