import Mathlib.Data.List.Shortlex
import Mathlib.Tactic

/-!
# `Lib.Bijective` — bijective numeration

Numerals without a zero: with the base `b`, a digit `d : Fin b` counts for `d + 1`. Every number has exactly one
numeral, where ordinary numerals may be padded with zeros, and the numerals come in the order of their length and,
within a length, of the alphabet: the shortlex order.
-/

namespace CpcJudge
namespace Bijective

variable {b : ℕ}

/-- One more digit at the end of a numeral of value `n`. -/
def push (n : ℕ) (d : Fin b) : ℕ := n * b + d + 1

/-- The value of a numeral, its first digit the most significant one. -/
def value (word : List (Fin b)) : ℕ := word.foldl push 0

@[simp] theorem value_nil : value ([] : List (Fin b)) = 0 := rfl

@[simp] theorem value_concat (word : List (Fin b)) (d : Fin b) : value (word ++ [d]) = push (value word) d :=
  List.foldl_concat ..

/-! ## The order -/

/-- Digits do not make up for what comes before them. -/
theorem push_lt_push {n m : ℕ} (h : n < m) (c d : Fin b) : push n c < push m d := by
  have hcarry : n * b + b ≤ m * b := by
    rw [← Nat.succ_mul]
    exact Nat.mul_le_mul_right b h
  have hc := c.isLt
  simp only [push]
  omega

theorem foldl_push_lt {n m : ℕ} (h : n < m) {u v : List (Fin b)} (hlength : u.length = v.length) :
    u.foldl push n < v.foldl push m := by
  induction u generalizing n m v with
  | nil =>
      rw [List.eq_nil_of_length_eq_zero hlength.symm]
      exact h
  | cons c u ih =>
      cases v with
      | nil => simp at hlength
      | cons d v => exact ih (push_lt_push h c d) (Nat.succ.inj hlength)

/-- Of two numerals of one length, the first one of the alphabet is the smaller number. -/
theorem foldl_push_lt_of_lex {u v : List (Fin b)} (h : List.Lex (· < ·) u v) (hlength : u.length = v.length) (n : ℕ) :
    u.foldl push n < v.foldl push n := by
  induction h generalizing n with
  | nil => simp at hlength
  | @cons c u v _ ih => exact ih (Nat.succ.inj hlength) (push n c)
  | @rel c u d v hlt =>
      have hpush : push n c < push n d := by
        have hdigits : (c : ℕ) < d := hlt
        simp only [push]
        omega
      exact foldl_push_lt hpush (Nat.succ.inj hlength)

/-- A longer numeral is a greater number. -/
theorem value_lt_of_length_lt {u v : List (Fin b)} (h : u.length < v.length) : value u < value v := by
  have hsplit : v = v.take (v.length - u.length) ++ v.drop (v.length - u.length) := (List.take_append_drop _ _).symm
  have hlead : 0 < value (v.take (v.length - u.length)) := by
    rcases (v.take (v.length - u.length)).eq_nil_or_concat' with hnil | ⟨lead, d, hlead⟩
    · have := congrArg List.length hnil
      simp only [List.length_take, List.length_nil] at this
      omega
    · rw [hlead, value_concat]
      exact Nat.succ_pos _
  rw [hsplit]
  simp only [value, List.foldl_append] at hlead ⊢
  exact foldl_push_lt hlead (by rw [List.length_drop]; omega)

theorem value_pos {word : List (Fin b)} (h : word ≠ []) : 0 < value word :=
  value_lt_of_length_lt (u := []) (List.length_pos_iff.mpr h)

theorem value_lt_of_shortlex {u v : List (Fin b)} (h : List.Shortlex (· < ·) u v) : value u < value v := by
  rcases List.shortlex_def.mp h with hlength | ⟨hlength, hlex⟩
  · exact value_lt_of_length_lt hlength
  · exact foldl_push_lt_of_lex hlex hlength 0

/-- Values are in the order of the numerals. -/
theorem value_lt_iff {u v : List (Fin b)} : value u < value v ↔ List.Shortlex (· < ·) u v := by
  refine ⟨fun hlt => ?_, value_lt_of_shortlex⟩
  rcases trichotomous_of (List.Shortlex (· < ·)) u v with huv | rfl | hvu
  · exact huv
  · exact absurd hlt (lt_irrefl _)
  · exact absurd (value_lt_of_shortlex hvu) hlt.asymm

theorem value_injective : Function.Injective (value (b := b)) := by
  intro u v h
  rcases trichotomous_of (List.Shortlex (· < ·)) u v with huv | huv | hvu
  · exact absurd h (value_lt_of_shortlex huv).ne
  · exact huv
  · exact absurd h (value_lt_of_shortlex hvu).ne'

/-! ## The numeral of a number -/

variable (b) [NeZero b]

/-- The digits of a number, the last one first. -/
def digits (n : ℕ) : List (Fin b) :=
  if 0 < n then Fin.ofNat b (n - 1) :: digits ((n - 1) / b) else []
termination_by n
decreasing_by exact (Nat.div_le_self _ _).trans_lt (by omega)

@[simp] theorem digits_zero : digits b 0 = [] := by
  rw [digits, if_neg (lt_irrefl 0)]

theorem digits_of_pos {n : ℕ} (h : 0 < n) : digits b n = Fin.ofNat b (n - 1) :: digits b ((n - 1) / b) := by
  rw [digits, if_pos h]

/-- The numeral of a number. -/
def numeral (n : ℕ) : List (Fin b) := (digits b n).reverse

theorem push_div {n : ℕ} (h : 0 < n) : push ((n - 1) / b) (Fin.ofNat b (n - 1)) = n := by
  have hdiv := Nat.div_add_mod' (n - 1) b
  simp only [push, Fin.val_ofNat]
  omega

@[simp] theorem value_numeral (n : ℕ) : value (numeral b n) = n := by
  induction n using Nat.strong_induction_on with
  | _ n ih =>
      rcases Nat.eq_zero_or_pos n with rfl | hpos
      · rw [numeral, digits_zero, List.reverse_nil, value_nil]
      · have hlt : (n - 1) / b < n := (Nat.div_le_self _ _).trans_lt (by omega)
        rw [numeral, digits_of_pos b hpos, List.reverse_cons, value_concat, ← numeral, ih _ hlt]
        exact push_div b hpos

variable {b}

@[simp] theorem numeral_value (word : List (Fin b)) : numeral b (value word) = word :=
  value_injective (value_numeral b _)

/-- The numerals are enumerated in the shortlex order. -/
theorem numeral_shortlex_iff {n m : ℕ} : List.Shortlex (· < ·) (numeral b n) (numeral b m) ↔ n < m := by
  rw [← value_lt_iff, value_numeral, value_numeral]

theorem numeral_ne_nil {n : ℕ} (h : 0 < n) : numeral b n ≠ [] := by
  intro hnil
  have := value_numeral b n
  rw [hnil, value_nil] at this
  omega

end Bijective
end CpcJudge
