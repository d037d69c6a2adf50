import CpcJudge.Lib.Bijective
import CpcJudge.Lib.Text

/-!
# `Contest.Labels` — the labels of the problems in an ICPC contest

`ICPCContestFormat.get_label_for_problem`: A to Z, then AA, AB and so on, as the columns of a spreadsheet. The number
of the problem is written in base 26 without a zero (`Lib.Bijective`), and the letters are its digits.
-/

namespace CpcJudge
namespace Contest

/-- `while index > 0`: the letters so far, the last one of the label first, and what is left of the index. -/
def labelFrom (index : ℕ) (ret : Text) : Text :=
  if 0 < index then labelFrom ((index - 1) / 26) (ret ++ [Text.chr ((index - 1) % 26 + 65)]) else ret
termination_by index
decreasing_by exact (Nat.div_le_self _ _).trans_lt (by omega)

/-- `get_label_for_problem`. -/
def getLabelForProblem (index : ℕ) : Text := (labelFrom (index + 1) []).reverse

/-! ## The letters of a numeral -/

/-- A to Z. -/
def IsCapital (c : CodePoint) : Prop := 65 ≤ c.val ∧ c.val ≤ 90

/-- The letter of a digit. -/
def letter (digit : Fin 26) : CodePoint := Text.chr (digit + 65)

theorem letter_val (digit : Fin 26) : (letter digit).val = digit + 65 := by
  have := digit.isLt
  rw [letter, Text.chr, Fin.val_ofNat, Nat.mod_eq_of_lt (by omega)]

theorem letter_isCapital (digit : Fin 26) : IsCapital (letter digit) := by
  have := digit.isLt
  rw [IsCapital, letter_val]
  omega

theorem letter_lt {c d : Fin 26} (h : c < d) : letter c < letter d := by
  rw [Fin.lt_def, letter_val, letter_val]
  exact Nat.add_lt_add_right h 65

theorem exists_letter {c : CodePoint} (h : IsCapital c) : ∃ digit, letter digit = c := by
  obtain ⟨hlow, hhigh⟩ := h
  refine ⟨⟨c.val - 65, by omega⟩, Fin.ext ?_⟩
  rw [letter_val]
  exact Nat.sub_add_cancel hlow

/-- A word of capitals spells a numeral. -/
theorem exists_spelling {word : Text} (h : ∀ c ∈ word, IsCapital c) :
    ∃ digits : List (Fin 26), digits.map letter = word := by
  induction word with
  | nil => exact ⟨[], rfl⟩
  | cons c word ih =>
      obtain ⟨digit, hdigit⟩ := exists_letter (h c (List.mem_cons_self ..))
      obtain ⟨digits, hdigits⟩ := ih fun c hc => h c (List.mem_cons_of_mem _ hc)
      exact ⟨digit :: digits, by rw [List.map_cons, hdigit, hdigits]⟩

theorem lex_map_letter {u v : List (Fin 26)} (h : List.Lex (· < ·) u v) :
    List.Lex (· < ·) (u.map letter) (v.map letter) := by
  induction h with
  | nil => exact .nil
  | cons _ ih => exact .cons ih
  | rel hlt => exact .rel (letter_lt hlt)

theorem shortlex_map_letter {u v : List (Fin 26)} (h : List.Shortlex (· < ·) u v) :
    List.Shortlex (· < ·) (u.map letter) (v.map letter) := by
  rcases List.shortlex_def.mp h with hlength | ⟨hlength, hlex⟩
  · exact .of_length_lt (by simpa using hlength)
  · exact .of_lex (by simpa using hlength) (lex_map_letter hlex)

/-! ## Labels are numerals -/

/-- The loop appends the letters of the digits. -/
theorem labelFrom_eq (index : ℕ) (ret : Text) :
    labelFrom index ret = ret ++ (Bijective.digits 26 index).map letter := by
  fun_induction labelFrom index ret with
  | case1 index ret hpos ih =>
      have hletter : letter (Fin.ofNat 26 (index - 1)) = Text.chr ((index - 1) % 26 + 65) := rfl
      rw [ih, Bijective.digits_of_pos 26 hpos, List.map_cons, hletter, List.append_assoc, List.singleton_append]
  | case2 index ret hzero =>
      obtain rfl : index = 0 := by omega
      rw [Bijective.digits_zero, List.map_nil, List.append_nil]

theorem getLabelForProblem_eq (index : ℕ) :
    getLabelForProblem index = (Bijective.numeral 26 (index + 1)).map letter := by
  rw [getLabelForProblem, labelFrom_eq, List.nil_append, Bijective.numeral, List.map_reverse]

theorem getLabelForProblem_shortlex {i j : ℕ} (h : i < j) :
    List.Shortlex (· < ·) (getLabelForProblem i) (getLabelForProblem j) := by
  rw [getLabelForProblem_eq, getLabelForProblem_eq]
  exact shortlex_map_letter (Bijective.numeral_shortlex_iff.mpr (Nat.succ_lt_succ h))

/-- The labels are the words over A..Z, each of them once, the shorter ones first and those of one length in the order
of the alphabet. -/
theorem getLabelForProblem_enumerates :
    (∀ index, getLabelForProblem index ≠ [] ∧ ∀ c ∈ getLabelForProblem index, IsCapital c) ∧
    Function.Injective getLabelForProblem ∧
    (∀ word : Text, word ≠ [] → (∀ c ∈ word, IsCapital c) → ∃ index, getLabelForProblem index = word) ∧
    ∀ i j, i < j ↔ List.Shortlex (· < ·) (getLabelForProblem i) (getLabelForProblem j) := by
  have hinjective : Function.Injective getLabelForProblem := by
    intro i j h
    rcases Nat.lt_trichotomy i j with hlt | heq | hgt
    · exact absurd (h ▸ getLabelForProblem_shortlex hlt) (irrefl_of (List.Shortlex (· < ·)) _)
    · exact heq
    · exact absurd (h ▸ getLabelForProblem_shortlex hgt) (irrefl_of (List.Shortlex (· < ·)) _)
  refine ⟨fun index => ⟨?_, ?_⟩, hinjective, ?_, fun i j => ⟨getLabelForProblem_shortlex, fun h => ?_⟩⟩
  · rw [getLabelForProblem_eq, ne_eq, List.map_eq_nil_iff]
    exact Bijective.numeral_ne_nil index.succ_pos
  · intro c hc
    rw [getLabelForProblem_eq] at hc
    obtain ⟨digit, _, rfl⟩ := List.mem_map.mp hc
    exact letter_isCapital digit
  · intro word hne hword
    obtain ⟨digits, rfl⟩ := exists_spelling hword
    have hpos : 0 < Bijective.value digits := Bijective.value_pos (by simpa using hne)
    refine ⟨Bijective.value digits - 1, ?_⟩
    rw [getLabelForProblem_eq, Nat.sub_add_cancel hpos, Bijective.numeral_value]
  · rcases Nat.lt_trichotomy i j with hlt | rfl | hgt
    · exact hlt
    · exact absurd h (irrefl_of (List.Shortlex (· < ·)) _)
    · exact absurd (getLabelForProblem_shortlex hgt) (asymm_of (List.Shortlex (· < ·)) h)

-- three rounds: `B`, `A`, and nothing left
example : getLabelForProblem 27 = Text.ofString "AB" := by
  rw [getLabelForProblem, labelFrom, labelFrom, labelFrom]
  decide

end Contest
end CpcJudge
