import Mathlib.Data.Rat.Floor
import Mathlib.Tactic

/-!
# `Lib.Decimal` — rounding to a decimal grid

Rounding a rational to the nearest multiple of `1 / scale`, ties to the even multiple, and the few facts
a client of rounded numbers needs: a rounded number lies on the grid, a number of the grid is its own
rounding, the grid is closed under sums, and on it a comparison with a tolerance finer than the grid is
the exact comparison.

Nothing here knows what is being rounded.
-/

namespace CpcJudge
namespace Decimal

/-- The nearest integer, a half going to the even neighbour. -/
def roundHalfEven (x : ℚ) : ℤ :=
  let low := x.floor
  let rest := x - low
  if rest < 1 / 2 then low
  else if 1 / 2 < rest then low + 1
  else if low % 2 = 0 then low else low + 1

/-- `x` rounded to a multiple of `1 / scale`. -/
def roundTo (scale : ℕ) (x : ℚ) : ℚ := roundHalfEven (x * scale) / scale

/-- The whole part of `x`, towards zero. -/
def truncate (x : ℚ) : ℤ := x.num.tdiv x.den

/-- `x` is a multiple of `1 / scale`. -/
def OnGrid (scale : ℕ) (x : ℚ) : Prop := ∃ k : ℤ, x = k / scale

variable {scale : ℕ} {x y ε : ℚ}

/-! ## Rounding and the grid -/

@[simp] theorem roundHalfEven_intCast (k : ℤ) : roundHalfEven (k : ℚ) = k := by
  have hfloor : (k : ℚ).floor = k := by simp
  simp [roundHalfEven, hfloor]

theorem onGrid_roundTo : OnGrid scale (roundTo scale x) := ⟨roundHalfEven (x * scale), rfl⟩

/-- A number of the grid is its own rounding. -/
theorem roundTo_of_onGrid (hs : 0 < scale) (hx : OnGrid scale x) : roundTo scale x = x := by
  obtain ⟨k, rfl⟩ := hx
  have hne : (scale : ℚ) ≠ 0 := by exact_mod_cast hs.ne'
  rw [roundTo, div_mul_cancel₀ _ hne, roundHalfEven_intCast]

theorem onGrid_zero : OnGrid scale 0 := ⟨0, by simp⟩

theorem onGrid_natCast (hs : 0 < scale) (n : ℕ) : OnGrid scale (n : ℚ) := by
  have hne : (scale : ℚ) ≠ 0 := by exact_mod_cast hs.ne'
  exact ⟨n * scale, by push_cast; field_simp⟩

theorem OnGrid.add (hx : OnGrid scale x) (hy : OnGrid scale y) : OnGrid scale (x + y) := by
  obtain ⟨i, rfl⟩ := hx
  obtain ⟨j, rfl⟩ := hy
  exact ⟨i + j, by push_cast; ring⟩

theorem OnGrid.min (hx : OnGrid scale x) (hy : OnGrid scale y) : OnGrid scale (min x y) := by
  rcases min_choice x y with h | h
  · rw [h]; exact hx
  · rw [h]; exact hy

theorem onGrid_sum {l : List ℚ} (h : ∀ z ∈ l, OnGrid scale z) : OnGrid scale l.sum := by
  induction l with
  | nil => exact onGrid_zero
  | cons z l ih =>
      rw [List.sum_cons]
      exact (h z (by simp)).add (ih fun w hw => h w (by simp [hw]))

/-! ## Comparing with a tolerance finer than the grid -/

/-- Two different numbers of the grid are at least one grid step apart. -/
theorem OnGrid.add_step_le (hs : 0 < scale) (hx : OnGrid scale x) (hy : OnGrid scale y) (h : x < y) :
    x + 1 / scale ≤ y := by
  obtain ⟨i, rfl⟩ := hx
  obtain ⟨j, rfl⟩ := hy
  have hpos : (0 : ℚ) < scale := by exact_mod_cast hs
  have hij : i < j := by
    have := (div_lt_div_iff_of_pos_right hpos).mp h
    exact_mod_cast this
  have hij' : (i : ℚ) + 1 ≤ j := by exact_mod_cast hij
  rw [← add_div]
  exact (div_le_div_iff_of_pos_right hpos).mpr hij'

/-- Exceeding by more than the tolerance is exceeding. -/
theorem lt_tolerance_iff (hs : 0 < scale) (hε : 0 ≤ ε) (hεs : ε < 1 / scale)
    (hx : OnGrid scale x) (hy : OnGrid scale y) : y + ε < x ↔ y < x := by
  constructor
  · intro h; linarith
  · intro h
    have := hy.add_step_le hs hx h
    linarith

/-- Reaching up to the tolerance is reaching. -/
theorem le_tolerance_iff (hs : 0 < scale) (hε : 0 ≤ ε) (hεs : ε < 1 / scale)
    (hx : OnGrid scale x) (hy : OnGrid scale y) : x - ε ≤ y ↔ x ≤ y := by
  have h := lt_tolerance_iff hs hε hεs hx hy
  constructor
  · intro hle
    by_contra hlt
    have := h.mpr (not_le.mp hlt)
    linarith
  · intro hle; linarith

/-- Being within the tolerance is being equal. -/
theorem abs_tolerance_iff (hs : 0 < scale) (hε : 0 ≤ ε) (hεs : ε < 1 / scale)
    (hx : OnGrid scale x) (hy : OnGrid scale y) : |x - y| ≤ ε ↔ x = y := by
  constructor
  · intro h
    obtain ⟨h1, h2⟩ := abs_le.mp h
    rcases lt_trichotomy x y with hlt | heq | hgt
    · have := hx.add_step_le hs hy hlt; linarith
    · exact heq
    · have := hy.add_step_le hs hx hgt; linarith
  · rintro rfl; simpa using hε

/-! ## The nearest number of the grid -/

/-- `y` is the number of the grid nearest to `x`, the even one of two. -/
def Nearest (scale : ℕ) (x y : ℚ) : Prop :=
  ∃ k : ℤ, y = k / scale ∧ (|x * scale - k| < 1 / 2 ∨ (|x * scale - k| = 1 / 2 ∧ Even k))

theorem roundHalfEven_spec (x : ℚ) :
    |x - roundHalfEven x| < 1 / 2 ∨ (|x - roundHalfEven x| = 1 / 2 ∧ Even (roundHalfEven x)) := by
  have hlow : (x.floor : ℚ) ≤ x := Rat.floor_le x
  have hhigh : x < x.floor + 1 := by exact_mod_cast Rat.lt_floor_add_one x
  unfold roundHalfEven
  dsimp only
  split_ifs with hless hmore heven
  · left
    rw [abs_lt]
    constructor <;> linarith
  · left
    push_cast
    rw [abs_lt]
    constructor <;> linarith
  · right
    have hhalf : x - x.floor = 1 / 2 := le_antisymm (not_lt.mp hmore) (not_lt.mp hless)
    rw [hhalf]
    exact ⟨abs_of_pos (by norm_num), Int.even_iff.mpr heven⟩
  · right
    have hhalf : x - x.floor = 1 / 2 := le_antisymm (not_lt.mp hmore) (not_lt.mp hless)
    refine ⟨?_, by rw [Int.even_add_one, Int.even_iff]; exact heven⟩
    push_cast
    rw [← sub_sub, hhalf]
    norm_num

/-- Two integers as near to a number as its rounding is are one. -/
theorem nearest_unique {k l : ℤ} (hk : |x - k| < 1 / 2 ∨ (|x - k| = 1 / 2 ∧ Even k))
    (hl : |x - l| < 1 / 2 ∨ (|x - l| = 1 / 2 ∧ Even l)) : k = l := by
  have hnear : |((k - l : ℤ) : ℚ)| ≤ |x - k| + |x - l| := by
    rw [show ((k - l : ℤ) : ℚ) = x - l - (x - k) by push_cast; ring]
    have htriangle := abs_sub (x - l) (x - k)
    linarith
  have hone : |k - l| ≤ 1 := by
    have hle : |((k - l : ℤ) : ℚ)| ≤ 1 := by rcases hk with h | ⟨h, _⟩ <;> rcases hl with h' | ⟨h', _⟩ <;> linarith
    exact_mod_cast hle
  by_contra hne
  -- neighbours: then both are a half away, and both even
  have hgap : |k - l| = 1 := le_antisymm hone (Int.one_le_abs (sub_ne_zero.mpr hne))
  have hsum : (1 : ℚ) ≤ |x - k| + |x - l| := by
    have hcast : |((k - l : ℤ) : ℚ)| = 1 := by exact_mod_cast hgap
    rwa [hcast] at hnear
  rcases hk with h | ⟨_, heven⟩
  · rcases hl with h' | ⟨h', _⟩ <;> linarith
  · rcases hl with h' | ⟨_, heven'⟩
    · linarith
    · obtain ⟨i, hi⟩ := heven.sub heven'
      rcases abs_eq zero_le_one |>.mp hgap with h | h <;> omega

theorem roundTo_eq_iff (hs : 0 < scale) : roundTo scale x = y ↔ Nearest scale x y := by
  have hne : (scale : ℚ) ≠ 0 := by exact_mod_cast hs.ne'
  constructor
  · rintro rfl
    exact ⟨roundHalfEven (x * scale), rfl, roundHalfEven_spec _⟩
  · rintro ⟨k, rfl, hk⟩
    rw [roundTo, nearest_unique (roundHalfEven_spec _) hk]

theorem roundHalfEven_mono (h : x ≤ y) : roundHalfEven x ≤ roundHalfEven y := by
  by_contra hlt
  have hstep : ((roundHalfEven y + 1 : ℤ) : ℚ) ≤ roundHalfEven x := by exact_mod_cast Int.add_one_le_of_lt (not_le.mp hlt)
  push_cast at hstep
  have hx : |x - roundHalfEven x| ≤ 1 / 2 := (roundHalfEven_spec x).elim le_of_lt fun hx => hx.1.le
  have hy : |y - roundHalfEven y| ≤ 1 / 2 := (roundHalfEven_spec y).elim le_of_lt fun hy => hy.1.le
  have hxy : x = y := by
    rw [abs_le] at hx hy
    exact le_antisymm h (by linarith)
  exact hlt (hxy ▸ le_refl _)

theorem roundTo_mono (scale : ℕ) (h : x ≤ y) : roundTo scale x ≤ roundTo scale y := by
  have hscale : (0 : ℚ) ≤ scale := by exact_mod_cast Nat.zero_le scale
  have hcast : (roundHalfEven (x * scale) : ℚ) ≤ roundHalfEven (y * scale) := by
    exact_mod_cast roundHalfEven_mono (mul_le_mul_of_nonneg_right h hscale)
  exact div_le_div_of_nonneg_right hcast hscale

/-- The rounding moves a number by half a step at most. -/
theorem abs_roundTo_sub_le (hs : 0 < scale) : |roundTo scale x - x| ≤ 1 / (2 * scale) := by
  have hpos : (0 : ℚ) < scale := by exact_mod_cast hs
  have hnear : |x * scale - roundHalfEven (x * scale)| ≤ 1 / 2 :=
    (roundHalfEven_spec (x * scale)).elim le_of_lt fun h => h.1.le
  have hscaled : roundTo scale x - x = -(x * scale - roundHalfEven (x * scale)) / scale := by
    rw [roundTo]
    field_simp
    ring
  rw [hscaled, abs_div, abs_neg, abs_of_pos hpos, div_le_iff₀ hpos]
  calc |x * scale - roundHalfEven (x * scale)| ≤ 1 / 2 := hnear
    _ = 1 / (2 * scale) * scale := by field_simp

end Decimal
end CpcJudge
