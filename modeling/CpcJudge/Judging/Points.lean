import CpcJudge.Contest.Judging

/-!
# `Judging.Points` — the points of a graded submission

The end of a grading adds up the test cases, and makes the points of the submission out of the part of the total it
got, on the scale of its problem and, if it was sent in a contest, on the scale of the contest problem. Where there are
no partial points, a submission keeps its points if they are those of the problem. They are compared after rounding:
`tells_apart` says when that is the same as comparing the test cases.
-/

namespace CpcJudge
namespace Judging

open Contest (TestCase Result Status ContestProblem ContestRow ContestSubmission roundDigits statusCodes)
open Decimal (Nearest OnGrid)

/-! ## The end of a grading -/

structure Problem where
  points : ℚ
  allowsPartial : Bool := false
  isPublic : Bool := true
  isOrganizationPrivate : Bool := false
  deriving DecidableEq, Repr

/-- The `ContestSubmission` of a submission, and its problem. -/
structure ContestPart where
  problem : ContestProblem
  points : ℚ := 0
  deriving DecidableEq, Repr

structure Submission where
  status : Status := .QU
  result : Option Result := none
  points : Option ℚ := none
  casePoints : ℚ := 0
  caseTotal : ℚ := 0
  testCases : List TestCase := []
  contest : Option ContestPart := none
  deriving DecidableEq, Repr

/-- `on_grading_end`: the points of the submission. -/
def Problem.gradedPoints (p : Problem) (casePoints caseTotal : ℚ) : ℚ :=
  let points := roundDigits 3 (if 0 < caseTotal then casePoints / caseTotal * p.points else 0)
  if !p.allowsPartial && points ≠ p.points then 0 else points

/-- `update_contest`: the points of the contest submission. -/
def contestPoints (p : ContestProblem) (casePoints caseTotal : ℚ) : ℚ :=
  let points := roundDigits 3 (if 0 < caseTotal then casePoints / caseTotal * p.points else 0)
  if !p.allowsPartial && points ≠ p.points then 0 else points

/-- They are those a contest reads. -/
theorem contestPoints_eq (c : ContestRow) (s : ContestSubmission) :
    s.contestPoints c = contestPoints (c.problems s.problem) s.casePoints s.caseTotal := rfl

/-- `update_contest`. -/
def Submission.updateContest (s : Submission) : Submission :=
  { s with contest := s.contest.map fun part =>
      { part with points := contestPoints part.problem s.casePoints s.caseTotal } }

/-- `on_grading_end`, as far as it writes the submission. -/
def Submission.gradingEnd (s : Submission) (p : Problem) : Option Submission := do
  let g : Contest.Grading ← s.testCases.foldlM Contest.Grading.add {}
  let (batchPoints, batchTotals) := g.batches.unzip.2.unzip
  let result ← statusCodes[g.status]?
  let casePoints := roundDigits 1 (g.points + batchPoints.sum)
  let caseTotal := roundDigits 1 (g.total + batchTotals.sum)
  let s := { s with
    status := .D
    result := some result
    casePoints
    caseTotal
    points := some (p.gradedPoints casePoints caseTotal) }
  some s.updateContest

/-! ## All or nothing -/

/-- The points lost to the cases that were not passed. -/
def lost (worth casePoints caseTotal : ℚ) : ℚ := worth * (caseTotal - casePoints) / caseTotal

/-- The points tell a submission that passed everything: there was nothing to pass; or it passed everything, for a
positive number of points with three decimals at most; or it did not, and lost more than rounding restores. -/
def Tells (worth casePoints caseTotal : ℚ) : Prop :=
  caseTotal = 0 ∨ (casePoints = caseTotal ∧ 0 < worth ∧ OnGrid 1000 worth) ∨
    (casePoints ≠ caseTotal ∧ ∀ k : ℤ, 0 < k → worth = k / 1000 →
      1 / 2000 < lost worth casePoints caseTotal ∨ (lost worth casePoints caseTotal = 1 / 2000 ∧ Odd k))

section
variable {worth casePoints caseTotal : ℚ}

/-- What a problem without partial points gives, of either kind. -/
def allOrNothing (worth casePoints caseTotal : ℚ) : ℚ :=
  let points := roundDigits 3 (if 0 < caseTotal then casePoints / caseTotal * worth else 0)
  if points ≠ worth then 0 else points

theorem roundDigits_eq_iff (digits : ℕ) {x y : ℚ} : roundDigits digits x = y ↔ Nearest (10 ^ digits) x y :=
  Decimal.roundTo_eq_iff (Nat.pow_pos (by norm_num))

theorem allOrNothing_pos : 0 < allOrNothing worth casePoints caseTotal ↔
    0 < worth ∧ Nearest 1000 (if 0 < caseTotal then casePoints / caseTotal * worth else 0) worth := by
  rw [← show 10 ^ 3 = 1000 by norm_num, ← roundDigits_eq_iff 3]
  unfold allOrNothing
  dsimp only
  by_cases h : roundDigits 3 (if 0 < caseTotal then casePoints / caseTotal * worth else 0) = worth
  · rw [if_neg (not_not.mpr h), h]
    exact (and_iff_left rfl).symm
  · rw [if_pos h]
    exact iff_of_false (lt_irrefl 0) fun hboth => h hboth.2

/-- What the points lose is what rounding has to restore. -/
theorem lost_eq (hpos : 0 < caseTotal) : lost worth casePoints caseTotal = worth - casePoints / caseTotal * worth := by
  rw [lost]
  field_simp

theorem nearest_worth (hpos : 0 < caseTotal) (hle : casePoints ≤ caseTotal) (hworth : 0 < worth) :
    Nearest 1000 (casePoints / caseTotal * worth) worth ↔ ∃ k : ℤ, worth = k / 1000 ∧
      (lost worth casePoints caseTotal < 1 / 2000 ∨ (lost worth casePoints caseTotal = 1 / 2000 ∧ Even k)) := by
  have hlost : 0 ≤ lost worth casePoints caseTotal :=
    div_nonneg (mul_nonneg hworth.le (sub_nonneg.mpr hle)) hpos.le
  refine exists_congr fun k => and_congr_right fun hk => ?_
  have habs : |casePoints / caseTotal * worth * (1000 : ℕ) - k| = 1000 * lost worth casePoints caseTotal := by
    have hcast : (k : ℚ) = 1000 * worth := by
      rw [hk]
      push_cast
      ring
    rw [hcast, abs_sub_comm, lost_eq hpos]
    rw [lost_eq hpos] at hlost
    rw [abs_of_nonneg (by push_cast; linarith)]
    push_cast
    ring
  rw [habs]
  refine or_congr ⟨fun h => by linarith, fun h => by linarith⟩ (and_congr_left fun _ => ?_)
  exact ⟨fun h => by linarith, fun h => by linarith⟩

theorem allOrNothing_tells (hnonneg : 0 ≤ casePoints) (hle : casePoints ≤ caseTotal) :
    (0 < allOrNothing worth casePoints caseTotal ↔ casePoints = caseTotal ∧ 0 < caseTotal) ↔
      Tells worth casePoints caseTotal := by
  rw [allOrNothing_pos]
  rcases (hnonneg.trans hle).eq_or_lt with hzero | hpos
  · -- nothing to pass, and nothing to get
    refine iff_of_true (iff_of_false ?_ fun h => h.2.ne hzero) (.inl hzero.symm)
    rintro ⟨hworth, hnearest⟩
    rw [if_neg hzero.not_lt, ← Decimal.roundTo_eq_iff (by norm_num),
      Decimal.roundTo_of_onGrid (by norm_num) Decimal.onGrid_zero] at hnearest
    exact hworth.ne hnearest
  · rw [if_pos hpos]
    by_cases hfull : casePoints = caseTotal
    · have hnearest : Nearest 1000 (casePoints / caseTotal * worth) worth ↔ OnGrid 1000 worth := by
        rw [hfull, div_self hpos.ne', one_mul, ← Decimal.roundTo_eq_iff (by norm_num)]
        exact ⟨fun h => h ▸ Decimal.onGrid_roundTo, Decimal.roundTo_of_onGrid (by norm_num)⟩
      rw [hnearest]
      constructor
      · intro h
        exact .inr (.inl ⟨hfull, h.mpr ⟨hfull, hpos⟩⟩)
      · rintro (h | ⟨_, h⟩ | ⟨h, _⟩)
        · exact absurd h hpos.ne'
        · exact iff_of_true h ⟨hfull, hpos⟩
        · exact absurd hfull h
    · constructor
      · intro h
        refine .inr (.inr ⟨hfull, fun k hk hworth => ?_⟩)
        have hpositive : 0 < worth := by
          rw [hworth]
          exact div_pos (by exact_mod_cast hk) (by norm_num)
        by_contra hrestored
        obtain ⟨hless, hodd⟩ := not_or.mp hrestored
        refine hfull (h.mp ⟨hpositive, (nearest_worth hpos hle hpositive).mpr ⟨k, hworth, ?_⟩⟩).1
        rcases (not_lt.mp hless).lt_or_eq with hless | heq
        · exact .inl hless
        · exact .inr ⟨heq, Int.not_odd_iff_even.mp fun hk => hodd ⟨heq, hk⟩⟩
      · rintro (h | ⟨h, _⟩ | ⟨_, htells⟩)
        · exact absurd h hpos.ne'
        · exact absurd h hfull
        · refine iff_of_false ?_ fun h => hfull h.1
          rintro ⟨hpositive, hnearest⟩
          obtain ⟨k, hworth, hk⟩ := (nearest_worth hpos hle hpositive).mp hnearest
          have hkpos : 0 < k := by
            rw [hworth] at hpositive
            have hcast : (0 : ℚ) < k := by
              have hmul := mul_pos hpositive (show (0 : ℚ) < 1000 by norm_num)
              rwa [div_mul_cancel₀ _ (by norm_num)] at hmul
            exact_mod_cast hcast
          rcases htells k hkpos hworth with hmore | ⟨heq, hodd⟩
          · rcases hk with hless | ⟨heq, _⟩ <;> linarith
          · rcases hk with hless | ⟨_, heven⟩
            · linarith
            · exact absurd heven (Int.not_even_iff_odd.mpr hodd)

end

end Judging
end CpcJudge
