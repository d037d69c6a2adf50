import CpcJudge.Judging.Points

/-!
# `Judging.Rescore` — the points computed again

`rescore_problem` and the action of the admin make the points of a submission out of what its grading stored, when the
points of the problem changed. They round to one decimal, the grading to three; and where there are no partial points,
they ask for at least the points of the problem, the grading for exactly these. `rescore_agrees` says which submissions
that leaves alone. The points of the contest submission are computed in one place, and stay.
-/

namespace CpcJudge
namespace Judging

open Contest (roundDigits)
open Decimal (Nearest)

/-- The points `rescore_problem` and `recalculate_score` store. -/
def Problem.rescoredPoints (p : Problem) (casePoints caseTotal : ℚ) : ℚ :=
  let points := roundDigits 1 (if caseTotal ≠ 0 then casePoints / caseTotal * p.points else 0)
  if !p.allowsPartial && points < p.points then 0 else points

def Submission.rescore (s : Submission) (p : Problem) : Submission :=
  { s with points := some (p.rescoredPoints s.casePoints s.caseTotal) }.updateContest

/-- `rescore_problem`, of the submissions of the problem. -/
def rescoreProblem (p : Problem) (submissions : List Submission) : List Submission := submissions.map (·.rescore p)

/-- `recalculate_score`, of the submissions that were selected, each with its problem. -/
def recalculateScore (selected : List (Problem × Submission)) : List Submission :=
  selected.map fun row => row.2.rescore row.1

/-- The points of a part of the total, before any rounding. -/
def exactPoints (worth casePoints caseTotal : ℚ) : ℚ := casePoints / caseTotal * worth

/-- Computing the points again leaves them: with partial points, the exact points are a tenth, or half a thousandth away
    from one; without, either they are the points of the problem to three decimals and to one, or they are not to three,
    and to one they are fewer. -/
def Problem.Agrees (p : Problem) (casePoints caseTotal : ℚ) : Prop :=
  let points := exactPoints p.points casePoints caseTotal
  let fewer := ∃ y, Nearest 10 points y ∧ (y = 0 ∨ (p.allowsPartial = false ∧ y < p.points))
  if caseTotal < 0 then fewer
  else if p.allowsPartial then ∃ k : ℤ, |points - k / 10| ≤ 1 / 2000
  else (Nearest 1000 points p.points ∧ Nearest 10 points p.points) ∨ (¬ Nearest 1000 points p.points ∧ fewer)

section
variable {p : Problem} {casePoints caseTotal x : ℚ}

theorem rounds_alike : roundDigits 3 x = roundDigits 1 x ↔ ∃ k : ℤ, |x - k / 10| ≤ 1 / 2000 := by
  constructor
  · intro h
    obtain ⟨k, hk, _⟩ := (roundDigits_eq_iff 1).mp (rfl : roundDigits 1 x = _)
    obtain ⟨m, hm, hnear⟩ := (roundDigits_eq_iff 3).mp (h.trans hk)
    refine ⟨k, ?_⟩
    have hle : |x * (10 ^ 3 : ℕ) - m| ≤ 1 / 2 := hnear.elim le_of_lt fun heq => heq.1.le
    push_cast at hm hle
    rw [abs_le] at hle ⊢
    constructor <;> linarith
  · rintro ⟨k, hk⟩
    rw [abs_le] at hk
    have hthree : Nearest (10 ^ 3) x (k / 10) := by
      refine ⟨100 * k, by push_cast; ring, ?_⟩
      have hle : |x * (10 ^ 3 : ℕ) - (100 * k : ℤ)| ≤ 1 / 2 := by
        push_cast
        rw [abs_le]
        constructor <;> linarith
      exact hle.lt_or_eq.imp_right fun heq => ⟨heq, (by decide : Even (100 : ℤ)).mul_right k⟩
    have hone : Nearest (10 ^ 1) x (k / 10) := by
      refine ⟨k, by norm_num, .inl ?_⟩
      push_cast
      rw [abs_lt]
      constructor <;> linarith
    rw [(roundDigits_eq_iff 3).mpr hthree, (roundDigits_eq_iff 1).mpr hone]

theorem exists_nearest {Q : ℚ → Prop} : (∃ y, Nearest 10 x y ∧ Q y) ↔ Q (roundDigits 1 x) := by
  rw [← show 10 ^ 1 = 10 by norm_num]
  constructor
  · rintro ⟨y, hy, hQ⟩
    rwa [(roundDigits_eq_iff 1).mpr hy]
  · intro hQ
    exact ⟨roundDigits 1 x, (roundDigits_eq_iff 1).mp rfl, hQ⟩

theorem Problem.rescoredPoints_eq (p : Problem) (casePoints caseTotal : ℚ) :
    p.rescoredPoints casePoints caseTotal =
      let points := roundDigits 1 (exactPoints p.points casePoints caseTotal)
      if p.allowsPartial = false ∧ points < p.points then 0 else points := by
  have hexact : (if caseTotal ≠ 0 then casePoints / caseTotal * p.points else 0) =
      exactPoints p.points casePoints caseTotal := by
    rw [exactPoints]
    split_ifs with h
    · rfl
    · rw [not_not.mp h, div_zero, zero_mul]
  simp only [Problem.rescoredPoints, hexact, Bool.and_eq_true, Bool.not_eq_true', decide_eq_true_eq]

theorem Problem.gradedPoints_eq (p : Problem) (h : 0 ≤ caseTotal) : p.gradedPoints casePoints caseTotal =
    let points := roundDigits 3 (exactPoints p.points casePoints caseTotal)
    if p.allowsPartial = false ∧ points ≠ p.points then 0 else points := by
  have hexact : (if 0 < caseTotal then casePoints / caseTotal * p.points else 0) =
      exactPoints p.points casePoints caseTotal := by
    rw [exactPoints]
    split_ifs with hpos
    · rfl
    · rw [le_antisymm (not_lt.mp hpos) h, div_zero, zero_mul]
  simp only [Problem.gradedPoints, hexact, Bool.and_eq_true, Bool.not_eq_true', decide_eq_true_eq]

/-- A total below zero gives no points. -/
theorem Problem.gradedPoints_neg (p : Problem) (h : caseTotal < 0) : p.gradedPoints casePoints caseTotal = 0 := by
  have hzero : roundDigits 3 0 = 0 := Decimal.roundTo_of_onGrid (by norm_num) Decimal.onGrid_zero
  simp only [Problem.gradedPoints, if_neg h.not_gt, hzero]
  exact ite_self 0

theorem rescoredPoints_agree :
    p.rescoredPoints casePoints caseTotal = p.gradedPoints casePoints caseTotal ↔ p.Agrees casePoints caseTotal := by
  unfold Problem.Agrees
  rw [p.rescoredPoints_eq]
  dsimp only
  rw [exists_nearest]
  have hzero : roundDigits 1 0 = 0 := Decimal.roundTo_of_onGrid (by norm_num) Decimal.onGrid_zero
  rcases lt_or_ge caseTotal 0 with hneg | hnonneg
  · rw [if_pos hneg, p.gradedPoints_neg hneg]
    split_ifs with h
    · exact iff_of_true rfl (.inr h)
    · exact ⟨.inl, fun hor => hor.resolve_right h⟩
  · rw [if_neg hnonneg.not_gt, p.gradedPoints_eq hnonneg]
    dsimp only
    cases hpartial : p.allowsPartial with
    | true => simpa using eq_comm.trans rounds_alike
    | false =>
        have hthree : roundDigits 3 (exactPoints p.points casePoints caseTotal) = p.points ↔
            Nearest 1000 (exactPoints p.points casePoints caseTotal) p.points := by
          simpa using roundDigits_eq_iff 3
        have hone : roundDigits 1 (exactPoints p.points casePoints caseTotal) = p.points ↔
            Nearest 10 (exactPoints p.points casePoints caseTotal) p.points := by
          simpa using roundDigits_eq_iff 1
        -- nothing rounds to no points on three decimals and to fewer on one
        have hnothing : roundDigits 3 (exactPoints p.points casePoints caseTotal) = p.points → p.points = 0 →
            roundDigits 1 (exactPoints p.points casePoints caseTotal) = 0 := by
          intro hpoints hnone
          obtain ⟨k, hk, hnear⟩ := hthree.mp hpoints
          have hk0 : k = 0 := by
            rw [hnone, eq_comm, div_eq_zero_iff] at hk
            exact_mod_cast hk.resolve_right (by norm_num)
          have hle : |exactPoints p.points casePoints caseTotal * (1000 : ℕ) - k| ≤ 1 / 2 :=
            hnear.elim le_of_lt fun heq => heq.1.le
          rw [← rounds_alike.mpr ⟨0, ?_⟩, hpoints, hnone]
          rw [hk0, abs_le] at hle
          push_cast at hle ⊢
          rw [abs_le]
          constructor <;> linarith
        simp only [true_and, Bool.false_eq_true, if_false, ← hthree, ← hone]
        generalize roundDigits 3 (exactPoints p.points casePoints caseTotal) = three at hnothing ⊢
        generalize roundDigits 1 (exactPoints p.points casePoints caseTotal) = one at hnothing ⊢
        by_cases hpoints : three = p.points
        · rw [if_neg (not_not.mpr hpoints), hpoints]
          split_ifs with hless
          · refine iff_of_false (fun hnone => ?_) fun h => ?_
            · rw [hnothing hpoints hnone.symm, ← hnone] at hless
              exact lt_irrefl _ hless
            · rcases h with ⟨_, heq⟩ | ⟨hne, _⟩
              · exact hless.ne heq
              · exact hne rfl
          · simp
        · rw [if_pos hpoints]
          split_ifs with hless
          · exact iff_of_true rfl (.inr ⟨hpoints, .inr hless⟩)
          · simp [hpoints, hless]

/-- What a grading leaves on the contest submission is what comes out of it again. -/
theorem rescore_contest {s s' : Submission} (h : s.gradingEnd p = some s') : (s'.rescore p).contest = s'.contest := by
  simp only [Submission.gradingEnd, Option.bind_eq_bind, Option.bind_eq_some_iff] at h
  obtain ⟨g, _, result, _, h⟩ := h
  rw [← Option.some.inj h]
  simp only [Submission.rescore, Submission.updateContest, Option.map_map]
  rfl

theorem gradingEnd_points {s s' : Submission} (h : s.gradingEnd p = some s') :
    s'.points = some (p.gradedPoints s'.casePoints s'.caseTotal) := by
  simp only [Submission.gradingEnd, Option.bind_eq_bind, Option.bind_eq_some_iff] at h
  obtain ⟨g, _, result, _, h⟩ := h
  rw [← Option.some.inj h]
  rfl

theorem rescore_eq_iff {s s' : Submission} (h : s.gradingEnd p = some s') :
    s'.rescore p = s' ↔ p.Agrees s'.casePoints s'.caseTotal := by
  rw [← rescoredPoints_agree]
  have hpoints := gradingEnd_points h
  constructor
  · intro heq
    have hstored : some (p.rescoredPoints s'.casePoints s'.caseTotal) = s'.points := congrArg Submission.points heq
    exact Option.some.inj (hstored.trans hpoints)
  · intro heq
    have hcontest := rescore_contest h
    cases s' with
    | mk status result points casePoints caseTotal testCases contest =>
        simp only [Submission.rescore, Submission.updateContest, Submission.mk.injEq, true_and] at hcontest ⊢
        exact ⟨(congrArg some heq).trans hpoints.symm, hcontest⟩

end

/-- A problem of a hundred points, with partial points. -/
def hundred : Problem := { points := 100, allowsPartial := true }

/-- A submission that passes some cases of a point each. -/
def passing (cases : List ℚ) : Submission :=
  { status := .G, testCases := cases.map fun points => { batch := none, points := some points, total := some 1 } }

end Judging
end CpcJudge
