import CpcJudge.Lib.Decimal
import Mathlib.Data.Prod.Lex

/-!
# `Contest.Basic` — submissions, cells, totals and the order of a scoreboard

The rows a contest format reads, and what it leaves on a participation: one cell for each problem, and the
three totals the scoreboard orders by.
-/

namespace CpcJudge
namespace Contest

/-- A moment: microseconds, the resolution of a `datetime`. -/
abbrev Time := ℤ

/-- `timedelta.total_seconds()`. -/
def totalSeconds (delta : Time) : ℚ := delta / 1000000

/-- `SUBMISSION_RESULT`. -/
inductive Result where
  | AC | WA | TLE | MLE | OLE | IR | RTE | CE | IE | SC | AB
  deriving DecidableEq, Repr

/-- `Submission.STATUS`. -/
inductive Status where
  | QU | P | G | D | IE | CE | AB
  deriving DecidableEq, Repr

/-- `SubmissionTestCase`. -/
structure TestCase where
  batch : Option ℤ
  points : Option ℚ
  total : Option ℚ := none
  status : Result := .AC
  deriving DecidableEq, Repr

/-- `ContestProblem`. -/
structure ContestProblem where
  points : ℤ
  allowsPartial : Bool := true
  deriving DecidableEq, Repr

/-- `ContestSubmission`, with the row of its `submission`. The contest problem is named by its key. -/
structure ContestSubmission where
  submission : ℕ
  problem : ℕ
  points : ℚ
  date : Time
  status : Status
  result : Option Result
  casePoints : ℚ := 0
  caseTotal : ℚ := 0
  testCases : List TestCase
  deriving DecidableEq, Repr

/-- An entry of `format_data`: the dictionary a format stores for one problem. A key it does not write is `none`. -/
structure Cell where
  points : Option ℚ := none
  time : Option ℚ := none
  penalty : Option ℤ := none
  bonus : Option ℚ := none
  deriving DecidableEq, Repr

/-- `score`, `cumtime` and `tiebreaker`, as they are stored on a participation or on its frozen copy. -/
structure Totals where
  score : Option ℚ
  cumtime : Option ℚ
  tiebreaker : Option ℚ
  deriving DecidableEq, Repr

/-- What `sort_key` returns, compared from left to right. -/
abbrev SortKey := ℚ ×ₗ (ℤ ×ₗ ℚ)

/-- `round(value, digits)`. -/
def roundDigits (digits : ℕ) (value : ℚ) : ℚ := Decimal.roundTo (10 ^ digits) value

/-- `sort_key`: more points, then less time, then the format's tiebreaker. -/
def sortKey (totals : Totals) (precision : ℕ) : SortKey :=
  toLex (-roundDigits precision (totals.score.getD 0),
    toLex (Decimal.truncate (totals.cumtime.getD 0), roundDigits 6 (totals.tiebreaker.getD 0)))

end Contest
end CpcJudge
