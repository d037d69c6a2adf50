import CpcJudge.Lib.Decimal
import CpcJudge.Lib.FirstBest
import CpcJudge.Arena.Rules

/-!
# `Arena.Scoring` — who is winning a game, and whether it can already be called

`judge/arena/scoring.py`, function by function. A player's score is the sum of their best points on each
problem; ties are broken by the moment the score was reached, plus the penalty of the failed attempts made
before each best submission. `decide` calls a game as soon as the worst case of one player beats the best
case of the other.

Points are exact rationals, rounded to three decimals where the source rounds. `problems` is a dictionary
from the key of a problem to its points, kept as the list of its items.
-/

namespace CpcJudge
namespace Arena
namespace Scoring

open Decimal

/-! ## Attempts -/

/-- `Submission.STATUS`. -/
inductive Status where
  | qu | p | g | d | ie | ce | ab
  deriving DecidableEq, Repr

/-- `Submission.RESULT`. -/
inductive Verdict where
  | ac | wa | tle | mle | ole | ir | rte | ce | ie | sc | ab
  deriving DecidableEq, Repr

/-- `PENDING`. -/
def pendingStatuses : List Status := [.qu, .p, .g]

/-- `NOT_ATTEMPTS`: neither is the player's doing, so they cost nothing. -/
def notAttempts : List Status := [.ce, .ie]

/-- `EPSILON`. -/
def epsilon : ℚ := 1 / 10 ^ 9

structure Attempt where
  id : ℕ
  date : Time
  status : Status
  result : Option Verdict
  casePoints : ℚ
  caseTotal : ℚ
  problem : ℕ
  deriving DecidableEq, Repr

namespace Attempt

def pending (attempt : Attempt) : Bool := attempt.status ∈ pendingStatuses

/-- Whether it uses up one of the attempts allowed on the problem. -/
def counts (attempt : Attempt) : Bool := attempt.status ∉ notAttempts

def penalizable (attempt : Attempt) : Bool := !attempt.pending && attempt.status ∉ notAttempts

/-- What the player sent, whatever the judges make of it: its key, its date and its problem. -/
def submission (attempt : Attempt) : ℕ × Time × ℕ := (attempt.id, attempt.date, attempt.problem)

end Attempt

/-- `round(x, 3)`. -/
def round3 (x : ℚ) : ℚ := roundTo 1000 x

/-- Points a judged attempt earns on a problem worth `full`. Pending and failed attempts earn nothing. -/
def pointsOf (attempt : Attempt) (full : ℕ) (partialPoints : Bool) : ℚ :=
  if attempt.status ≠ .d ∨ attempt.caseTotal ≤ 0 then 0
  else if attempt.result = some .ac ∧ attempt.caseTotal ≤ attempt.casePoints then full
  else if partialPoints then min full (round3 (attempt.casePoints / attempt.caseTotal * full))
  else 0

/-! ## Standings -/

/-- The place of an event: its date, then its id; `float('inf')` is `⊤`. -/
abbrev Order := Time ×ₗ WithTop ℕ

/-- `_Event`. -/
structure Event where
  problem : ℕ
  date : Time
  order : Order
  points : ℚ
  penalizable : Bool

structure ProblemStanding where
  best : ℚ := 0
  full : Bool := false
  attempts : ℕ := 0
  pending : ℕ := 0
  penalized : ℕ := 0
  bestAt : Option Time := none
  solvedAt : Option Time := none
  deriving DecidableEq, Repr

structure Standing where
  score : ℚ := 0
  reach : Option Time := none
  penalized : ℕ := 0
  effective : Option ℚ := none
  problems : List (ℕ × ProblemStanding) := []
  deriving DecidableEq, Repr

/-- The row of one problem: the body of the loop of `_standing`. -/
def problemStanding (events : List Event) (key full : ℕ) : ProblemStanding :=
  let ordered := (events.filter (·.problem = key)).insertionSort (·.order ≤ ·.order)
  let best := ((ordered.map (·.points)).max?).getD 0
  if epsilon < best then
    let index := ordered.findIdx fun event => best - epsilon ≤ event.points
    ordered[index]?.elim {} fun event =>
      let solved := decide (full - epsilon ≤ best)
      { best
        full := solved
        bestAt := some event.date
        penalized := (ordered.take index).countP (·.penalizable)
        solvedAt := if solved then some event.date else none }
  else {}

/-- What `_standing` accumulates while it goes through the problems. -/
structure Tally where
  standing : Standing := {}
  total : ℚ := 0

/-- One turn of the loop of `_standing`: only a problem that gave points moves the totals. -/
def Tally.add (tally : Tally) (key : ℕ) (row : ProblemStanding) : Tally :=
  match row.bestAt with
  | none => { tally with standing.problems := tally.standing.problems ++ [(key, row)] }
  | some bestAt =>
    { standing :=
        { tally.standing with
          penalized := tally.standing.penalized + row.penalized
          reach := some (match tally.standing.reach with
            | none => bestAt
            | some reach => max reach bestAt)
          problems := tally.standing.problems ++ [(key, row)] }
      total := tally.total + row.best }

/-- `timedelta.total_seconds()`. -/
def totalSeconds (span : Time) : ℚ := span / (10 ^ 6 : ℕ)

/-- The end of `_standing`: the rounded score, and the effective time of whoever reached one. -/
def Tally.close (tally : Tally) (penalty : ℕ) (startedAt : Time) : Standing :=
  { tally.standing with
    score := round3 tally.total
    effective := tally.standing.reach.map fun reach =>
      totalSeconds (reach - startedAt) + (penalty * 60 * tally.standing.penalized : ℕ) }

/-- `_standing`. -/
def standing (events : List Event) (problems : List (ℕ × ℕ)) (penalty : ℕ) (startedAt : Time) :
    Standing :=
  let tally : Tally := problems.foldl
    (fun tally item => tally.add item.1 (problemStanding events item.1 item.2)) {}
  tally.close penalty startedAt

/-- The event of a judged attempt on a problem worth `full`. -/
def judgedEvent (partialPoints : Bool) (full : ℕ) (a : Attempt) : Event where
  problem := a.problem
  date := a.date
  order := toLex (a.date, (a.id : WithTop ℕ))
  points := pointsOf a full partialPoints
  penalizable := a.penalizable

/-- The event a pending attempt is taken for: worth `points`, and a failed attempt or not. -/
def pendingEvent (points : ℚ) (penalizable : Bool) (a : Attempt) : Event where
  problem := a.problem
  date := a.date
  order := toLex (a.date, (a.id : WithTop ℕ))
  points := points
  penalizable := penalizable

/-- `_judged_events`. -/
def judgedEvents (attempts : List Attempt) (problems : List (ℕ × ℕ)) (partialPoints : Bool) :
    List Event :=
  attempts.filterMap fun a =>
    if a.pending then none
    else (problems.lookup a.problem).map fun full => judgedEvent partialPoints full a

/-- `_annotate`: the attempts and the pending submissions of each problem. -/
def annotate (standing : Standing) (attempts : List Attempt) : Standing :=
  { standing with
    problems := standing.problems.map fun (key, row) =>
      (key,
        { row with
          attempts := row.attempts + attempts.countP fun a => a.problem = key && a.counts
          pending := row.pending + attempts.countP fun a => a.problem = key && a.pending }) }

/-- The standing on judged submissions only, with attempt and pending counts per problem. -/
def confirmed (attempts : List Attempt) (problems : List (ℕ × ℕ)) (partialPoints : Bool)
    (penalty : ℕ) (startedAt : Time) : Standing :=
  annotate (standing (judgedEvents attempts problems partialPoints) problems penalty startedAt) attempts

/-- Every pending submission fails: it earns nothing, and counts as a failed attempt if it is earlier
    than the best submission on its problem. -/
def worstCase (attempts : List Attempt) (problems : List (ℕ × ℕ)) (partialPoints : Bool)
    (penalty : ℕ) (startedAt : Time) : Standing :=
  let events := judgedEvents attempts problems partialPoints ++
    attempts.filterMap fun a =>
      if a.pending then (problems.lookup a.problem).map fun _ => pendingEvent 0 true a else none
  standing events problems penalty startedAt

/-- `attempts_left`: none at all when there is no limit. -/
def attemptsLeft (attempts : List Attempt) (problem maxAttempts : ℕ) : Option ℕ :=
  if maxAttempts = 0 then none
  else some (maxAttempts - attempts.countP fun a => a.problem = problem && a.counts)

/-- The full solve a player may still get on a problem at `futureAt`, if nothing of theirs solves it and
    attempts are left. -/
def futureEvent (attempts : List Attempt) (events : List Event) (maxAttempts : ℕ) (futureAt : Time)
    (key full : ℕ) : Option Event :=
  let done := events.any fun event => event.problem = key && full - epsilon ≤ event.points
  let left := attemptsLeft attempts key maxAttempts
  if !done && (left.isNone || left.any (0 < ·)) then
    some { problem := key, date := futureAt, order := toLex (futureAt, ⊤), points := full,
           penalizable := false }
  else none

/-- The events `best_case` starts from: every pending submission is a full solve on the date it was sent. -/
def bestEvents (attempts : List Attempt) (problems : List (ℕ × ℕ)) (partialPoints : Bool) : List Event :=
  judgedEvents attempts problems partialPoints ++
    attempts.filterMap fun a =>
      if a.pending then (problems.lookup a.problem).map fun (full : ℕ) => pendingEvent full false a
      else none

/-- Every pending submission is a full solve on the date it was sent, and, if `futureAt` is given, every
    problem not yet solved in full gets a full solve at `futureAt` as long as attempts are left on it.
    The events added for one problem never touch another, so they are all read off the initial ones. -/
def bestCase (attempts : List Attempt) (problems : List (ℕ × ℕ)) (partialPoints : Bool)
    (penalty : ℕ) (startedAt : Time) (futureAt : Option Time) (maxAttempts : ℕ) : Standing :=
  let events := bestEvents attempts problems partialPoints
  let future := match futureAt with
    | none => []
    | some moment => problems.filterMap fun (key, full) =>
        futureEvent attempts events maxAttempts moment key full
  standing (events ++ future) problems penalty startedAt

/-- Whether standing `first` ranks strictly above standing `second`. -/
def beats (first second : Standing) : Bool :=
  if second.score + epsilon < first.score then true
  else if |first.score - second.score| ≤ epsilon ∧ epsilon < first.score then
    match first.effective, second.effective with
    | some x, some y => x < y - epsilon
    | _, _ => false
  else false

/-! ## Decisions -/

/-- Outcomes of `decide`. -/
inductive Outcome where
  | countdown | live | verifying | finish | tie
  deriving DecidableEq, Repr

/-- Reasons recorded with a finished game; `organizer` is given by the engine. -/
inductive Reason where
  | allSolved | unreachable | morePoints | earlier | organizer
  deriving DecidableEq, Repr

structure Decision where
  outcome : Outcome
  winner : Option Slot := none
  reason : Option Reason := none
  deriving DecidableEq, Repr

/-- Why `leader` has won: the middle of `decide`. -/
def winReason (openFuture : Bool) (total : ℚ) (worst best : Standing) : Reason :=
  if openFuture then
    if total - epsilon ≤ worst.score then .allSolved else .unreachable
  else if best.score + epsilon < worst.score then .morePoints
  else .earlier

/-- What a game is: still in its countdown, live, waiting for verdicts, won by one player, or tied.
    `closed` says submissions were closed before `endsAt`. -/
protected def decide (attempts : Pair (List Attempt)) (problems : List (ℕ × ℕ)) (rules : Rules)
    (startedAt endsAt now : Time) (closed : Bool) : Decision :=
  if now < startedAt then { outcome := .countdown }
  else
    let partialPoints := rules.partialPoints.getD false
    let penalty := rules.penalty.getD 0
    let maxAttempts := rules.maxAttempts.getD 0
    let openFuture := !closed && now < endsAt
    let futureAt := if openFuture then some now else none
    let total := round3 ((problems.map fun item => (item.2 : ℚ)).sum)
    let worst := fun slot => worstCase (attempts.get slot) problems partialPoints penalty startedAt
    let best := fun slot =>
      bestCase (attempts.get slot) problems partialPoints penalty startedAt futureAt maxAttempts
    if beats (worst .a) (best .b) then
      { outcome := .finish, winner := some .a,
        reason := some (winReason openFuture total (worst .a) (best .b)) }
    else if beats (worst .b) (best .a) then
      { outcome := .finish, winner := some .b,
        reason := some (winReason openFuture total (worst .b) (best .a)) }
    else if openFuture then { outcome := .live }
    else if attempts.a.any (·.pending) || attempts.b.any (·.pending) then { outcome := .verifying }
    else { outcome := .tie }

/-- Final call by the organizer while verdicts are stuck. -/
def decideIgnoringPending (attempts : Pair (List Attempt)) (problems : List (ℕ × ℕ)) (rules : Rules)
    (startedAt endsAt now : Time) : Decision :=
  Scoring.decide (attempts.map fun l => l.filter (!·.pending)) problems rules startedAt endsAt (max now endsAt)
    true

/-! ## The view kept with a finished game -/

/-- One problem of a `Summary`. -/
structure SummaryRow where
  best : ℚ
  full : Bool
  attempts : ℕ
  pending : ℕ
  penalized : ℕ
  solvedAt : Option ℚ
  bestAt : Option ℚ
  deriving DecidableEq, Repr

/-- A standing with seconds from the start instead of dates. -/
structure Summary where
  score : ℚ
  effective : Option ℚ
  reach : Option ℚ
  penalized : ℕ
  problems : List (ℕ × SummaryRow)
  deriving DecidableEq, Repr

/-- `summary`. -/
def summary (standing : Standing) (startedAt : Time) (problemsOrder : List ℕ) : Summary :=
  let seconds := fun (moment : Option Time) =>
    moment.map fun t => round3 (totalSeconds (t - startedAt))
  { score := standing.score
    effective := standing.effective.map round3
    reach := seconds standing.reach
    penalized := standing.penalized
    problems := problemsOrder.filterMap fun key =>
      (standing.problems.lookup key).map fun row =>
        (key,
          { best := row.best, full := row.full, attempts := row.attempts, pending := row.pending,
            penalized := row.penalized, solvedAt := seconds row.solvedAt, bestAt := seconds row.bestAt }) }

end Scoring
end Arena
end CpcJudge
