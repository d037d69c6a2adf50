import CpcJudge.Contest.Freeze

/-!
# `Contest.Judging` — judging the submissions of a contest

What a judging writes on a submission, from the request to its last packet, and what it writes on the contest
side: the end of a grading updates the contest points of the submission and recomputes its participation. The
other ways a judging can end write the submission only.
-/

namespace CpcJudge
namespace Contest

/-! ## Grading -/

/-- The variables of the loop of `on_grading_end` over the test cases. -/
structure Grading where
  points : ℚ := 0
  total : ℚ := 0
  status : ℕ := 0
  batches : List (ℤ × ℚ × ℚ) := []

/-- `status_codes`. -/
def statusCodes : List Result := [.SC, .AC, .WA, .MLE, .TLE, .IR, .RTE, .OLE]

/-- `batches[case.batch]`: the fewest points and the greatest total of its cases. -/
def addToBatch (batches : List (ℤ × ℚ × ℚ)) (batch : ℤ) (points total : ℚ) : List (ℤ × ℚ × ℚ) :=
  if batches.any (·.1 = batch) then
    batches.map fun entry =>
      if entry.1 = batch then (batch, min entry.2.1 points, max entry.2.2 total) else entry
  else batches ++ [(batch, points, total)]

/-- One test case. Points that are `NULL` and a status that is no code raise. -/
def Grading.add (g : Grading) (case : TestCase) : Option Grading := do
  let points ← case.points
  let total ← case.total
  let index ← statusCodes.findIdx? (· = case.status)
  match case.batch with
  | none | some 0 => some { g with points := g.points + points, total := g.total + total, status := max g.status index }
  | some batch =>
      some { g with batches := addToBatch g.batches batch points total, status := max g.status index }

namespace ContestSubmission

variable (s : ContestSubmission) (c : ContestRow)

/-- `is_graded`: the judging is over. -/
def isGraded : Bool := s.status ≠ .QU && s.status ≠ .P && s.status ≠ .G

/-- `update_contest`: the contest points of the verdict. -/
def contestPoints : ℚ :=
  let worth : ℚ := (c.problems s.problem).points
  let points := roundDigits 3 (if 0 < s.caseTotal then s.casePoints / s.caseTotal * worth else 0)
  if !(c.problems s.problem).allowsPartial && points ≠ worth then 0 else points

/-- `on_grading_end`, up to the recomputation of the participation. -/
def gradingEnd : Option ContestSubmission := do
  let g : Grading ← s.testCases.foldlM Grading.add {}
  let (batchPoints, batchTotals) := g.batches.unzip.2.unzip
  let result ← statusCodes[g.status]?
  let s := { s with
    status := .D
    result := some result
    casePoints := roundDigits 1 (g.points + batchPoints.sum)
    caseTotal := roundDigits 1 (g.total + batchTotals.sum) }
  some { s with points := s.contestPoints c }

/-- `judge_submission`: a submission that is not with a judge is queued again, from nothing. A request that does not
reach the bridge is an internal error. -/
def judge (accepted : Bool) : ContestSubmission :=
  if s.status = .P ∨ s.status = .G then s
  else
    let s := { s with status := .QU, result := none, casePoints := 0, caseTotal := 0, testCases := [] }
    if accepted then s else { s with status := .IE, result := some .IE }

end ContestSubmission

/-- What a judge reports about a submission. -/
inductive Packet where
  | processing
  | gradingBegin
  | testCase (cases : List TestCase)
  | compileError
  | internalError
  | terminated

/-- The handlers of a judge that write the submission only. -/
def ContestSubmission.handle (s : ContestSubmission) : Packet → ContestSubmission
  | .processing => { s with status := .P }
  | .gradingBegin => { s with status := .G, testCases := [] }
  | .testCase cases => { s with testCases := s.testCases ++ cases }
  | .compileError => { s with status := .CE, result := some .CE }
  | .internalError => { s with status := .IE, result := some .IE }
  | .terminated => { s with status := .AB, result := some .AB }

/-! ## Events -/

/-- What can happen to the submissions of a contest. -/
inductive JudgeEvent where
  | submitted (participation submission problem : ℕ) (date : Time)
  | judge (submission : ℕ) (accepted : Bool)
  | packet (submission : ℕ) (packet : Packet)
  | gradingEnd (submission : ℕ)
  | disconnected (submission : ℕ)
  | unjudged (submission : ℕ)
  | recompute (participation : ℕ)
  | setDisqualified (participation : ℕ) (disqualified : Bool)

/-- The events that write one submission and nothing else: `judge_submission`, the packets, a judge that disconnects
with the submission, and `abort_submission` when no judge had it. -/
def ContestSubmission.afterEvent (s : ContestSubmission) : JudgeEvent → ContestSubmission
  | .judge id accepted => if s.submission = id then s.judge accepted else s
  | .packet id packet => if s.submission = id then s.handle packet else s
  | .disconnected id => if s.submission = id then { s with status := .IE, result := some .IE } else s
  | .unjudged id =>
      if s.submission = id ∧ s.status ≠ .D then { s with status := .AB, result := some .AB } else s
  | _ => s

namespace ContestParticipation

variable (p : ContestParticipation) (c : ContestRow) (now : Time)

/-- The participation has the submission, and its grading ends without raising. -/
def hasGrading (id : ℕ) : Bool :=
  p.submissions.any fun s : ContestSubmission => s.submission = id && (s.gradingEnd c).isSome

def withGrading (id : ℕ) : ContestParticipation :=
  { p with submissions := p.submissions.map fun s => if s.submission = id then (s.gradingEnd c).getD s else s }

/-- `on_grading_end` for a submission of the participation. -/
def onGradingEnd (id : ℕ) : ContestParticipation :=
  if p.hasGrading c id then (p.withGrading c id).recomputeResults c now else p

/-- A participation after an event of its contest. -/
def judged (e : JudgeEvent) : ContestParticipation :=
  match e with
  | .submitted id submission problem date =>
      if p.id = id then
        { p with submissions := p.submissions ++
            [{ submission, problem, points := 0, date, status := .QU, result := none, testCases := [] }] }
      else p
  | .gradingEnd id => p.onGradingEnd c now id
  | .recompute id => if p.id = id then p.recomputeResults c now else p
  | .setDisqualified id disqualified =>
      if p.id = id then { p with isDisqualified := disqualified }.recomputeResults c now else p
  | e => { p with submissions := p.submissions.map (·.afterEvent e) }

/-- The end of a history of judgings. -/
def judgedRun (events : List (Time × JudgeEvent)) : ContestParticipation :=
  events.foldl (fun p e => p.judged c e.1 e.2) p

end ContestParticipation

/-- The board at the end of a history of judgings. -/
def Board.judgedRun (b : Board) (events : List (Time × JudgeEvent)) : Board :=
  events.foldl (fun b e => { b with rows := b.rows.map (·.judged b.contest e.1 e.2) }) b

end Contest
end CpcJudge
