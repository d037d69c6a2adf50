import CpcJudge.Contest.Basic

/-!
# `Contest.Formats` — the contest formats

`update_participation` of the six formats. Each reads some rows out of the submissions of a participation,
a query grouped by problem, and walks them once, adding up the totals and writing one cell for each problem
into `format_data`. The queries are list computations here: a group is never empty, so the maximum or the
minimum of one always exists.
-/

namespace CpcJudge
namespace Contest

/-- The formats of the registry. -/
inductive Format where
  | default | ioi | ioi16 | icpc | atcoder | ecoo
  deriving DecidableEq, Repr

/-- The configuration of a contest; a key that is not in the dictionary is `none`. -/
structure FormatConfig where
  cumtime : Option Bool := none
  penalty : Option ℤ := none
  firstAcBonus : Option ℤ := none
  timeBonus : Option ℤ := none
  deriving DecidableEq, Repr

/-- `self.config`: `config_defaults`, with the keys of the contest over them. -/
def Format.config (format : Format) (config : FormatConfig) : FormatConfig :=
  match format with
  | .default => config
  | .ioi | .ioi16 => { config with cumtime := config.cumtime <|> some false }
  | .icpc => { config with penalty := config.penalty <|> some 20 }
  | .atcoder => { config with penalty := config.penalty <|> some 5 }
  | .ecoo =>
      { config with
        cumtime := config.cumtime <|> some false
        firstAcBonus := config.firstAcBonus <|> some 10
        timeBonus := config.timeBonus <|> some 5 }

/-- The participation a format scores: its window, the problems of the contest and its submissions. -/
structure Participation where
  start : Time
  endTime : Time
  problems : ℕ → ContestProblem
  submissions : List ContestSubmission

/-- `format_data`: a cell for each problem, by the key of the problem. -/
abbrev FormatData := List (ℕ × Cell)

/-- `format_data[problem] = cell`. -/
def FormatData.setCell (data : FormatData) (problem : ℕ) (cell : Cell) : FormatData :=
  if problem ∈ data.map (·.1) then data.map fun item => if item.1 = problem then (problem, cell) else item
  else data ++ [(problem, cell)]

/-- What `update_participation` leaves on the participation before it saves it. -/
structure Results where
  score : ℚ
  cumtime : ℚ
  tiebreaker : ℚ
  formatData : FormatData
  deriving DecidableEq, Repr

/-- The columns of the participation once saved: `cumtime` is an integer field. -/
structure Saved where
  score : ℚ
  cumtime : ℤ
  tiebreaker : ℚ
  formatData : FormatData
  deriving DecidableEq, Repr

/-- `participation.save()`. -/
def Results.save (r : Results) : Saved :=
  { score := r.score, cumtime := Decimal.truncate r.cumtime, tiebreaker := r.tiebreaker, formatData := r.formatData }

/-! ## The queries -/

/-- A row of a query: a problem, a moment and the points. -/
structure ProblemRow where
  problem : ℕ
  time : Time
  points : ℚ

/-- `MAX` and `MIN` over a group. -/
def maximum {α : Type} [LinearOrder α] [Zero α] (group : List α) : α := group.max?.getD 0
def minimum {α : Type} [LinearOrder α] [Zero α] (group : List α) : α := group.min?.getD 0

/-- `GROUP BY problem`: the problems of the groups. -/
def problemsOf (submissions : List ContestSubmission) : List ℕ := (submissions.map (·.problem)).dedup

theorem problemsOf_nodup {submissions : List ContestSubmission} : (problemsOf submissions).Nodup := List.nodup_dedup _

def groupOf (submissions : List ContestSubmission) (problem : ℕ) : List ContestSubmission :=
  submissions.filter (·.problem = problem)

/-- The default format: the last date and the most points of each problem. -/
def lastRows (submissions : List ContestSubmission) : List ProblemRow :=
  (problemsOf submissions).map fun problem =>
    let group := groupOf submissions problem
    ⟨problem, maximum (group.map (·.date)), maximum (group.map (·.points))⟩

/-- Legacy IOI, ICPC and AtCoder: the most points of each problem, and the first date they were reached. -/
def bestRows (submissions : List ContestSubmission) : List ProblemRow :=
  (problemsOf submissions).map fun problem =>
    let group := groupOf submissions problem
    let points := maximum (group.map (·.points))
    ⟨problem, minimum ((group.filter (·.points = points)).map (·.date)), points⟩

/-- `MIN(tc.points)` over the test cases of a batch; a `NULL` does not count. -/
def batchPoints (batch : Option ℤ) (s : ContestSubmission) : Option ℚ :=
  ((s.testCases.filter (·.batch = batch)).filterMap (·.points)).min?

/-- The IOI format: for each problem and batch, the most any graded submission got for the batch, and the first date
it was reached. A batch whose points are all `NULL` joins nothing. -/
def batchRows (submissions : List ContestSubmission) : List ProblemRow :=
  let graded := submissions.filter (·.status = .D)
  (problemsOf graded).flatMap fun problem =>
    let group := groupOf graded problem
    (group.flatMap fun s => s.testCases.map (·.batch)).dedup.filterMap fun batch =>
      let reached := group.filter fun s => s.testCases.any (·.batch = batch)
      (reached.filterMap (batchPoints batch)).max?.map fun points =>
        ⟨problem, minimum ((reached.filter (batchPoints batch · = some points)).map (·.date)), points⟩

/-- `submission__result__in=('IE', 'CE')`. -/
def ContestSubmission.failed (s : ContestSubmission) : Bool := s.result = some .IE || s.result = some .CE

/-- The ECOO format: the last date of each problem, and the most points of that date. -/
def finalRows (submissions : List ContestSubmission) : List ProblemRow :=
  (problemsOf submissions).map fun problem =>
    let group := groupOf submissions problem
    let date := maximum (group.map (·.date))
    ⟨problem, date, maximum ((group.filter (·.date = date)).map (·.points))⟩

/-! ## The loops -/

/-- The variables the loops of `update_participation` add up. -/
structure Loop where
  score : ℚ := 0
  cumtime : ℚ := 0
  penalty : ℚ := 0
  last : ℚ := 0
  formatData : FormatData := []

variable (p : Participation) (config : FormatConfig)

def elapsed (time : Time) : ℚ := totalSeconds (time - p.start)

/-- `DefaultContestFormat.update_participation`. -/
def defaultStep (l : Loop) (row : ProblemRow) : Loop :=
  let dt := elapsed p row.time
  { l with
    cumtime := if row.points ≠ 0 then l.cumtime + dt else l.cumtime
    formatData := l.formatData.setCell row.problem { time := some dt, points := some row.points }
    score := l.score + row.points }

def updateDefault (precision : ℕ) : Results :=
  let l := (lastRows p.submissions).foldl (defaultStep p) {}
  { score := roundDigits precision l.score, cumtime := max l.cumtime 0, tiebreaker := 0, formatData := l.formatData }

/-- `LegacyIOIContestFormat.update_participation`. -/
def ioiStep (l : Loop) (row : ProblemRow) : Loop :=
  let dt := if config.cumtime = some true then elapsed p row.time else 0
  { l with
    cumtime := if config.cumtime = some true ∧ row.points ≠ 0 then l.cumtime + dt else l.cumtime
    formatData := l.formatData.setCell row.problem { points := some row.points, time := some dt }
    score := l.score + row.points }

def updateIoi (precision : ℕ) : Results :=
  let l := (bestRows p.submissions).foldl (ioiStep p config) {}
  { score := roundDigits precision l.score, cumtime := max l.cumtime 0, tiebreaker := 0, formatData := l.formatData }

/-- `IOIContestFormat.update_participation`: a batch is added to the cell of its problem. -/
def batchStep (data : FormatData) (row : ProblemRow) : FormatData :=
  let dt := if config.cumtime = some true then elapsed p row.time else 0
  let cell := (data.lookup row.problem).getD { points := some 0, time := some 0 }
  data.setCell row.problem
    { points := some (cell.points.getD 0 + row.points), time := some (max dt (cell.time.getD 0)) }

def ioi16Step (l : Loop) (cell : Cell) : Loop :=
  let points := cell.points.getD 0
  { l with
    cumtime := if config.cumtime = some true ∧ points ≠ 0 then l.cumtime + cell.time.getD 0 else l.cumtime
    score := l.score + points }

def updateIoi16 (precision : ℕ) : Results :=
  let data := (batchRows p.submissions).foldl (batchStep p config) []
  let l := (data.map (·.2)).foldl (ioi16Step config) {}
  { score := roundDigits precision l.score, cumtime := max l.cumtime 0, tiebreaker := 0, formatData := data }

/-- The submissions an ICPC or AtCoder cell counts as attempts: those with a result that is no `IE` and no `CE`. -/
def attemptsOf (problem : ℕ) : List ContestSubmission :=
  p.submissions.filter fun s => s.result.isSome && !s.failed && s.problem = problem

/-- `prev`: the attempts before the one that reached the points, or all of them without points. -/
def attemptsBefore (row : ProblemRow) : ℤ :=
  if config.penalty.getD 0 ≠ 0 then
    if row.points ≠ 0 then ((attemptsOf p row.problem).countP (·.date ≤ row.time) : ℤ) - 1
    else ((attemptsOf p row.problem).length : ℤ)
  else 0

/-- `penalty += prev * self.config['penalty'] * 60`. -/
def addPenalty (penalty : ℚ) (row : ProblemRow) : ℚ :=
  if config.penalty.getD 0 ≠ 0 ∧ row.points ≠ 0 then
    penalty + attemptsBefore p config row * config.penalty.getD 0 * 60
  else penalty

/-- `ICPCContestFormat.update_participation`. -/
def icpcStep (l : Loop) (row : ProblemRow) : Loop :=
  let dt := elapsed p row.time
  { l with
    penalty := addPenalty p config l.penalty row
    cumtime := if row.points ≠ 0 then l.cumtime + dt else l.cumtime
    last := if row.points ≠ 0 then max l.last dt else l.last
    formatData := l.formatData.setCell row.problem
      { time := some dt, points := some row.points, penalty := some (attemptsBefore p config row) }
    score := l.score + row.points }

def updateIcpc (precision : ℕ) : Results :=
  let l := (bestRows p.submissions).foldl (icpcStep p config) {}
  { score := roundDigits precision l.score
    cumtime := l.cumtime + l.penalty
    tiebreaker := l.last
    formatData := l.formatData }

/-- `AtCoderContestFormat.update_participation`. -/
def atcoderStep (l : Loop) (row : ProblemRow) : Loop :=
  let dt := elapsed p row.time
  { l with
    penalty := addPenalty p config l.penalty row
    cumtime := if row.points ≠ 0 then max l.cumtime dt else l.cumtime
    formatData := l.formatData.setCell row.problem
      { time := some dt, points := some row.points, penalty := some (attemptsBefore p config row) }
    score := l.score + row.points }

def updateAtcoder (precision : ℕ) : Results :=
  let l := (bestRows p.submissions).foldl (atcoderStep p config) {}
  { score := roundDigits precision l.score
    cumtime := l.cumtime + l.penalty
    tiebreaker := 0
    formatData := l.formatData }

/-- `ECOOContestFormat.update_participation`: the bonus of a cell. -/
def ecooBonus (counted : List ContestSubmission) (row : ProblemRow) : ℚ :=
  if 0 < row.points then
    let first : ℚ := if (groupOf counted row.problem).length = 1 ∧ row.points = (p.problems row.problem).points then
        config.firstAcBonus.getD 0 else 0
    let early : ℚ := if config.timeBonus.getD 0 ≠ 0 then
        ((⌊totalSeconds (p.endTime - row.time) / 60⌋ : ℚ) / config.timeBonus.getD 0).floor else 0
    first + early
  else 0

def ecooCell (counted : List ContestSubmission) (row : ProblemRow) : Cell :=
  { time := some (elapsed p row.time), points := some row.points, bonus := some (ecooBonus p config counted row) }

def ecooStep (l : Loop) (cell : Cell) : Loop :=
  { l with
    cumtime := if config.cumtime = some true then l.cumtime + cell.time.getD 0 else l.cumtime
    score := l.score + (cell.points.getD 0 + cell.bonus.getD 0) }

def updateEcoo (precision : ℕ) : Results :=
  let counted := p.submissions.filter (! ·.failed)
  let data : FormatData := (finalRows counted).foldl
    (fun data row => data.setCell row.problem (ecooCell p config counted row)) []
  let l := (data.map (·.2)).foldl (ecooStep config) {}
  { score := roundDigits precision l.score, cumtime := l.cumtime, tiebreaker := 0, formatData := data }

/-- `contest.format.update_participation(participation)`. -/
def updateParticipation (format : Format) (precision : ℕ) : Results :=
  let config := format.config config
  match format with
  | .default => updateDefault p precision
  | .ioi => updateIoi p config precision
  | .ioi16 => updateIoi16 p config precision
  | .icpc => updateIcpc p config precision
  | .atcoder => updateAtcoder p config precision
  | .ecoo => updateEcoo p config precision

end Contest
end CpcJudge
