import CpcJudge.Judging.Points

/-!
# `Bridge.Grading` — a grading, as a judge reports it

A judge reports a grading case by case, in batches or outside of them, and the bridge writes it down as it comes: which
batch a case is of is only known from the packets before it (`batch_id`, `in_batch`). The pages that follow a
submission are told of its cases, not more than a few times in each half second. Here are the packets of a grading, on
any number of connections; those that end a judging otherwise are in `Contest.Judging`.
-/

namespace CpcJudge
namespace Bridge
namespace Grading

open Contest (Result Status TestCase statusCodes roundDigits)

/-- A moment, in microseconds. One clock stands for `time.monotonic()` and `timezone.now()`. -/
abbrev Moment := ℤ

/-! ## Rows -/

/-- One of the `cases` of a packet. -/
structure CaseReport where
  position : ℤ
  status : ℕ
  time : ℚ
  memory : ℚ
  points : ℚ
  totalPoints : ℚ
  feedback : Option String := none
  extendedFeedback : Option String := none
  output : String := ""
  deriving DecidableEq, Repr

/-- `SubmissionTestCase`. -/
structure CaseRow where
  case : ℤ
  status : Result
  time : ℚ
  memory : ℚ
  points : ℚ
  total : ℚ
  batch : Option ℕ
  feedback : String
  extendedFeedback : String
  output : String
  deriving DecidableEq, Repr

/-- `Submission`, with its problem and its test cases. -/
structure Row where
  problem : Judging.Problem
  status : Status := .QU
  result : Option Result := none
  time : Option ℚ := none
  memory : Option ℚ := none
  points : Option ℚ := none
  casePoints : ℚ := 0
  caseTotal : ℚ := 0
  currentTestcase : ℤ := 0
  batch : Bool := false
  isPretested : Bool := false
  judgedDate : Option Moment := none
  cases : List CaseRow := []
  deriving DecidableEq, Repr

/-- The `status` of a case: the first of the flags that is set. -/
def caseStatus (flags : ℕ) : Result :=
  if flags.testBit 2 then .TLE
  else if flags.testBit 3 then .MLE
  else if flags.testBit 6 then .OLE
  else if flags.testBit 1 then .RTE
  else if flags.testBit 4 then .IR
  else if flags.testBit 0 then .WA
  else if flags.testBit 5 then .SC
  else .AC

/-- The `max_length` of the feedback. -/
def maxFeedback : ℕ := 50

/-- The row of a case. -/
def CaseReport.row (batch : Option ℕ) (r : CaseReport) : CaseRow where
  case := r.position
  status := caseStatus r.status
  time := r.time
  memory := r.memory
  points := r.points
  total := r.totalPoints
  batch := batch
  feedback := String.ofList ((r.feedback.getD "").toList.take maxFeedback)
  extendedFeedback := r.extendedFeedback.getD ""
  output := r.output

/-- What the end of a grading reads of a case. -/
def CaseRow.testCase (c : CaseRow) : TestCase where
  batch := c.batch.map Int.ofNat
  points := some c.points
  total := some c.total
  status := c.status

/-! ## The handler -/

/-- `UPDATE_RATE_LIMIT`. -/
def updateRateLimit : ℕ := 5

/-- `UPDATE_RATE_TIME`. -/
def updateRateTime : Moment := 500000

/-- What a `JudgeHandler` keeps of its gradings. -/
structure Handler where
  batchId : Option ℕ := none
  inBatch : Bool := false
  /-- `update_counter`: the updates since the last reset, and when that was. -/
  updateCounter : ℕ → Option (ℕ × Moment) := fun _ => none

/-- `self.batch_id if self.in_batch else None`. -/
def Handler.openBatch (h : Handler) : Option ℕ := if h.inBatch then h.batchId else none

/-- What is posted on the channel of a submission. -/
inductive Post where
  | gradingBegin
  | testCase (position : ℤ)
  | gradingEnd (time memory points total : ℚ) (result : Result)
  deriving DecidableEq, Repr

/-- The submissions, the connections, and everything posted: when, and about which submission. -/
structure Gradings where
  rows : ℕ → Option Row
  handlers : ℕ → Handler := fun _ => {}
  posted : List (Moment × ℕ × Post) := []

/-- The packets of a grading. -/
inductive Packet where
  | gradingBegin (id : ℕ) (pretested : Bool)
  | batchBegin (id : ℕ)
  | testCase (id : ℕ) (cases : List CaseReport)
  | batchEnd (id : ℕ)
  | gradingEnd (id : ℕ)

/-- The `submission-id` of a packet. -/
def Packet.id : Packet → ℕ
  | gradingBegin id _ | batchBegin id | testCase id _ | batchEnd id | gradingEnd id => id

/-- The counting of `on_test_case`: whether the update is posted, and the counter of the submission after it. -/
def count (counter : Option (ℕ × Moment)) (now : Moment) : Bool × ℕ × Moment :=
  match counter with
  | none => (true, 1, now)
  | some (cnt, reset) =>
    if updateRateTime < now - reset then (true, 1, now) else (cnt + 1 ≤ updateRateLimit, cnt + 1, reset)

/-- What the end of a grading writes. A case that cannot be added up raises before anything is saved. -/
def Row.gradingEnd (row : Row) : Option Row := do
  let g : Contest.Grading ← (row.cases.map CaseRow.testCase).foldlM Contest.Grading.add {}
  let (batchPoints, batchTotals) := g.batches.unzip.2.unzip
  let result ← statusCodes[g.status]?
  let casePoints := roundDigits 1 (g.points + batchPoints.sum)
  let caseTotal := roundDigits 1 (g.total + batchTotals.sum)
  some { row with
    status := .D
    result := some result
    time := some (row.cases.map CaseRow.time).sum
    memory := some ((row.cases.map CaseRow.memory).foldl max 0)
    casePoints
    caseTotal
    points := some (row.problem.gradedPoints casePoints caseTotal) }

namespace Gradings

variable (s : Gradings)

def setRow (id : ℕ) (f : Row → Row) : Gradings := { s with rows := Function.update s.rows id ((s.rows id).map f) }

def setHandler (judge : ℕ) (f : Handler → Handler) : Gradings :=
  { s with handlers := Function.update s.handlers judge (f (s.handlers judge)) }

def post (now : Moment) (id : ℕ) (post : Post) : Gradings := { s with posted := s.posted ++ [(now, id, post)] }

def onGradingBegin (judge : ℕ) (now : Moment) (id : ℕ) (pretested : Bool) : Gradings :=
  let s := s.setHandler judge ({ · with batchId := none })
  if (s.rows id).isSome then
    (s.setRow id ({ · with status := .G, isPretested := pretested, currentTestcase := 1, batch := false,
                           judgedDate := some now, cases := [] })).post now id .gradingBegin
  else s

def onBatchBegin (judge id : ℕ) : Gradings :=
  let s := s.setHandler judge ({ · with inBatch := true })
  let s := if (s.handlers judge).batchId = none then
    (s.setHandler judge ({ · with batchId := some 0 })).setRow id ({ · with batch := true }) else s
  s.setHandler judge fun h => { h with batchId := h.batchId.map (· + 1) }

def onBatchEnd (judge : ℕ) : Gradings := s.setHandler judge ({ · with inBatch := false })

/-- The update of `on_test_case`: it is counted, and posted unless there were too many. -/
def tell (judge : ℕ) (now : Moment) (id : ℕ) (maxPosition : ℤ) : Gradings :=
  let h := s.handlers judge
  let (doPost, counter) := count (h.updateCounter id) now
  let s := s.setHandler judge ({ · with updateCounter := Function.update h.updateCounter id (some counter) })
  if doPost then s.post now id (.testCase maxPosition) else s

/-- `on_test_case`. A packet without cases raises at once, one with a case that is there already at the end. -/
def onTestCase (judge : ℕ) (now : Moment) (id : ℕ) (cases : List CaseReport) : Gradings :=
  match (cases.map CaseReport.position).max?, s.rows id with
  | some maxPosition, some row =>
    let rows := cases.map (CaseReport.row (s.handlers judge).openBatch)
    let s := (s.setRow id ({ · with currentTestcase := maxPosition + 1 })).tell judge now id maxPosition
    if ((row.cases ++ rows).map CaseRow.case).Nodup then s.setRow id fun row => { row with cases := row.cases ++ rows }
    else s
  | _, _ => s

/-- `on_grading_end`, when `on_judge_free` does not raise. -/
def onGradingEnd (judge : ℕ) (now : Moment) (id : ℕ) : Gradings :=
  let s := s.setHandler judge ({ · with batchId := none })
  match (s.rows id).bind Row.gradingEnd with
  | none => s
  | some row =>
    (s.setRow id fun _ => row).post now id
      (.gradingEnd (row.time.getD 0) (row.memory.getD 0) row.casePoints row.problem.points (row.result.getD .SC))

/-- A packet that a judge sends. -/
def handle (judge : ℕ) (now : Moment) : Packet → Gradings
  | .gradingBegin id pretested => s.onGradingBegin judge now id pretested
  | .batchBegin id => s.onBatchBegin judge id
  | .testCase id cases => s.onTestCase judge now id cases
  | .batchEnd _ => s.onBatchEnd judge
  | .gradingEnd id => s.onGradingEnd judge now id

end Gradings

/-- A packet on a connection, at some time. -/
structure Event where
  judge : ℕ
  now : Moment
  packet : Packet

def Gradings.run (s : Gradings) (events : List Event) : Gradings :=
  events.foldl (fun s e => s.handle e.judge e.now e.packet) s

/-! ## A grading, in blocks -/

/-- A part of a grading: a packet of cases outside of batches, or a batch, in any number of packets. -/
inductive Block where
  | cases (reports : List CaseReport)
  | batch (packets : List (List CaseReport))

namespace Block

def reports : Block → List CaseReport
  | cases reports => reports
  | batch packets => packets.flatten

/-- Its packets. -/
def packets (id : ℕ) : Block → List Packet
  | cases reports => [.testCase id reports]
  | batch packets => .batchBegin id :: packets.map (.testCase id) ++ [.batchEnd id]

/-- No packet is empty. -/
def Full : Block → Prop
  | cases reports => reports ≠ []
  | batch packets => [] ∉ packets

/-- Its points: the sum of its cases, or the fewest of a batch. -/
def points : Block → ℚ
  | cases reports => (reports.map CaseReport.points).sum
  | batch packets => ((packets.flatten.map CaseReport.points).min?).getD 0

/-- Its total: the sum of its cases, or the greatest of a batch. -/
def total : Block → ℚ
  | cases reports => (reports.map CaseReport.totalPoints).sum
  | batch packets => ((packets.flatten.map CaseReport.totalPoints).max?).getD 0

def isBatch : Block → Bool
  | cases _ => false
  | batch _ => true

end Block

/-- The packets of a grading. -/
def packetsOf (id : ℕ) (pretested : Bool) (blocks : List Block) : List Packet :=
  .gradingBegin id pretested :: blocks.flatMap (Block.packets id) ++ [.gradingEnd id]

/-- The rows of the cases, with the batches numbered from `k` on. -/
def rowsFrom : ℕ → List Block → List CaseRow
  | _, [] => []
  | k, .cases reports :: blocks => reports.map (CaseReport.row none) ++ rowsFrom k blocks
  | k, .batch packets :: blocks => packets.flatten.map (CaseReport.row (some (k + 1))) ++ rowsFrom (k + 1) blocks

/-- How bad a status is, by its place in `status_codes`. -/
def severity (status : Result) : ℕ := statusCodes.idxOf status

/-- The row of a submission that was graded so. -/
def Row.graded (row : Row) (blocks : List Block) : Row :=
  let reports := blocks.flatMap Block.reports
  let casePoints := roundDigits 1 (blocks.map Block.points).sum
  let caseTotal := roundDigits 1 (blocks.map Block.total).sum
  { row with
    status := .D
    result := statusCodes[((reports.map fun r => severity (caseStatus r.status)).foldl max 0)]?
    time := some (reports.map CaseReport.time).sum
    memory := some ((reports.map CaseReport.memory).foldl max 0)
    casePoints
    caseTotal
    points := some (row.problem.gradedPoints casePoints caseTotal)
    batch := blocks.any Block.isBatch
    cases := rowsFrom 0 blocks }

/-- The row, as the points of a submission are worked out elsewhere. -/
def Row.submission (row : Row) : Judging.Submission where
  status := row.status
  result := row.result
  points := row.points
  casePoints := row.casePoints
  caseTotal := row.caseTotal
  testCases := row.cases.map CaseRow.testCase

/-- The end of a grading writes the points that it writes there. -/
theorem Row.gradingEnd_submission (row : Row) :
    row.gradingEnd.map Row.submission = row.submission.gradingEnd row.problem := by
  unfold Row.gradingEnd Judging.Submission.gradingEnd
  rw [show row.submission.testCases = row.cases.map CaseRow.testCase from rfl]
  cases (row.cases.map CaseRow.testCase).foldlM Contest.Grading.add {} with
  | none => rfl
  | some g =>
      simp only [Option.bind_eq_bind, Option.bind_some]
      cases statusCodes[g.status]? with
      | none => rfl
      | some result => rfl

/-! ## Two connections -/

section
variable {s s' : Gradings} {j k id id' : ℕ} {now : Moment} {packet : Packet}

/-- What one connection does with one submission: the batch it is in, and the row. -/
structure Gradings.Agree (s s' : Gradings) (j id : ℕ) : Prop where
  batchId : (s.handlers j).batchId = (s'.handlers j).batchId
  inBatch : (s.handlers j).inBatch = (s'.handlers j).inBatch
  row : s.rows id = s'.rows id

theorem Gradings.Agree.refl (s : Gradings) (j id : ℕ) : s.Agree s j id := ⟨rfl, rfl, rfl⟩

theorem Gradings.Agree.trans {s'' : Gradings} (h : s.Agree s' j id) (h' : s'.Agree s'' j id) : s.Agree s'' j id :=
  ⟨h.batchId.trans h'.batchId, h.inBatch.trans h'.inBatch, h.row.trans h'.row⟩

theorem Gradings.Agree.rowOther {f : Row → Row} (h : s.Agree s' j id) (hid : id' ≠ id) :
    s.Agree (s'.setRow id' f) j id :=
  ⟨h.batchId, h.inBatch, by simp only [Gradings.setRow, Function.update_of_ne hid.symm, h.row]⟩

theorem Gradings.Agree.handlerOther {f : Handler → Handler} (h : s.Agree s' j id) (hk : k ≠ j) :
    s.Agree (s'.setHandler k f) j id :=
  ⟨by simp only [Gradings.setHandler, Function.update_of_ne hk.symm, h.batchId],
    by simp only [Gradings.setHandler, Function.update_of_ne hk.symm, h.inBatch], h.row⟩

theorem Gradings.Agree.posted {post : Post} (h : s.Agree s' j id) : s.Agree (s'.post now id' post) j id :=
  ⟨h.batchId, h.inBatch, h.row⟩

theorem Gradings.Agree.tell {maxPosition : ℤ} (h : s.Agree s' j id) : s.Agree (s'.tell k now id' maxPosition) j id := by
  have hcounted : ∀ counter, s.Agree (s'.setHandler k ({ · with updateCounter := counter })) j id := by
    intro counter
    by_cases hk : k = j
    · subst hk
      exact ⟨by simpa only [Gradings.setHandler, Function.update_self] using h.batchId,
        by simpa only [Gradings.setHandler, Function.update_self] using h.inBatch, h.row⟩
    · exact h.handlerOther hk
  simp only [Gradings.tell]
  split
  · exact (hcounted _).posted
  · exact hcounted _

/-- A packet of another connection, about another submission, changes neither. -/
theorem agree_handle_other (hk : k ≠ j) (hid : packet.id ≠ id) : s.Agree (s.handle k now packet) j id := by
  have hrefl := Gradings.Agree.refl s j id
  cases packet with
  | gradingBegin id' pretested =>
      simp only [Gradings.handle, Gradings.onGradingBegin]
      split
      · exact ((hrefl.handlerOther hk).rowOther hid).posted
      · exact hrefl.handlerOther hk
  | batchBegin id' =>
      simp only [Gradings.handle, Gradings.onBatchBegin]
      split
      · exact (((hrefl.handlerOther hk).handlerOther hk).rowOther hid).handlerOther hk
      · exact (hrefl.handlerOther hk).handlerOther hk
  | testCase id' cases =>
      simp only [Gradings.handle, Gradings.onTestCase]
      split
      · split
        · exact ((hrefl.rowOther hid).tell).rowOther hid
        · exact (hrefl.rowOther hid).tell
      · exact hrefl
  | batchEnd id' =>
      simp only [Gradings.handle, Gradings.onBatchEnd]
      exact hrefl.handlerOther hk
  | gradingEnd id' =>
      simp only [Gradings.handle, Gradings.onGradingEnd]
      split
      · exact hrefl.handlerOther hk
      · exact ((hrefl.handlerOther hk).rowOther hid).posted

theorem Gradings.Agree.setRow {f : Row → Row} (h : s.Agree s' j id) : (s.setRow id f).Agree (s'.setRow id f) j id :=
  ⟨h.batchId, h.inBatch, by simp only [Gradings.setRow, Function.update_self, h.row]⟩

theorem Gradings.Agree.setHandler {f : Handler → Handler} (h : s.Agree s' j id)
    (hbatchId : (f (s.handlers j)).batchId = (f (s'.handlers j)).batchId)
    (hinBatch : (f (s.handlers j)).inBatch = (f (s'.handlers j)).inBatch) :
    (s.setHandler j f).Agree (s'.setHandler j f) j id :=
  ⟨by simpa only [Gradings.setHandler, Function.update_self] using hbatchId,
    by simpa only [Gradings.setHandler, Function.update_self] using hinBatch, h.row⟩

theorem Gradings.Agree.symm (h : s.Agree s' j id) : s'.Agree s j id := ⟨h.batchId.symm, h.inBatch.symm, h.row.symm⟩

/-- What a packet writes on a submission is decided by the row, and the batch of the connection. -/
theorem Gradings.Agree.handle (h : s.Agree s' j id) (hid : packet.id = id) :
    (s.handle j now packet).Agree (s'.handle j now packet) j id := by
  cases packet with
  | gradingBegin id' pretested =>
      obtain rfl : id' = id := hid
      have hbegin := h.setHandler (f := ({ · with batchId := none })) rfl h.inBatch
      simp only [Gradings.handle, Gradings.onGradingBegin]
      rw [hbegin.row]
      split
      · exact hbegin.setRow.posted.symm.posted.symm
      · exact hbegin
  | batchBegin id' =>
      obtain rfl : id' = id := hid
      have hopen := h.setHandler (f := ({ · with inBatch := true })) h.batchId rfl
      simp only [Gradings.handle, Gradings.onBatchBegin]
      rw [hopen.batchId]
      split
      · have hfirst := (hopen.setHandler (f := ({ · with batchId := some 0 })) rfl hopen.inBatch).setRow
          (f := ({ · with batch := true }))
        exact hfirst.setHandler (congrArg (Option.map (· + 1)) hfirst.batchId) hfirst.inBatch
      · exact hopen.setHandler (congrArg (Option.map (· + 1)) hopen.batchId) hopen.inBatch
  | testCase id' cases =>
      obtain rfl : id' = id := hid
      have hbatch : (s.handlers j).openBatch = (s'.handlers j).openBatch := by
        rw [Handler.openBatch, Handler.openBatch, h.batchId, h.inBatch]
      simp only [Gradings.handle, Gradings.onTestCase, h.row, hbatch]
      split
      · split
        · exact (h.setRow.tell.symm.tell.symm).setRow
        · exact h.setRow.tell.symm.tell.symm
      · exact h
  | batchEnd id' =>
      simp only [Gradings.handle, Gradings.onBatchEnd]
      exact h.setHandler h.batchId rfl
  | gradingEnd id' =>
      obtain rfl : id' = id := hid
      have hends := h.setHandler (f := ({ · with batchId := none })) rfl h.inBatch
      simp only [Gradings.handle, Gradings.onGradingEnd]
      rw [hends.row]
      split
      · exact hends
      · exact hends.setRow.posted.symm.posted.symm

/-- The packets of other connections about other submissions can be left out of a run. -/
theorem Gradings.Agree.run {events : List Event} (h : s.Agree s' j id)
    (hown : ∀ e ∈ events, e.judge = j ↔ e.packet.id = id) :
    (s.run events).Agree (s'.run (events.filter (·.judge = j))) j id := by
  induction events generalizing s s' with
  | nil => exact h
  | cons e events ih =>
      have hrest := fun e' he' => hown e' (List.mem_cons_of_mem e he')
      by_cases hj : e.judge = j
      · rw [List.filter_cons_of_pos (by simpa using hj)]
        have hid := (hown e List.mem_cons_self).mp hj
        rw [show s.run (e :: events) = (s.handle e.judge e.now e.packet).run events from rfl,
          show s'.run (e :: events.filter (·.judge = j)) =
            (s'.handle e.judge e.now e.packet).run (events.filter (·.judge = j)) from rfl]
        subst hj
        exact ih (h.handle hid) hrest
      · rw [List.filter_cons_of_neg (by simpa using hj)]
        have hid := mt (hown e List.mem_cons_self).mpr hj
        exact ih ((agree_handle_other hj hid).symm.trans h) hrest

/-! ## What a packet writes -/

/-- Where a connection is in the grading of a submission: its row, the batch, and whether the batch is open. -/
structure Gradings.At (s : Gradings) (j id : ℕ) (row : Row) (batchId : Option ℕ) (inBatch : Bool) : Prop where
  row : s.rows id = some row
  batchId : (s.handlers j).batchId = batchId
  inBatch : (s.handlers j).inBatch = inBatch

theorem Gradings.At.agree {row : Row} {b : Option ℕ} {i : Bool} (h : s.At j id row b i) (hagree : s.Agree s' j id) :
    s'.At j id row b i := ⟨hagree.row ▸ h.row, hagree.batchId ▸ h.batchId, hagree.inBatch ▸ h.inBatch⟩

variable {row : Row} {b : Option ℕ} {i : Bool} {reports : List CaseReport}

theorem Gradings.At.setRow {f : Row → Row} (h : s.At j id row b i) : (s.setRow id f).At j id (f row) b i :=
  ⟨by simp only [Gradings.setRow, Function.update_self, h.row, Option.map_some], h.batchId, h.inBatch⟩

theorem Gradings.At.setHandler {f : Handler → Handler} (h : s.At j id row b i) :
    (s.setHandler j f).At j id row (f (s.handlers j)).batchId (f (s.handlers j)).inBatch :=
  ⟨h.row, by simp only [Gradings.setHandler, Function.update_self],
    by simp only [Gradings.setHandler, Function.update_self]⟩

/-- The row of a submission whose grading has begun. -/
def Row.begun (row : Row) (pretested : Bool) (now : Moment) : Row :=
  { row with status := .G, isPretested := pretested, currentTestcase := 1, batch := false, judgedDate := some now
             cases := [] }

theorem at_gradingBegin {pretested : Bool} (h : s.rows id = some row) :
    (s.handle j now (.gradingBegin id pretested)).At j id (row.begun pretested now) none (s.handlers j).inBatch := by
  have hsome : ((s.setHandler j ({ · with batchId := none })).rows id).isSome = true := by
    rw [show (s.setHandler j _).rows = s.rows from rfl, h]
    rfl
  simp only [Gradings.handle, Gradings.onGradingBegin, hsome, if_true]
  constructor
  · simp only [Gradings.post, Gradings.setRow, Gradings.setHandler, Function.update_self, h, Option.map_some]
    rfl
  · simp only [Gradings.post, Gradings.setRow, Gradings.setHandler, Function.update_self]
  · simp only [Gradings.post, Gradings.setRow, Gradings.setHandler, Function.update_self]

theorem Gradings.At.batchBegin_first (h : s.At j id row none i) :
    (s.handle j now (.batchBegin id)).At j id { row with batch := true } (some 1) true := by
  have hnone : ((s.setHandler j ({ · with inBatch := true })).handlers j).batchId = none := by
    simp only [Gradings.setHandler, Function.update_self, h.batchId]
  simp only [Gradings.handle, Gradings.onBatchBegin, hnone, if_true]
  constructor
  · simp only [Gradings.setRow, Gradings.setHandler, Function.update_self, h.row, Option.map_some]
  · simp only [Gradings.setRow, Gradings.setHandler, Function.update_self, Option.map_some]
  · simp only [Gradings.setRow, Gradings.setHandler, Function.update_self]

theorem Gradings.At.batchBegin_next {n : ℕ} (h : s.At j id row (some n) i) :
    (s.handle j now (.batchBegin id)).At j id row (some (n + 1)) true := by
  have hsome : ((s.setHandler j ({ · with inBatch := true })).handlers j).batchId ≠ none := by
    simp only [Gradings.setHandler, Function.update_self, h.batchId]
    exact Option.some_ne_none n
  simp only [Gradings.handle, Gradings.onBatchBegin, if_neg hsome]
  constructor
  · exact h.row
  · simp only [Gradings.setHandler, Function.update_self, h.batchId, Option.map_some]
  · simp only [Gradings.setHandler, Function.update_self]

theorem Gradings.At.batchEnd (h : s.At j id row b i) : (s.handle j now (.batchEnd id)).At j id row b false := by
  constructor
  · exact h.row
  · simpa only [Gradings.handle, Gradings.onBatchEnd, Gradings.setHandler, Function.update_self] using h.batchId
  · simp only [Gradings.handle, Gradings.onBatchEnd, Gradings.setHandler, Function.update_self]

theorem Gradings.At.batch_eq (h : s.At j id row b i) : (s.handlers j).openBatch = if i then b else none := by
  rw [Handler.openBatch, h.batchId, h.inBatch]

theorem case_row (batch : Option ℕ) (reports : List CaseReport) :
    (reports.map (CaseReport.row batch)).map CaseRow.case = reports.map CaseReport.position := by
  rw [List.map_map]
  rfl

/-- Cases that are all new are written down, in the batch that is open. -/
theorem Gradings.At.testCase (h : s.At j id row b i) (hfull : reports ≠ [])
    (hnew : (row.cases.map CaseRow.case ++ reports.map CaseReport.position).Nodup) :
    ∃ t, (s.handle j now (.testCase id reports)).At j id
      { row with currentTestcase := t, cases := row.cases ++ reports.map (CaseReport.row (if i then b else none)) }
      b i := by
  obtain ⟨maxPosition, hmax⟩ : ∃ t, (reports.map CaseReport.position).max? = some t := by
    rw [← Option.isSome_iff_exists, List.isSome_max?_iff]
    simpa using hfull
  refine ⟨maxPosition + 1, ?_⟩
  simp only [Gradings.handle, Gradings.onTestCase, hmax, h.row, h.batch_eq]
  rw [if_pos (by rw [List.map_append, case_row]; exact hnew)]
  have hcase := h.setRow (f := ({ · with currentTestcase := maxPosition + 1 }))
  exact (hcase.agree (Gradings.Agree.refl _ j id).tell).setRow

theorem Gradings.At.gradingEnd {graded : Row} (h : s.At j id row b i) (hends : row.gradingEnd = some graded) :
    (s.handle j now (.gradingEnd id)).rows id = some graded := by
  have hrow : ((s.setHandler j ({ · with batchId := none })).rows id).bind Row.gradingEnd = some graded := by
    rw [show (s.setHandler j _).rows = s.rows from rfl, h.row, Option.bind_some, hends]
  simp only [Gradings.handle, Gradings.onGradingEnd, hrow]
  simp only [Gradings.post, Gradings.setRow, Gradings.setHandler, Function.update_self, h.row, Option.map_some]

/-! ## What a run of packets writes -/

variable {blocks : List Block} {packets : List (List CaseReport)} {events : List Event}

theorem run_cons {e : Event} : s.run (e :: events) = (s.handle e.judge e.now e.packet).run events := rfl

theorem run_append {events' : List Event} : s.run (events ++ events') = (s.run events).run events' :=
  List.foldl_append

/-- Packets of cases, one after the other. -/
theorem Gradings.At.run_testCases (h : s.At j id row b i) (hevents : ∀ e ∈ events, e.judge = j)
    (hpackets : events.map Event.packet = packets.map (.testCase id)) (hfull : [] ∉ packets)
    (hnew : (row.cases.map CaseRow.case ++ packets.flatten.map CaseReport.position).Nodup) :
    ∃ t, (s.run events).At j id
      { row with currentTestcase := t
                 cases := row.cases ++ packets.flatten.map (CaseReport.row (if i then b else none)) } b i := by
  induction events generalizing s row packets with
  | nil =>
      obtain rfl : packets = [] := List.map_eq_nil_iff.mp hpackets.symm
      refine ⟨row.currentTestcase, ?_⟩
      rw [List.flatten_nil, List.map_nil, List.append_nil]
      exact h
  | cons e events ih =>
      cases packets with
      | nil => cases hpackets
      | cons reports packets =>
          rw [List.map_cons, List.map_cons, List.cons.injEq] at hpackets
          rw [List.flatten_cons, List.map_append, ← List.append_assoc] at hnew
          obtain ⟨t, hfirst⟩ := @Gradings.At.testCase s j id e.now row b i reports h (fun heq => hfull (heq ▸ List.mem_cons_self))
            (List.Nodup.of_append_left hnew)
          obtain ⟨t', hrest⟩ := ih hfirst (fun e he => hevents e (List.mem_cons_of_mem _ he)) hpackets.2
            (fun hmem => hfull (List.mem_cons_of_mem _ hmem)) (by
              simp only [List.map_append, case_row]
              exact hnew)
          refine ⟨t', ?_⟩
          rw [run_cons, hevents e List.mem_cons_self, hpackets.1]
          simpa only [List.flatten_cons, List.map_append, List.append_assoc] using hrest

/-- A connection between two blocks of a grading, after `k` batches. -/
structure Gradings.Ready (s : Gradings) (j id : ℕ) (row : Row) (k : ℕ) : Prop where
  before : k = 0 → ∃ i, s.At j id row none i
  between : 0 < k → s.At j id row (some k) false ∧ row.batch = true

/-- A row with more cases. -/
def Row.with (row : Row) (t : ℤ) (batch : Bool) (cases : List CaseRow) : Row :=
  { row with currentTestcase := t, batch, cases := row.cases ++ cases }

theorem Gradings.Ready.single (h : s.Ready j id row k) (hevents : ∀ e ∈ events, e.judge = j)
    (hpackets : events.map Event.packet = (Block.cases reports).packets id) (hfull : reports ≠ [])
    (hnew : (row.cases.map CaseRow.case ++ reports.map CaseReport.position).Nodup) :
    ∃ t, (s.run events).Ready j id (row.with t row.batch (reports.map (CaseReport.row none))) k := by
  have hsingle : events.map Event.packet = [reports].map (.testCase id) := hpackets
  have hrun : ∀ {b i}, s.At j id row b i → (if i then b else none) = none →
      ∃ t, (s.run events).At j id (row.with t row.batch (reports.map (CaseReport.row none))) b i := by
    intro b i hat hnone
    obtain ⟨t, hafter⟩ := hat.run_testCases hevents hsingle (by simpa using hfull.symm) (by simpa using hnew)
    refine ⟨t, ?_⟩
    rw [hnone] at hafter
    simpa only [Row.with, List.flatten_singleton] using hafter
  rcases Nat.eq_zero_or_pos k with rfl | hk
  · obtain ⟨i, hat⟩ := h.before rfl
    obtain ⟨t, hafter⟩ := hrun hat (by split <;> rfl)
    exact ⟨t, fun _ => ⟨i, hafter⟩, fun hpos => absurd hpos (lt_irrefl 0)⟩
  · obtain ⟨hat, hbatch⟩ := h.between hk
    obtain ⟨t, hafter⟩ := hrun hat rfl
    exact ⟨t, fun hzero => absurd hzero hk.ne', fun _ => ⟨hafter, hbatch⟩⟩

theorem Gradings.Ready.batch (h : s.Ready j id row k) (hevents : ∀ e ∈ events, e.judge = j)
    (hpackets : events.map Event.packet = (Block.batch packets).packets id) (hfull : [] ∉ packets)
    (hnew : (row.cases.map CaseRow.case ++ packets.flatten.map CaseReport.position).Nodup) :
    ∃ t, (s.run events).Ready j id (row.with t true (packets.flatten.map (CaseReport.row (some (k + 1))))) (k + 1) := by
  obtain ⟨first, events, rfl, hfirst, hpackets⟩ := List.map_eq_cons_iff.mp hpackets
  obtain ⟨middle, ends, rfl, hmiddle, hends⟩ := List.map_eq_append_iff.mp hpackets
  obtain ⟨last, rest, rfl, hlast, hrest⟩ := List.map_eq_cons_iff.mp hends
  obtain rfl := List.map_eq_nil_iff.mp hrest
  have hj : ∀ e ∈ middle, e.judge = j := fun e he => hevents e (by simp [he])
  -- the packet that opens the batch
  have hopen : (s.handle first.judge first.now first.packet).At j id { row with batch := true } (some (k + 1)) true := by
    rw [hfirst, hevents first List.mem_cons_self]
    rcases Nat.eq_zero_or_pos k with rfl | hk
    · obtain ⟨i, hat⟩ := h.before rfl
      exact hat.batchBegin_first
    · obtain ⟨hat, hbatch⟩ := h.between hk
      have hsame : ({ row with batch := true } : Row) = row := by rw [← hbatch]
      rw [hsame]
      exact hat.batchBegin_next
  obtain ⟨t, hinside⟩ := hopen.run_testCases hj hmiddle hfull hnew
  refine ⟨t, fun hzero => absurd hzero (Nat.succ_ne_zero k), fun _ => ⟨?_, rfl⟩⟩
  rw [run_cons, run_append, run_cons, hlast, hevents last (by simp)]
  exact @Gradings.At.batchEnd _ _ _ last.now _ _ _ hinside

theorem Gradings.Ready.run_blocks (h : s.Ready j id row k) (hevents : ∀ e ∈ events, e.judge = j)
    (hpackets : events.map Event.packet = blocks.flatMap (Block.packets id)) (hfull : ∀ block ∈ blocks, block.Full)
    (hnew : (row.cases.map CaseRow.case ++ (blocks.flatMap Block.reports).map CaseReport.position).Nodup) :
    ∃ t n, (s.run events).Ready j id (row.with t (row.batch || blocks.any Block.isBatch) (rowsFrom k blocks)) n := by
  induction blocks generalizing s row k events with
  | nil =>
      obtain rfl := List.map_eq_nil_iff.mp hpackets
      refine ⟨row.currentTestcase, k, ?_⟩
      rw [Row.with, List.any_nil, Bool.or_false, rowsFrom, List.append_nil]
      exact h
  | cons block blocks ih =>
      rw [List.flatMap_cons] at hpackets
      obtain ⟨mine, others, rfl, hmine, hothers⟩ := List.map_eq_append_iff.mp hpackets
      rw [List.flatMap_cons, List.map_append, ← List.append_assoc] at hnew
      have hj : ∀ e ∈ mine, e.judge = j := fun e he => hevents e (List.mem_append_left _ he)
      have hj' : ∀ e ∈ others, e.judge = j := fun e he => hevents e (List.mem_append_right _ he)
      have hfirst := hfull block List.mem_cons_self
      have hlater := fun b hb => hfull b (List.mem_cons_of_mem block hb)
      rw [run_append]
      cases block with
      | cases reports =>
          obtain ⟨t, hready⟩ := h.single hj hmine hfirst (List.Nodup.of_append_left hnew)
          obtain ⟨t', n, hrest⟩ := ih hready hj' hothers hlater (by
            simp only [Row.with, List.map_append, case_row]
            exact hnew)
          refine ⟨t', n, ?_⟩
          simpa only [Row.with, rowsFrom, List.any_cons, Block.isBatch, Bool.false_or, List.append_assoc] using hrest
      | batch packets =>
          obtain ⟨t, hready⟩ := h.batch hj hmine hfirst (List.Nodup.of_append_left hnew)
          obtain ⟨t', n, hrest⟩ := ih hready hj' hothers hlater (by
            simp only [Row.with, List.map_append, case_row]
            exact hnew)
          refine ⟨t', n, ?_⟩
          simpa only [Row.with, rowsFrom, List.any_cons, Block.isBatch, Bool.true_or, Bool.or_true, List.append_assoc]
            using hrest

end

/-! ## What the end of a grading adds up -/

section
variable {g : Contest.Grading} {k : ℕ} {blocks : List Block} {reports : List CaseReport} {r : CaseReport}

theorem caseStatus_mem (flags : ℕ) : caseStatus flags ∈ statusCodes := by
  unfold caseStatus
  split_ifs <;> decide

theorem findIdx?_severity {status : Result} (h : status ∈ statusCodes) :
    statusCodes.findIdx? (· = status) = some (severity status) := by
  revert h
  cases status <;> decide

theorem findIdx?_row {batch : Option ℕ} : statusCodes.findIdx? (· = (r.row batch).testCase.status) =
    some (severity (caseStatus r.status)) := findIdx?_severity (caseStatus_mem r.status)

/-- A case outside of batches. -/
theorem add_single : g.add (r.row none).testCase =
    some { g with points := g.points + r.points, total := g.total + r.totalPoints
                  status := max g.status (severity (caseStatus r.status)) } := by
  unfold Contest.Grading.add
  rw [findIdx?_row]
  rfl

/-- A case of a batch. -/
theorem add_batch : g.add (r.row (some (k + 1))).testCase =
    some { g with batches := Contest.addToBatch g.batches (k + 1 : ℕ) r.points r.totalPoints
                  status := max g.status (severity (caseStatus r.status)) } := by
  unfold Contest.Grading.add
  rw [findIdx?_row]
  rfl

/-- The worst of the statuses met so far. -/
def worst (start : ℕ) (reports : List CaseReport) : ℕ :=
  (reports.map fun r => severity (caseStatus r.status)).foldl max start

theorem fold_single : (reports.map fun r => (r.row none).testCase).foldlM Contest.Grading.add g =
    some { g with points := g.points + (reports.map CaseReport.points).sum
                  total := g.total + (reports.map CaseReport.totalPoints).sum
                  status := worst g.status reports } := by
  induction reports generalizing g with
  | nil => simp [worst]
  | cons r reports ih =>
      simp only [List.map_cons, List.foldlM_cons, add_single, Option.bind_eq_bind, Option.bind_some, ih, List.sum_cons,
        worst, List.foldl_cons, add_assoc]

/-! The batches. -/

/-- The points, those of the batches included. -/
def allPoints (g : Contest.Grading) : ℚ := g.points + (g.batches.map fun entry => entry.2.1).sum

/-- The totals, those of the batches included. -/
def allTotals (g : Contest.Grading) : ℚ := g.total + (g.batches.map fun entry => entry.2.2).sum

variable {batches : List (ℤ × ℚ × ℚ)} {batch : ℤ} {p t p' t' : ℚ}

theorem addToBatch_new (h : ∀ entry ∈ batches, entry.1 < batch) :
    Contest.addToBatch batches batch p t = batches ++ [(batch, p, t)] := by
  rw [Contest.addToBatch, if_neg]
  simp only [List.any_eq_true, decide_eq_true_eq, not_exists, not_and]
  exact fun entry hentry => (h entry hentry).ne

theorem addToBatch_last (h : ∀ entry ∈ batches, entry.1 < batch) :
    Contest.addToBatch (batches ++ [(batch, p, t)]) batch p' t' = batches ++ [(batch, min p p', max t t')] := by
  have hsame : batches.map (fun entry => if entry.1 = batch then (batch, min entry.2.1 p', max entry.2.2 t') else entry) =
      batches := by
    conv_rhs => rw [← List.map_id batches]
    exact List.map_congr_left fun entry hentry => if_neg (h entry hentry).ne
  rw [Contest.addToBatch, if_pos (by simp), List.map_append, hsame, List.map_singleton, if_pos rfl]

theorem fold_batch_last (h : ∀ entry ∈ batches, entry.1 < ((k + 1 : ℕ) : ℤ))
    (hg : g.batches = batches ++ [(((k + 1 : ℕ) : ℤ), p, t)]) :
    (reports.map fun r => (r.row (some (k + 1))).testCase).foldlM Contest.Grading.add g =
      some { g with batches := batches ++ [(((k + 1 : ℕ) : ℤ), (reports.map CaseReport.points).foldl min p,
                                            (reports.map CaseReport.totalPoints).foldl max t)]
                    status := worst g.status reports } := by
  induction reports generalizing g p t with
  | nil =>
      simp only [List.map_nil, List.foldlM_nil, List.foldl_nil, worst, ← hg]
      rfl
  | cons r reports ih =>
      rw [List.map_cons, List.foldlM_cons, add_batch, hg, addToBatch_last h, Option.bind_eq_bind, Option.bind_some,
        ih (p := min p r.points) (t := max t r.totalPoints) rfl]
      rfl

/-- A batch, all of it. -/
theorem fold_batch (h : ∀ entry ∈ g.batches, entry.1 < ((k + 1 : ℕ) : ℤ)) :
    (reports.map fun r => (r.row (some (k + 1))).testCase).foldlM Contest.Grading.add g =
      some { g with batches := g.batches ++ if reports = [] then [] else
                      [(((k + 1 : ℕ) : ℤ), ((reports.map CaseReport.points).min?).getD 0,
                        ((reports.map CaseReport.totalPoints).max?).getD 0)]
                    status := worst g.status reports } := by
  cases reports with
  | nil =>
      rw [if_pos rfl, List.append_nil]
      rfl
  | cons r reports =>
      rw [List.map_cons, List.foldlM_cons, add_batch, addToBatch_new h, Option.bind_eq_bind, Option.bind_some,
        fold_batch_last h rfl, if_neg (List.cons_ne_nil _ _)]
      rfl

/-- Everything: what is added up is what the blocks are worth, and the status is the worst. -/
theorem fold_blocks (h : ∀ entry ∈ g.batches, entry.1 < ((k + 1 : ℕ) : ℤ)) :
    ∃ g', ((rowsFrom k blocks).map CaseRow.testCase).foldlM Contest.Grading.add g = some g' ∧
      allPoints g' = allPoints g + (blocks.map Block.points).sum ∧
      allTotals g' = allTotals g + (blocks.map Block.total).sum ∧
      g'.status = worst g.status (blocks.flatMap Block.reports) := by
  induction blocks generalizing g k with
  | nil => exact ⟨g, rfl, by simp, by simp, rfl⟩
  | cons block blocks ih =>
      cases block with
      | cases reports =>
          have hrows : ((rowsFrom k (.cases reports :: blocks)).map CaseRow.testCase).foldlM Contest.Grading.add g =
              ((reports.map fun r => (r.row none).testCase).foldlM Contest.Grading.add g).bind fun g =>
                ((rowsFrom k blocks).map CaseRow.testCase).foldlM Contest.Grading.add g := by
            rw [rowsFrom, List.map_append, List.foldlM_append, List.map_map]
            rfl
          rw [hrows, fold_single, Option.bind_some]
          obtain ⟨g', hfold, hpoints, htotals, hstatus⟩ := ih (g := { g with
            points := g.points + (reports.map CaseReport.points).sum
            total := g.total + (reports.map CaseReport.totalPoints).sum
            status := worst g.status reports }) h
          refine ⟨g', hfold, ?_, ?_, ?_⟩
          · rw [hpoints, List.map_cons, List.sum_cons]
            simp only [allPoints, Block.points]
            ring
          · rw [htotals, List.map_cons, List.sum_cons]
            simp only [allTotals, Block.total]
            ring
          · rw [hstatus, List.flatMap_cons]
            simp only [worst, Block.reports, List.map_append, List.foldl_append]
      | batch packets =>
          have hrows : ((rowsFrom k (.batch packets :: blocks)).map CaseRow.testCase).foldlM Contest.Grading.add g =
              ((packets.flatten.map fun r => (r.row (some (k + 1))).testCase).foldlM Contest.Grading.add g).bind fun g =>
                ((rowsFrom (k + 1) blocks).map CaseRow.testCase).foldlM Contest.Grading.add g := by
            rw [rowsFrom, List.map_append, List.foldlM_append, List.map_map]
            rfl
          rw [hrows, fold_batch h, Option.bind_some]
          have hkeys : ∀ entry ∈ g.batches ++ (if packets.flatten = [] then [] else
              [(((k + 1 : ℕ) : ℤ), ((packets.flatten.map CaseReport.points).min?).getD 0,
                ((packets.flatten.map CaseReport.totalPoints).max?).getD 0)]), entry.1 < ((k + 1 + 1 : ℕ) : ℤ) := by
            intro entry hentry
            rcases List.mem_append.mp hentry with hold | hmine
            · have hlt := h entry hold
              push_cast at hlt ⊢
              omega
            · split at hmine
              · cases hmine
              · rw [List.mem_singleton.mp hmine]
                push_cast
                omega
          obtain ⟨g', hfold, hpoints, htotals, hstatus⟩ := ih (g := { g with
            batches := g.batches ++ (if packets.flatten = [] then [] else
              [(((k + 1 : ℕ) : ℤ), ((packets.flatten.map CaseReport.points).min?).getD 0,
                ((packets.flatten.map CaseReport.totalPoints).max?).getD 0)])
            status := worst g.status packets.flatten }) hkeys
          refine ⟨g', hfold, ?_, ?_, ?_⟩
          · rw [hpoints, List.map_cons, List.sum_cons]
            simp only [allPoints, Block.points, List.map_append, List.sum_append]
            split
            · rename_i hnone
              simp [hnone]
            · simp only [List.map_singleton, List.sum_singleton]
              ring
          · rw [htotals, List.map_cons, List.sum_cons]
            simp only [allTotals, Block.total, List.map_append, List.sum_append]
            split
            · rename_i hnone
              simp [hnone]
            · simp only [List.map_singleton, List.sum_singleton]
              ring
          · rw [hstatus, List.flatMap_cons]
            simp only [worst, Block.reports, List.map_append, List.foldl_append]

/-- The worst of the statuses is one. -/
theorem worst_lt {start : ℕ} (hstart : start < statusCodes.length) : worst start reports < statusCodes.length := by
  induction reports generalizing start with
  | nil => exact hstart
  | cons r reports ih => exact ih (max_lt hstart (List.idxOf_lt_length_of_mem (caseStatus_mem r.status)))

theorem rowsFrom_map {β : Type} {f : CaseRow → β} {f' : CaseReport → β} (h : ∀ batch r, f (CaseReport.row batch r) = f' r) :
    (rowsFrom k blocks).map f = (blocks.flatMap Block.reports).map f' := by
  have hmap : ∀ (batch : Option ℕ) (reports : List CaseReport), (reports.map (CaseReport.row batch)).map f =
      reports.map f' := fun batch reports => by
    rw [List.map_map]
    exact List.map_congr_left fun r _ => h batch r
  induction blocks generalizing k with
  | nil => rfl
  | cons block blocks ih =>
      cases block with
      | cases reports => rw [rowsFrom, List.map_append, hmap, ih, List.flatMap_cons, List.map_append, Block.reports]
      | batch packets => rw [rowsFrom, List.map_append, hmap, ih, List.flatMap_cons, List.map_append, Block.reports]

/-- The end of a grading whose cases are those of the blocks. -/
theorem gradingEnd_blocks {row : Row} (hcases : row.cases = rowsFrom 0 blocks) :
    row.gradingEnd = some { row.graded blocks with batch := row.batch } := by
  have hnone : ∀ entry ∈ ({} : Contest.Grading).batches, entry.1 < ((0 + 1 : ℕ) : ℤ) := by simp
  obtain ⟨g, hfold, hpoints, htotals, hstatus⟩ := @fold_blocks {} 0 blocks hnone
  have hworst : g.status < statusCodes.length := by
    rw [hstatus]
    exact worst_lt (by decide)
  have hunzip : g.batches.unzip.2.unzip = (g.batches.map fun e => e.2.1, g.batches.map fun e => e.2.2) := by
    simp [List.unzip_eq_map]
  have hpoints' : g.points + (g.batches.map fun e => e.2.1).sum = (blocks.map Block.points).sum := by
    simpa [allPoints] using hpoints
  have htotals' : g.total + (g.batches.map fun e => e.2.2).sum = (blocks.map Block.total).sum := by
    simpa [allTotals] using htotals
  have hresult : statusCodes[g.status]? = some statusCodes[g.status] := List.getElem?_eq_getElem hworst
  unfold Row.gradingEnd Row.graded
  rw [hcases, hfold]
  simp only [Option.bind_eq_bind, Option.bind_some, hunzip, hpoints', htotals', hresult,
    rowsFrom_map (f := CaseRow.time) fun _ _ => rfl, rowsFrom_map (f := CaseRow.memory) fun _ _ => rfl]
  rw [← hcases, ← hresult, hstatus]
  rfl

end

/-! ## What a grading comes to -/

/-- **A submission is graded by what its judge reports, and by nothing else.** A judge reports a grading in blocks, cases
outside of batches and whole batches, in as many packets as it likes, while any others report on other submissions. Then
the points are the sum of the cases outside of batches and of the fewest points of each batch, of a total with the
greatest total of each, and the result is the worst of the cases; whatever the row was before, and even where the
last grading of the connection was cut short in the middle of a batch. -/
theorem graded_as_reported {s : Gradings} {events : List Event} {j id : ℕ} {row : Row} {pretested : Bool}
    {blocks : List Block} (here : s.rows id = some row) (hown : ∀ e ∈ events, e.judge = j ↔ e.packet.id = id)
    (hpackets : (events.filter (·.judge = j)).map Event.packet = packetsOf id pretested blocks)
    (hfull : ∀ block ∈ blocks, block.Full)
    (hpositions : ((blocks.flatMap Block.reports).map CaseReport.position).Nodup) :
    ∃ begun t, (s.run events).rows id =
      some { row.graded blocks with isPretested := pretested, judgedDate := some begun, currentTestcase := t } := by
  rw [((Gradings.Agree.refl s j id).run hown).row]
  have hj : ∀ e ∈ events.filter (·.judge = j), e.judge = j := fun e he => by simpa using (List.mem_filter.mp he).2
  generalize events.filter (·.judge = j) = events at hpackets hj
  obtain ⟨first, events, rfl, hfirst, hpackets⟩ := List.map_eq_cons_iff.mp hpackets
  obtain ⟨middle, ends, rfl, hmiddle, hends⟩ := List.map_eq_append_iff.mp hpackets
  obtain ⟨last, rest, rfl, hlast, hrest⟩ := List.map_eq_cons_iff.mp hends
  obtain rfl := List.map_eq_nil_iff.mp hrest
  have hbegun : (s.handle first.judge first.now first.packet).Ready j id (row.begun pretested first.now) 0 := by
    rw [hfirst, hj first List.mem_cons_self]
    exact ⟨fun _ => ⟨_, at_gradingBegin here⟩, fun hpos => absurd hpos (lt_irrefl 0)⟩
  obtain ⟨t, n, hready⟩ := hbegun.run_blocks (fun e he => hj e (by simp [he])) hmiddle hfull (by exact hpositions)
  have hat : ∃ b i, ((s.handle first.judge first.now first.packet).run middle).At j id
      ((row.begun pretested first.now).with t (false || blocks.any Block.isBatch) (rowsFrom 0 blocks)) b i := by
    rcases Nat.eq_zero_or_pos n with rfl | hn
    · obtain ⟨i, hat⟩ := hready.before rfl
      exact ⟨none, i, hat⟩
    · exact ⟨some n, false, (hready.between hn).1⟩
  obtain ⟨b, i, hat⟩ := hat
  refine ⟨first.now, t, ?_⟩
  rw [run_cons, run_append, run_cons, hlast, hj last (by simp)]
  exact hat.gradingEnd (gradingEnd_blocks rfl)

/-- A case worth ten points, with some of them. -/
def tenPoints (position : ℤ) (points : ℚ) (status : ℕ) : CaseReport where
  position := position
  status := status
  time := 1
  memory := 64
  points := points
  totalPoints := 10

/-- A case of its own, and a batch in two packets. -/
def twoBlocks : List Block :=
  [.cases [tenPoints 1 10 0], .batch [[tenPoints 2 10 0, tenPoints 3 4 1], [tenPoints 4 10 0]]]

/-- A submission to a problem of a hundred points. -/
def hundred : Row where
  problem := { points := 100, allowsPartial := true }

/-- A connection whose last grading was cut short in its third batch, and a submission of another one. -/
def cutShort : Gradings where
  rows id := if id = 7 ∨ id = 8 then some hundred else none
  handlers judge := if judge = 1 then { batchId := some 3, inBatch := true } else {}

/-- The blocks, with a grading of another judge in the middle. -/
def mixedUp : List Event :=
  [⟨1, 0, .gradingBegin 7 false⟩, ⟨1, 1, .testCase 7 [tenPoints 1 10 0]⟩, ⟨2, 1, .gradingBegin 8 false⟩,
    ⟨1, 2, .batchBegin 7⟩, ⟨2, 2, .batchBegin 8⟩, ⟨1, 3, .testCase 7 [tenPoints 2 10 0, tenPoints 3 4 1]⟩,
    ⟨2, 3, .gradingEnd 8⟩, ⟨1, 4, .testCase 7 [tenPoints 4 10 0]⟩, ⟨1, 5, .batchEnd 7⟩, ⟨1, 6, .gradingEnd 7⟩]

theorem graded_as_reported_mixedUp :
    ((cutShort.run mixedUp).rows 7).map (fun row => (row.casePoints, row.caseTotal, row.result)) =
      some (14, 20, some .WA) := by
  have hfull : ∀ block ∈ twoBlocks, block.Full := by simp [twoBlocks, Block.Full]
  obtain ⟨begun, t, hrow⟩ := @graded_as_reported cutShort mixedUp 1 7 hundred false twoBlocks rfl (by decide) rfl
    hfull (by decide)
  have hgraded : ((hundred.graded twoBlocks).casePoints, (hundred.graded twoBlocks).caseTotal,
      (hundred.graded twoBlocks).result) = (14, 20, some .WA) := by decide +kernel
  rw [hrow]
  exact congrArg some hgraded

end Grading
end Bridge
end CpcJudge
