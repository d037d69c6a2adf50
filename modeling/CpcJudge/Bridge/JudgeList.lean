import CpcJudge.Lib.Txn
import Mathlib.Data.List.MinMax
import Mathlib.Data.List.Sort
import Mathlib.Data.Prod.Lex

/-!
# `Bridge.JudgeList` — the bridge's list of judges and its queue

The bridge hands each submission to a judge that is free, or queues it until one is. A call holds the lock of the
list from its first step to its last, so it is one transaction; one that raises keeps what it has written so far.

What a call meets outside the list, such as a judge that cannot be reached, is a `World`.
-/

namespace CpcJudge
namespace Bridge

/-- What a call raises. -/
inductive Err where
  | key | index | type | recursion | submission | connection
  deriving DecidableEq, Repr

/-- `(id, problem, language, source, judge_id)`. -/
structure Request where
  id : ℕ
  problem : String
  language : String
  source : String
  judgeId : Option String
  deriving DecidableEq, Repr

/-- What a node of the queue holds: a `PriorityMarker` or a submission. -/
inductive Value where
  | marker (priority : ℕ)
  | request (r : Request)
  deriving DecidableEq, Repr

/-- A node of the queue. The maps of the list refer to it by its key. -/
structure Node where
  key : ℕ
  value : Value
  deriving DecidableEq, Repr

/-- `JudgeHandler`: what the list reads and writes of a judge. `sent` is every submission request that reached the
judge, the last one first. -/
structure JudgeHandler where
  name : Option String := none
  tier : Option ℤ := none
  isDisabled : Bool := false
  working : Option ℕ := none
  problems : List String := []
  executors : List String := []
  load : ℚ := 10 ^ 100
  sent : List ℕ := []

/-- `can_judge`. An empty `judge_id` asks for no judge in particular. -/
def JudgeHandler.canJudge (j : JudgeHandler) (problem executor : String) (judgeId : Option String) : Bool :=
  (problem ∈ j.problems || "ct_".toList.isPrefixOf problem.toList) && executor ∈ j.executors &&
    (((judgeId = none || judgeId = some "") && !j.isDisabled) || j.name = judgeId)

/-- How `submit` ends: before it writes `_working`, after it, or with the request on its way. -/
inductive Submit where
  | noData | notSent | sent
  deriving DecidableEq, Repr

/-- What a call meets outside the list: the outcome of each `submit`, whether an abort reaches a judge, `random()`, and
the order in which a set is iterated. -/
structure World where
  submits : ℕ → ℕ → Submit := fun _ _ => .sent
  reaches : ℕ → Bool := fun _ => true
  random : ℕ → ℚ := fun _ => 0
  order : ℕ → ℕ := id

/-- `JudgeList`, with the handlers of the judges. -/
structure JudgeList where
  queue : List Node := (List.range 4).map fun p => ⟨p, .marker p⟩
  judges : List ℕ := []
  nodeMap : ℕ → Option ℕ := fun _ => none
  submissionMap : ℕ → Option ℕ := fun _ => none
  minTier : Option ℤ := none
  handlers : ℕ → JudgeHandler := fun _ => {}
  nextKey : ℕ := 4

/-- `REJUDGE_PRIORITY`. -/
def REJUDGE_PRIORITY : ℕ := 2

abbrev M := EStateM Err JudgeList

open Txn

namespace JudgeList

variable (s : JudgeList) (w : World)

/-- `priorities`. -/
def priorities : ℕ := 4

/-- `check_priority`. -/
def checkPriority (priority : ℕ) : Bool := priority < priorities

/-- The judges in the order of an iteration. -/
def iter : List ℕ := s.judges.insertionSort fun a b => w.order a ≤ w.order b

/-- `current_tier_judges`. -/
def currentTierJudges : List ℕ :=
  (s.iter w).filter fun judge => (s.handlers judge).tier = s.minTier && !(s.handlers judge).isDisabled

def working (judge : ℕ) : Bool := (s.handlers judge).working.isSome

/-- `should_reserve_judge`. -/
def shouldReserveJudge : Bool :=
  let judges := s.currentTierJudges w
  1 < judges.length && judges.countP (! s.working ·) ≤ 1

/-- The new value of `min_tier`. -/
def lowestTier : Option ℤ :=
  ((s.judges.filter fun judge => !(s.handlers judge).isDisabled).filterMap fun judge => (s.handlers judge).tier).min?

/-- A change of one handler. -/
def setHandler (judge : ℕ) (f : JudgeHandler → JudgeHandler) : JudgeList :=
  { s with handlers := Function.update s.handlers judge (f (s.handlers judge)) }

def assign (id judge : ℕ) : JudgeList := { s with submissionMap := Function.update s.submissionMap id (some judge) }

def unassign (id : ℕ) : JudgeList := { s with submissionMap := Function.update s.submissionMap id none }

/-- `judges.discard(judge)`. -/
def discard (judge : ℕ) : JudgeList := { s with judges := s.judges.filter (· ≠ judge) }

/-- `judges.add(judge)`. -/
def add (judge : ℕ) : JudgeList := { s with judges := if judge ∈ s.judges then s.judges else s.judges ++ [judge] }

/-- `queue.remove(node)`, with its entry of `node_map`. -/
def dequeue (key id : ℕ) : JudgeList :=
  { s with queue := s.queue.filter (·.key ≠ key), nodeMap := Function.update s.nodeMap id none }

/-- `queue.insert(value, priority[priority])`, with its entry of `node_map`: before the marker. -/
def enqueue (r : Request) (priority : ℕ) : JudgeList :=
  { s with
    queue := s.queue.takeWhile (·.key ≠ priority) ++ ⟨s.nextKey, .request r⟩ :: s.queue.dropWhile (·.key ≠ priority)
    nodeMap := Function.update s.nodeMap r.id (some s.nextKey)
    nextKey := s.nextKey + 1 }

variable {s w}

@[simp] theorem setHandler_self {judge : ℕ} {f : JudgeHandler → JudgeHandler} :
    (s.setHandler judge f).handlers judge = f (s.handlers judge) := Function.update_self _ _ _

theorem setHandler_of_ne {judge judge' : ℕ} {f : JudgeHandler → JudgeHandler} (h : judge' ≠ judge) :
    (s.setHandler judge f).handlers judge' = s.handlers judge' := Function.update_of_ne h _ _

theorem assign_self {id judge : ℕ} : (s.assign id judge).submissionMap id = some judge := Function.update_self _ _ _

theorem assign_of_ne {id id' judge : ℕ} (h : id' ≠ id) : (s.assign id judge).submissionMap id' = s.submissionMap id' :=
  Function.update_of_ne h _ _

theorem unassign_some {id id' judge : ℕ} (h : (s.unassign id).submissionMap id' = some judge) :
    id' ≠ id ∧ s.submissionMap id' = some judge := by
  by_cases hid : id' = id
  · subst hid
    have hnone : (s.unassign id').submissionMap id' = none := Function.update_self _ _ _
    exact absurd (hnone.symm.trans h) (by simp)
  · have hsame : (s.unassign id).submissionMap id' = s.submissionMap id' := Function.update_of_ne hid _ _
    exact ⟨hid, hsame.symm.trans h⟩

@[simp] theorem dequeue_handlers {key id : ℕ} : (s.dequeue key id).handlers = s.handlers := rfl

theorem mem_discard {judge judge' : ℕ} : judge' ∈ (s.discard judge).judges ↔ judge' ∈ s.judges ∧ judge' ≠ judge := by
  simp [discard]

theorem mem_add {judge judge' : ℕ} : judge' ∈ (s.add judge).judges ↔ judge' ∈ s.judges ∨ judge' = judge := by
  unfold add
  dsimp only
  split
  · rename_i hin
    exact ⟨.inl, fun h => h.elim (fun h => h) fun h => h ▸ hin⟩
  · simp

theorem mem_currentTierJudges {judge : ℕ} : judge ∈ s.currentTierJudges w ↔
    judge ∈ s.judges ∧ (s.handlers judge).tier = s.minTier ∧ (s.handlers judge).isDisabled = false := by
  simp [currentTierJudges, iter]

theorem currentTierJudges_nodup (h : s.judges.Nodup) : (s.currentTierJudges w).Nodup :=
  ((List.perm_insertionSort _ _).nodup_iff.mpr h).filter _

end JudgeList

section

variable (w : World)

/-- `JudgeHandler.submit`. -/
def submit (judge : ℕ) (r : Request) : M Unit :=
  match w.submits judge r.id with
  | .noData => throw .submission
  | .notSent => do
      modify (·.setHandler judge fun j => { j with working := some r.id })
      throw .connection
  | .sent => modify (·.setHandler judge fun j => { j with working := some r.id, sent := r.id :: j.sent })

/-- The loop of `_handle_free_judge` from a node on. -/
def takeFrom (judge : ℕ) : ℕ → List Node → M Unit
  | _, [] => pure ()
  | priority, node :: rest =>
      match node.value with
      | .marker p => takeFrom judge (p + 1) rest
      | .request r => do
          let s ← get
          if REJUDGE_PRIORITY ≤ priority ∧ s.shouldReserveJudge w = true then pure ()
          else if (s.handlers judge).canJudge r.problem r.language r.judgeId then do
            modify (·.assign r.id judge)
            let dispatched ← attempt (submit w judge r)
            if dispatched then modify (·.dequeue node.key r.id)
            else do
              let s ← get
              if judge ∈ s.judges then modify (·.discard judge) else throw .key
          else takeFrom judge priority rest

/-- `_handle_free_judge`. -/
def handleFreeJudge (judge : ℕ) : M Unit := do
  let s ← get
  match (s.handlers judge).tier, s.minTier with
  | some tier, some minTier => if minTier < tier then pure () else takeFrom w judge 0 s.queue
  | _, _ => throw .type

/-- `if not judge.working: self._handle_free_judge(judge)`. -/
def handleIfFree (judge : ℕ) : M Unit := do
  let s ← get
  if s.working judge then pure () else handleFreeJudge w judge

/-- `_update_min_tier`. -/
def updateMinTier : M Unit := do
  let old ← get
  modify fun s => { s with minTier := s.lowestTier }
  let s ← get
  match old.minTier, s.minTier with
  | some old, some new => if old < new then (s.currentTierJudges w).forM (handleIfFree w) else pure ()
  | _, _ => pure ()

/-- `register`. Its call of `disconnect` closes connections, which leaves the list as it is. -/
def register (judge : ℕ) : M Unit := do
  modify (·.add judge)
  updateMinTier w
  handleFreeJudge w judge

/-- `update_disable_judge`. -/
def updateDisableJudge (judgeId : String) (isDisabled : Bool) : M Unit := do
  modify fun s => { s with
    handlers := fun judge =>
      if judge ∈ s.judges ∧ (s.handlers judge).name = some judgeId then { s.handlers judge with isDisabled }
      else s.handlers judge }
  updateMinTier w

/-- `remove`. -/
def remove (judge : ℕ) : M Unit := do
  modify fun s =>
    match (s.handlers judge).working with
    | some sub => s.unassign sub
    | none => s
  modify (·.discard judge)
  updateMinTier w
  let s ← get
  match s.currentTierJudges w with
  | [judge] => handleIfFree w judge
  | _ => pure ()

/-- `on_judge_free`. -/
def onJudgeFree (judge submission : ℕ) : M Unit := do
  let s ← get
  if s.submissionMap submission = none then throw .key
  else do
    modify (·.unassign submission)
    modify (·.setHandler judge fun j => { j with working := none })
    handleFreeJudge w judge

/-- `abort`: whether a judge was told. -/
def abort (submission : ℕ) : M Bool := do
  let s ← get
  match s.submissionMap submission with
  | some judge => if w.reaches judge then pure true else throw .connection
  | none =>
      match s.nodeMap submission with
      | some key => do
          modify (·.dequeue key submission)
          pure false
      | none => pure false

/-- `id in self.submission_map or id in self.node_map`. -/
def JudgeList.knows (s : JudgeList) (id : ℕ) : Bool := (s.submissionMap id).isSome || (s.nodeMap id).isSome

/-- The judge a call of `judge` picks, if any is available. -/
def JudgeList.pick (s : JudgeList) (w : World) (r : Request) (priority : ℕ) : Option ℕ :=
  let candidates := (s.currentTierJudges w).filter fun judge =>
    (s.handlers judge).canJudge r.problem r.language r.judgeId
  let available := candidates.filter fun judge => !s.working judge && !(s.handlers judge).isDisabled
  if 1 < candidates.length ∧ available.length = 1 ∧ REJUDGE_PRIORITY ≤ priority then none
  else available.argmin fun judge => toLex ((s.handlers judge).load, w.random judge)

/-- `judge`, with the depth of its recursion. -/
def JudgeList.judge (r : Request) (priority : ℕ) : ℕ → M Unit
  | 0 => throw .recursion
  | depth + 1 => do
      let s ← get
      if s.knows r.id then pure ()
      else
        match s.pick w r priority with
        | some chosen => do
            modify (·.assign r.id chosen)
            let dispatched ← attempt (submit w chosen r)
            if dispatched then pure ()
            else do
              modify (·.discard chosen)
              JudgeList.judge r priority depth
        | none =>
            if JudgeList.checkPriority priority then modify (·.enqueue r priority) else throw .index

end

/-! ## Calls -/

/-- The calls of the list, and what a judge writes on its own handler. -/
inductive Call where
  | register (judge : ℕ)
  | remove (judge : ℕ)
  | updateProblems (judge : ℕ)
  | updateDisableJudge (judgeId : String) (isDisabled : Bool)
  | onJudgeFree (judge submission : ℕ)
  | abort (submission : ℕ)
  | judge (r : Request) (priority : ℕ)
  | handshake (judge : ℕ) (name : String) (tier : ℤ) (problems executors : List String)
  | connected (judge : ℕ) (isDisabled : Bool)
  | supportedProblems (judge : ℕ) (problems : List String)
  | pingResponse (judge : ℕ) (load : ℚ)

/-- A call. The recursion of `judge` is given more depth than there are judges to discard. -/
def perform (w : World) : Call → M Unit
  | .register judge => Bridge.register w judge
  | .remove judge => Bridge.remove w judge
  | .updateProblems judge => handleFreeJudge w judge
  | .updateDisableJudge judgeId isDisabled => Bridge.updateDisableJudge w judgeId isDisabled
  | .onJudgeFree judge submission => Bridge.onJudgeFree w judge submission
  | .abort submission => discard (Bridge.abort w submission)
  | .judge r priority => do
      let s ← get
      JudgeList.judge w r priority (s.judges.length + 2)
  | .handshake judge name tier problems executors =>
      modify (·.setHandler judge fun j => { j with name := some name, tier := some tier, problems, executors })
  | .connected judge isDisabled => modify (·.setHandler judge fun j => { j with isDisabled })
  | .supportedProblems judge problems => modify (·.setHandler judge fun j => { j with problems })
  | .pingResponse judge load => modify (·.setHandler judge fun j => { j with load })

/-- The list after a call, whether it raised or not. -/
def JudgeList.after (s : JudgeList) (w : World) (call : Call) : JudgeList := endOf (perform w call) s

/-- The list after a history of calls. -/
def JudgeList.afterAll (s : JudgeList) (calls : List (World × Call)) : JudgeList :=
  calls.foldl (fun s call => s.after call.1 call.2) s

end Bridge
end CpcJudge
