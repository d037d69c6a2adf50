import Mathlib.Tactic

/-!
# `Mail.Sending` — emails to many users

An email is handed to Resend by a task: its people to a segment of their own, and then one broadcast to that segment.
The task may die between any two of its steps, and any call to Resend may be done without the answer arriving; a retry
gives the email to another task, which only sees what was saved. Resend keeps few segments, so before a task makes one
it deletes those of other emails that need them no more.

A step of a task (`proceed`) is one call to Resend or one transaction of the database; what it calls while it holds the
lock of the email is one step. Emails are not deleted or cancelled here, and time does not pass: an email that is being
sent can be retried at any moment, and nothing rests on the idempotency keys, which Resend forgets after a day.
-/

namespace CpcJudge
namespace Mail

/-- `MassEmailRecipient.state`. -/
inductive State where
  | pending | added | unsubscribed | failed
  deriving DecidableEq, Repr

/-- `PENDING_STATES`. -/
def State.isPending : State → Bool
  | .pending | .failed => true
  | .added | .unsubscribed => false

/-- `MassEmail.status`. -/
inductive Status where
  | draft | sending | scheduled | sent | failed | cancelled
  deriving DecidableEq, Repr

/-- What Resend says of a broadcast: `deleted` when it no longer has it. -/
inductive Stage where
  | draft | queued | scheduled | sent | canceled | deleted
  deriving DecidableEq, Repr

/-- `MassEmail`, with its recipients. -/
structure MassEmail where
  status : Status := .draft
  taskId : ℕ := 0
  scheduled : Bool := false
  segmentId : Option ℕ := none
  broadcastId : Option ℕ := none
  broadcastRequested : Bool := false
  recipients : List (ℕ × State) := []
  deriving DecidableEq, Repr

/-- A segment of Resend. Its name says whose it is. -/
structure Segment where
  name : ℕ := 0
  kept : Bool := true
  members : List ℕ := []
  deriving DecidableEq, Repr

/-- A broadcast of Resend, and the people it went out to. -/
structure Broadcast where
  name : ℕ := 0
  segmentId : ℕ := 0
  stage : Stage := .draft
  reached : List ℕ := []
  deriving DecidableEq, Repr

/-- Where a task stands. -/
inductive Point where
  | unqueued | queued | opened | contacts | segments
  -- `_free_segments`: the segments still to look at, the one it looks at, and its email as it was read
  | freeing (todo : List ℕ)
  | looking (segment : ℕ) (other : MassEmail) (todo : List ℕ)
  | claiming (segment : ℕ) (other : MassEmail) (status : Status) (todo : List ℕ)
  | deleting (segment : ℕ) (todo : List ℕ)
  | beating | making
  | made (segment : ℕ)
  | rows
  | handing (todo : List ℕ)
  | giving (row : ℕ) (todo : List ℕ)
  | counting | marking | asking
  | finishing (stage : Stage)
  | failing | stopped
  deriving DecidableEq, Repr

/-- A task: `segmentId` and `broadcastId` are those of the email as the task read it, or made since. `enqueueing` while
the page that queues it has no answer. -/
structure Task where
  mailId : ℕ := 0
  enqueueing : Bool := true
  point : Point := .unqueued
  segmentId : Option ℕ := none
  broadcastId : Option ℕ := none
  segmentMadeNow : Bool := false
  askedBefore : Bool := false
  deriving DecidableEq, Repr

/-- The database, the tasks and Resend. -/
structure Site where
  emails : ℕ → MassEmail := fun _ => {}
  tasks : ℕ → Task := fun _ => {}
  segments : ℕ → Segment := fun _ => {}
  broadcasts : ℕ → Broadcast := fun _ => {}
  nextTask : ℕ := 0
  nextSegment : ℕ := 0
  nextBroadcast : ℕ := 0

/-- How a call ends: done and answered; done, but the answer is an error; not done; done, and the task dies before it
writes the answer down; the person is unsubscribed, or may not be written to; the broadcast is left as a draft. -/
inductive Answer where
  | ok | lost | refused | killed | unsubscribed | draft
  deriving DecidableEq, Repr

namespace Site

variable (s : Site) (t : ℕ) (a : Answer)

/-- The email of a task. -/
def mail : MassEmail := s.emails (s.tasks t).mailId

/-- `_still_mine`, and what `Heartbeat` checks. -/
def StillMine : Prop := (s.mail t).status = .sending ∧ (s.mail t).taskId = t

instance : Decidable (s.StillMine t) := inferInstanceAs (Decidable (_ ∧ _))

def setTask (f : Task → Task) : Site := { s with tasks := Function.update s.tasks t (f (s.tasks t)) }

def setMail (e : ℕ) (f : MassEmail → MassEmail) : Site := { s with emails := Function.update s.emails e (f (s.emails e)) }

def setSegment (i : ℕ) (f : Segment → Segment) : Site :=
  { s with segments := Function.update s.segments i (f (s.segments i)) }

def setBroadcast (b : ℕ) (f : Broadcast → Broadcast) : Site :=
  { s with broadcasts := Function.update s.broadcasts b (f (s.broadcasts b)) }

def goTo (point : Point) : Site := s.setTask t fun task => { task with point }

/-- A new segment. -/
def addSegment (e : ℕ) : Site :=
  { s with
    segments := Function.update s.segments s.nextSegment { name := e }
    nextSegment := s.nextSegment + 1 }

/-- A new broadcast. -/
def addBroadcast (e segment : ℕ) (stage : Stage) : Site :=
  { s with
    broadcasts := Function.update s.broadcasts s.nextBroadcast { name := e, segmentId := segment, stage }
    nextBroadcast := s.nextBroadcast + 1 }

/-- A new task for an email. -/
def addTask (e : ℕ) : Site :=
  { s with
    tasks := Function.update s.tasks s.nextTask { mailId := e }
    nextTask := s.nextTask + 1 }

/-! ## Freeing segments -/

/-- What `_free_segment` makes of an email as it was read: the status it is claimed with, if its segment is freed. -/
def freed (other : MassEmail) : Option Status :=
  match other.status, other.broadcastId with
  | .cancelled, _ => some .cancelled
  | .failed, broadcast => if broadcast.isSome || other.broadcastRequested then none else some .failed
  | .sent, some b =>
      if a = .ok ∧ (s.broadcasts b).stage ∈ [.sent, .canceled, .deleted] then some .sent else none
  | .scheduled, some b =>
      if a ≠ .ok then none
      else if (s.broadcasts b).stage = .sent then some .sent
      else if (s.broadcasts b).stage ∈ [.canceled, .deleted, .draft] then some .cancelled
      else none
  | _, _ => none

end Site

/-- The claim: the email is as it was read. -/
def MassEmail.Matches (now other : MassEmail) : Prop :=
  now.status = other.status ∧ now.segmentId = other.segmentId ∧
    (other.status = .failed → now.broadcastRequested = false ∧ now.broadcastId = none)

instance (now other : MassEmail) : Decidable (now.Matches other) := inferInstanceAs (Decidable (_ ∧ _ ∧ (_ → _)))

/-- What the claim writes. A failed email builds its list again if it is retried. -/
def MassEmail.release (mail : MassEmail) (segment : ℕ) (status : Status) : MassEmail :=
  if mail.segmentId = some segment then
    { mail with
      status
      segmentId := none
      recipients :=
        if mail.status = .failed then
          mail.recipients.map fun row => if row.2 = .added then (row.1, .pending) else row
        else mail.recipients }
  else { mail with status }

namespace Site

variable (s : Site) (t : ℕ) (a : Answer)

/-- `delete_segment`. -/
def dropSegment (segment : ℕ) : Site := s.setSegment segment fun i => { i with kept := false, members := [] }

/-- The steps of `_free_segments` from the claim on. -/
def claim (segment : ℕ) (other : MassEmail) (status : Status) (todo : List ℕ) : Site :=
  let e := (s.segments segment).name
  if (s.emails e).Matches other then
    (s.setMail e fun mail => mail.release segment status).goTo t (.deleting segment todo)
  else s.goTo t (.freeing todo)

def delete (segment : ℕ) (todo : List ℕ) : Site :=
  match a with
  | .ok | .lost => (s.dropSegment segment).goTo t (.freeing todo)
  | .killed => (s.dropSegment segment).goTo t .stopped
  | .refused | .unsubscribed | .draft => s.goTo t (.freeing todo)

/-! ## Handing over -/

/-- `create_segment`. -/
def makeSegment : Site :=
  match a with
  | .ok => (s.addSegment (s.tasks t).mailId).goTo t (.made s.nextSegment)
  | .lost => (s.addSegment (s.tasks t).mailId).goTo t .failing
  | .killed => (s.addSegment (s.tasks t).mailId).goTo t .stopped
  | .refused | .unsubscribed | .draft => s.goTo t .failing

/-- `_save(mail, resend_segment_id=segment)`: whoever the email belongs to by now. -/
def save (segment : ℕ) : Site :=
  (s.setMail (s.tasks t).mailId fun mail => { mail with segmentId := some segment }).setTask t fun task =>
    { task with segmentId := some segment, segmentMadeNow := true, point := .rows }

/-- A person goes to a segment, if Resend has it. -/
def join (segment row : ℕ) : Site :=
  s.setSegment segment fun i => if i.kept then { i with members := row :: i.members } else i

def setRow (row : ℕ) (state : State) : Site :=
  s.setMail (s.tasks t).mailId fun mail =>
    { mail with recipients := mail.recipients.map fun item => if item.1 = row then (row, state) else item }

/-- `_hand_over`. -/
def handOver (segment row : ℕ) (todo : List ℕ) : Site :=
  if ∃ item ∈ (s.mail t).recipients, item.1 = row ∧ item.2.isPending then
    match a with
    | .ok =>
        if (s.segments segment).kept then ((s.join segment row).setRow t row .added).goTo t (.handing todo)
        else (s.setRow t row .failed).goTo t (.handing todo)
    | .lost => ((s.join segment row).setRow t row .failed).goTo t (.handing todo)
    | .killed => (s.join segment row).goTo t .stopped
    | .unsubscribed => (s.setRow t row .unsubscribed).goTo t (.handing todo)
    | .refused | .draft => (s.setRow t row .failed).goTo t (.handing todo)
  else s.goTo t (.handing todo)

/-! ## The broadcast -/

/-- The request is marked first, under the lock of the email. -/
def mark : Site :=
  if s.StillMine t then
    let asked := (s.mail t).broadcastRequested
    (s.setMail (s.tasks t).mailId fun mail =>
      if mail.broadcastId = none then { mail with broadcastRequested := true } else mail).setTask t fun task =>
        { task with askedBefore := asked, point := .asking }
  else s.goTo t .stopped

/-- `_made_before`. -/
def madeBefore (e : ℕ) : Option ℕ :=
  (List.range s.nextBroadcast).find? fun b =>
    (s.broadcasts b).name = e ∧ some (s.broadcasts b).segmentId = (s.emails e).segmentId

/-- What a broadcast is once it is asked for. -/
def stageOf (e : ℕ) : Stage := if (s.emails e).scheduled then .scheduled else .queued

def record (e b : ℕ) : Site := s.setMail e fun mail => { mail with broadcastId := some b }

def sendDraft (e b : ℕ) : Site :=
  if (s.broadcasts b).stage = .draft then s.setBroadcast b fun broadcast => { broadcast with stage := s.stageOf e } else s

/-- A broadcast made before: only a draft is sent. -/
def resume (b : ℕ) : Site :=
  let e := (s.tasks t).mailId
  match a with
  | .ok => ((s.sendDraft e b).record e b).goTo t (.finishing ((s.sendDraft e b).broadcasts b).stage)
  | .lost => ((s.sendDraft e b).record e b).goTo t .failing
  | .killed => (s.sendDraft e b).goTo t .stopped
  | .draft | .unsubscribed => (s.record e b).goTo t .failing
  | .refused => s.goTo t .failing

/-- `create_broadcast`, for the segment the task has in hand. -/
def create (segment : ℕ) : Site :=
  let e := (s.tasks t).mailId
  match a with
  | .ok => ((s.addBroadcast e segment (s.stageOf e)).record e s.nextBroadcast).goTo t (.finishing (s.stageOf e))
  | .lost => (s.addBroadcast e segment (s.stageOf e)).goTo t .failing
  | .killed => (s.addBroadcast e segment (s.stageOf e)).goTo t .stopped
  | .draft => (s.addBroadcast e segment .draft).goTo t .failing
  | .refused | .unsubscribed => s.goTo t .failing

/-- `_ask_for_broadcast`. -/
def ask : Site :=
  let e := (s.tasks t).mailId
  if s.StillMine t then
    let look := (s.tasks t).askedBefore || !(s.tasks t).segmentMadeNow
    match (s.mail t).broadcastId.or (if look then s.madeBefore e else none) with
    | some b => s.resume t a b
    | none =>
        match (s.tasks t).segmentId with
        | some segment => s.create t a segment
        | none => s.goTo t .failing
  else s.goTo t .stopped

/-- `_finish`. -/
def finish (stage : Stage) : Site :=
  if s.StillMine t then
    (s.setMail (s.tasks t).mailId fun mail =>
      { mail with
        status :=
          match stage with
          | .scheduled => .scheduled
          | .canceled | .deleted => .cancelled
          | .draft | .queued | .sent => .sent }).goTo t .stopped
  else s.goTo t .stopped

/-- The error of a task, while the email is still its. -/
def fail : Site :=
  if s.StillMine t then (s.setMail (s.tasks t).mailId fun mail => { mail with status := .failed }).goTo t .stopped
  else s.goTo t .stopped

/-! ## A task -/

/-- What the start of the task reads. -/
def start : Site :=
  if s.StillMine t then
    s.setTask t fun task =>
      { task with segmentId := (s.mail t).segmentId, broadcastId := (s.mail t).broadcastId, point := .opened }
  else s.goTo t .stopped

/-- A broadcast that an earlier attempt wrote down: what Resend says of it decides. -/
def openMail : Site :=
  match (s.tasks t).broadcastId with
  | none => s.goTo t .contacts
  | some b =>
      if a ≠ .ok then s.goTo t .failing
      else if (s.broadcasts b).stage = .draft then s.goTo t .contacts
      else s.goTo t (.finishing (s.broadcasts b).stage)

/-- One step of a task: `send_mass_email` and `_send`. -/
def proceed : Site :=
  match (s.tasks t).point with
  | .unqueued | .stopped => s
  | .queued => s.start t
  | .opened => s.openMail t a
  | .contacts =>
      if a ≠ .ok then s.goTo t .failing
      else if (s.tasks t).segmentId.isSome then s.goTo t .rows
      else s.goTo t .segments
  | .segments =>
      if a ≠ .ok then s.goTo t .failing
      else s.goTo t (.freeing ((List.range s.nextSegment).filter fun i =>
        (s.segments i).kept && (s.segments i).name ≠ (s.tasks t).mailId))
  | .freeing [] => s.goTo t .beating
  | .freeing (segment :: todo) => s.goTo t (.looking segment (s.emails (s.segments segment).name) todo)
  | .looking segment other todo =>
      match s.freed a other with
      | some status => s.goTo t (.claiming segment other status todo)
      | none => s.goTo t (.freeing todo)
  | .claiming segment other status todo => s.claim t segment other status todo
  | .deleting segment todo => s.delete t a segment todo
  | .beating => if s.StillMine t then s.goTo t .making else s.goTo t .stopped
  | .making => s.makeSegment t a
  | .made segment => s.save t segment
  | .rows =>
      s.goTo t (.handing (((s.mail t).recipients.filter fun item => item.2.isPending).map (·.1)))
  | .handing [] => s.goTo t .counting
  | .handing (row :: todo) => if s.StillMine t then s.goTo t (.giving row todo) else s.goTo t .stopped
  | .giving row todo =>
      match (s.tasks t).segmentId with
      | some segment => s.handOver t a segment row todo
      | none => s.goTo t .failing
  | .counting =>
      if ∃ item ∈ (s.mail t).recipients, item.2 = .added then s.goTo t .marking else s.goTo t .failing
  | .marking => s.mark t
  | .asking => s.ask t a
  | .finishing stage => s.finish t stage
  | .failing => s.fail t

end Site

/-! ## Runs -/

/-- What happens: an email is started, with the people it goes to and who of them is unsubscribed; the page that starts
it or retries it queues a task, and hears whether that worked; a task makes a step, or dies; Resend sends a broadcast. -/
inductive Event where
  | startSending (e : ℕ) (scheduled : Bool) (rows : List (ℕ × Bool))
  | retry (e : ℕ)
  | publish (t : ℕ)
  | enqueued (t : ℕ) (worked : Bool)
  | proceed (t : ℕ) (a : Answer)
  | die (t : ℕ)
  | goOut (b : ℕ)
  deriving DecidableEq, Repr

namespace Site

/-- `start_sending`, up to `enqueue`. -/
def startSending (s : Site) (e : ℕ) (scheduled : Bool) (rows : List (ℕ × Bool)) : Site :=
  if (s.emails e).status = .draft then
    (s.setMail e fun mail =>
      { mail with
        status := .sending
        taskId := s.nextTask
        scheduled
        recipients := rows.map fun row => (row.1, if row.2 then .unsubscribed else .pending) }).addTask e
  else s

/-- `retry_view`, up to `enqueue`: an email that failed, or that is stuck. -/
def retry (s : Site) (e : ℕ) : Site :=
  if (s.emails e).status = .failed ∨ (s.emails e).status = .sending then
    (s.setMail e fun mail => { mail with status := .sending, taskId := s.nextTask }).addTask e
  else s

/-- The task reaches the queue. -/
def publish (s : Site) (t : ℕ) : Site :=
  if (s.tasks t).enqueueing = true ∧ (s.tasks t).point = .unqueued ∧ t < s.nextTask then s.goTo t .queued else s

/-- The end of `enqueue`. The task may be in the queue although it raised. -/
def enqueued (s : Site) (t : ℕ) (worked : Bool) : Site :=
  if (s.tasks t).enqueueing = true ∧ t < s.nextTask then
    let answered := s.setTask t fun task => { task with enqueueing := false }
    if worked then answered else answered.setMail (s.tasks t).mailId fun mail => { mail with status := .failed }
  else s

/-- Resend sends a broadcast, once, to who is in its segment then. -/
def goOut (s : Site) (b : ℕ) : Site :=
  if (s.broadcasts b).stage = .queued ∨ (s.broadcasts b).stage = .scheduled then
    s.setBroadcast b fun broadcast =>
      { broadcast with stage := .sent, reached := (s.segments broadcast.segmentId).members }
  else s

def step (s : Site) : Event → Site
  | .startSending e scheduled rows => s.startSending e scheduled rows
  | .retry e => s.retry e
  | .publish t => s.publish t
  | .enqueued t worked => s.enqueued t worked
  | .proceed t a => s.proceed t a
  | .die t => if (s.tasks t).point = .unqueued then s else s.goTo t .stopped
  | .goOut b => s.goOut b

def run (s : Site) (events : List Event) : Site := events.foldl step s

end Site

end Mail
end CpcJudge
