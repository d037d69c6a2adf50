import CpcJudge.ContestTeams.Join

/-!
# Submitting to a problem

`judge/views/problem.py`: `ProblemSubmit.form_valid` in two parts, with anything in between. The first is what it asks
before its transaction; the second is the transaction, which locks the participation of a team and counts its
submissions again, and does neither for the participation of one person.

A `ContestSubmission` is one-to-one with its submission and is kept with it. `contest_object` and `locked_after` of
the new submission and its source are left out: nothing here reads them.
-/

namespace CpcJudge.Submissions
open ContestTeams (Contest ContestParticipation ContestTeamMember)

/-! ## The tables -/

structure Problem where
  id : ℕ
  allowedLanguages : List ℕ
  bannedUsers : List ℕ
  deriving DecidableEq

structure ContestProblem where
  id : ℕ
  problem : ℕ
  contest : ℕ
  maxSubmissions : Option ℤ
  deriving DecidableEq

/-- `Submission.STATUS`. -/
inductive Status where
  | qu | p | g | d | ie | ce | ab
  deriving DecidableEq

structure ContestSubmission where
  problem : ℕ
  participation : ℕ
  deriving DecidableEq

structure Submission where
  id : ℕ
  user : ℕ
  problem : ℕ
  language : ℕ
  status : Status
  rejudged : Bool
  contest : Option ContestSubmission
  deriving DecidableEq

instance : Keyed Problem := ⟨Problem.id⟩
instance : Keyed ContestProblem := ⟨ContestProblem.id⟩
instance : Keyed Submission := ⟨Submission.id⟩

structure Site where
  problems : Table Problem
  contests : Table Contest
  contestProblems : Table ContestProblem
  participations : Table ContestParticipation
  teamRoster : List ContestTeamMember
  submissions : Table Submission
  nextId : ℕ

/-- A form that was sent: by whom, and the participation they are in (`current_contest`). -/
structure Request where
  profile : ℕ
  spamSubmission : Bool
  isSuperuser : Bool
  problem : ℕ
  language : ℕ
  currentContest : Option ℕ
  deriving DecidableEq

inductive Refusal where
  | tooManyAtOnce | permissionDenied | banned | tooMany | cannotEnter | notFound
  deriving DecidableEq

/-- What a request has read by the time it enters its transaction. -/
structure Checked where
  request : Request
  participation : Option ContestParticipation
  contestProblem : Option ContestProblem
  deriving DecidableEq

/-- `DMOJ_SUBMISSION_LIMIT`. -/
def submissionLimit : ℕ := 2

namespace Site

/-! ## What it reads -/

def currentContest (s : Site) (r : Request) : Option ContestParticipation :=
  r.currentContest.bind s.participations.get?

/-- `get_contest_problem`. -/
def contestProblem (s : Site) (r : Request) : Option ContestProblem :=
  (s.currentContest r).bind fun p =>
    s.contestProblems.rows.find? fun c => c.problem = r.problem && c.contest = p.contest

/-- The submission is one of the participation, a virtual attempt with this number, to the problem. -/
def counts (s : Site) (participation problem : ℕ) (virtual : ℤ) (c : ContestSubmission) : Bool :=
  c.participation = participation &&
    (s.contestProblems.get? c.problem).any (fun cp => cp.problem = problem) &&
    (s.participations.get? c.participation).any (fun p => p.virtual = virtual)

/-- `get_contest_submission_count`. -/
def contestSubmissionCount (s : Site) (participation problem : ℕ) (virtual : ℤ) : ℕ :=
  s.submissions.rows.countP fun b => b.status ≠ .ie && b.contest.any (s.counts participation problem virtual)

/-- `remaining_submission_count`; none is without limit. -/
def remainingSubmissionCount (s : Site) (r : Request) : Option ℤ :=
  match s.currentContest r, (s.contestProblem r).bind (·.maxSubmissions) with
  | some p, some max => some (Max.max 0 (max - s.contestSubmissionCount p.id r.problem p.virtual))
  | _, _ => none

/-- The submissions of a user that are still to be judged for the first time. -/
def unfinished (s : Site) (user : ℕ) : ℕ :=
  s.submissions.rows.countP fun b => b.user = user && !b.rejudged && b.status ∉ [Status.d, .ie, .ce, .ab]

/-- `contains_profile`. -/
def containsProfile (s : Site) (p : ContestParticipation) (profile : ℕ) : Bool :=
  if p.team.isNone then p.user = profile
  else s.teamRoster.any fun member => member.participation = p.id && member.profile = profile

/-! ## The two parts -/

/-- Up to the transaction. -/
def check (s : Site) (r : Request) : Except Refusal Checked :=
  match s.problems.get? r.problem with
  | none => .error .notFound
  | some problem =>
      if !r.spamSubmission && submissionLimit ≤ s.unfinished r.profile then .error .tooManyAtOnce
      else if r.language ∉ problem.allowedLanguages then .error .permissionDenied
      else if !r.isSuperuser && r.profile ∈ problem.bannedUsers then .error .banned
      else if s.remainingSubmissionCount r = some 0 then .error .tooMany
      else .ok { request := r, participation := s.currentContest r, contestProblem := s.contestProblem r }

/-- What a team is asked once its participation is locked. -/
def lockedRefusal (s : Site) (a : Checked) (p : ContestParticipation) (now : ℕ) : Option Refusal :=
  match s.participations.get? p.id with
  | none => some .notFound
  | some p =>
      if ((s.contests.get? p.contest).any fun c => p.ended c now) || p.isDisqualified ||
          !s.containsProfile p a.request.profile then some .cannotEnter
      else match a.contestProblem.bind (·.maxSubmissions) with
        | none => none
        | some max =>
            if max ≠ 0 ∧ max ≤ s.contestSubmissionCount p.id a.request.problem p.virtual then some .tooMany else none

/-- The new submission, with its `ContestSubmission`. -/
def newSubmission (s : Site) (a : Checked) : Submission where
  id := s.nextId
  user := a.request.profile
  problem := a.request.problem
  language := a.request.language
  status := .qu
  rejudged := false
  contest := a.participation.bind fun p => a.contestProblem.map fun c => { problem := c.id, participation := p.id }

def save (s : Site) (a : Checked) : Site :=
  { s with submissions := s.submissions.add (s.newSubmission a), nextId := s.nextId + 1 }

/-- The transaction. -/
def insert (s : Site) (a : Checked) (now : ℕ) : Except Refusal Site :=
  match a.participation with
  | none => .ok (s.save a)
  | some p =>
      if p.team.isNone then .ok (s.save a)
      else match s.lockedRefusal a p now with
        | some refusal => .error refusal
        | none => .ok (s.save a)

/-! ## The rest of the site -/

/-- A participation is created, or changes in anything but its contest, its team and the attempt it is. -/
def putParticipation (s : Site) (p : ContestParticipation) : Site :=
  match s.participations.get? p.id with
  | none => { s with participations := s.participations.add p }
  | some old =>
      if old.contest = p.contest ∧ old.team = p.team ∧ old.virtual = p.virtual then
        { s with participations := s.participations.put p }
      else s

/-- A submission gets a status. One with an internal error is not judged again. -/
def judged (s : Site) (submission : ℕ) (status : Status) (rejudged : Bool) : Site :=
  { s with
    submissions := s.submissions.modify (fun b => b.id = submission && b.status ≠ .ie)
      (fun b => { b with status, rejudged := b.rejudged || rejudged }) fun _ => rfl }

end Site

/-! ## Requests in any order -/

inductive Event where
  | check (r : Request)
  /-- The request that passed its check this many places ago gets to its transaction. -/
  | insert (place now : ℕ)
  /-- It never does. -/
  | fail (place : ℕ)
  | participation (p : ContestParticipation)
  | roster (members : List ContestTeamMember)
  | judged (submission : ℕ) (status : Status) (rejudged : Bool)
  deriving DecidableEq

/-- The site, and the requests between their two parts. -/
structure State where
  site : Site
  pending : List Checked

namespace State

def step (k : State) : Event → State
  | .check r =>
      match k.site.check r with
      | .error _ => k
      | .ok a => { k with pending := a :: k.pending }
  | .insert place now =>
      match k.pending[place]? with
      | none => k
      | some a =>
          match k.site.insert a now with
          | .error _ => { k with pending := k.pending.eraseIdx place }
          | .ok site => { site, pending := k.pending.eraseIdx place }
  | .fail place => { k with pending := k.pending.eraseIdx place }
  | .participation p => { k with site := k.site.putParticipation p }
  | .roster members => { k with site := { k.site with teamRoster := members } }
  | .judged submission status rejudged => { k with site := k.site.judged submission status rejudged }

def run (k : State) (events : List Event) : State := events.foldl step k

end State
end CpcJudge.Submissions
