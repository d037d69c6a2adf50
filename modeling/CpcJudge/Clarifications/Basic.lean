import CpcJudge.Lib.Table
import Mathlib.Data.List.MinMax
import Mathlib.Data.List.Sort

/-!
# Clarifications and their announcements

A question of a contest is answered from the contest tab or from the admin, and both end in
`syncAnnouncement`: a public answer travels as an announcement that points at the clarification, a private
one leaves none visible. A request reads the clarification when it arrives and saves it later, all of it,
with whatever others did in between; from the save to the commit it holds the row, so that nobody else gets
to the announcements of that clarification. Deleting one withdraws its announcements first, in a signal, and
only then takes the row.
-/

namespace CpcJudge.Clarifications

abbrev Text := List Char

/-! ## Texts -/

/-- `str.isspace`, for one character. -/
def isSpace (c : Char) : Bool :=
  let n := c.toNat
  (9 ≤ n && n ≤ 13) || (28 ≤ n && n ≤ 32) || n = 133 || n = 160 || n = 5760 || (8192 ≤ n && n ≤ 8202) ||
    n = 8232 || n = 8233 || n = 8239 || n = 8287 || n = 12288

def strip (text : Text) : Text := ((text.dropWhile isSpace).reverse.dropWhile isSpace).reverse

/-- The longest question the form will take. -/
def maxQuestion : ℕ := 1000

/-! ## The tables -/

/-- A `ContestProblem`, as the form of the admin checks it. -/
structure ContestProblem where
  id : ℕ
  contest : ℕ
  deriving DecidableEq

structure ContestClarification where
  id : ℕ
  contest : ℕ
  problem : Option ContestProblem
  user : ℕ
  teamParticipation : Option ℕ
  question : Text
  answer : Text
  answeredBy : Option ℕ
  answered : Option ℕ
  isPublic : Bool
  deriving DecidableEq

structure Announcement where
  id : ℕ
  contest : Option ℕ
  body : Text
  clarification : Option ℕ
  author : Option ℕ
  created : ℕ
  expires : Option ℕ
  isVisible : Bool
  deriving DecidableEq

instance : Keyed ContestClarification := ⟨ContestClarification.id⟩
instance : Keyed Announcement := ⟨Announcement.id⟩

/-- The answer is one that everybody in the contest gets to see. -/
def ContestClarification.isPublished (c : ContestClarification) : Bool := c.isPublic && !c.answer.isEmpty

/-- A request that has read what it needs and not saved yet. -/
inductive Request where
  /-- An answer from the contest tab to the clarification it read. -/
  | answer (clarification : ContestClarification) (answer : Text) (isPublic : Bool) (profile : ℕ)
  /-- The form of the admin, over the clarification it read, or over none to add one. -/
  | save (clarification : Option ContestClarification) (contest : ℕ) (problem : Option ContestProblem) (user : ℕ)
      (question answer : Text) (isPublic : Bool) (profile : ℕ)
  /-- A deletion whose signals have withdrawn these announcements, not committed yet. -/
  | delete (clarifications withdrawn : List ℕ)
  deriving DecidableEq

/-- The two tables and the requests under way. `nextId` numbers the rows of both, `endTime` is that of each
contest and `teamEntries` pairs the team participations with the profiles on their rosters. -/
structure Site where
  clarifications : Table ContestClarification
  announcements : Table Announcement
  nextId : ℕ
  requests : List Request
  endTime : ℕ → ℕ
  teamEntries : List (ℕ × ℕ)

namespace Site

def initial : Site := ⟨Table.empty, Table.empty, 1, [], fun _ => 0, []⟩

/-! ## Keeping the announcement in step -/

/-- Withdraw the visible announcements that satisfy `p`. -/
def withdraw (s : Site) (p : Announcement → Bool) : Site :=
  { s with
    announcements := s.announcements.modify (fun a => p a && a.isVisible)
      (fun a => { a with isVisible := false }) fun _ => rfl }

/-- The first announcement of a clarification, by creation and then by key. -/
def firstAnnouncement (s : Site) (clarification : ℕ) : Option Announcement :=
  (s.announcements.rows.filter (·.clarification = some clarification)).argmin fun a => toLex (a.created, a.id)

/-- The announcement that an answer is reused in: visible, in the contest of the question, until it ends. -/
def refresh (s : Site) (c : ContestClarification) (current : Announcement) : Announcement :=
  let current := if !current.isVisible then { current with isVisible := true } else current
  let current := if current.contest ≠ some c.contest then { current with contest := some c.contest } else current
  if current.expires ≠ some (s.endTime c.contest) then { current with expires := some (s.endTime c.contest) }
  else current

/-- The announcement created for an answer that has none. -/
def newAnnouncement (s : Site) (c : ContestClarification) (author now : ℕ) : Announcement where
  id := s.nextId
  contest := some c.contest
  body := []
  clarification := some c.id
  author := some author
  created := now
  expires := some (s.endTime c.contest)
  isVisible := true

def syncAnnouncement (s : Site) (c : ContestClarification) (author now : ℕ) : Site :=
  if !c.isPublished then s.withdraw (·.clarification = some c.id)
  else
    match s.firstAnnouncement c.id with
    | none =>
        { s with
          announcements := s.announcements.add (s.newAnnouncement c author now)
          nextId := s.nextId + 1 }
    | some current =>
        let s := { s with announcements := s.announcements.put (s.refresh c current) }
        s.withdraw fun a => a.clarification = some c.id && a.id ≠ current.id

/-! ## Saving -/

/-- `save()` writes every field, and inserts the row again if it has been deleted meanwhile. -/
def save (s : Site) (c : ContestClarification) : Site :=
  match s.clarifications.get? c.id with
  | some _ => { s with clarifications := s.clarifications.put c }
  | none => { s with clarifications := s.clarifications.add c }

/-- What `answer_clarification` makes of the row it read. -/
def answered (c : ContestClarification) (answer : Text) (isPublic : Bool) (profile now : ℕ) :
    ContestClarification :=
  { c with answer := answer.take maxQuestion, answered := some now, answeredBy := some profile, isPublic := isPublic }

/-- What `save_model` makes of a row with the form applied: an answer given here is dated here. -/
def dated (c : ContestClarification) (profile now : ℕ) : ContestClarification :=
  if !c.answer.isEmpty && c.answered.isNone then { c with answered := some now, answeredBy := some profile } else c

/-- From the save to the commit: the row is written and its announcements follow. -/
def store (s : Site) (c : ContestClarification) (profile now : ℕ) : Site :=
  (s.save c).syncAnnouncement c profile now

/-- The row a deletion leaves: the announcements it withdrew, and no row that points at the deleted ones. -/
def erase (s : Site) (clarifications withdrawn : List ℕ) : Site :=
  { s with
    clarifications := s.clarifications.filter fun c => c.id ∉ clarifications
    announcements := (s.announcements.modify (fun a => a.id ∈ withdrawn)
        (fun a => { a with isVisible := false }) fun _ => rfl).modify
      (fun a => a.clarification.any (· ∈ clarifications)) (fun a => { a with clarification := none }) fun _ => rfl }

def commit (s : Site) (now : ℕ) : Request → Site
  | .answer c answer isPublic profile => s.store (answered c answer isPublic profile now) profile now
  | .save (some c) contest problem user question answer isPublic profile =>
      let c := { c with contest := contest, problem := problem, user := user, question := question,
                        answer := answer, isPublic := isPublic }
      s.store (dated c profile now) profile now
  | .save none contest problem user question answer isPublic profile =>
      let c : ContestClarification :=
        { id := s.nextId, contest := contest, problem := problem, user := user, teamParticipation := none,
          question := question, answer := answer, answeredBy := none, answered := none, isPublic := isPublic }
      { s with nextId := s.nextId + 1 }.store (dated c profile now) profile now
  | .delete clarifications withdrawn => s.erase clarifications withdrawn

/-! ## Requests -/

/-- What arrives at the site, and what a request under way does next. -/
inductive Event where
  /-- A question that its form accepts. -/
  | ask (contest : ℕ) (problem : Option ContestProblem) (user : ℕ) (teamParticipation : Option ℕ) (question : Text)
  /-- `answer_clarification`, up to the save. -/
  | answer (canEdit : Bool) (contest pk : ℕ) (answer : Text) (isPublic : Bool) (profile : ℕ)
  /-- The form of the admin, up to the save; `editable` are the contests the account may write into. -/
  | save (editable : List ℕ) (pk : Option ℕ) (contest : ℕ) (problem : Option ContestProblem) (user : ℕ)
      (question answer : Text) (isPublic : Bool) (profile : ℕ)
  /-- A deletion, of one or of several at once, up to the deletion of the rows. -/
  | delete (pks : List ℕ)
  /-- The request in this place saves and commits. -/
  | commit (place now : ℕ)
  /-- The request in this place is refused by the database, and undone. -/
  | abort (place : ℕ)
  /-- An announcement written by hand is added, or changed if it has that key. -/
  | announce (announcement : Announcement)
  /-- The rest of the site changes. -/
  | elsewhere (endTime : ℕ → ℕ) (teamEntries : List (ℕ × ℕ))

def request (s : Site) (r : Request) : Site := { s with requests := s.requests ++ [r] }

def step (s : Site) : Event → Site
  | .ask contest problem user teamParticipation question =>
      { s with
        clarifications := s.clarifications.add
          { id := s.nextId, contest := contest, problem := problem, user := user,
            teamParticipation := teamParticipation, question := question, answer := [], answeredBy := none,
            answered := none, isPublic := false }
        nextId := s.nextId + 1 }
  | .answer canEdit contest pk answer isPublic profile =>
      match s.clarifications.get? pk with
      | some c =>
          if canEdit && c.contest = contest && !(strip answer).isEmpty then
            s.request (.answer c (strip answer) isPublic profile)
          else s
      | none => s
  | .save editable pk contest problem user question answer isPublic profile =>
      if contest ∈ editable && problem.all (·.contest = contest) && !(strip question).isEmpty then
        match pk with
        | none => s.request (.save none contest problem user (strip question) (strip answer) isPublic profile)
        | some pk =>
            match s.clarifications.get? pk with
            | some c =>
                if c.contest ∈ editable then
                  s.request (.save (some c) contest problem user (strip question) (strip answer) isPublic profile)
                else s
            | none => s
      else s
  | .delete pks =>
      s.request (.delete pks ((s.announcements.rows.filter fun a =>
        a.clarification.any (· ∈ pks) && a.isVisible).map (·.id)))
  | .commit place now =>
      match s.requests[place]? with
      | some r => { s.commit now r with requests := s.requests.eraseIdx place }
      | none => s
  | .abort place => { s with requests := s.requests.eraseIdx place }
  | .announce announcement =>
      match s.announcements.get? announcement.id with
      | some old =>
          if old.clarification.isNone then
            { s with announcements := s.announcements.put { announcement with clarification := none } }
          else s
      | none =>
          { s with
            announcements := s.announcements.add { announcement with id := s.nextId, clarification := none }
            nextId := s.nextId + 1 }
  | .elsewhere endTime teamEntries => { s with endTime := endTime, teamEntries := teamEntries }

def run (s : Site) (events : List Event) : Site := events.foldl step s

end Site
end CpcJudge.Clarifications
