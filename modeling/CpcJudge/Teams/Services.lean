import CpcJudge.ContestTeams.Join
import CpcJudge.Lib.Text

/-!
# Teams and their invitations

`judge/team_services.py`: each mutation is a transaction that locks the row of its team before it reads anything
else, and writes rows of that team alone, so that the mutations of a team come one after another. The answer to an
invitation first looks, without a lock, for the team it is about; what happens between that and the lock is anybody's.

The clock, the settings and the accounts come with each request, since the rest of the site changes them.
-/

namespace CpcJudge.Teams
open Txn
open ContestTeams (Contest ContestParticipation)

/-! ## The tables -/

structure Team where
  id : ℕ
  name : Text
  owner : ℕ
  isActive : Bool
  deriving DecidableEq

structure TeamMembership where
  team : ℕ
  profile : ℕ
  deriving DecidableEq

inductive Status where
  | pending
  | accepted
  | declined
  | cancelled
  deriving DecidableEq

structure TeamInvitation where
  id : ℕ
  team : ℕ
  sender : ℕ
  recipient : ℕ
  status : Status
  created : ℕ
  responded : Option ℕ
  deriving DecidableEq

structure ContestTeamLocation where
  contest : ℕ
  team : ℕ
  deriving DecidableEq

instance : Keyed Team := ⟨Team.id⟩
instance : Keyed TeamInvitation := ⟨TeamInvitation.id⟩

structure Db where
  teams : Table Team
  memberships : List TeamMembership
  invitations : Table TeamInvitation
  contests : Table Contest
  participations : Table ContestParticipation
  locations : List ContestTeamLocation
  nextTeam : ℕ
  nextInvitation : ℕ

structure Account where
  id : ℕ
  username : Text
  isActive : Bool

/-- What a request finds on the rest of the site. -/
structure Site where
  now : ℕ
  teamsEnabled : Bool
  maxOwnedTeams : ℕ
  invitesPerHour : ℕ
  accounts : List Account

inductive Refusal where
  | noTeam
  | noProfile
  | denied
  | badName
  | paused
  | playing
  | tooManyTeams
  | noUser
  | alreadyMember
  | alreadyInvited
  | tooManySent
  | tooManyPending
  | notAvailable
  | notPending
  | ownerLeaves
  | notMember
  | newOwnerNotMember
  deriving DecidableEq

abbrev TeamM := EStateM Refusal Db

/-! ## What a mutation checks -/

def cleanTeamName (value : Text) : TeamM Text := do
  let name := [Text.space].intercalate value.words
  refuseIf (name.isEmpty ∨ 60 < name.length ∨ name.any fun c => c.val < 32 || c.val = 127) .badName
  return name

def requireTeamsEnabled (site : Site) : TeamM Unit := refuseIf (site.teamsEnabled = false) .paused

/-- `_owner`. -/
def requireOwner (team : Team) (actor : ℕ) : TeamM Unit :=
  refuseIf (team.isActive = false ∨ team.owner ≠ actor) .denied

/-- A participation that keeps the roster of its team as it is. -/
def Db.isPlaying (db : Db) (now : ℕ) (entry : ContestParticipation) : Bool :=
  (db.contests.get? entry.contest).any fun c =>
    (entry.virtual = 0 && now < c.endTime) || (0 < entry.virtual && now < entry.endTime c)

def Db.participationsOf (db : Db) (team : ℕ) : List ContestParticipation :=
  db.participations.rows.filter (·.team = some team)

/-- `_require_idle`. -/
def requireIdle (site : Site) (team : Team) : TeamM Unit := do
  let db ← get
  refuseIf (((db.participationsOf team.id).filter (0 ≤ ·.virtual)).any (db.isPlaying site.now)) .playing

/-- `Team.objects.select_for_update().get`. -/
def lockTeam (team : ℕ) : TeamM Team := do
  let db ← get
  orRefuse (db.teams.get? team) .noTeam

def lockProfile (site : Site) (profile : ℕ) : TeamM Account :=
  orRefuse (site.accounts.find? (·.id = profile)) .noProfile

/-! ## The mutations -/

def Db.insertTeam (db : Db) (team : Team) : Db :=
  { db with
    teams := db.teams.add team
    memberships := db.memberships ++ [⟨team.id, team.owner⟩]
    nextTeam := db.nextTeam + 1 }

def createTeam (site : Site) (actor : ℕ) (name : Text) : TeamM Team := do
  requireTeamsEnabled site
  let _ ← lockProfile site actor
  let db ← get
  refuseIf (site.maxOwnedTeams ≤ db.teams.rows.countP fun team => team.owner = actor && team.isActive) .tooManyTeams
  let name ← cleanTeamName name
  let team : Team := { id := db.nextTeam, name, owner := actor, isActive := true }
  set (db.insertTeam team)
  return team

def Db.insertInvitation (db : Db) (invitation : TeamInvitation) : Db :=
  { db with invitations := db.invitations.add invitation, nextInvitation := db.nextInvitation + 1 }

/-- An hour, as the clock counts. -/
def hour : ℕ := 3600000000

def inviteMember (site : Site) (actor team : ℕ) (username : Text) : TeamM TeamInvitation := do
  requireTeamsEnabled site
  let team ← lockTeam team
  requireOwner team actor
  let recipient ← orRefuse (site.accounts.find? fun account => account.username = username.strip && account.isActive)
    .noUser
  let db ← get
  refuseIf (⟨team.id, recipient.id⟩ ∈ db.memberships) .alreadyMember
  refuseIf (db.invitations.rows.any fun i => i.team = team.id && i.recipient = recipient.id && i.status = .pending)
    .alreadyInvited
  refuseIf (site.invitesPerHour ≤
    db.invitations.rows.countP fun i => i.sender = actor && site.now ≤ i.created + hour) .tooManySent
  refuseIf (50 ≤ db.invitations.rows.countP fun i => i.recipient = recipient.id && i.status = .pending &&
    (db.teams.get? i.team).any (·.isActive)) .tooManyPending
  let invitation : TeamInvitation :=
    { id := db.nextInvitation, team := team.id, sender := actor, recipient := recipient.id, status := .pending,
      created := site.now, responded := none }
  set (db.insertInvitation invitation)
  return invitation

/-- The `action` of a form. -/
inductive Action where
  | accept
  | decline
  | cancel
  | other
  deriving DecidableEq

/-- What an answered invitation becomes. -/
def Action.status : Action → Status
  | .accept => .accepted
  | .decline => .declined
  | .cancel | .other => .cancelled

def TeamInvitation.answer (i : TeamInvitation) (action : Action) (now : ℕ) : TeamInvitation :=
  { i with status := action.status, responded := some now }

/-- `TeamMembership.objects.get_or_create`. -/
def Db.getOrCreateMembership (db : Db) (team profile : ℕ) : Db :=
  if ⟨team, profile⟩ ∈ db.memberships then db
  else { db with memberships := db.memberships ++ [⟨team, profile⟩] }

/-- The first statement of `respond_invitation`: the team of the invitation. -/
def Db.reference (db : Db) (invitation : ℕ) : Option ℕ := (db.invitations.get? invitation).map (·.team)

/-- The owner cancels, the recipient answers. -/
def requireAnswerer (team : Team) (invitation : TeamInvitation) (actor : ℕ) (action : Action) : TeamM Unit :=
  if action = .cancel then requireOwner team actor
  else refuseIf (invitation.recipient ≠ actor ∨ action = .other) .denied

/-- The recipient that accepts becomes a member. -/
def enter (site : Site) (team : Team) (actor : ℕ) (action : Action) : TeamM Unit :=
  if action = .accept then do
    requireTeamsEnabled site
    let _ ← lockProfile site actor
    modify fun db => db.getOrCreateMembership team.id actor
  else pure ()

/-- `respond_invitation` once it knows the team. -/
def respondLocked (site : Site) (actor invitation : ℕ) (action : Action) (team : ℕ) : TeamM Team := do
  let db ← get
  let team ← orRefuse (db.teams.get? team) .notAvailable
  let invitation ← orRefuse (db.invitations.get? invitation) .notAvailable
  requireAnswerer team invitation actor action
  refuseIf (team.isActive = false ∨ invitation.status ≠ .pending) .notPending
  enter site team actor action
  modify fun db => { db with invitations := db.invitations.put (invitation.answer action site.now) }
  return team

def respondInvitation (site : Site) (actor invitation : ℕ) (action : Action) : TeamM Team := do
  let db ← get
  let team ← orRefuse (db.reference invitation) .notAvailable
  respondLocked site actor invitation action team

/-- The owner removes anybody, and one leaves by removing oneself. -/
def requireRemover (team : Team) (actor profile : ℕ) : TeamM Unit :=
  if actor ≠ profile then requireOwner team actor else pure ()

def removeMember (site : Site) (actor team profile : ℕ) : TeamM Unit := do
  let team ← lockTeam team
  refuseIf (team.isActive = false) .denied
  requireRemover team actor profile
  requireIdle site team
  refuseIf (profile = team.owner) .ownerLeaves
  let db ← get
  refuseIf (⟨team.id, profile⟩ ∉ db.memberships) .notMember
  set { db with memberships := db.memberships.filter fun m => !(m.team = team.id && m.profile = profile) }

def transferTeam (site : Site) (actor team profile : ℕ) : TeamM Unit := do
  let team ← lockTeam team
  requireOwner team actor
  requireIdle site team
  let db ← get
  refuseIf (⟨team.id, profile⟩ ∉ db.memberships) .newOwnerNotMember
  set { db with teams := db.teams.put { team with owner := profile } }

/-- A team with a history stays, without members. -/
def Db.retire (db : Db) (now : ℕ) (team : Team) : Db :=
  { db with
    teams := db.teams.put { team with isActive := false }
    memberships := db.memberships.filter (·.team ≠ team.id)
    invitations := db.invitations.modify (fun i => i.team = team.id && i.status = .pending)
      (fun i => { i with status := .cancelled, responded := some now }) fun _ => rfl }

/-- `team.delete()`, with the rows that refer to it. -/
def Db.deleteCascade (db : Db) (team : Team) : Db :=
  { db with
    teams := db.teams.filter (·.id ≠ team.id)
    memberships := db.memberships.filter (·.team ≠ team.id)
    invitations := db.invitations.filter (·.team ≠ team.id) }

def deleteTeam (site : Site) (actor team : ℕ) : TeamM Unit := do
  let team ← lockTeam team
  requireOwner team actor
  requireIdle site team
  let db ← get
  if db.participationsOf team.id ≠ [] ∨ db.locations.any (·.team = team.id) then set (db.retire site.now team)
  else set (db.deleteCascade team)

/-! ## Runs -/

/-- A request that takes the lock with its first statement. -/
inductive Request where
  | create (actor : ℕ) (name : Text)
  | invite (actor team : ℕ) (username : Text)
  | remove (actor team profile : ℕ)
  | transfer (actor team profile : ℕ)
  | delete (actor team : ℕ)

def Request.perform (site : Site) : Request → TeamM Unit
  | .create actor name => discard (createTeam site actor name)
  | .invite actor team username => discard (inviteMember site actor team username)
  | .remove actor team profile => removeMember site actor team profile
  | .transfer actor team profile => transferTeam site actor team profile
  | .delete actor team => deleteTeam site actor team

/-- An answer that has looked for its team and waits for the lock. -/
structure Answer where
  actor : ℕ
  invitation : ℕ
  action : Action
  team : ℕ

inductive Event where
  | request (site : Site) (r : Request)
  /-- An answer starts: its first statement finds the team. -/
  | look (actor invitation : ℕ) (action : Action)
  /-- One of the answers that wait gets the lock. -/
  | answer (site : Site) (n : ℕ)
  /-- Contests are held, with teams or without. -/
  | elsewhere (contests : Table Contest) (participations : Table ContestParticipation)
      (locations : List ContestTeamLocation)

structure World where
  db : Db
  waiting : List Answer

/-- A transaction that is refused is rolled back. -/
def commit {α : Type} (x : TeamM α) (db : Db) : Db :=
  match x db with
  | .ok _ t => t
  | .error _ _ => db

def World.step (w : World) : Event → World
  | .request site r => { w with db := commit (r.perform site) w.db }
  | .look actor invitation action =>
      match w.db.reference invitation with
      | none => w
      | some team => { w with waiting := w.waiting ++ [⟨actor, invitation, action, team⟩] }
  | .answer site n =>
      match w.waiting[n]? with
      | none => w
      | some a =>
          { db := commit (respondLocked site a.actor a.invitation a.action a.team) w.db
            waiting := w.waiting.eraseIdx n }
  | .elsewhere contests participations locations => { w with db := { w.db with contests, participations, locations } }

/-- Before the first team. -/
def World.initial : World := ⟨⟨Table.empty, [], Table.empty, Table.empty, Table.empty, [], 1, 1⟩, []⟩

def World.run (w : World) (events : List Event) : World := events.foldl World.step w

/-- With nothing between its two parts an answer is a call of `respond_invitation`. -/
theorem World.look_answer (db : Db) (site : Site) (actor invitation : ℕ) (action : Action) :
    World.run ⟨db, []⟩ [.look actor invitation action, .answer site 0] =
      ⟨commit (respondInvitation site actor invitation action) db, []⟩ := by
  have hread : (get : TeamM Db) db = .ok db db := rfl
  simp only [World.run, List.foldl_cons, List.foldl_nil, World.step, respondInvitation, commit, bind_run hread]
  cases href : db.reference invitation with
  | none => rfl
  | some team => rfl

end CpcJudge.Teams
