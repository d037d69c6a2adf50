import CpcJudge.Lib.Table
import CpcJudge.Lib.Txn
import Mathlib.Data.List.Sort

/-!
# Joining a contest

`judge/contest_teams.py`: `join_attempt` resumes, watches or opens a participation, by oneself or with a team,
live or virtual. It locks the contest first and keeps it until it commits, so that the joins of a contest come
one after another; each is a transaction over the tables, and one that is refused changes nothing.

What the site answers about the caller (`is_accessible_by` and the like) comes with the request, since anything
else on the site may change it between two joins.
-/

namespace CpcJudge.ContestTeams
open Txn

/-! ## The tables -/

/-- `participation_mode`. -/
inductive Mode where
  | individual
  | team
  | both
  deriving DecidableEq

structure Contest where
  id : ℕ
  startTime : ℕ
  endTime : ℕ
  timeLimit : Option ℕ
  arenaGame : Bool
  editorIds : List ℕ
  testerIds : List ℕ
  bannedUsers : List ℕ
  accessCode : String
  participationMode : Mode
  isPrivate : Bool
  privateTeams : List ℕ
  limitJoinOrganizations : Bool
  teamMinSize : ℕ
  teamMaxSize : ℕ
  deriving DecidableEq

structure Profile where
  id : ℕ
  username : String
  isActive : Bool
  isSuperuser : Bool
  deriving DecidableEq

structure Team where
  id : ℕ
  name : String
  isActive : Bool
  members : List ℕ
  deriving DecidableEq

/-- A participation: official if `virtual` is 0, an observer's if it is -1, a virtual attempt above. -/
structure ContestParticipation where
  id : ℕ
  contest : ℕ
  user : ℕ
  team : Option ℕ
  teamName : String
  virtual : ℤ
  realStart : ℕ
  isDisqualified : Bool
  deriving DecidableEq

structure ContestTeamMember where
  participation : ℕ
  profile : ℕ
  username : String
  deriving DecidableEq

instance : Keyed Contest := ⟨Contest.id⟩
instance : Keyed Profile := ⟨Profile.id⟩
instance : Keyed Team := ⟨Team.id⟩
instance : Keyed ContestParticipation := ⟨ContestParticipation.id⟩

/-- The tables, and the current participation of each profile that has one. `now` is when the last join ended. -/
structure Site where
  contests : Table Contest
  profiles : Table Profile
  teams : Table Team
  participations : Table ContestParticipation
  teamRoster : List ContestTeamMember
  currentContest : List (ℕ × ℕ)
  nextId : ℕ
  now : ℕ

/-! ## Time -/

def Contest.started (c : Contest) (now : ℕ) : Bool := c.startTime ≤ now

def Contest.ended (c : Contest) (now : ℕ) : Bool := c.endTime < now

namespace ContestParticipation

def endTime (p : ContestParticipation) (c : Contest) : ℕ :=
  if p.virtual = -1 then c.endTime
  else if p.virtual ≠ 0 then
    match c.timeLimit with
    | some (limit + 1) => p.realStart + (limit + 1)
    | _ => p.realStart + (c.endTime - c.startTime)
  else
    match c.timeLimit with
    | none => c.endTime
    | some limit => min (p.realStart + limit) c.endTime

def ended (p : ContestParticipation) (c : Contest) (now : ℕ) : Bool := p.endTime c < now

end ContestParticipation

/-! ## Who is where -/

namespace Site

/-- `team_contest_entries`, as the participations. -/
def entriesOf (s : Site) (profile : ℕ) : List ℕ :=
  (s.teamRoster.filter (·.profile = profile)).map (·.participation)

/-- `contest.users.for_profile`. -/
def forProfile (s : Site) (contest profile : ℕ) : List ContestParticipation :=
  s.participations.rows.filter fun p => p.contest = contest &&
    ((p.team.isNone && p.user = profile) || decide (p.id ∈ s.entriesOf profile))

/-- The last virtual attempt still going, of those in a list. -/
def lastGoing (c : Contest) (now : ℕ) (entries : List ContestParticipation) : Option ContestParticipation :=
  (entries.insertionSort fun p q => q.virtual ≤ p.virtual).find? fun p => !p.ended c now

/-- `_active_attempt`. -/
def activeAttempt (s : Site) (c : Contest) (profile now : ℕ) : Option ContestParticipation :=
  lastGoing c now ((s.forProfile c.id profile).filter (1 ≤ ·.virtual))

def hasCompletedContest (s : Site) (c : Contest) (profile now : ℕ) : Bool :=
  ((s.forProfile c.id profile).find? (·.virtual = 0)).any (·.ended c now)

def containsProfile (s : Site) (p : ContestParticipation) (profile : ℕ) : Bool :=
  if p.team.isNone then p.user = profile
  else s.teamRoster.any fun member => member.participation = p.id && member.profile = profile

end Site

/-! ## The request -/

/-- The selection of the form; a key that is not a number is `none`. -/
inductive Selection where
  | entry (pk : Option ℕ)
  | team (pk : Option ℕ)
  | individual
  | other
  deriving DecidableEq

/-- A call of `join_attempt`. The checks are made at `now`, a participation is created at `realStart`; the flags
are what the site answers about the caller. -/
structure Join where
  contest : ℕ
  actor : ℕ
  selection : Selection
  accessCode : String
  memberIds : Option (List (Option ℕ))
  now : ℕ
  realStart : ℕ
  later : now ≤ realStart
  isAccessible : Bool
  isEditable : Bool
  isSpectatable : Bool
  inJoinOrganizations : Bool
  teamsEnabled : Bool

inductive Refusal where
  | noContest
  | noProfile
  | arenaBattle
  | notStarted
  | banned
  | noAccess
  | noEntry
  | entryOver
  | noSpectating
  | wrongCode
  | noTeam
  | onlyIndividual
  | teamNotAuthorized
  | notOnRoster
  | teamsDisabled
  | invalidMembers
  | notIncluded
  | teamSize (minimum maximum : ℕ)
  | onlyTeams
  | alreadyInTeam
  | noSelection
  | memberNoAccess (username : String)
  | memberNoOrganization (username : String)
  | memberInactive (username : String)
  | memberBanned (username : String)
  | memberRunsContest (username : String)
  | memberRegistered (username : String)
  | memberInAttempt (username : String)
  deriving DecidableEq

abbrev JoinM := EStateM Refusal Site

/-! ## Blockers -/

/-- `_roster_blocker`: what keeps somebody from being on a roster. -/
def rosterBlocker (c : Contest) (profile : Profile) (virtual : Bool) : Option Refusal :=
  if !profile.isActive then some (.memberInactive profile.username)
  else if profile.id ∈ c.bannedUsers then some (.memberBanned profile.username)
  else if !virtual && (decide (profile.id ∈ c.editorIds) || decide (profile.id ∈ c.testerIds)) then
    some (.memberRunsContest profile.username)
  else none

/-- `_access_blocker`: the same for the caller, who also needs access to the contest. -/
def accessBlocker (c : Contest) (r : Join) (profile : Profile) (virtual : Bool) : Option Refusal :=
  if !profile.isActive || !r.isAccessible then some (.memberNoAccess profile.username)
  else if c.limitJoinOrganizations && !r.inJoinOrganizations then some (.memberNoOrganization profile.username)
  else rosterBlocker c profile virtual

/-- `_chosen_members`. -/
def chosenMembers (members : List Profile) (memberIds : Option (List (Option ℕ))) (actor : ℕ) :
    JoinM (List Profile) :=
  match memberIds with
  | none => pure members
  | some values => do
      refuseIf (none ∈ values) .invalidMembers
      let wanted := (values.filterMap id).dedup
      let chosen := members.filter (·.id ∈ wanted)
      refuseIf (chosen.length ≠ wanted.length) .invalidMembers
      refuseIf (actor ∉ wanted) .notIncluded
      return chosen

/-! ## The join -/

/-- The code opens a participation; whoever edits the contest does not need it. -/
def requireAccessCode (c : Contest) (r : Join) : JoinM Unit :=
  refuseIf (c.accessCode ≠ "" ∧ r.isEditable = false ∧ r.accessCode ≠ c.accessCode) .wrongCode

def newParticipation (s : Site) (c : Contest) (r : Join) (team : Option Team) (virtual : ℤ) :
    ContestParticipation where
  id := s.nextId
  contest := c.id
  user := r.actor
  team := team.map (·.id)
  teamName := (team.map (·.name)).getD ""
  virtual := virtual
  realStart := r.realStart
  isDisqualified := false

/-- A participation, and the roster if it is of a team. -/
def Site.insert (s : Site) (p : ContestParticipation) (members : List Profile) : Site :=
  { s with
    participations := s.participations.add p
    teamRoster := s.teamRoster ++
      if p.team.isSome then members.map fun m => ContestTeamMember.mk p.id m.id m.username else []
    nextId := s.nextId + 1 }

def create (c : Contest) (r : Join) (team : Option Team) (members : List Profile) (virtual : ℤ) :
    JoinM ContestParticipation := do
  let s ← get
  let p := newParticipation s c r team virtual
  set (s.insert p members)
  return p

/-- `selection` `entry:`, one of the caller's own. -/
def resume (c : Contest) (r : Join) : JoinM (Option ContestParticipation) :=
  match r.selection with
  | .entry pk => do
      let s ← get
      let existing ← orRefuse ((s.forProfile c.id r.actor).find? (some ·.id = pk)) .noEntry
      refuseIf (existing.ended c r.now ∨ existing.isDisqualified) .entryOver
      return some existing
  | _ => pure none

/-- Watching a contest one runs, or has finished. -/
def spectate (c : Contest) (r : Join) : JoinM ContestParticipation := do
  refuseIf (r.isSpectatable = false) .noSpectating
  let s ← get
  match s.participations.rows.find? fun p =>
      p.contest = c.id && p.user = r.actor && p.team.isNone && decide (p.virtual = -1) with
  | some existing => pure existing
  | none => do
      requireAccessCode c r
      create c r none [] (-1)

/-- What a selection stands for: a participation to return to, or a team and the members that would enter. -/
structure Selected where
  existing : Option ContestParticipation
  team : Option Team
  members : List Profile

def selectTeam (c : Contest) (r : Join) (pk : Option ℕ) : JoinM Selected := do
  let s ← get
  let team ← orRefuse ((pk.bind s.teams.get?).filter fun team => team.isActive && r.actor ∈ team.members) .noTeam
  refuseIf (c.participationMode = .individual) .onlyIndividual
  refuseIf (c.isPrivate ∧ c.privateTeams ≠ [] ∧ team.id ∉ c.privateTeams) .teamNotAuthorized
  let entries := s.participations.rows.filter fun p => p.contest = c.id && p.team = some team.id
  let existing := if c.ended r.now then Site.lastGoing c r.now (entries.filter (0 < ·.virtual))
    else entries.find? (·.virtual = 0)
  refuseIf (existing.any fun p => !s.containsProfile p r.actor) .notOnRoster
  refuseIf (existing.isNone ∧ r.teamsEnabled = false) .teamsDisabled
  let members := (s.profiles.rows.filter (·.id ∈ team.members)).insertionSort fun a b => a.id ≤ b.id
  if existing.isSome then return ⟨existing, some team, members⟩
  else
    let chosen ← chosenMembers members r.memberIds r.actor
    refuseIf (¬ (c.teamMinSize ≤ chosen.length ∧ chosen.length ≤ c.teamMaxSize))
      (.teamSize c.teamMinSize c.teamMaxSize)
    return ⟨none, some team, chosen⟩

def selectIndividual (c : Contest) (r : Join) (actor : Profile) : JoinM Selected := do
  refuseIf (c.participationMode = .team) .onlyTeams
  let s ← get
  let existing := if c.ended r.now then none else (s.forProfile c.id r.actor).find? (·.virtual = 0)
  refuseIf (existing.any (·.team.isSome)) .alreadyInTeam
  return ⟨existing, none, [actor]⟩

/-- Only the caller needs access of their own; their registration carries the rest. -/
def memberBlocker (c : Contest) (r : Join) (member : Profile) : Option Refusal :=
  if member.id = r.actor then accessBlocker c r member (c.ended r.now) else rosterBlocker c member (c.ended r.now)

/-- Every member of a new participation, one by one; an individual attempt still going is returned to. -/
def checkMembers (c : Contest) (r : Join) (team : Option Team) :
    List Profile → Option ContestParticipation → JoinM (Option ContestParticipation)
  | [], existing => pure existing
  | member :: members, existing => do
      match memberBlocker c r member with
      | some blocker => throw blocker
      | none => do
          let s ← get
          refuseIf (c.ended r.now = false ∧ (s.forProfile c.id member.id).any (·.virtual = 0))
            (.memberRegistered member.username)
          let active := if c.ended r.now then s.activeAttempt c member.id r.now else none
          match active with
          | none => checkMembers c r team members existing
          | some active =>
              if team.isNone ∧ active.team.isNone then checkMembers c r team members (some active)
              else throw (.memberInAttempt member.username)

/-- The number of a new attempt: 0 while the contest runs, one more than the last after it. -/
def attemptNumber (s : Site) (c : Contest) (now : ℕ) : ℤ :=
  if c.ended now then
    max 1 ((((s.participations.rows.filter (·.contest = c.id)).map (·.virtual)).max?).getD 0 + 1)
  else 0

def select (c : Contest) (r : Join) (actor : Profile) : JoinM Selected :=
  match r.selection with
  | .team pk => selectTeam c r pk
  | .individual => selectIndividual c r actor
  | _ => throw .noSelection

def register (c : Contest) (r : Join) (actor : Profile) : JoinM ContestParticipation := do
  let selected ← select c r actor
  match selected.existing with
  | some existing => pure existing
  | none => do
      requireAccessCode c r
      match ← checkMembers c r selected.team selected.members none with
      | some existing => pure existing
      | none => do
          let s ← get
          create c r selected.team selected.members (attemptNumber s c r.now)

def enter (c : Contest) (r : Join) (actor : Profile) (spectator : Bool) : JoinM ContestParticipation := do
  match ← resume c r with
  | some existing => pure existing
  | none => if spectator then spectate c r else register c r actor

def joinAttempt (r : Join) : JoinM ContestParticipation := do
  let s ← get
  let c ← orRefuse (s.contests.get? r.contest) .noContest
  let actor ← orRefuse (s.profiles.get? r.actor) .noProfile
  refuseIf c.arenaGame .arenaBattle
  refuseIf (c.started r.now = false ∧ r.actor ∉ c.editorIds ∧ r.actor ∉ c.testerIds) .notStarted
  refuseIf (r.actor ∈ c.bannedUsers ∧ actor.isSuperuser = false) .banned
  refuseIf (r.isAccessible = false) .noAccess
  let spectator := !c.ended r.now && (decide (r.actor ∈ c.editorIds) || decide (r.actor ∈ c.testerIds) ||
    s.hasCompletedContest c r.actor r.now)
  let existing ← enter c r actor spectator
  refuseIf (existing.isDisqualified ∨ existing.ended c r.now) .entryOver
  modify fun s =>
    { s with
      currentContest := (r.actor, existing.id) :: s.currentContest.filter (·.1 ≠ r.actor)
      now := r.realStart }
  return existing

/-! ## Runs -/

inductive Event where
  | join (r : Join)
  /-- Teams and accounts change, and time goes by. -/
  | elsewhere (profiles : Table Profile) (teams : Table Team) (now : ℕ)

/-- A join that is refused is undone. Time does not go back. -/
def Site.step (s : Site) : Event → Site
  | .join r =>
      if r.now < s.now then s
      else
        match joinAttempt r s with
        | .ok _ t => t
        | .error _ _ => s
  | .elsewhere profiles teams now => { s with profiles := profiles, teams := teams, now := max s.now now }

/-- A site nobody has entered a contest of. -/
def Site.initial (contests : Table Contest) : Site :=
  ⟨contests, Table.empty, Table.empty, Table.empty, [], [], 1, 0⟩

def Site.run (s : Site) (events : List Event) : Site := events.foldl Site.step s

end CpcJudge.ContestTeams
