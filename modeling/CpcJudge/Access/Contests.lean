import CpcJudge.Access.Users
import CpcJudge.Lib.Query

/-!
# Who sees a contest

`access_check` decides it for one contest with a sequence of early returns, `get_visible_contests` for all
of them with a disjunction of filters over the joined tables. `visible_contests_agree` says that they
give the same answer about every contest that does not back a duel, for every user: whichever of the
checks lets the user in, one of the filters finds the contest, and the other way round.
-/

namespace CpcJudge.Access
open Query

/-- A `Team`, as far as a private contest asks about it. -/
structure Team where
  isActive : Bool
  members : List ℕ
  deriving DecidableEq

/-- A `ContestParticipation`: of a user, or of a team and the profiles on its roster. -/
structure ContestEntry where
  user : ℕ
  team : Option ℕ
  teamRoster : List ℕ
  rosterOfTeam : team = none → teamRoster = []
  deriving DecidableEq

structure Contest where
  id : ℕ
  key : String
  summary : String
  isVisible : Bool
  isPrivate : Bool
  isOrganizationPrivate : Bool
  arenaGame : Option ℕ
  authors : List ℕ
  curators : List ℕ
  testers : List ℕ
  spectators : List ℕ
  viewContestScoreboard : List ℕ
  organizations : List ℕ
  classes : List ℕ
  privateContestants : List ℕ
  privateTeams : List Team
  users : List ContestEntry
  deriving DecidableEq

namespace Contest

/-! ## One contest -/

def editorIds (contest : Contest) : List ℕ := contest.authors ∪ contest.curators

/-- How `access_check` turns a user away. -/
inductive Denied where
  | inaccessible
  | privateContest
  deriving DecidableEq

def inOrg (contest : Contest) (profile : Profile) : Bool :=
  contest.organizations.any (· ∈ profile.organizations) || contest.classes.any (· ∈ profile.classes)

def inUsers (contest : Contest) (profile : Profile) : Bool :=
  decide (profile.id ∈ contest.privateContestants) ||
    contest.privateTeams.any (fun team => team.isActive && decide (profile.id ∈ team.members)) ||
    contest.users.any (fun entry => entry.team.isSome && decide (profile.id ∈ entry.teamRoster))

def accessCheck (contest : Contest) : User → Except Denied Unit
  | .anonymous =>
      if !contest.isVisible then throw .inaccessible
      else if contest.isPrivate || contest.isOrganizationPrivate then throw .privateContest
      else pure ()
  | .authenticated profile perms =>
      let user := User.authenticated profile perms
      if user.hasPerm .seePrivateContest || user.hasPerm .editAllContest then pure ()
      else if profile.id ∈ contest.editorIds then pure ()
      else if profile.id ∈ contest.testers then pure ()
      else if profile.id ∈ contest.spectators then pure ()
      else if !contest.isVisible then throw .inaccessible
      else if !contest.isPrivate && !contest.isOrganizationPrivate then pure ()
      else if profile.id ∈ contest.viewContestScoreboard then pure ()
      else if !contest.isPrivate && contest.isOrganizationPrivate then
        if contest.inOrg profile then pure () else throw .privateContest
      else if contest.isPrivate && !contest.isOrganizationPrivate then
        if contest.inUsers profile then pure () else throw .privateContest
      else if contest.inOrg profile && contest.inUsers profile then pure ()
      else throw .privateContest

def isAccessibleBy (contest : Contest) (user : User) : Bool :=
  (contest.accessCheck user).isOk

/-! ## The list of contests -/

/-- The key matches `^arena[0-9]+(x[0-9a-f]{6})?$`. -/
def isArenaKey (key : String) : Bool :=
  match key.toList.dropPrefix? "arena".toList with
  | none => false
  | some rest =>
      let tail := rest.dropWhile Char.isDigit
      !(rest.takeWhile Char.isDigit).isEmpty &&
        match tail with
        | [] => true
        | c :: hex => c = 'x' && hex.length = 6 && hex.all fun d => d.isDigit || ('a' ≤ d && d ≤ 'f')

/-- The hidden contests that back the games of the duels (`duel_contests`), those whose game was deleted
included: they kept the key, the summary and the visibility that `start_game` gives them. -/
def backsDuel (contest : Contest) : Bool :=
  contest.arenaGame.isSome ||
    (isArenaKey contest.key && "Arena game ".toList.isPrefixOf contest.summary.toList && !contest.isVisible)

/-- The relations the list joins. A team is joined with one of its members, a participation with one of the
profiles on its roster. -/
inductive Relation where
  | viewContestScoreboard
  | privateContestants
  | organizations
  | classes
  | authors
  | curators
  | testers
  | spectators
  | privateTeams
  | users
  deriving DecidableEq

abbrev Relation.Row : Relation → Type
  | .privateTeams => Team × Option ℕ
  | .users => ContestEntry × Option ℕ
  | _ => ℕ

def related (contest : Contest) : (relation : Relation) → List relation.Row
  | .viewContestScoreboard => contest.viewContestScoreboard
  | .privateContestants => contest.privateContestants
  | .organizations => contest.organizations
  | .classes => contest.classes
  | .authors => contest.authors
  | .curators => contest.curators
  | .testers => contest.testers
  | .spectators => contest.spectators
  | .privateTeams => contest.privateTeams.flatMap fun team => (leftJoin team.members).map (team, ·)
  | .users => contest.users.flatMap fun entry => (leftJoin entry.teamRoster).map (entry, ·)

abbrev Filter := Q Contest Relation.Row

def visible (value : Bool) : Filter := .col fun contest => contest.isVisible == value
def personal (value : Bool) : Filter := .col fun contest => contest.isPrivate == value
def organizational (value : Bool) : Filter := .col fun contest => contest.isOrganizationPrivate == value

def orgCheck (profile : Profile) : Filter :=
  .or (.rel .organizations fun org => decide (org ∈ profile.organizations))
    (.rel .classes fun cls => decide (cls ∈ profile.classes))

/-- The filter of an authenticated user without a permission to see them all. -/
def visibleFilter (profile : Profile) : Filter :=
  let orgCheck := orgCheck profile
  let q : Filter := (visible true).and
    (((((.rel .viewContestScoreboard (· = profile.id) : Filter).or
      ((organizational false).and (personal false))).or
      (((organizational false).and (personal true)).and (.rel .privateContestants (· = profile.id)))).or
      (((organizational true).and (personal false)).and orgCheck)).or
      ((((organizational true).and (personal true)).and (.rel .privateContestants (· = profile.id))).and
        orgCheck))
  let q := q.or (.rel .authors (· = profile.id))
  let q := q.or (.rel .curators (· = profile.id))
  let q := q.or (.rel .testers (· = profile.id))
  let q := q.or (.rel .spectators (· = profile.id))
  -- the team and the member are looked up in one joined row
  let q := q.or ((((visible true).and (personal true)).and
    ((.rel .privateTeams (·.1.isActive) : Filter).and (.rel .privateTeams (·.2 = some profile.id)))).and
    ((organizational false).or orgCheck))
  q.or ((((visible true).and (personal true)).and (.rel .users (·.2 = some profile.id))).and
    ((organizational false).or orgCheck))

def getVisibleContests (user : User) (contests : List Contest) : List Contest :=
  match user with
  | .anonymous =>
      let q : Filter := (((visible true).and (organizational false)).and (personal false)).and
        (.col fun contest => contest.arenaGame.isNone)
      (Query.filter related q contests).dedup
  | .authenticated profile perms =>
      let user := User.authenticated profile perms
      let queryset := contests.filter fun contest => !contest.backsDuel
      if !(user.hasPerm .seePrivateContest || user.hasPerm .editAllContest) then
        (Query.filter related (visibleFilter profile) queryset).dedup
      else queryset.dedup

/-! ## The two agree -/

section Agree

variable {contest : Contest} {profile : Profile}

/-- A team and one of its members, as they stand in one joined row. -/
theorem exists_privateTeams : (∃ row ∈ contest.related .privateTeams,
      row.1.isActive = true ∧ decide (row.2 = some profile.id) = true) ↔
    ∃ team ∈ contest.privateTeams, team.isActive = true ∧ profile.id ∈ team.members := by
  constructor
  · rintro ⟨row, hrow, hactive, hmember⟩
    obtain ⟨team, hteam, member, hjoin, rfl⟩ := by simpa [related] using hrow
    obtain rfl : member = some profile.id := by simpa using hmember
    exact ⟨team, hteam, hactive, some_mem_leftJoin.mp hjoin⟩
  · rintro ⟨team, hteam, hactive, hmember⟩
    refine ⟨(team, some profile.id), ?_, hactive, by simp⟩
    simpa [related] using ⟨hteam, some_mem_leftJoin.mpr hmember⟩

/-- A roster that names a profile is a team's, so the filter need not ask for the team. -/
theorem exists_users : (∃ row ∈ contest.related .users, decide (row.2 = some profile.id) = true) ↔
    ∃ entry ∈ contest.users, entry.team.isSome = true ∧ profile.id ∈ entry.teamRoster := by
  constructor
  · rintro ⟨row, hrow, hmember⟩
    obtain ⟨entry, hentry, member, hjoin, rfl⟩ := by simpa [related] using hrow
    obtain rfl : member = some profile.id := by simpa using hmember
    have hroster := some_mem_leftJoin.mp hjoin
    refine ⟨entry, hentry, Option.isSome_iff_ne_none.mpr fun hteam => ?_, hroster⟩
    rw [entry.rosterOfTeam hteam] at hroster
    exact absurd hroster List.not_mem_nil
  · rintro ⟨entry, hentry, _, hmember⟩
    refine ⟨(entry, some profile.id), ?_, by simp⟩
    simpa [related] using ⟨hentry, some_mem_leftJoin.mpr hmember⟩

theorem inOrg_iff : contest.inOrg profile = true ↔
    (∃ org ∈ contest.related .organizations, decide (org ∈ profile.organizations) = true) ∨
      ∃ cls ∈ contest.related .classes, decide (cls ∈ profile.classes) = true := by
  simp [inOrg, related]

theorem inUsers_iff : contest.inUsers profile = true ↔
    profile.id ∈ contest.privateContestants ∨
      (∃ row ∈ contest.related .privateTeams,
        row.1.isActive = true ∧ decide (row.2 = some profile.id) = true) ∨
      ∃ row ∈ contest.related .users, decide (row.2 = some profile.id) = true := by
  rw [exists_privateTeams, exists_users]
  simp [inUsers, or_assoc]

/-- The rule both sides follow for a user who may not see every contest. -/
def OpenTo (contest : Contest) (profile : Profile) : Prop :=
  profile.id ∈ contest.editorIds ∨ profile.id ∈ contest.testers ∨ profile.id ∈ contest.spectators ∨
    (contest.isVisible = true ∧ (profile.id ∈ contest.viewContestScoreboard ∨
      ((contest.isPrivate = true → contest.inUsers profile = true) ∧
        (contest.isOrganizationPrivate = true → contest.inOrg profile = true))))

theorem selects_visibleFilter :
    (visibleFilter profile).Selects contest.related contest ↔ contest.OpenTo profile := by
  have hstaff : profile.id ∈ contest.editorIds ↔
      profile.id ∈ contest.authors ∨ profile.id ∈ contest.curators := by simp [editorIds]
  have hlisted (ids : List ℕ) : (∃ id ∈ ids, decide (id = profile.id) = true) ↔ profile.id ∈ ids := by simp
  simp only [visibleFilter, visible, personal, organizational, orgCheck]
  simp (disch := simp) only [selects_or, selects_and, selects_rel_rel, selects_rel, selects_col]
  rw [OpenTo, inUsers_iff, inOrg_iff, hstaff]
  generalize (∃ row ∈ contest.related .privateTeams,
    row.1.isActive = true ∧ decide (row.2 = some profile.id) = true) = inTeams
  generalize (∃ row ∈ contest.related .users, decide (row.2 = some profile.id) = true) = inRosters
  simp only [related, hlisted, beq_iff_eq]
  -- what is left is about the three flags
  cases contest.isVisible <;> cases contest.isPrivate <;> cases contest.isOrganizationPrivate
  all_goals grind

/-! An early return, and an early refusal -/

theorem isOk_return {c : Prop} [Decidable c] {rest : Except Denied Unit} :
    (if c then pure () else rest).isOk = true ↔ c ∨ rest.isOk = true := by
  by_cases h : c
  · simp [h, pure, Except.pure, Except.isOk, Except.toBool]
  · simp [h]

theorem isOk_raise {c : Prop} [Decidable c] {denied : Denied} {rest : Except Denied Unit} :
    (if c then throw denied else rest).isOk = true ↔ ¬c ∧ rest.isOk = true := by
  by_cases h : c
  · simp [h, throw, throwThe, MonadExceptOf.throw, Except.isOk, Except.toBool]
  · simp [h]

theorem isOk_last {c : Prop} [Decidable c] {denied : Denied} :
    (if c then pure () else throw denied : Except Denied Unit).isOk = true ↔ c := by
  rw [isOk_return]
  simp [throw, throwThe, MonadExceptOf.throw, Except.isOk, Except.toBool]

theorem isOk_pure : (pure () : Except Denied Unit).isOk = true := rfl

theorem isAccessibleBy_authenticated {perms : List Permission} :
    contest.isAccessibleBy (.authenticated profile perms) = true ↔
      (Permission.seePrivateContest ∈ perms ∨ Permission.editAllContest ∈ perms) ∨
        contest.OpenTo profile := by
  unfold isAccessibleBy accessCheck OpenTo
  simp only [User.authenticated_hasPerm, Bool.or_eq_true, isOk_return, isOk_raise]
  refine or_congr Iff.rfl (or_congr Iff.rfl (or_congr Iff.rfl (or_congr Iff.rfl ?_)))
  cases contest.isVisible <;> cases contest.isPrivate <;> cases contest.isOrganizationPrivate <;>
    simp [isOk_last, and_comm]

end Agree

/-- A contest that does not back a duel is listed for exactly the users who may open it. -/
theorem visible_contests_agree (user : User) (contests : List Contest) (contest : Contest)
    (hduel : contest.backsDuel = false) :
    contest ∈ getVisibleContests user contests ↔
      contest ∈ contests ∧ contest.isAccessibleBy user = true := by
  cases user with
  | anonymous =>
      have hgame : contest.arenaGame = none := by simp_all [backsDuel]
      rw [getVisibleContests, List.mem_dedup, mem_filter]
      refine and_congr_right fun _ => ?_
      simp (disch := simp [visible, personal, organizational]) only [selects_and]
      simp only [visible, personal, organizational, selects_col, isAccessibleBy, accessCheck, isOk_raise]
      simp [hgame, isOk_pure, and_assoc, and_comm (a := contest.isPrivate = false)]
  | authenticated profile perms =>
      rw [isAccessibleBy_authenticated, getVisibleContests]
      split_ifs with hperm
      · rw [List.mem_dedup, mem_filter, selects_visibleFilter, List.mem_filter]
        rw [Bool.not_eq_true', ← Bool.not_eq_true, Bool.or_eq_true, User.authenticated_hasPerm,
          User.authenticated_hasPerm] at hperm
        simp [hduel, hperm]
      · rw [List.mem_dedup, List.mem_filter]
        rw [Bool.not_eq_true', Bool.not_eq_false, Bool.or_eq_true, User.authenticated_hasPerm,
          User.authenticated_hasPerm] at hperm
        simp [hduel, hperm]

/-- A private contest that a team has registered for, with profiles 3 and 4 on its roster. -/
def teamOnly : Contest where
  id := 1
  key := "spring"
  summary := ""
  isVisible := true
  isPrivate := true
  isOrganizationPrivate := false
  arenaGame := none
  authors := []
  curators := []
  testers := []
  spectators := []
  viewContestScoreboard := []
  organizations := []
  classes := []
  privateContestants := [8]
  privateTeams := []
  users := [{ user := 3, team := some 5, teamRoster := [3, 4], rosterOfTeam := by simp }]

/-- The teammate who did not register it finds the contest on the list. -/
theorem visible_contests_agree_teammate :
    teamOnly ∈ getVisibleContests (.authenticated ⟨4, [], [], none⟩ []) [teamOnly] :=
  (visible_contests_agree (.authenticated ⟨4, [], [], none⟩ []) [teamOnly] teamOnly (by decide)).mpr
    ⟨by simp, by decide⟩

end Contest
end CpcJudge.Access
