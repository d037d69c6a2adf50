import CpcJudge.Access.Users
import CpcJudge.Lib.Query

/-!
# Who sees and who edits a problem

`is_accessible_by` and `is_editable_by` decide it for one problem, `get_visible_problems` and
`get_editable_problems` for all of them. The list of the visible ones asks the related tables in
subqueries, the list of the editable ones joins them. `visible_problems_agree` and
`editable_problems_agree` say that the lists hold exactly the problems that the checks let through.
-/

namespace CpcJudge.Access
open Query

structure Problem where
  id : ℕ
  isPublic : Bool
  isOrganizationPrivate : Bool
  authors : List ℕ
  curators : List ℕ
  testers : List ℕ
  organizations : List ℕ
  deriving DecidableEq

/-- The tables the checks read beside the problem: the administrators of the organizations as pairs
(organization, profile), the problems of the contests as pairs (contest, problem) and the participations as
pairs (participation, contest). -/
structure Site where
  admins : List (ℕ × ℕ)
  contestProblems : List (ℕ × ℕ)
  participations : List (ℕ × ℕ)

namespace Problem

/-! ## One problem -/

def editorIds (problem : Problem) : List ℕ := problem.authors ∪ problem.curators

def isEditableBy (site : Site) (problem : Problem) : User → Bool
  | .anonymous => false
  | .authenticated profile perms =>
      let user := User.authenticated profile perms
      if !user.hasPerm .editOwnProblem then false
      else if user.hasPerm .editAllProblem || user.hasPerm .editPublicProblem && problem.isPublic then true
      else if profile.id ∈ problem.editorIds then true
      else if problem.isOrganizationPrivate &&
          problem.organizations.any fun org => decide ((org, profile.id) ∈ site.admins) then true
      else false

/-- The user is in a participation of a contest with the problem. -/
def inCurrentContest (site : Site) (problem : Problem) : User → Bool
  | .anonymous => false
  | .authenticated profile _ =>
      match profile.currentContest with
      | none => false
      | some current =>
          site.contestProblems.any fun row =>
            decide (row.2 = problem.id) && decide ((current, row.1) ∈ site.participations)

/-- The rule of the problems that are public. -/
def isPublicFor (problem : Problem) (user : User) : Bool :=
  problem.isPublic &&
    (!problem.isOrganizationPrivate || user.hasPerm .seeOrganizationProblem ||
      match user with
      | .anonymous => false
      | .authenticated profile _ => problem.organizations.any (· ∈ profile.organizations))

def isAccessibleBy (site : Site) (problem : Problem) (user : User) (skipContestProblemCheck : Bool) :
    Bool :=
  if !skipContestProblemCheck && problem.inCurrentContest site user then true
  else if problem.isPublicFor user then true
  else
    match user with
    | .anonymous => false
    | .authenticated profile perms =>
        if User.hasPerm (.authenticated profile perms) .seePrivateProblem then true
        else if problem.isEditableBy site (.authenticated profile perms) ||
            decide (profile.id ∈ problem.editorIds) then true
        else if profile.id ∈ problem.testers then true
        else false

/-! ## The lists of problems -/

/-- The relations the list of the editable problems joins. -/
inductive Relation where
  | authors
  | curators
  | organizations
  deriving DecidableEq

abbrev Relation.Row : Relation → Type
  | _ => ℕ

def related (problem : Problem) : (relation : Relation) → List relation.Row
  | .authors => problem.authors
  | .curators => problem.curators
  | .organizations => problem.organizations

abbrev Filter := Q Problem Relation.Row

def getPublicProblems (problems : List Problem) : List Problem :=
  problems.filter fun problem => problem.isPublic && !problem.isOrganizationPrivate

/-- Private to organizations, and one of them is among `orgs`. -/
def organizationFilter (orgs : List ℕ) : Filter :=
  (Q.col fun problem => problem.isOrganizationPrivate).and
    (.col fun problem => problem.organizations.any (· ∈ orgs))

def addAuthorCuratorTester (q : Filter) (profile : Profile) : Filter :=
  let q := q.or (.col fun problem => decide (profile.id ∈ problem.authors))
  let q := q.or (.col fun problem => decide (profile.id ∈ problem.curators))
  q.or (.col fun problem => decide (profile.id ∈ problem.testers))

/-- The organizations a profile administers. -/
def adminOf (site : Site) (profile : Profile) : List ℕ :=
  (site.admins.filter fun row => row.2 = profile.id).map (·.1)

/-- The filter of an authenticated user without the permissions to see them all. -/
def visibleFilter (site : Site) (profile : Profile) (perms : List Permission) : Filter :=
  let user := User.authenticated profile perms
  let editOwnProblem := user.hasPerm .editOwnProblem
  let editPublicProblem := editOwnProblem && user.hasPerm .editPublicProblem
  let q : Filter := .col fun problem => problem.isPublic
  let q := if user.hasPerm .seeOrganizationProblem || editPublicProblem then q
    else q.and ((Q.col fun problem => !problem.isOrganizationPrivate).or
      (organizationFilter profile.organizations))
  let q := if editOwnProblem then q.or (organizationFilter (adminOf site profile)) else q
  addAuthorCuratorTester q profile

def getVisibleProblems (site : Site) (user : User) (problems : List Problem) : List Problem :=
  match user with
  | .anonymous => getPublicProblems problems
  | .authenticated profile perms =>
      let user := User.authenticated profile perms
      let editAllProblem := user.hasPerm .editOwnProblem && user.hasPerm .editAllProblem
      if user.hasPerm .seePrivateProblem || editAllProblem then problems
      else Query.filter related (visibleFilter site profile perms) problems

def getEditableProblems (site : Site) (user : User) (problems : List Problem) : List Problem :=
  match user with
  | .anonymous => []
  | .authenticated profile perms =>
      let user := User.authenticated profile perms
      if !user.hasPerm .editOwnProblem then []
      else if user.hasPerm .editAllProblem then problems
      else
        let q : Filter := (Q.rel .authors (· = profile.id)).or (.rel .curators (· = profile.id))
        let q := q.or ((Q.col fun problem => problem.isOrganizationPrivate).and
          (.rel .organizations (· ∈ adminOf site profile)))
        let q := if user.hasPerm .editPublicProblem then q.or (.col fun problem => problem.isPublic) else q
        Query.filter related q problems

/-! ## They agree -/

section Agree

variable {site : Site} {problem : Problem} {profile : Profile} {perms : List Permission}

theorem mem_adminOf {org : ℕ} : org ∈ adminOf site profile ↔ (org, profile.id) ∈ site.admins := by
  simp [adminOf]

theorem mem_editorIds {id : ℕ} : id ∈ problem.editorIds ↔ id ∈ problem.authors ∨ id ∈ problem.curators := by
  simp [editorIds]

/-- Whom the organizations of the problem let edit it. -/
def AdministeredBy (site : Site) (problem : Problem) (profile : Profile) : Prop :=
  problem.isOrganizationPrivate = true ∧ ∃ org ∈ problem.organizations, org ∈ adminOf site profile

theorem isEditableBy_iff : problem.isEditableBy site (.authenticated profile perms) = true ↔
    Permission.editOwnProblem ∈ perms ∧
      (Permission.editAllProblem ∈ perms ∨
        (Permission.editPublicProblem ∈ perms ∧ problem.isPublic = true) ∨
        profile.id ∈ problem.editorIds ∨ problem.AdministeredBy site profile) := by
  simp [isEditableBy, User.hasPerm, AdministeredBy, mem_adminOf, or_assoc]

theorem isPublicFor_iff : problem.isPublicFor (.authenticated profile perms) = true ↔
    problem.isPublic = true ∧ (problem.isOrganizationPrivate = false ∨
      Permission.seeOrganizationProblem ∈ perms ∨
        ∃ org ∈ problem.organizations, org ∈ profile.organizations) := by
  simp [isPublicFor, User.hasPerm, or_assoc]

theorem isAccessibleBy_iff :
    problem.isAccessibleBy site (.authenticated profile perms) true = true ↔
      problem.isPublicFor (.authenticated profile perms) = true ∨
        Permission.seePrivateProblem ∈ perms ∨
          problem.isEditableBy site (.authenticated profile perms) = true ∨
            profile.id ∈ problem.editorIds ∨ profile.id ∈ problem.testers := by
  simp [isAccessibleBy, User.hasPerm, or_assoc]

theorem selects_organizationFilter {orgs : List ℕ} :
    (organizationFilter orgs).Selects problem.related problem ↔
      problem.isOrganizationPrivate = true ∧ ∃ org ∈ problem.organizations, org ∈ orgs := by
  rw [organizationFilter, selects_and Q.col_apart]
  simp

theorem organizationFilter_apart {orgs : List ℕ} {q : Filter} : q.Apart (organizationFilter orgs) := by
  simp [organizationFilter]

theorem selects_addAuthorCuratorTester {q : Filter} :
    (addAuthorCuratorTester q profile).Selects problem.related problem ↔
      q.Selects problem.related problem ∨ profile.id ∈ problem.editorIds ∨ profile.id ∈ problem.testers := by
  simp [addAuthorCuratorTester, mem_editorIds, or_assoc]

theorem selects_visibleFilter :
    (visibleFilter site profile perms).Selects problem.related problem ↔
      (problem.isPublic = true ∧ (Permission.seeOrganizationProblem ∈ perms ∨
        (Permission.editOwnProblem ∈ perms ∧ Permission.editPublicProblem ∈ perms) ∨
        problem.isOrganizationPrivate = false ∨
        ∃ org ∈ problem.organizations, org ∈ profile.organizations)) ∨
      (Permission.editOwnProblem ∈ perms ∧ problem.AdministeredBy site profile) ∨
      profile.id ∈ problem.editorIds ∨ profile.id ∈ problem.testers := by
  have hpublic : (Q.and (.col fun problem : Problem => problem.isPublic)
      ((Q.col fun problem => !problem.isOrganizationPrivate).or
        (organizationFilter profile.organizations))).Selects problem.related problem ↔
      problem.isPublic = true ∧ (problem.isOrganizationPrivate = false ∨
        ∃ org ∈ problem.organizations, org ∈ profile.organizations) := by
    rw [selects_and Q.col_apart, selects_or, selects_organizationFilter]
    cases hprivate : problem.isOrganizationPrivate <;> simp [hprivate]
  rw [visibleFilter, selects_addAuthorCuratorTester, AdministeredBy]
  split_ifs with hsee hown hown
  all_goals
    simp only [Bool.or_eq_true, Bool.and_eq_true, User.authenticated_hasPerm] at hsee hown
    simp only [selects_or, selects_col, hpublic, selects_organizationFilter]
  · grind
  · grind
  · grind
  · grind

/-- The contest the user is in only adds to what the lists are about. -/
theorem isAccessibleBy_of_skip {user : User} {skip : Bool}
    (h : problem.isAccessibleBy site user true = true) : problem.isAccessibleBy site user skip = true := by
  unfold isAccessibleBy at h ⊢
  split
  · rfl
  · simpa using h

end Agree

/-- The query asks for fewer tables than the check when a permission settles the matter. Where neither
permission to see them all is held, both come to the same disjunction. -/
theorem visible_problems_agree (site : Site) (user : User) (problems : List Problem) (problem : Problem) :
    problem ∈ getVisibleProblems site user problems ↔
      problem ∈ problems ∧ problem.isAccessibleBy site user true = true := by
  cases user with
  | anonymous => simp [getVisibleProblems, getPublicProblems, isAccessibleBy, isPublicFor]
  | authenticated profile perms =>
      rw [isAccessibleBy_iff, isPublicFor_iff, isEditableBy_iff, getVisibleProblems]
      split_ifs with hall
      all_goals simp only [Bool.or_eq_true, Bool.and_eq_true, User.authenticated_hasPerm] at hall
      · tauto
      · rw [mem_filter, selects_visibleFilter]
        grind

theorem editable_problems_agree (site : Site) (user : User) (problems : List Problem) (problem : Problem) :
    problem ∈ getEditableProblems site user problems ↔
      problem ∈ problems ∧ problem.isEditableBy site user = true := by
  cases user with
  | anonymous => simp [getEditableProblems, isEditableBy]
  | authenticated profile perms =>
      rw [isEditableBy_iff, AdministeredBy, mem_editorIds, getEditableProblems]
      split_ifs with hown hall hpublic
      all_goals simp only [Bool.not_eq_true', ← Bool.not_eq_true, not_not, User.authenticated_hasPerm] at *
      · simp [hown]
      · simp [hown, hall]
      · rw [mem_filter]
        simp (disch := simp) [hown, hall, hpublic, selects_and, related]
        grind
      · rw [mem_filter]
        simp (disch := simp) [hown, hall, hpublic, selects_and, related, or_assoc]

/-- Both lists hold exactly the problems that the checks on one problem let through. -/
theorem problem_lists_agree (site : Site) (user : User) (problems : List Problem) (problem : Problem) :
    (problem ∈ getVisibleProblems site user problems ↔
      problem ∈ problems ∧ problem.isAccessibleBy site user true = true) ∧
    (problem ∈ getEditableProblems site user problems ↔
      problem ∈ problems ∧ problem.isEditableBy site user = true) :=
  ⟨visible_problems_agree site user problems problem, editable_problems_agree site user problems problem⟩

end Problem
end CpcJudge.Access
