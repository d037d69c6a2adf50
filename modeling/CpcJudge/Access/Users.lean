import Mathlib.Tactic

/-!
# Users and their permissions

`is_authenticated`, `has_perm` and what the access rules read of a profile. The backends grant an anonymous
user no permission; what they grant the others is their business, so a user comes with its own list.
-/

namespace CpcJudge.Access

/-- The permissions the access rules ask about. -/
inductive Permission where
  | seePrivateContest
  | editAllContest
  | editOwnProblem
  | editPublicProblem
  | editAllProblem
  | seePrivateProblem
  | seeOrganizationProblem
  deriving DecidableEq

/-- A `Profile`: its organizations and classes, and the participation it is in at the moment. -/
structure Profile where
  id : ℕ
  organizations : List ℕ
  classes : List ℕ
  currentContest : Option ℕ
  deriving DecidableEq

inductive User where
  | anonymous
  | authenticated (profile : Profile) (perms : List Permission)
  deriving DecidableEq

def User.isAuthenticated : User → Bool
  | .anonymous => false
  | .authenticated _ _ => true

def User.hasPerm : User → Permission → Bool
  | .anonymous, _ => false
  | .authenticated _ perms, perm => perm ∈ perms

@[simp] theorem User.anonymous_hasPerm (perm : Permission) : User.anonymous.hasPerm perm = false := rfl

@[simp] theorem User.authenticated_hasPerm {profile : Profile} {perms : List Permission} {perm : Permission} :
    (User.authenticated profile perms).hasPerm perm = true ↔ perm ∈ perms := by simp [User.hasPerm]

end CpcJudge.Access
