import CpcJudge.Arena.Held

/-!
# `Login.Redirects` — where the site sends an account instead of the page it asked for

An account that owes its second factor is sent to the page that asks for it (`DMOJLoginMiddleware`), one whose password
was found in a leak to the page that changes it, and a player held in a battle to the arena (`ContestMiddleware`). One
address stands for `path` and `path_info`: the site is served from the root.
-/

namespace CpcJudge
namespace Login

open Arena (Db HeldAnswer LockCache PageRequest ProfileId Settings Time checkHeld lockedResponse)

/-! ## The addresses -/

def logoutPath : String := "/accounts/logout/"
def login2faPath : String := "/accounts/2fa/"
def webauthnPath : String := "/accounts/2fa/webauthn/assert/"
def changePasswordPath : String := "/accounts/password/change/"
def changePasswordDonePath : String := "/accounts/password/change/done/"

/-- The starts that are let through, `STATIC_URL` first. -/
def picturePaths : List String := ["/static/", "/avatar/"]

def isPicture (path : String) : Bool := picturePaths.any fun start => start.toList.isPrefixOf path.toList

/-! ## The middlewares -/

/-- An account that is logged in, and its session. -/
structure Visitor where
  profile : ProfileId
  isTotpEnabled : Bool
  isWebauthnEnabled : Bool
  /-- `2fa_passed`. -/
  passed : Bool
  /-- `password_pwned`. -/
  pwned : Bool
  /-- The profile that a superuser acts as (`DMOJImpersonationMiddleware`). -/
  impersonated : Option ProfileId := none
  deriving DecidableEq, Repr

/-- `DMOJLoginMiddleware`: the page the visitor has to see first. What `next` says is left out. -/
def loginRedirect (visitor : Visitor) (path : String) : Option String :=
  let has2fa := visitor.isTotpEnabled || visitor.isWebauthnEnabled
  if has2fa ∧ !visitor.passed ∧ path ∉ [login2faPath, logoutPath, webauthnPath] ∧ !isPicture path then
    some login2faPath
  else if visitor.pwned ∧ path ∉ [changePasswordPath, changePasswordDonePath, login2faPath, logoutPath] ∧
      !isPicture path then
    some changePasswordPath
  else none

/-- What the middlewares answer instead of the page. The request of a visitor carries no profile before
`DMOJLoginMiddleware` sets it. -/
def siteAnswer (settings : Settings) (db : Db) (visitor : Option Visitor) (request : PageRequest) (now : Time)
    (cache : LockCache) : Option HeldAnswer :=
  match visitor with
  | none => none
  | some visitor =>
    match loginRedirect visitor request.path with
    | some path => some (.redirect path)
    | none =>
      let profile := visitor.impersonated.getD visitor.profile
      (lockedResponse settings db { request with profile := some profile } now cache).1

/-! ## Where the redirections end -/

/-- The visitor owes the second factor. -/
def Visitor.owes (visitor : Visitor) : Bool := (visitor.isTotpEnabled || visitor.isWebauthnEnabled) && !visitor.passed

section
variable {settings : Settings} {db db' : Db} {visitor : Visitor} {request request' : PageRequest} {now now' : Time}
  {cache cache' : LockCache} {path : String}

/-- Where a visitor is sent, by what they owe. -/
theorem loginRedirect_eq : loginRedirect visitor path =
    if visitor.owes ∧ path ∉ [login2faPath, logoutPath, webauthnPath] ∧ !isPicture path then some login2faPath
    else if visitor.pwned ∧ path ∉ [changePasswordPath, changePasswordDonePath, login2faPath, logoutPath] ∧
      !isPicture path then some changePasswordPath
    else none := by
  unfold loginRedirect Visitor.owes
  simp only [Bool.and_eq_true, and_assoc]

theorem loginRedirect_login2fa : loginRedirect visitor login2faPath = none := by
  rw [loginRedirect_eq]
  simp

theorem loginRedirect_changePassword : loginRedirect visitor changePasswordPath =
    if visitor.owes then some login2faPath else none := by
  have hpicture : isPicture changePasswordPath = false := by decide
  have hother : changePasswordPath ∉ [login2faPath, logoutPath, webauthnPath] := by decide
  rw [loginRedirect_eq]
  simp [hpicture, hother]

theorem loginRedirect_home (howes : visitor.owes = false) (hpwned : visitor.pwned = false) :
    loginRedirect visitor Arena.home = none := by
  rw [loginRedirect_eq]
  simp [howes, hpwned]

/-- The middlewares let the visitor have any page that is free for the arena and that they may see. -/
theorem siteAnswer_of_free (hlogin : loginRedirect visitor request.path = none) (hfree : request.free = true) :
    siteAnswer settings db (some visitor) request now cache = none := by
  have hfree' : ∀ profile, ({ request with profile := some profile } : PageRequest).free = true := fun _ => hfree
  simp only [siteAnswer, hlogin, lockedResponse, hfree', if_true]

theorem free_of_path (h : ({ profile := none, path } : PageRequest).free = true) (hpath : request.path = path) :
    request.free = true := by
  subst hpath
  exact h

theorem free_of_isPicture (h : isPicture request.path = true) : request.free = true := by
  obtain ⟨start, hstart, hprefix⟩ := List.any_eq_true.mp h
  have hallowed : ∀ start ∈ picturePaths, start ∈ Arena.allowedPrefixes := by decide
  have hany : Arena.allowedPrefixes.any (fun start => start.toList.isPrefixOf request.path.toList) = true :=
    List.any_eq_true.mpr ⟨start, hallowed start hstart, hprefix⟩
  unfold PageRequest.free
  rw [hany]
  simp

/-- Whoever is not sent away from a page of the site proper owes nothing. -/
theorem owes_nothing (hlogin : loginRedirect visitor request.path = none) (hfree : request.free = false) :
    visitor.owes = false ∧ visitor.pwned = false := by
  have hpicture : isPicture request.path = false := by
    by_contra h
    rw [free_of_isPicture (by simpa using h)] at hfree
    cases hfree
  have hallowed : ∀ path ∈ [login2faPath, logoutPath, webauthnPath, changePasswordPath, changePasswordDonePath],
      ({ profile := none, path } : PageRequest).free = true := by decide
  have hpath : ∀ path ∈ [login2faPath, logoutPath, webauthnPath, changePasswordPath, changePasswordDonePath],
      request.path ≠ path := by
    intro path hmem heq
    rw [free_of_path (hallowed path hmem) heq] at hfree
    cases hfree
  simp only [List.forall_mem_cons] at hpath
  obtain ⟨hlogin2fa, hlogout, hwebauthn, hchange, hdone, -⟩ := hpath
  rw [loginRedirect_eq] at hlogin
  simp only [List.mem_cons, List.not_mem_nil, hlogin2fa, hlogout, hwebauthn, hchange, hdone, hpicture,
    not_false_eq_true, Bool.not_false, and_true, or_self] at hlogin
  split at hlogin
  · cases hlogin
  · rename_i howes
    split at hlogin
    · cases hlogin
    · rename_i hpwned
      exact ⟨by simpa using howes, by simpa using hpwned⟩

/-- The arena sends players home from the pages that are not free. -/
theorem lockedResponse_redirect (h : (lockedResponse settings db request now cache).1 = some (.redirect path)) :
    request.free = false ∧ path = Arena.home := by
  unfold lockedResponse at h
  split at h
  · cases h
  · split at h
    · cases h
    · rename_i hfree
      refine ⟨by simpa using hfree, ?_⟩
      dsimp only at h
      split at h
      · cases h
      · split at h
        · cases h
          rfl
        · cases h

/-- **The site never sends a visitor round in circles.** A redirection of the middlewares leads to a page that none of
them keeps from the visitor, however long after and in whatever state of the arena it is asked for. The one exception
is the challenge of a security key: whoever owes the second factor and has a leaked password is sent from it to the
page of the new password, and only from there to that of the second factor, which nobody is kept from. -/
theorem redirects_end (h : siteAnswer settings db (some visitor) request now cache = some (.redirect path))
    (hpath : request'.path = path) :
    siteAnswer settings db' (some visitor) request' now' cache' =
      (if visitor.owes ∧ visitor.pwned ∧ request.path = webauthnPath then some (.redirect login2faPath) else none) ∧
    ∀ db cache now, siteAnswer settings db (some visitor) { request' with path := login2faPath } now cache = none := by
  have hfree : ({ profile := none, path := login2faPath } : PageRequest).free = true := by decide
  have hsecond : ∀ db cache now,
      siteAnswer settings db (some visitor) { request' with path := login2faPath } now cache = none := fun _ _ _ =>
    siteAnswer_of_free loginRedirect_login2fa (free_of_path hfree rfl)
  refine ⟨?_, hsecond⟩
  unfold siteAnswer at h
  cases hlogin : loginRedirect visitor request.path with
  | none =>
      -- the arena: then the visitor owes nothing, and is let into it
      simp only [hlogin] at h
      obtain ⟨hfree, rfl⟩ := lockedResponse_redirect h
      obtain ⟨howes, hpwned⟩ := owes_nothing hlogin hfree
      rw [siteAnswer_of_free (hpath ▸ loginRedirect_home howes hpwned) (free_of_path (by decide) hpath),
        if_neg (by simp [howes])]
  | some target =>
      simp only [hlogin, Option.some.injEq, HeldAnswer.redirect.injEq] at h
      subst h
      rw [loginRedirect_eq] at hlogin
      split at hlogin
      · -- the second factor first
        rename_i hfirst
        obtain rfl : login2faPath = target := Option.some.inj hlogin
        have hkey : request.path ≠ webauthnPath := by
          intro heq
          rw [heq] at hfirst
          exact hfirst.2.1 (by decide)
        rw [siteAnswer_of_free (hpath ▸ loginRedirect_login2fa) (free_of_path (by decide) hpath),
          if_neg fun hall => hkey hall.2.2]
      · rename_i hfirst
        split at hlogin
        · rename_i hleaked
          obtain rfl : changePasswordPath = target := Option.some.inj hlogin
          cases howes : visitor.owes with
          | false =>
              have hnone : loginRedirect visitor request'.path = none := by
                rw [hpath, loginRedirect_changePassword, howes]
                rfl
              rw [siteAnswer_of_free hnone (free_of_path (by decide) hpath), if_neg (by simp)]
          | true =>
              -- a page that the second factor lets through, and the new password does not
              have hkey : request.path = webauthnPath := by
                by_contra hne
                refine hfirst ⟨howes, ?_, hleaked.2.2⟩
                have hothers := hleaked.2.1
                simp only [List.mem_cons, List.not_mem_nil, or_false, not_or] at hothers ⊢
                exact ⟨hothers.2.2.1, hothers.2.2.2, hne⟩
              have hlogin' : loginRedirect visitor request'.path = some login2faPath := by
                rw [hpath, loginRedirect_changePassword, howes]
                rfl
              rw [if_pos ⟨rfl, hleaked.1, hkey⟩]
              simp only [siteAnswer, hlogin']
        · cases hlogin

end

/-- An account with a security key and a leaked password, before its second factor. -/
def leaked : Visitor where
  profile := 4
  isTotpEnabled := false
  isWebauthnEnabled := true
  passed := false
  pwned := true

/-- It asks for the challenge of its key, and then for the page it was sent to. -/
theorem redirects_end_leaked : siteAnswer {} {} (some leaked) { profile := none, path := changePasswordPath } 1 none =
    some (.redirect login2faPath) := by
  have hsent : siteAnswer {} {} (some leaked) { profile := none, path := webauthnPath } 0 none =
      some (.redirect changePasswordPath) := by decide
  have hthen : siteAnswer {} {} (some leaked) { profile := none, path := changePasswordPath } 1 none =
      if leaked.owes ∧ leaked.pwned ∧ webauthnPath = webauthnPath then some (.redirect login2faPath) else none :=
    (redirects_end hsent rfl).1
  exact hthen

end Login
end CpcJudge
