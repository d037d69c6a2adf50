import CpcJudge.Lib.Text

/-!
# `Login.TwoFactor` — one-time codes

A login reads the profile, checks the code that was sent against what it has read, and saves what the code used up: the
timecode that it is for, or the scratch codes that are left. Nothing is locked between the two. What is needed for each
code to be used once is that a request does not save over what another one saved since it read (`Stage.Undisturbed`).

A query of a request is one step (`Login.next`), and so is what it does between two queries.
-/

namespace CpcJudge
namespace Login

/-- `Profile`, as far as a login reads and writes it. -/
structure Profile where
  currentContest : Option ℕ := none
  isTotpEnabled : Bool := false
  isWebauthnEnabled : Bool := false
  totpKey : Text := []
  scratchCodes : Option (List Text) := none
  lastTotpTimecode : ℤ := 0
  deriving DecidableEq

/-- What a login uses of the rest of the site: the packages of the codes and of the keys, the tolerance in the settings,
and whether a participation is over, or its contest closed to the user, at some time. -/
structure Site where
  generateOtp : Text → ℤ → Text
  stringsEqual : Text → Text → Bool
  /-- The error of a response of a key, if it has one. -/
  verifyKey : Text → Option String
  toleranceHalfMinutes : ℕ
  isOver : ℕ → ℤ → Bool

/-- The form of `two_factor_auth.html`, and whether its session has `2fa_passed`. -/
structure Form where
  totpOrScratchCode : Text
  webauthnResponse : Text := []
  passed : Bool := false
  deriving DecidableEq

/-- What can be used once. -/
inductive OneTimeCode where
  | timecode (timecode : ℤ)
  | scratch (code : Text)
  deriving DecidableEq

/-- The `save` of a code that is used: of `last_totp_timecode`, or of the `scratch_codes` that are left. -/
inductive Update where
  | lastTotpTimecode (timecode : ℤ)
  | scratchCodes (used : Text) (left : List Text)
  deriving DecidableEq

namespace Update

def used : Update → OneTimeCode
  | lastTotpTimecode timecode => .timecode timecode
  | scratchCodes used _ => .scratch used

end Update

inductive Response where
  -- the second factor is not asked for
  | skipped
  | passed
  | invalid (message : String)
  deriving DecidableEq

/-- The query a request comes to next, and the profile it holds. -/
inductive Stage where
  -- `request.user.profile`
  | received
  -- `profile.update_contest()`
  | loaded (profile : Profile)
  -- the checks of the form
  | entered (profile : Profile)
  -- `self.profile.save(update_fields=[...])`
  | saving (profile : Profile) (update : Update)
  | answered (response : Response)
  deriving DecidableEq

/-! ## The checks -/

/-- `json.loads(scratch_codes)`, of a profile that has some. -/
def Profile.codes (profile : Profile) : List Text := profile.scratchCodes.getD []

/-- The timecodes that `check_totp_code` tries, in order. -/
def Profile.timecodes (site : Site) (profile : Profile) (now : ℤ) : List ℤ :=
  let first := max (profile.lastTotpTimecode + 1) (now - site.toleranceHalfMinutes)
  (List.range (now + site.toleranceHalfMinutes + 1 - first).toNat).map fun n : ℕ => first + n

/-- The timecode that `check_totp_code` finds for a code. -/
def Profile.checkTotpCode (site : Site) (profile : Profile) (code : Text) (now : ℤ) : Option ℤ :=
  (profile.timecodes site now).find? fun timecode =>
    site.stringsEqual code (site.generateOtp profile.totpKey timecode)

/-- `TwoFactorLoginForm.clean`, of a code. An error is its message. -/
def Profile.cleanCode (site : Site) (profile : Profile) (code : Text) (now : ℤ) : Except String Update :=
  match if profile.isTotpEnabled then profile.checkTotpCode site code now else none with
  | some timecode => .ok (.lastTotpTimecode timecode)
  | none =>
      if Text.isIn code profile.codes then .ok (.scratchCodes code (profile.codes.erase code))
      else if profile.isTotpEnabled then .error "Invalid two-factor authentication token or scratch code."
      else .error "Invalid scratch code."

/-- `TwoFactorLoginForm.clean`, and what the view makes of it. -/
def Profile.clean (site : Site) (profile : Profile) (form : Form) (now : ℤ) : Stage :=
  if profile.isWebauthnEnabled && !form.webauthnResponse.isEmpty then
    if 65536 < form.webauthnResponse.length then .answered (.invalid "Invalid WebAuthn response.")
    else
      match site.verifyKey form.webauthnResponse with
      | some message => .answered (.invalid message)
      | none => .answered .passed
  else if form.totpOrScratchCode.isEmpty then
    .answered (.invalid "Must specify either totp_token or webauthn_response.")
  else
    match profile.cleanCode site form.totpOrScratchCode now with
    | .error message => .answered (.invalid message)
    | .ok update => .saving profile update

/-! ## The queries -/

/-- `update_contest` leaves the contest. -/
def Profile.leavesContest (site : Site) (profile : Profile) (now : ℤ) : Bool :=
  profile.currentContest.any fun contest => site.isOver contest now

/-- `remove_contest`, which saves the whole of the profile that the request holds. -/
def Profile.removeContest (profile : Profile) : Profile := { profile with currentContest := none }

/-- A `save` of one field. -/
def Profile.save (profile : Profile) : Update → Profile
  | .lastTotpTimecode timecode => { profile with lastTotpTimecode := timecode }
  | .scratchCodes _ left => { profile with scratchCodes := some left }

/-- The next query of a request, and where it leads. -/
def next (site : Site) (form : Form) (now : ℤ) (row : Profile) : Stage → Profile × Stage
  | .received => (row, .loaded row)
  | .loaded profile =>
      if profile.leavesContest site now then (profile.removeContest, .entered profile.removeContest)
      else (row, .entered profile)
  | .entered profile =>
      if !profile.isTotpEnabled && !profile.isWebauthnEnabled || form.passed then (row, .answered .skipped)
      else (row, profile.clean site form now)
  | .saving _ update => (row.save update, .answered .passed)
  | .answered response => (row, .answered response)

/-! ## Requests at the same time -/

/-- A request and how far it has come. -/
structure Request where
  form : Form
  stage : Stage := .received
  deriving DecidableEq

/-- The row of the profile, the requests of its user, and the codes that were accepted, in order. -/
structure World where
  row : Profile
  requests : List Request := []
  accepted : List OneTimeCode := []
  deriving DecidableEq

/-- What happens next: a request arrives, or one goes on, with the timecode that its clock shows. -/
inductive Act where
  | arrive (form : Form)
  | proceed (request : ℕ) (now : ℤ)

/-- The codes that a query accepts. -/
def Stage.accepts : Stage → List OneTimeCode
  | .saving _ update => [update.used]
  | _ => []

def World.act (site : Site) (w : World) : Act → World
  | .arrive form => { w with requests := w.requests ++ [{ form }] }
  | .proceed i now =>
      match w.requests[i]? with
      | none => w
      | some r =>
          let (row, stage) := next site r.form now w.row r.stage
          { row, requests := w.requests.set i { r with stage }, accepted := w.accepted ++ r.stage.accepts }

def World.run (site : Site) (w : World) (acts : List Act) : World := acts.foldl (World.act site) w

/-- What a request is about to save over is still what it read. -/
def Stage.Undisturbed (site : Site) (row : Profile) (now : ℤ) : Stage → Prop
  | .loaded profile =>
      profile.leavesContest site now = true →
        row.lastTotpTimecode = profile.lastTotpTimecode ∧ row.scratchCodes = profile.scratchCodes
  | .saving profile (.lastTotpTimecode _) => row.lastTotpTimecode = profile.lastTotpTimecode
  | .saving profile (.scratchCodes _ _) => row.scratchCodes = profile.scratchCodes
  | _ => True

def World.Undisturbed (site : Site) (w : World) : Act → Prop
  | .arrive _ => True
  | .proceed i now => ∀ r : Request, w.requests[i]? = some r → r.stage.Undisturbed site w.row now

/-- No request saves over what another one saved since it read. -/
def World.Orderly (site : Site) : World → List Act → Prop
  | _, [] => True
  | w, a :: acts => w.Undisturbed site a ∧ World.Orderly site (w.act site a) acts

instance (site : Site) (row : Profile) (now : ℤ) : (stage : Stage) → Decidable (stage.Undisturbed site row now)
  | .loaded _ => inferInstanceAs (Decidable (_ → _ ∧ _))
  | .saving _ (.lastTotpTimecode _) => inferInstanceAs (Decidable (_ = _))
  | .saving _ (.scratchCodes _ _) => inferInstanceAs (Decidable (_ = _))
  | .received | .entered _ | .answered _ => inferInstanceAs (Decidable True)

instance (site : Site) (w : World) : (a : Act) → Decidable (w.Undisturbed site a)
  | .arrive _ => inferInstanceAs (Decidable True)
  | .proceed i now => inferInstanceAs (Decidable (∀ r : Request, w.requests[i]? = some r → r.stage.Undisturbed site w.row now))

instance (site : Site) : (w : World) → (acts : List Act) → Decidable (w.Orderly site acts)
  | _, [] => inferInstanceAs (Decidable True)
  | w, a :: acts =>
      have := instDecidableOrderly site (w.act site a) acts
      inferInstanceAs (Decidable (_ ∧ _))

variable {site : Site} {row profile : Profile} {form : Form} {code : Text} {now t : ℤ} {stage : Stage} {update : Update}
  {accepted : List OneTimeCode} {w : World} {a : Act} {acts : List Act}

/-! ## What a check finds -/

/-- An update uses up what a profile still has. -/
def Update.Uses (profile : Profile) : Update → Prop
  | .lastTotpTimecode timecode => profile.lastTotpTimecode < timecode
  | .scratchCodes used left => used ∈ profile.codes ∧ left = profile.codes.erase used

/-- What a request is about to save was checked against the profile that it holds. -/
def Stage.Ready : Stage → Prop
  | .saving profile update => update.Uses profile
  | _ => True

/-- The loop starts after the last timecode. -/
theorem lt_of_checkTotpCode (h : profile.checkTotpCode site code now = some t) : profile.lastTotpTimecode < t := by
  obtain ⟨n, -, rfl⟩ := List.mem_map.mp (List.mem_of_find?_eq_some h)
  exact (lt_add_one _).trans_le ((le_max_left _ _).trans (Int.le_add_of_nonneg_right (Int.natCast_nonneg n)))

theorem uses_of_cleanCode (h : profile.cleanCode site code now = .ok update) : update.Uses profile := by
  unfold Profile.cleanCode at h
  split at h
  next timecode hcheck =>
    obtain rfl := Except.ok.inj h
    split at hcheck
    · exact lt_of_checkTotpCode hcheck
    · cases hcheck
  next =>
    split at h
    next hmem =>
      obtain rfl := Except.ok.inj h
      exact ⟨Text.isIn_iff.mp hmem, rfl⟩
    next => split at h <;> cases h

theorem ready_clean : (profile.clean site form now).Ready := by
  unfold Profile.clean
  split
  · split
    · trivial
    · split <;> trivial
  · split
    · trivial
    · split
      next => trivial
      next hclean => exact uses_of_cleanCode hclean

theorem ready_next : (next site form now row stage).2.Ready := by
  cases stage with
  | received => trivial
  | loaded profile =>
      rw [next]
      split <;> trivial
  | entered profile =>
      rw [next]
      split
      · trivial
      · exact ready_clean
  | saving profile update => trivial
  | answered response => trivial

/-! ## What a query uses up -/

/-- What was accepted is used up: no later check can find it in the row. -/
structure Spent (row : Profile) (accepted : List OneTimeCode) : Prop where
  once : accepted.Nodup
  timecodes : ∀ timecode, .timecode timecode ∈ accepted → timecode ≤ row.lastTotpTimecode
  scratch : ∀ code, .scratch code ∈ accepted → code ∉ row.codes
  distinct : row.codes.Nodup

theorem Spent.save (h : Spent row accepted) (huses : update.Uses row) :
    Spent (row.save update) (accepted ++ [update.used]) ∧
      row.lastTotpTimecode ≤ (row.save update).lastTotpTimecode := by
  cases update with
  | lastTotpTimecode timecode =>
      have hlater : row.lastTotpTimecode < timecode := huses
      have hnew : OneTimeCode.timecode timecode ∉ accepted := fun hmem => (h.timecodes _ hmem).not_gt hlater
      refine ⟨⟨List.concat_eq_append ▸ h.once.concat hnew, fun t ht => ?_, fun code hcode => ?_, h.distinct⟩, hlater.le⟩
      · rcases List.mem_append.mp ht with ht | ht
        · exact (h.timecodes t ht).trans hlater.le
        · obtain rfl := OneTimeCode.timecode.inj (List.mem_singleton.mp ht)
          exact le_refl _
      · rcases List.mem_append.mp hcode with hcode | hcode
        · exact h.scratch code hcode
        · cases List.mem_singleton.mp hcode
  | scratchCodes used left =>
      obtain ⟨hused, rfl⟩ := huses
      have hnew : OneTimeCode.scratch used ∉ accepted := fun hmem => h.scratch _ hmem hused
      refine ⟨⟨List.concat_eq_append ▸ h.once.concat hnew, fun t ht => ?_, fun code hcode => ?_, h.distinct.erase used⟩,
        le_refl _⟩
      · rcases List.mem_append.mp ht with ht | ht
        · exact h.timecodes t ht
        · cases List.mem_singleton.mp ht
      · rcases List.mem_append.mp hcode with hcode | hcode
        · exact fun hmem => h.scratch code hcode (List.mem_of_mem_erase hmem)
        · obtain rfl := OneTimeCode.scratch.inj (List.mem_singleton.mp hcode)
          exact h.distinct.not_mem_erase

theorem Spent.same {other : Profile} (h : Spent row accepted) (hlast : other.lastTotpTimecode = row.lastTotpTimecode)
    (hcodes : other.scratchCodes = row.scratchCodes) : Spent other accepted := by
  have hsame : other.codes = row.codes := congrArg (·.getD []) hcodes
  exact ⟨h.once, hlast ▸ h.timecodes, hsame ▸ h.scratch, hsame ▸ h.distinct⟩

/-- What was read is still there, and so it can be used up. -/
theorem uses_of_undisturbed (huses : update.Uses profile)
    (h : (Stage.saving profile update).Undisturbed site row now) : update.Uses row := by
  cases update with
  | lastTotpTimecode timecode => exact h.trans_lt huses
  | scratchCodes used left =>
      have hsame : row.codes = profile.codes := congrArg (·.getD []) h
      exact ⟨hsame ▸ huses.1, hsame ▸ huses.2⟩

/-- A query keeps what was accepted used up. -/
theorem Spent.next (form : Form) (h : Spent row accepted) (hready : stage.Ready) (hquiet : stage.Undisturbed site row now) :
    Spent (next site form now row stage).1 (accepted ++ stage.accepts) ∧
      row.lastTotpTimecode ≤ (Login.next site form now row stage).1.lastTotpTimecode := by
  cases stage with
  | received => exact ⟨(List.append_nil accepted).symm ▸ h, le_refl _⟩
  | loaded profile =>
      rw [show (Stage.loaded profile).accepts = [] from rfl, List.append_nil, Login.next]
      split
      next hleaves =>
        obtain ⟨hlast, hcodes⟩ := hquiet hleaves
        exact ⟨h.same hlast.symm hcodes.symm, hlast.le⟩
      next => exact ⟨h, le_refl _⟩
  | entered profile =>
      rw [show (Stage.entered profile).accepts = [] from rfl, List.append_nil, Login.next]
      split <;> exact ⟨h, le_refl _⟩
  | saving profile update => exact h.save (uses_of_undisturbed hready hquiet)
  | answered response => exact ⟨(List.append_nil accepted).symm ▸ h, le_refl _⟩

/-! ## Requests at the same time -/

structure World.Sound (w : World) : Prop where
  ready : ∀ r ∈ w.requests, r.stage.Ready
  spent : Spent w.row w.accepted

theorem World.Sound.act (h : w.Sound) (hquiet : w.Undisturbed site a) :
    (w.act site a).Sound ∧ w.row.lastTotpTimecode ≤ (w.act site a).row.lastTotpTimecode := by
  cases a with
  | arrive form =>
      refine ⟨⟨fun r hr => ?_, h.spent⟩, le_refl _⟩
      rcases List.mem_append.mp hr with hr | hr
      · exact h.ready r hr
      · rw [List.mem_singleton.mp hr]
        trivial
  | proceed i now =>
      cases hr : w.requests[i]? with
      | none =>
          have hsame : w.act site (.proceed i now) = w := by simp [World.act, hr]
          rw [hsame]
          exact ⟨h, le_refl _⟩
      | some r =>
          have hmem : r ∈ w.requests := List.mem_of_getElem? hr
          obtain ⟨hspent, hle⟩ := h.spent.next r.form (h.ready r hmem) (hquiet r hr)
          have hact : w.act site (.proceed i now) =
              { row := (next site r.form now w.row r.stage).1
                requests := w.requests.set i { r with stage := (next site r.form now w.row r.stage).2 }
                accepted := w.accepted ++ r.stage.accepts } := by simp [World.act, hr]
          rw [hact]
          refine ⟨⟨fun other hother => ?_, hspent⟩, hle⟩
          rcases List.mem_or_eq_of_mem_set hother with hother | rfl
          · exact h.ready other hother
          · exact ready_next

theorem World.Sound.run (h : w.Sound) (horderly : w.Orderly site acts) :
    (w.run site acts).Sound ∧ w.row.lastTotpTimecode ≤ (w.run site acts).row.lastTotpTimecode := by
  induction acts generalizing w with
  | nil => exact ⟨h, le_refl _⟩
  | cons a acts ih =>
      obtain ⟨hquiet, hrest⟩ := horderly
      obtain ⟨hnext, hle⟩ := h.act hquiet
      obtain ⟨hsound, hle'⟩ := ih hnext hrest
      exact ⟨hsound, hle.trans hle'⟩

theorem World.orderly_append {before after : List Act} (h : w.Orderly site (before ++ after)) :
    w.Orderly site before ∧ (w.run site before).Orderly site after := by
  induction before generalizing w with
  | nil => exact ⟨trivial, h⟩
  | cons a before ih =>
      obtain ⟨hbefore, hafter⟩ := ih h.2
      exact ⟨⟨h.1, hbefore⟩, hafter⟩

/-- Before the first login. -/
def World.start (row : Profile) : World := { row }

theorem World.sound_start (h : row.codes.Nodup) : (World.start row).Sound where
  ready _ hr := absurd hr List.not_mem_nil
  spent := ⟨List.nodup_nil, fun _ h => absurd h List.not_mem_nil, fun _ h => absurd h List.not_mem_nil, h⟩

/-- While no request saves over what another one saved since it read, a code is accepted once, if the scratch codes are
distinct, and the last timecode does not go back. -/
theorem codes_used_once (site : Site) (row : Profile) (acts : List Act) (hdistinct : row.codes.Nodup)
    (horderly : (World.start row).Orderly site acts) :
    ((World.start row).run site acts).accepted.Nodup ∧
      ∀ before after, acts = before ++ after →
        ((World.start row).run site before).row.lastTotpTimecode ≤
          ((World.start row).run site acts).row.lastTotpTimecode := by
  have hstart := World.sound_start hdistinct
  refine ⟨(hstart.run horderly).1.spent.once, ?_⟩
  rintro before after rfl
  obtain ⟨hbefore, hafter⟩ := World.orderly_append horderly
  have hle := ((hstart.run hbefore).1.run hafter).2
  rwa [World.run, World.run, ← List.foldl_append] at hle

/-- The codes of the key `GEZDGNBVGY3TQOJQGEZDGNBVGY3TQOJQ` for the first timecodes. -/
def sampleSite : Site where
  generateOtp _ timecode :=
    (["755224", "287082", "359152", "969429", "338314", "254676", "287922", "162583"].map Text.ofString).getD
      timecode.toNat []
  stringsEqual code otp := code = otp
  verifyKey _ := none
  toleranceHalfMinutes := 1
  isOver _ _ := false

def sampleRow : Profile where
  isTotpEnabled := true
  totpKey := Text.ofString "GEZDGNBVGY3TQOJQGEZDGNBVGY3TQOJQ"
  scratchCodes := some [Text.ofString "ABCDEFGHIJKLMNOP", Text.ofString "QRSTUVWXYZ234567"]

/-- A request from its arrival to its answer, if no other one comes in between. -/
def loginAlone (request : ℕ) (code : String) (now : ℤ) : List Act :=
  .arrive { totpOrScratchCode := Text.ofString code } :: List.replicate 4 (.proceed request now)

/-- The same code twice, and a scratch code. -/
theorem codes_used_once_alone :
    ((World.start sampleRow).run sampleSite
        (loginAlone 0 "254676" 5 ++ loginAlone 1 "254676" 5 ++ loginAlone 2 "ABCDEFGHIJKLMNOP" 5)).accepted =
      [.timecode 5, .scratch (Text.ofString "ABCDEFGHIJKLMNOP")] ∧
    ((World.start sampleRow).run sampleSite
        (loginAlone 0 "254676" 5 ++ loginAlone 1 "254676" 5 ++ loginAlone 2 "ABCDEFGHIJKLMNOP" 5)).accepted.Nodup :=
  ⟨by decide +kernel, (codes_used_once sampleSite sampleRow _ (by decide +kernel) (by decide +kernel)).1⟩

/-- Two requests that check the same code before either of them saves. -/
def loginTogether (code : String) (now : ℤ) : List Act :=
  List.replicate 2 (.arrive { totpOrScratchCode := Text.ofString code }) ++
    (List.replicate 4 [.proceed 0 now, .proceed 1 now]).flatten

/-- A code is accepted twice. -/
theorem code_used_twice :
    ¬ ∀ (site : Site) (row : Profile) (acts : List Act), row.codes.Nodup →
      ((World.start row).run site acts).accepted.Nodup ∧
        ∀ before after, acts = before ++ after →
          ((World.start row).run site before).row.lastTotpTimecode ≤
            ((World.start row).run site acts).row.lastTotpTimecode := by
  intro h
  have honce := (h sampleSite sampleRow (loginTogether "254676" 5) (by decide +kernel)).1
  revert honce
  decide +kernel

end Login
end CpcJudge
