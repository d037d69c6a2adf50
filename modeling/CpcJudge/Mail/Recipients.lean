import CpcJudge.Lib.Table
import CpcJudge.Lib.Text

/-!
# `Mail.Recipients` — who receives an email

The recipients of an email are chosen by account: the audience and its filters, whoever is always included, and
without whoever is never included. The list goes by address: the first account of each one, ignoring case. So the
address of a person who must never be included is still on the list when another account has it and is chosen.
-/

namespace CpcJudge
namespace Mail

/-- `MassEmail.AUDIENCES`. -/
inductive Audience where
  | all | filters | users
  deriving DecidableEq, Repr

/-- The filters of an email. -/
structure Filters where
  audience : Option Audience := none
  contests : List ℕ := []
  includeVirtual : Bool := false
  organizations : List ℕ := []
  groups : List ℕ := []
  activeWithinDays : Option ℕ := none
  joinedAfter : Option ℤ := none
  joinedBefore : Option ℤ := none
  minProblems : Option ℕ := none
  minRating : Option ℤ := none
  maxRating : Option ℤ := none
  includeUsers : List ℕ := []
  excludeUsers : List ℕ := []

/-- A `Profile` and its `User`. -/
structure Account where
  id : ℕ
  username : Text
  email : Text
  isActive : Bool := true
  dateJoined : ℤ := 0
  lastAccess : ℤ := 0
  problemCount : ℕ := 0
  rating : Option ℤ := none
  organizations : List ℕ := []
  groups : List ℕ := []
  deriving DecidableEq

instance : Keyed Account := ⟨Account.id⟩

/-- A `ContestParticipation`, with the profiles of its `ContestTeamMember` rows. -/
structure Entry where
  contest : ℕ
  user : ℕ
  virtual : ℤ
  members : List ℕ

/-- The accounts and participations there are, at a moment: how a day starts in the time zone of the site, and how
`str.lower` changes a text. -/
structure Directory where
  accounts : Table Account
  participations : List Entry := []
  now : ℤ := 0
  startOf : ℤ → ℤ := fun day => day * 86400000000
  lower : Text → Text

/-- A row of the list: `(profile id, username, email)`. -/
structure Recipient where
  id : ℕ
  username : Text
  email : Text
  deriving DecidableEq

/-! ## By account -/

namespace Filters

variable (f : Filters) (d : Directory)

/-- `is_set`, of a number that means nothing at 0. -/
def counts (value : Option ℕ) : Bool := value.any (· ≠ 0)

def hasFilters : Bool :=
  f.contests ≠ [] || f.organizations ≠ [] || f.groups ≠ [] || counts f.activeWithinDays || f.joinedAfter.isSome ||
    f.joinedBefore.isSome || counts f.minProblems || f.minRating.isSome || f.maxRating.isSome

def effectiveAudience : Audience := f.audience.getD (if f.hasFilters then .filters else .all)

/-- The participations of the contests that count. -/
def participations : List Entry :=
  d.participations.filter fun e => e.contest ∈ f.contests && if f.includeVirtual then 0 ≤ e.virtual else e.virtual = 0

/-- A condition that is appended when its filter is set. -/
def whenSet {β : Type} (value : Option β) (condition : β → Account → Bool) : List (Account → Bool) :=
  value.toList.map condition

def whenAny (choices : List ℕ) (condition : Account → Bool) : List (Account → Bool) :=
  if choices = [] then [] else [condition]

/-- `_conditions`. -/
def conditions : List (Account → Bool) :=
  whenAny f.contests (fun a => (f.participations d).any fun e => e.user = a.id || a.id ∈ e.members) ++
  whenAny f.organizations (fun a => a.organizations.any (· ∈ f.organizations)) ++
  whenAny f.groups (fun a => a.groups.any (· ∈ f.groups)) ++
  whenSet (f.activeWithinDays.filter (· ≠ 0)) (fun days a => d.now - days * 86400000000 ≤ a.lastAccess) ++
  whenSet f.joinedAfter (fun day a => d.startOf day ≤ a.dateJoined) ++
  whenSet f.joinedBefore (fun day a => a.dateJoined < d.startOf (day + 1)) ++
  whenSet (f.minProblems.filter (· ≠ 0)) (fun count a => count ≤ a.problemCount) ++
  whenSet f.minRating (fun rating a => a.rating.any (rating ≤ ·)) ++
  whenSet f.maxRating (fun rating a => a.rating.all (· ≤ rating))

/-- The profile is chosen, as far as the audience goes. -/
def selects (a : Account) : Bool :=
  match f.effectiveAudience with
  | .all => true
  | .users => a.id ∈ f.includeUsers
  | .filters => (f.hasFilters && (f.conditions d).all fun condition => condition a) || a.id ∈ f.includeUsers

end Filters

def atSign : CodePoint := Text.chr 0x40
def dot : CodePoint := Text.chr 0x2e

/-- `confirmed_profiles`. -/
def Directory.confirmedProfiles (d : Directory) : Table Account :=
  d.accounts.filter fun a => a.isActive && decide (atSign ∈ a.email)

/-- `recipient_profiles`. -/
def recipientProfiles (f : Filters) (d : Directory) : Table Account :=
  (d.confirmedProfiles.filter (f.selects d)).filter fun a => decide (a.id ∉ f.excludeUsers)

/-! ## By address -/

/-- `[^@\s]`. -/
def plain (c : CodePoint) : Bool := c ≠ atSign && !Text.isSpace c

/-- `EMAIL_SHAPE`: something, an at sign, and something with a dot inside; no blanks and no other at sign. -/
def emailShape (email : Text) : Bool :=
  let name := email.takeWhile plain
  match email.dropWhile plain with
  | [] => false
  | c :: domain =>
      c = atSign && !name.isEmpty && domain.all plain &&
        (List.range domain.length).any fun i => 0 < i && domain[i]? = some dot && i + 1 < domain.length

/-- What `EMAIL_SHAPE` describes. -/
def IsAddress (email : Text) : Prop :=
  ∃ name host tail, email = name ++ atSign :: (host ++ dot :: tail) ∧ name ≠ [] ∧ host ≠ [] ∧ tail ≠ [] ∧
    ∀ c ∈ name ++ host ++ tail, c ≠ atSign ∧ Text.isSpace c = false

/-- The loop of `recipient_rows`, with the addresses it has seen. -/
def rowsFrom (lower : Text → Text) (seen : List Text) : List Account → List Recipient
  | [] => []
  | a :: rest =>
      let email := Text.strip a.email
      let key := lower email
      if !emailShape email || key.isIn seen then rowsFrom lower seen rest
      else ⟨a.id, a.username, email⟩ :: rowsFrom lower (key :: seen) rest

/-- `recipient_rows`: in account order. -/
def recipientRows (f : Filters) (d : Directory) : List Recipient :=
  rowsFrom d.lower [] ((recipientProfiles f d).rows.insertionSort fun a b => a.id ≤ b.id)

/-! ## What an email says -/

/-- The account is one the filters describe. -/
structure Filters.Meets (f : Filters) (d : Directory) (a : Account) : Prop where
  contests : f.contests ≠ [] → ∃ e ∈ d.participations, e.contest ∈ f.contests ∧
    (e.virtual = 0 ∨ (f.includeVirtual = true ∧ 0 < e.virtual)) ∧ (e.user = a.id ∨ a.id ∈ e.members)
  organizations : f.organizations ≠ [] → ∃ o ∈ f.organizations, o ∈ a.organizations
  groups : f.groups ≠ [] → ∃ g ∈ f.groups, g ∈ a.groups
  active : ∀ days, f.activeWithinDays = some days → days ≠ 0 → d.now - days * 86400000000 ≤ a.lastAccess
  joinedAfter : ∀ day, f.joinedAfter = some day → d.startOf day ≤ a.dateJoined
  joinedBefore : ∀ day, f.joinedBefore = some day → a.dateJoined < d.startOf (day + 1)
  minProblems : ∀ count, f.minProblems = some count → count ≤ a.problemCount
  minRating : ∀ rating, f.minRating = some rating → ∃ r, a.rating = some r ∧ rating ≤ r
  maxRating : ∀ rating, f.maxRating = some rating → ∀ r, a.rating = some r → r ≤ rating

/-- Who an email is for. -/
def Filters.Calls (f : Filters) (d : Directory) (a : Account) : Prop :=
  match f.effectiveAudience with
  | .all => True
  | .users => a.id ∈ f.includeUsers
  | .filters => (f.hasFilters = true ∧ f.Meets d a) ∨ a.id ∈ f.includeUsers

section
variable {f : Filters} {d : Directory} {a : Account}

theorem Filters.whenAny_all {choices : List ℕ} {condition : Account → Bool} :
    ((Filters.whenAny choices condition).all fun c => c a) = true ↔ (choices ≠ [] → condition a = true) := by
  by_cases h : choices = [] <;> simp [Filters.whenAny, h]

theorem Filters.whenSet_all {β : Type} {value : Option β} {condition : β → Account → Bool} :
    ((Filters.whenSet value condition).all fun c => c a) = true ↔ ∀ b, value = some b → condition b a = true := by
  cases value <;> simp [Filters.whenSet]

theorem Filters.mem_participations {e : Entry} : e ∈ f.participations d ↔ e ∈ d.participations ∧
    e.contest ∈ f.contests ∧ (e.virtual = 0 ∨ (f.includeVirtual = true ∧ 0 < e.virtual)) := by
  rw [Filters.participations, List.mem_filter, Bool.and_eq_true, decide_eq_true_eq]
  refine and_congr_right fun _ => and_congr_right fun _ => ?_
  cases f.includeVirtual
  · simp
  · simp only [if_true, decide_eq_true_eq, true_and]
    omega

/-- The conditions hold of the accounts that the filters describe. -/
theorem Filters.conditions_all : ((f.conditions d).all fun condition => condition a) = true ↔ f.Meets d a := by
  have htook : ((f.participations d).any fun e => e.user = a.id || a.id ∈ e.members) = true ↔
      ∃ e ∈ d.participations, e.contest ∈ f.contests ∧
        (e.virtual = 0 ∨ (f.includeVirtual = true ∧ 0 < e.virtual)) ∧ (e.user = a.id ∨ a.id ∈ e.members) := by
    simp only [List.any_eq_true, Filters.mem_participations, Bool.or_eq_true, decide_eq_true_eq, and_assoc]
  have hshared : ∀ choices mine : List ℕ, (mine.any (· ∈ choices)) = true ↔ ∃ i ∈ choices, i ∈ mine := by
    intro choices mine
    simp only [List.any_eq_true, decide_eq_true_eq]
    exact ⟨fun ⟨i, hi, hc⟩ => ⟨i, hc, hi⟩, fun ⟨i, hc, hi⟩ => ⟨i, hi, hc⟩⟩
  simp only [Filters.conditions, List.all_append, Bool.and_eq_true, Filters.whenAny_all, Filters.whenSet_all, htook,
    hshared, decide_eq_true_eq, Option.filter_eq_some_iff]
  constructor
  · rintro ⟨⟨⟨⟨⟨⟨⟨⟨hcontests, horganizations⟩, hgroups⟩, hactive⟩, hafter⟩, hbefore⟩, hproblems⟩, hmin⟩, hmax⟩
    refine ⟨hcontests, horganizations, hgroups, fun days h hne => hactive days ⟨h, by simpa using hne⟩, hafter, hbefore,
      fun count h => ?_, fun rating h => ?_, fun rating h r hr => ?_⟩
    · rcases Nat.eq_zero_or_pos count with rfl | hpos
      · exact Nat.zero_le _
      · exact hproblems count ⟨h, by simpa using hpos.ne'⟩
    · have hany := hmin rating h
      cases hr : a.rating with
      | none => simp [hr] at hany
      | some r => exact ⟨r, rfl, by simpa [hr] using hany⟩
    · have hall := hmax rating h
      rw [hr] at hall
      exact of_decide_eq_true hall
  · intro h
    refine ⟨⟨⟨⟨⟨⟨⟨⟨h.contests, h.organizations⟩, h.groups⟩, fun days hdays => ?_⟩, h.joinedAfter⟩, h.joinedBefore⟩,
      fun count hcount => h.minProblems count hcount.1⟩, fun rating hrating => ?_⟩, fun rating hrating => ?_⟩
    · exact h.active days hdays.1 (by simpa using hdays.2)
    · obtain ⟨r, hr, hle⟩ := h.minRating rating hrating
      rw [hr]
      exact decide_eq_true hle
    · cases hr : a.rating with
      | none => rfl
      | some r => exact decide_eq_true (h.maxRating rating hrating r hr)

theorem Filters.selects_iff : f.selects d a = true ↔ f.Calls d a := by
  unfold Filters.selects Filters.Calls
  cases f.effectiveAudience with
  | all => simp
  | users => simp
  | filters => simp only [Bool.or_eq_true, Bool.and_eq_true, decide_eq_true_eq, Filters.conditions_all]

/-- An account an email goes to, unless another one with its address does: active, with an address, and chosen. -/
structure Chosen (f : Filters) (d : Directory) (a : Account) : Prop where
  mem : a ∈ d.accounts.rows
  active : a.isActive = true
  wellFormed : IsAddress (Text.strip a.email)
  called : f.Calls d a
  notExcluded : a.id ∉ f.excludeUsers

theorem mem_recipientProfiles : a ∈ (recipientProfiles f d).rows ↔
    a ∈ d.accounts.rows ∧ a.isActive = true ∧ atSign ∈ a.email ∧ f.Calls d a ∧ a.id ∉ f.excludeUsers := by
  simp only [recipientProfiles, Directory.confirmedProfiles, Table.filter, List.mem_filter, Bool.and_eq_true,
    decide_eq_true_eq, Filters.selects_iff]
  tauto

/-! ## Addresses -/

theorem plain_iff {c : CodePoint} : plain c = true ↔ c ≠ atSign ∧ Text.isSpace c = false := by simp [plain]

theorem dropWhile_plain {name rest : Text} (h : ∀ c ∈ name, plain c = true) :
    (name ++ atSign :: rest).dropWhile plain = atSign :: rest := by
  rw [List.dropWhile_append_of_pos h, List.dropWhile_cons_of_neg (by simp [plain])]

theorem emailShape_iff {email : Text} : emailShape email = true ↔ IsAddress email := by
  constructor
  · intro h
    have hsplit := List.takeWhile_append_dropWhile (p := plain) (l := email)
    unfold emailShape at h
    cases hdrop : email.dropWhile plain with
    | nil => simp [hdrop] at h
    | cons c domain =>
        simp only [hdrop, Bool.and_eq_true, decide_eq_true_eq, List.any_eq_true, List.mem_range] at h
        obtain ⟨⟨⟨rfl, hname⟩, hdomain⟩, i, hlt, ⟨hpos, hdot⟩, hlast⟩ := h
        obtain ⟨hi, hget⟩ := List.getElem?_eq_some_iff.mp hdot
        have hcut : domain = domain.take i ++ dot :: domain.drop (i + 1) := by
          rw [← hget, List.getElem_cons_drop, List.take_append_drop]
        refine ⟨email.takeWhile plain, domain.take i, domain.drop (i + 1), ?_, ?_, ?_, ?_, fun c hc => ?_⟩
        · rw [← hcut, ← hdrop, hsplit]
        · simpa using hname
        · rw [Ne, List.take_eq_nil_iff]
          rintro (rfl | rfl)
          · exact absurd hpos (lt_irrefl 0)
          · simp at hlt
        · rw [Ne, List.drop_eq_nil_iff]
          omega
        · rw [List.append_assoc, List.mem_append, List.mem_append] at hc
          rcases hc with hc | hc | hc
          · exact plain_iff.mp (List.all_eq_true.mp List.all_takeWhile c hc)
          · exact plain_iff.mp (List.all_eq_true.mp hdomain c (List.mem_of_mem_take hc))
          · exact plain_iff.mp (List.all_eq_true.mp hdomain c (List.mem_of_mem_drop hc))
  · rintro ⟨name, host, tail, rfl, hname, hhost, htail, hplain⟩
    have hfirst : ∀ c ∈ name, plain c = true := fun c hc => plain_iff.mpr (hplain c (by simp [hc]))
    have htake : (name ++ atSign :: (host ++ dot :: tail)).takeWhile plain = name := by
      rw [List.takeWhile_append_of_pos hfirst, List.takeWhile_cons_of_neg (by simp [plain]), List.append_nil]
    simp only [emailShape, dropWhile_plain hfirst, htake, Bool.and_eq_true, decide_eq_true_eq, List.any_eq_true,
      List.mem_range]
    refine ⟨⟨⟨trivial, by simpa using hname⟩, List.all_eq_true.mpr fun c hc => ?_⟩, host.length, ?_, ?_, ?_⟩
    · rcases List.mem_append.mp hc with hc | hc
      · exact plain_iff.mpr (hplain c (by simp [hc]))
      · rcases List.mem_cons.mp hc with rfl | hc
        · decide
        · exact plain_iff.mpr (hplain c (by simp [hc]))
    · simp
    · exact ⟨List.length_pos_of_ne_nil hhost, by simp⟩
    · have hpos := List.length_pos_of_ne_nil htail
      simp only [List.length_append, List.length_cons]
      omega

/-! ## The list -/

/-- A row comes from the account it names, and its address was not seen before. -/
theorem of_mem_rowsFrom {lower : Text → Text} {r : Recipient} : ∀ {accounts : List Account} {seen : List Text},
    r ∈ rowsFrom lower seen accounts → ∃ a ∈ accounts, r = ⟨a.id, a.username, Text.strip a.email⟩ ∧
      IsAddress (Text.strip a.email) ∧ lower (Text.strip a.email) ∉ seen
  | a :: rest, seen, h => by
    simp only [rowsFrom] at h
    split at h
    · obtain ⟨b, hb, hrow⟩ := of_mem_rowsFrom h
      exact ⟨b, List.mem_cons_of_mem a hb, hrow⟩
    · rename_i hnew
      simp only [Bool.or_eq_true, Bool.not_eq_true', Text.isIn_iff, not_or, Bool.not_eq_false] at hnew
      rcases List.mem_cons.mp h with rfl | h
      · exact ⟨a, List.mem_cons_self, rfl, emailShape_iff.mp hnew.1, hnew.2⟩
      · obtain ⟨b, hb, hrow, hshape, hseen⟩ := of_mem_rowsFrom h
        exact ⟨b, List.mem_cons_of_mem a hb, hrow, hshape, fun hmem => hseen (List.mem_cons_of_mem _ hmem)⟩

/-- Every address is listed once. -/
theorem rowsFrom_nodup {lower : Text → Text} : ∀ {accounts : List Account} {seen : List Text},
    ((rowsFrom lower seen accounts).map fun r => lower r.email).Nodup
  | [], _ => List.nodup_nil
  | a :: rest, seen => by
    simp only [rowsFrom]
    split
    · exact rowsFrom_nodup
    · refine List.nodup_cons.mpr ⟨fun hmem => ?_, rowsFrom_nodup⟩
      obtain ⟨r, hr, heq⟩ := List.mem_map.mp hmem
      obtain ⟨b, _, rfl, _, hseen⟩ := of_mem_rowsFrom hr
      exact hseen (heq ▸ List.mem_cons_self)

/-- The address of every account is listed, if it is one. -/
theorem rowsFrom_covers {lower : Text → Text} (hshape : IsAddress (Text.strip a.email)) :
    ∀ {accounts : List Account} {seen : List Text}, a ∈ accounts →
      lower (Text.strip a.email) ∈ seen ∨ ∃ r ∈ rowsFrom lower seen accounts, lower r.email = lower (Text.strip a.email)
  | b :: rest, seen, h => by
    simp only [rowsFrom]
    rcases List.mem_cons.mp h with rfl | h
    · split
      · rename_i hold
        simp only [emailShape_iff.mpr hshape, Bool.not_true, Bool.false_or, Text.isIn_iff] at hold
        exact .inl hold
      · exact .inr ⟨_, List.mem_cons_self, rfl⟩
    · split
      · exact rowsFrom_covers hshape h
      · have hrest : lower (Text.strip a.email) ∈ lower (Text.strip b.email) :: seen ∨
            ∃ r ∈ rowsFrom lower (lower (Text.strip b.email) :: seen) rest,
              lower r.email = lower (Text.strip a.email) := rowsFrom_covers hshape h
        rcases hrest with hseen | ⟨r, hr, heq⟩
        · rcases List.mem_cons.mp hseen with heq | hseen
          · exact .inr ⟨_, List.mem_cons_self, heq.symm⟩
          · exact .inl hseen
        · exact .inr ⟨r, List.mem_cons_of_mem _ hr, heq⟩

theorem Chosen.listed (h : Chosen f d a) :
    ∃ r ∈ recipientRows f d, d.lower r.email = d.lower (Text.strip a.email) := by
  have hat : atSign ∈ a.email := by
    obtain ⟨name, host, tail, hemail, _⟩ := h.wellFormed
    exact Text.mem_of_mem_strip (hemail ▸ by simp)
  have hmem := mem_recipientProfiles.mpr ⟨h.mem, h.active, hat, h.called, h.notExcluded⟩
  have hlisted : d.lower (Text.strip a.email) ∈ ([] : List Text) ∨
      ∃ r ∈ recipientRows f d, d.lower r.email = d.lower (Text.strip a.email) :=
    rowsFrom_covers h.wellFormed ((List.mem_insertionSort fun a b : Account => a.id ≤ b.id).mpr hmem)
  exact hlisted.resolve_left List.not_mem_nil

theorem Chosen.of_mem_recipientRows {r : Recipient} (h : r ∈ recipientRows f d) :
    ∃ a, Chosen f d a ∧ r = ⟨a.id, a.username, Text.strip a.email⟩ := by
  obtain ⟨a, ha, hrow, hshape, _⟩ := of_mem_rowsFrom h
  obtain ⟨hmem, hactive, _, hcalled, hexcluded⟩ := mem_recipientProfiles.mp ((List.mem_insertionSort _).mp ha)
  exact ⟨a, ⟨hmem, hactive, hshape, hcalled, hexcluded⟩, hrow⟩

/-- What an email promises of its list: every address once, only of active accounts with an address that the audience
    and the filters describe, and never the address of somebody who must never be included. -/
structure Resolved (f : Filters) (d : Directory) (rows : List Recipient) : Prop where
  once : (rows.map fun r => d.lower r.email).Nodup
  meets : ∀ r ∈ rows, ∃ a ∈ d.accounts.rows, r = ⟨a.id, a.username, Text.strip a.email⟩ ∧ a.isActive = true ∧
    IsAddress r.email ∧ f.Calls d a
  never : ∀ r ∈ rows, ∀ x ∈ d.accounts.rows, x.id ∈ f.excludeUsers → d.lower (Text.strip x.email) ≠ d.lower r.email

/-- **The list keeps its promise exactly when nobody it is for shares an address with somebody who must never be
    included.** -/
theorem recipients (f : Filters) (d : Directory) : Resolved f d (recipientRows f d) ↔
    ∀ a, Chosen f d a → ∀ x ∈ d.accounts.rows, x.id ∈ f.excludeUsers →
      d.lower (Text.strip x.email) ≠ d.lower (Text.strip a.email) := by
  constructor
  · intro h a ha x hx hexcluded
    obtain ⟨r, hr, heq⟩ := ha.listed
    exact heq ▸ h.never r hr x hx hexcluded
  · intro h
    refine ⟨rowsFrom_nodup, fun r hr => ?_, fun r hr x hx hexcluded => ?_⟩
    · obtain ⟨a, ha, rfl⟩ := Chosen.of_mem_recipientRows hr
      exact ⟨a, ha.mem, rfl, ha.active, ha.wellFormed, ha.called⟩
    · obtain ⟨a, ha, rfl⟩ := Chosen.of_mem_recipientRows hr
      exact h a ha x hx hexcluded

end

/-- `str.lower`, of the letters from A to Z. -/
def lowerLetters (text : Text) : Text :=
  text.map fun c => if 0x41 ≤ c.val && c.val ≤ 0x5a then Text.chr (c.val + 0x20) else c

/-- Two accounts with the same address but for its case; one of them must never be included. -/
def sharedAddress : Filters × Directory :=
  ({ audience := some .all, excludeUsers := [1] },
    { accounts := (Table.empty.add { id := 1, username := [], email := Text.ofString "ana@cpc.mx" }).add
        { id := 2, username := [], email := Text.ofString "Ana@cpc.mx" }
      lower := lowerLetters })

theorem recipients_shared : ¬ ∀ (f : Filters) (d : Directory), Resolved f d (recipientRows f d) := by
  intro h
  have hlisted : (recipientRows sharedAddress.1 sharedAddress.2).any fun r =>
      sharedAddress.2.accounts.rows.any fun x => x.id ∈ sharedAddress.1.excludeUsers &&
        sharedAddress.2.lower (Text.strip x.email) = sharedAddress.2.lower r.email := by decide +kernel
  obtain ⟨r, hr, hlisted⟩ := List.any_eq_true.mp hlisted
  obtain ⟨x, hx, hlisted⟩ := List.any_eq_true.mp hlisted
  simp only [Bool.and_eq_true, decide_eq_true_eq] at hlisted
  exact (h sharedAddress.1 sharedAddress.2).never r hr x hx hlisted.1 hlisted.2

end Mail
end CpcJudge
