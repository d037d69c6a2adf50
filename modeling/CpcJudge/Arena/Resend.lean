import CpcJudge.Arena.Gate

/-!
# `Arena.Resend` — sending a submission again

`engine.submit` with a nonce, in the parts other requests can come between: the cache is asked for the nonce, the
submission it names is looked for, and then the transaction takes the lock of the match, creates the submission and
stores the nonce, and commits. Nothing asks for the nonce again once the lock is taken.

What the transaction does to the arena is `Arena.submit`, here in the order in which the locks were taken. The nonce
never expires and no submission is deleted.
-/

namespace CpcJudge
namespace Arena
namespace Resend

/-! ## Requests -/

/-- A request to submit; a nonce that is no text is none. -/
structure Sent where
  profile : ProfileId
  superuser : Bool
  id : MatchId
  game : GameId
  order : ℕ
  language : String
  source : String
  nonce : Option String
  deriving DecidableEq

/-- A row of the submissions. -/
structure Submission where
  id : ℕ
  user : ProfileId
  deriving DecidableEq

/-- `'arena:nonce:%d:%s'`. -/
def nonceKey (profile : ProfileId) (nonce : String) : String := "arena:nonce:" ++ profile.repr ++ ":" ++ nonce

namespace Sent

/-- The nonce, unless it is empty or too long. -/
def cleanNonce (r : Sent) : Option String := r.nonce.filter fun nonce => 0 < nonce.length && nonce.length ≤ 64

/-- Where the cache has it. -/
def key (r : Sent) : Option String := r.cleanNonce.map (nonceKey r.profile)

/-- What is refused before the nonce is looked at. -/
def refused (r : Sent) : Bool := strip r.source = "" || 65536 < r.source.length

/-- The transaction. -/
def op (r : Sent) : Op := .submit r.profile r.superuser r.id r.game r.order r.language r.source

end Sent

/-! ## The state -/

/-- How far a request is. -/
inductive Phase where
  /-- The cache was asked, and answered this. -/
  | asked (previous : Option ℕ)
  /-- There is no such submission. -/
  | missed
  /-- The submission is created and the nonce stored, but not committed. -/
  | creating (id : ℕ)
  deriving DecidableEq

/-- A request on its way. -/
structure Pending where
  sent : Sent
  phase : Phase
  deriving DecidableEq

def Pending.creates (q : Pending) : Bool :=
  match q.phase with
  | .creating _ => true
  | _ => false

/-- The arena, the submissions that everybody sees, the cache and the requests on their way; and what was created and
    answered so far, with the request it was for. -/
structure State where
  db : Db
  submissions : List Submission
  cache : String → Option ℕ
  requests : List Pending := []
  created : List (Sent × ℕ) := []
  answered : List (Sent × ℕ) := []

namespace State
variable (s : State)

/-- `cache.get`. -/
def cached (r : Sent) : Option ℕ := r.key.bind s.cache

/-- `if previous`, and the submission of the player with that key. -/
def existing (r : Sent) (previous : Option ℕ) : Option Submission :=
  (previous.filter (· ≠ 0)).bind fun id => s.submissions.find? fun b => b.id = id && b.user = r.profile

/-- Another request has the lock of the match. -/
def locked (id : MatchId) : Bool := s.requests.any fun q => q.creates && q.sent.id = id

/-- `cache.set`. -/
def store (r : Sent) (id : ℕ) : String → Option ℕ :=
  match r.key with
  | none => s.cache
  | some key => Function.update s.cache key (some id)

/-- The submission that the transaction creates has the last key it takes. -/
def newId (site : Arena.Site) (r : Sent) : ℕ := (r.op.after site s.db).nextId - 1

/-- The transaction refuses nothing. -/
def accepts (site : Arena.Site) (r : Sent) : Bool := !s.locked r.id && r.op.succeeds site s.db

def drop (place : ℕ) : List Pending := s.requests.eraseIdx place

end State

/-! ## Steps -/

/-- What happens next: `place` says to which of the requests on their way. -/
inductive Event where
  /-- A request comes in and asks the cache. -/
  | ask (r : Sent)
  /-- It looks for the submission the cache named. -/
  | find (place : ℕ)
  /-- It takes the lock, creates its submission and stores the nonce. -/
  | create (place : ℕ) (site : Arena.Site)
  /-- The same, in a transaction that is rolled back. -/
  | lose (place : ℕ) (site : Arena.Site)
  /-- Its transaction commits, and it answers or is cut off. -/
  | commit (place : ℕ) (answers : Bool)
  /-- It gives up before it has created anything. -/
  | fail (place : ℕ)
  /-- Something else happens in the arena. -/
  | other (site : Arena.Site) (op : Op)
  /-- A submission is made elsewhere. -/
  | elsewhere (user : ProfileId)

namespace State

def find (s : State) (place : ℕ) : State :=
  match s.requests[place]? with
  | some ⟨r, .asked previous⟩ =>
    match s.existing r previous with
    | some b => { s with requests := s.drop place, answered := (r, b.id) :: s.answered }
    | none => { s with requests := s.requests.set place ⟨r, .missed⟩ }
  | _ => s

def create (s : State) (place : ℕ) (site : Arena.Site) : State :=
  match s.requests[place]? with
  | some ⟨r, .missed⟩ =>
    if s.locked r.id then s
    else if r.op.succeeds site s.db then
      { s with db := r.op.after site s.db, cache := s.store r (s.newId site r)
               requests := s.requests.set place ⟨r, .creating (s.newId site r)⟩ }
    else { s with requests := s.drop place }
  | _ => s

/-- A key that was taken is not given back. -/
def lose (s : State) (place : ℕ) (site : Arena.Site) : State :=
  match s.requests[place]? with
  | some ⟨r, .missed⟩ =>
    if s.accepts site r then
      { s with db := { s.db with nextId := (r.op.after site s.db).nextId }, cache := s.store r (s.newId site r)
               requests := s.drop place }
    else s
  | _ => s

def commit (s : State) (place : ℕ) (answers : Bool) : State :=
  match s.requests[place]? with
  | some ⟨r, .creating id⟩ =>
    { s with requests := s.drop place, submissions := s.submissions ++ [{ id, user := r.profile }]
             created := (r, id) :: s.created
             answered := if answers then (r, id) :: s.answered else s.answered }
  | _ => s

def fail (s : State) (place : ℕ) : State :=
  match s.requests[place]? with
  | some q => if q.creates then s else { s with requests := s.drop place }
  | none => s

/-- Whatever is not a submission. -/
def other (s : State) (site : Arena.Site) (op : Op) : State :=
  match op with
  | .submit _ _ _ _ _ _ _ => s
  | _ => { s with db := op.after site s.db }

def step (s : State) : Event → State
  | .ask r => if r.refused then s else { s with requests := s.requests ++ [⟨r, .asked (s.cached r)⟩] }
  | .find place => s.find place
  | .create place site => s.create place site
  | .lose place site => s.lose place site
  | .commit place answers => s.commit place answers
  | .fail place => s.fail place
  | .other site op => s.other site op
  | .elsewhere user =>
    { s with db := { s.db with nextId := s.db.nextId + 1 }
             submissions := s.submissions ++ [{ id := s.db.nextId, user }] }

def run (s : State) (events : List Event) : State := events.foldl step s

end State

/-! ## One nonce -/

/-- The request is one of the player, with this nonce. -/
def Sent.carries (r : Sent) (profile : ProfileId) (nonce : String) : Bool := r.profile = profile && r.nonce = some nonce

/-- The requests on their way that carry it. -/
def State.carrying (s : State) (profile : ProfileId) (nonce : String) : List Pending :=
  s.requests.filter fun q => q.sent.carries profile nonce

/-- At most one submission is created with the nonce, and whoever gets an answer gets that one. -/
structure SentOnce (profile : ProfileId) (nonce : String) (s : State) : Prop where
  once : (s.created.filter fun c => c.1.carries profile nonce).length ≤ 1
  same : ∀ a ∈ s.answered, a.1.carries profile nonce = true →
    ∃ c ∈ s.created, c.1.carries profile nonce = true ∧ c.2 = a.2

/-- The nonce was not used yet, and no request is on its way. -/
structure Fresh (profile : ProfileId) (nonce : String) (s : State) : Prop where
  reachable : Reachable s.db
  rows : ∀ b ∈ s.submissions, 0 < b.id ∧ b.id < s.db.nextId
  unused : s.cache (nonceKey profile nonce) = none
  idle : s.requests = []
  created : s.created = []
  answered : s.answered = []

/-- No request with the nonce is on its way while another one with it creates its submission: none is when the
    transaction accepts it, and none comes in before it commits. -/
def State.Apart (s : State) (profile : ProfileId) (nonce : String) : Event → Prop
  | .ask r => r.carries profile nonce = true → ∀ q ∈ s.carrying profile nonce, q.creates = false
  | .create place site => ∀ q ∈ s.requests[place]?, q.sent.carries profile nonce = true →
      s.accepts site q.sent = true → s.carrying profile nonce = [q]
  | _ => True

instance (s : State) (profile : ProfileId) (nonce : String) : (e : Event) → Decidable (s.Apart profile nonce e)
  | .ask r => inferInstanceAs (Decidable (r.carries profile nonce = true → _))
  | .create place _ => inferInstanceAs (Decidable (∀ q ∈ s.requests[place]?, _))
  | .find _ | .lose _ _ | .commit _ _ | .fail _ | .other _ _ | .elsewhere _ => inferInstanceAs (Decidable True)

/-- Every event comes where it keeps the requests apart. -/
def ApartAll (profile : ProfileId) (nonce : String) : State → List Event → Prop
  | _, [] => True
  | s, e :: events => s.Apart profile nonce e ∧ ApartAll profile nonce (s.step e) events

instance instDecidableApartAll (profile : ProfileId) (nonce : String) :
    (s : State) → (events : List Event) → Decidable (ApartAll profile nonce s events)
  | _, [] => inferInstanceAs (Decidable True)
  | s, e :: events =>
    have := instDecidableApartAll profile nonce (s.step e) events
    inferInstanceAs (Decidable (_ ∧ _))

/-! ## The key of a nonce -/

theorem colon_notMem_repr (n : ℕ) : ':' ∉ n.repr.toList := by
  intro h
  rw [Nat.toList_repr] at h
  exact absurd (Nat.isDigit_of_mem_toDigits (by decide) (by decide) h) (by decide)

theorem repr_injective {m n : ℕ} (h : m.repr = n.repr) : m = n := by
  have hdigits : Nat.toDigits 10 m = Nat.toDigits 10 n := by
    rw [← Nat.toList_repr, ← Nat.toList_repr, h]
  rw [← Nat.ofDigitChars_toDigits (b := 10) (n := m) (by decide) (by decide), hdigits,
    Nat.ofDigitChars_toDigits (by decide) (by decide)]

/-- What stands before the first separator, and after it. -/
theorem append_cons_inj {α : Type} {x : α} {a b c d : List α} (ha : x ∉ a) (hc : x ∉ c)
    (h : a ++ x :: b = c ++ x :: d) : a = c ∧ b = d := by
  induction a generalizing c with
  | nil =>
      cases c with
      | nil => exact ⟨rfl, (List.cons.inj h).2⟩
      | cons y c => exact absurd ((List.cons.inj h).1 ▸ List.mem_cons_self) hc
  | cons y a ih =>
      cases c with
      | nil => exact absurd ((List.cons.inj h).1 ▸ List.mem_cons_self) ha
      | cons z c =>
          obtain ⟨rfl, htail⟩ := List.cons.inj h
          obtain ⟨rfl, rfl⟩ := ih (fun hx => ha (List.mem_cons_of_mem _ hx)) (fun hx => hc (List.mem_cons_of_mem _ hx))
            htail
          exact ⟨rfl, rfl⟩

/-- The keys of two players, or of two nonces, are different. -/
theorem nonceKey_injective {p q : ProfileId} {m n : String} (h : nonceKey p m = nonceKey q n) : p = q ∧ m = n := by
  have hlist : ("arena:nonce:" ++ p.repr ++ ":" ++ m).toList = ("arena:nonce:" ++ q.repr ++ ":" ++ n).toList :=
    congrArg String.toList h
  simp only [String.toList_append, List.append_assoc] at hlist
  obtain ⟨hp, hn⟩ := append_cons_inj (colon_notMem_repr p) (colon_notMem_repr q) (List.append_cancel_left hlist)
  exact ⟨repr_injective (String.toList_inj.mp hp), String.toList_inj.mp hn⟩

section
variable {p : ProfileId} {n : String} {s s' : State} {r : Sent}

theorem key_of_carries (hn : 0 < n.length) (hlong : n.length ≤ 64) (h : r.carries p n = true) :
    r.key = some (nonceKey p n) := by
  simp only [Sent.carries, Bool.and_eq_true, decide_eq_true_eq] at h
  simp [Sent.key, Sent.cleanNonce, h.1, h.2, Option.filter, hn, hlong]

theorem carries_of_key (h : r.key = some (nonceKey p n)) : r.carries p n = true := by
  obtain ⟨m, hm, hkey⟩ := Option.map_eq_some_iff.mp h
  obtain ⟨hprofile, rfl⟩ := nonceKey_injective hkey
  simp [Sent.carries, hprofile, (Option.filter_eq_some_iff.mp hm).1]

/-! ## What is known of the keys -/

/-- The key of a submission, committed or not. -/
def State.Takes (s : State) (id : ℕ) : Prop :=
  (∃ b ∈ s.submissions, b.id = id) ∨ ∃ q ∈ s.requests, q.phase = .creating id

/-- No submission has it, or will. -/
def State.Dead (s : State) (id : ℕ) : Prop := id < s.db.nextId ∧ ¬ s.Takes id

structure Sound (s : State) : Prop where
  wellFormed : WellFormed s.db
  positive : 0 < s.db.nextId
  taken : ∀ id, s.Takes id → 0 < id ∧ id < s.db.nextId

/-- How far the submission with the nonce is. -/
inductive Stage (p : ProfileId) (n : String) (s : State) : Prop
  /-- There is none, and whatever the cache has, or had, is not the key of one. -/
  | before (cache : ∀ id, s.cache (nonceKey p n) = some id → s.Dead id)
      (requests : ∀ q ∈ s.carrying p n, q.creates = false ∧ ∀ id, q.phase = .asked (some id) → s.Dead id)
      (created : ∀ c ∈ s.created, c.1.carries p n = false) (answered : ∀ a ∈ s.answered, a.1.carries p n = false)
  /-- One request creates it, and no other is on its way. -/
  | during (r : Sent) (id : ℕ) (cache : s.cache (nonceKey p n) = some id)
      (requests : s.carrying p n = [⟨r, .creating id⟩]) (created : ∀ c ∈ s.created, c.1.carries p n = false)
      (answered : ∀ a ∈ s.answered, a.1.carries p n = false)
  /-- Everybody sees it, and the cache names it. -/
  | after (r : Sent) (id : ℕ) (carries : r.carries p n = true) (cache : s.cache (nonceKey p n) = some id)
      (row : ⟨id, p⟩ ∈ s.submissions) (requests : ∀ q ∈ s.carrying p n, q.phase = .asked (some id))
      (created : (s.created.filter fun c => c.1.carries p n) = [(r, id)])
      (answered : ∀ a ∈ s.answered, a.1.carries p n = true → a.2 = id)

/-! ## The keys that are taken -/

theorem nextId_le_after {site : Arena.Site} {op : Op} {db : Db} (hdb : WellFormed db) :
    db.nextId ≤ (op.after site db).nextId := (Op.lasts hdb).nextId

/-- A submission takes a new key. -/
theorem nextId_lt_after {site : Arena.Site} {db : Db} (hdb : WellFormed db) (h : r.op.succeeds site db = true) :
    db.nextId < (r.op.after site db).nextId := by
  obtain ⟨u, t, hrun, hafter⟩ := Op.run_of_succeeds h
  obtain ⟨slot, attempt, db1, hpath, hsubmits⟩ := submit_submits false (fun i => i = r.id) hrun hdb rfl
  obtain ⟨m, g, c, _, _, _, _, hsaved⟩ := hsubmits.saved
  have hle : db.nextId ≤ db1.nextId := (hpath.follows Match.Lasts.covers hdb).nextId
  have heq : t.db.nextId = db1.nextId + 1 := by rw [hsaved]; rfl
  rw [hafter, heq]
  exact Nat.lt_succ_of_le hle

theorem wellFormed_bumped {db : Db} {next : ℕ} (hdb : WellFormed db) (h : db.nextId ≤ next) :
    WellFormed { db with nextId := next } := by
  have hpath : Path false (fun _ => True) db { db with nextId := next } := .single (.other rfl rfl (.of_actions rfl h))
  exact hdb.path hpath

/-- The key of the submission that a request creates was not taken. -/
theorem newId_bounds {site : Arena.Site} (hsound : Sound s) (h : r.op.succeeds site s.db = true) :
    s.db.nextId ≤ s.newId site r ∧ s.newId site r < (r.op.after site s.db).nextId := by
  have hlt := nextId_lt_after hsound.wellFormed h
  unfold State.newId
  omega

/-- A place of the list, and what it is without it or with something else there. -/
theorem split_at {α : Type} {l : List α} {place : ℕ} {x : α} (h : l[place]? = some x) :
    ∃ pre post, l = pre ++ x :: post ∧ l.eraseIdx place = pre ++ post ∧ ∀ y, l.set place y = pre ++ y :: post := by
  obtain ⟨hlt, rfl⟩ := List.getElem?_eq_some_iff.mp h
  refine ⟨l.take place, l.drop (place + 1), ?_, List.eraseIdx_eq_take_drop_succ l place, fun y => ?_⟩
  · rw [List.getElem_cons_drop, List.take_append_drop]
  · exact List.set_eq_take_append_cons_drop .. |>.trans (if_pos hlt)

/-! ## What a step can do -/

/-- What a step does that keeps the requests with a nonce apart. -/
inductive Moves (p : ProfileId) (n : String) (s : State) : State → Prop
  | stays : Moves p n s s
  | asked (r : Sent) (apart : r.carries p n = true → ∀ q ∈ s.carrying p n, q.creates = false) :
      Moves p n s { s with requests := s.requests ++ [⟨r, .asked (s.cached r)⟩] }
  | found {pre post : List Pending} {r : Sent} {previous : Option ℕ} {b : Submission}
      (here : s.requests = pre ++ ⟨r, .asked previous⟩ :: post) (existing : s.existing r previous = some b) :
      Moves p n s { s with requests := pre ++ post, answered := (r, b.id) :: s.answered }
  | missed {pre post : List Pending} {r : Sent} {previous : Option ℕ}
      (here : s.requests = pre ++ ⟨r, .asked previous⟩ :: post) (existing : s.existing r previous = none) :
      Moves p n s { s with requests := pre ++ ⟨r, .missed⟩ :: post }
  | ended {pre post : List Pending} {q : Pending} (here : s.requests = pre ++ q :: post) (idle : q.creates = false) :
      Moves p n s { s with requests := pre ++ post }
  | created {pre post : List Pending} {r : Sent} (site : Arena.Site) (here : s.requests = pre ++ ⟨r, .missed⟩ :: post)
      (succeeds : r.op.succeeds site s.db = true)
      (apart : r.carries p n = true → s.carrying p n = [⟨r, .missed⟩]) :
      Moves p n s { s with db := r.op.after site s.db, cache := s.store r (s.newId site r)
                           requests := pre ++ ⟨r, .creating (s.newId site r)⟩ :: post }
  | lost {pre post : List Pending} {r : Sent} (site : Arena.Site) (here : s.requests = pre ++ ⟨r, .missed⟩ :: post)
      (succeeds : r.op.succeeds site s.db = true) :
      Moves p n s { s with db := { s.db with nextId := (r.op.after site s.db).nextId }
                           cache := s.store r (s.newId site r), requests := pre ++ post }
  | committed {pre post : List Pending} {r : Sent} {id : ℕ} (answers : Bool)
      (here : s.requests = pre ++ ⟨r, .creating id⟩ :: post) :
      Moves p n s { s with requests := pre ++ post, submissions := s.submissions ++ [{ id, user := r.profile }]
                           created := (r, id) :: s.created
                           answered := if answers then (r, id) :: s.answered else s.answered }
  | other {db : Db} (wellFormed : WellFormed db) (nextId : s.db.nextId ≤ db.nextId) : Moves p n s { s with db }
  | elsewhere (user : ProfileId) :
      Moves p n s { s with db := { s.db with nextId := s.db.nextId + 1 }
                           submissions := s.submissions ++ [{ id := s.db.nextId, user }] }

theorem find_moves (place : ℕ) : Moves p n s (s.find place) := by
  unfold State.find
  split
  · rename_i r previous hplace
    obtain ⟨pre, post, hhere, hdrop, hset⟩ := split_at hplace
    split
    · rename_i b hexisting
      rw [State.drop, hdrop]
      exact .found hhere hexisting
    · rename_i hexisting
      rw [hset]
      exact .missed hhere hexisting
  · exact .stays

theorem create_moves {place : ℕ} {site : Arena.Site} (hapart : s.Apart p n (.create place site)) :
    Moves p n s (s.create place site) := by
  unfold State.create
  split
  · rename_i r hplace
    obtain ⟨pre, post, hhere, hdrop, hset⟩ := split_at hplace
    split
    · exact .stays
    · rename_i hlocked
      split
      · rename_i hsucceeds
        rw [hset]
        refine .created site hhere hsucceeds fun hcarries => hapart _ hplace hcarries ?_
        simp [State.accepts, hlocked, hsucceeds]
      · rw [State.drop, hdrop]
        exact .ended hhere rfl
  · exact .stays

theorem lose_moves (place : ℕ) (site : Arena.Site) : Moves p n s (s.lose place site) := by
  unfold State.lose
  split
  · rename_i r hplace
    obtain ⟨pre, post, hhere, hdrop, _⟩ := split_at hplace
    split
    · rename_i haccepts
      rw [State.drop, hdrop]
      exact .lost site hhere (Bool.and_eq_true_iff.mp haccepts).2
    · exact .stays
  · exact .stays

theorem commit_moves (place : ℕ) (answers : Bool) : Moves p n s (s.commit place answers) := by
  unfold State.commit
  split
  · rename_i r id hplace
    obtain ⟨pre, post, hhere, hdrop, _⟩ := split_at hplace
    rw [State.drop, hdrop]
    exact .committed answers hhere
  · exact .stays

theorem fail_moves (place : ℕ) : Moves p n s (s.fail place) := by
  unfold State.fail
  split
  · rename_i q hplace
    obtain ⟨pre, post, hhere, hdrop, _⟩ := split_at hplace
    split
    · exact .stays
    · rename_i hidle
      rw [State.drop, hdrop]
      exact .ended hhere (Bool.eq_false_iff.mpr hidle)
  · exact .stays

theorem other_moves (hsound : Sound s) (site : Arena.Site) (op : Op) : Moves p n s (s.other site op) := by
  have hafter : Moves p n s { s with db := op.after site s.db } :=
    .other (Run.wellFormed (.step site op .refl trivial : Run anyStep s.db _) hsound.wellFormed)
      (nextId_le_after hsound.wellFormed)
  cases op with
  | submit => exact .stays
  | organize => exact hafter
  | tick => exact hafter
  | judge => exact hafter

theorem step_moves {e : Event} (hsound : Sound s) (hapart : s.Apart p n e) : Moves p n s (s.step e) := by
  cases e with
  | ask r =>
      show Moves p n s (if r.refused = true then s else _)
      split
      · exact .stays
      · exact .asked r hapart
  | find place => exact find_moves place
  | create place site => exact create_moves hapart
  | lose place site => exact lose_moves place site
  | commit place answers => exact commit_moves place answers
  | fail place => exact fail_moves place
  | other site op => exact other_moves hsound site op
  | elsewhere user => exact .elsewhere user

/-! ## What a step leaves -/

/-- No key is taken again, and no row goes. -/
structure Grows (s s' : State) : Prop where
  nextId : s.db.nextId ≤ s'.db.nextId
  taken : ∀ id, s'.Takes id → s.Takes id ∨ (s.db.nextId ≤ id ∧ id < s'.db.nextId)
  rows : ∀ b ∈ s.submissions, b ∈ s'.submissions

theorem State.Dead.grows {id : ℕ} (h : s.Dead id) (hgrows : Grows s s') : s'.Dead id := by
  refine ⟨lt_of_lt_of_le h.1 hgrows.nextId, fun htakes => ?_⟩
  rcases hgrows.taken id htakes with htakes | ⟨hge, _⟩
  · exact h.2 htakes
  · exact absurd h.1 (not_lt.mpr hge)

theorem takes_of_rest {pre post : List Pending} {q x : Pending} {id : ℕ} (here : s.requests = pre ++ x :: post)
    (hq : q ∈ pre ++ post) (hphase : q.phase = .creating id) : s.Takes id := by
  refine .inr ⟨q, here ▸ ?_, hphase⟩
  rcases List.mem_append.mp hq with hq | hq
  · exact List.mem_append_left _ hq
  · exact List.mem_append_right _ (List.mem_cons_of_mem _ hq)

/-- Some other request was put in the place of one. -/
theorem rest_of_mem {pre post : List Pending} {q x : Pending} (hq : q ∈ pre ++ x :: post) : q = x ∨ q ∈ pre ++ post := by
  rcases List.mem_append.mp hq with hq | hq
  · exact .inr (List.mem_append_left _ hq)
  · exact (List.mem_cons.mp hq).imp_right (List.mem_append_right _)

theorem Moves.grows (hsound : Sound s) (h : Moves p n s s') : Grows s s' := by
  have hsame : ∀ id, (∃ b ∈ s.submissions, b.id = id) → s.Takes id := fun _ => .inl
  cases h with
  | stays => exact ⟨le_refl _, fun _ => .inl, fun _ h => h⟩
  | asked r =>
      refine ⟨le_refl _, ?_, fun _ h => h⟩
      rintro id (hrow | ⟨q, hq, hphase⟩)
      · exact .inl (hsame id hrow)
      · rcases List.mem_append.mp hq with hq | hq
        · exact .inl (.inr ⟨q, hq, hphase⟩)
        · obtain rfl := List.mem_singleton.mp hq
          cases hphase
  | found here | ended here =>
      refine ⟨le_refl _, ?_, fun _ h => h⟩
      rintro id (hrow | ⟨q, hq, hphase⟩)
      · exact .inl (hsame id hrow)
      · exact .inl (takes_of_rest here hq hphase)
  | missed here =>
      refine ⟨le_refl _, ?_, fun _ h => h⟩
      rintro id (hrow | ⟨q, hq, hphase⟩)
      · exact .inl (hsame id hrow)
      · rcases rest_of_mem hq with rfl | hq
        · cases hphase
        · exact .inl (takes_of_rest here hq hphase)
  | created site here succeeds =>
      refine ⟨nextId_le_after hsound.wellFormed, ?_, fun _ h => h⟩
      rintro id (hrow | ⟨q, hq, hphase⟩)
      · exact .inl (hsame id hrow)
      · rcases rest_of_mem hq with rfl | hq
        · cases hphase
          exact .inr (newId_bounds hsound succeeds)
        · exact .inl (takes_of_rest here hq hphase)
  | lost site here succeeds =>
      refine ⟨nextId_le_after hsound.wellFormed, ?_, fun _ h => h⟩
      rintro id (hrow | ⟨q, hq, hphase⟩)
      · exact .inl (hsame id hrow)
      · exact .inl (takes_of_rest here hq hphase)
  | @committed pre post r new answers here =>
      refine ⟨le_refl _, ?_, fun _ h => List.mem_append_left _ h⟩
      rintro id (⟨b, hb, rfl⟩ | ⟨q, hq, hphase⟩)
      · rcases List.mem_append.mp hb with hb | hb
        · exact .inl (hsame _ ⟨b, hb, rfl⟩)
        · obtain rfl := List.mem_singleton.mp hb
          exact .inl (.inr ⟨⟨r, .creating new⟩, here ▸ by simp, rfl⟩)
      · exact .inl (takes_of_rest here hq hphase)
  | other wellFormed nextId => exact ⟨nextId, fun _ => .inl, fun _ h => h⟩
  | elsewhere user =>
      refine ⟨Nat.le_succ _, ?_, fun _ h => List.mem_append_left _ h⟩
      rintro id (⟨b, hb, rfl⟩ | hrequest)
      · rcases List.mem_append.mp hb with hb | hb
        · exact .inl (hsame _ ⟨b, hb, rfl⟩)
        · obtain rfl := List.mem_singleton.mp hb
          exact .inr ⟨le_refl _, Nat.lt_succ_self _⟩
      · exact .inl (.inr hrequest)

theorem Moves.sound (hsound : Sound s) (h : Moves p n s s') : Sound s' := by
  have hgrows := h.grows hsound
  refine ⟨?_, lt_of_lt_of_le hsound.positive hgrows.nextId, fun id htakes => ?_⟩
  · have hwell := hsound.wellFormed
    cases h with
    | created site =>
        exact Run.wellFormed (.step site _ .refl trivial : Run anyStep s.db _) hwell
    | lost => exact wellFormed_bumped hwell (nextId_le_after hwell)
    | other wellFormed => exact wellFormed
    | elsewhere => exact wellFormed_bumped hwell (Nat.le_succ _)
    | stays | asked | found | missed | ended | committed => exact hwell
  · rcases hgrows.taken id htakes with htakes | ⟨hge, hlt⟩
    · have hbounds := hsound.taken id htakes
      exact ⟨hbounds.1, lt_of_lt_of_le hbounds.2 hgrows.nextId⟩
    · exact ⟨lt_of_lt_of_le hsound.positive hge, hlt⟩

/-- A step that is about something else than the nonce. -/
structure Frame (p : ProfileId) (n : String) (s s' : State) : Prop where
  cache : s'.cache (nonceKey p n) = s.cache (nonceKey p n)
  requests : s'.carrying p n = s.carrying p n
  created : (s'.created.filter fun c => c.1.carries p n) = s.created.filter fun c => c.1.carries p n
  answered : ∀ a ∈ s'.answered, a.1.carries p n = true → a ∈ s.answered

theorem Stage.frame (h : Stage p n s) (hgrows : Grows s s') (hframe : Frame p n s s') : Stage p n s' := by
  have hnone : (∀ c ∈ s.created, c.1.carries p n = false) → ∀ c ∈ s'.created, c.1.carries p n = false := by
    intro hcreated c hc
    rw [Bool.eq_false_iff]
    intro hcarries
    have hmem : c ∈ s'.created.filter fun c => c.1.carries p n := List.mem_filter.mpr ⟨hc, hcarries⟩
    rw [hframe.created] at hmem
    obtain ⟨hmem, _⟩ := List.mem_filter.mp hmem
    exact absurd hcarries (Bool.eq_false_iff.mp (hcreated c hmem))
  have hquiet : (∀ a ∈ s.answered, a.1.carries p n = false) → ∀ a ∈ s'.answered, a.1.carries p n = false := by
    intro hanswered a ha
    rw [Bool.eq_false_iff]
    exact fun hcarries => absurd hcarries (Bool.eq_false_iff.mp (hanswered a (hframe.answered a ha hcarries)))
  cases h with
  | before cache requests created answered =>
      refine .before (fun id hid => (cache id (hframe.cache ▸ hid)).grows hgrows) (fun q hq => ?_) (hnone created)
        (hquiet answered)
      rw [hframe.requests] at hq
      exact ⟨(requests q hq).1, fun id hid => ((requests q hq).2 id hid).grows hgrows⟩
  | during r id cache requests created answered =>
      exact .during r id (hframe.cache.trans cache) (hframe.requests.trans requests) (hnone created) (hquiet answered)
  | after r id carries cache row requests created answered =>
      exact .after r id carries (hframe.cache.trans cache) (hgrows.rows _ row)
        (fun q hq => requests q (hframe.requests ▸ hq)) (hframe.created.trans created)
        fun a ha hcarries => answered a (hframe.answered a ha hcarries) hcarries

/-! ## The request itself -/

theorem store_of_carries (hn : 0 < n.length) (hlong : n.length ≤ 64) (h : r.carries p n = true) (id : ℕ) :
    s.store r id (nonceKey p n) = some id := by
  rw [State.store, key_of_carries hn hlong h]
  exact Function.update_self ..

theorem store_of_other (h : r.carries p n = false) (id : ℕ) :
    s.store r id (nonceKey p n) = s.cache (nonceKey p n) := by
  unfold State.store
  cases hkey : r.key with
  | none => rfl
  | some key =>
      refine Function.update_of_ne ?_ _ _
      rintro rfl
      rw [carries_of_key hkey] at h
      cases h

theorem carrying_of_here {pre post : List Pending} {q : Pending} (here : s.requests = pre ++ q :: post) :
    s.carrying p n = (pre.filter fun q => q.sent.carries p n) ++
      ((q :: post).filter fun q => q.sent.carries p n) := by
  rw [State.carrying, here, List.filter_append]

theorem mem_carrying {pre post : List Pending} {q : Pending} (here : s.requests = pre ++ q :: post)
    (h : q.sent.carries p n = true) : q ∈ s.carrying p n :=
  List.mem_filter.mpr ⟨here ▸ by simp, h⟩

/-- The others that carry the nonce did so before. -/
theorem carrying_rest {pre post : List Pending} {q x : Pending} (here : s.requests = pre ++ q :: post)
    (hx : x ∈ (pre ++ post).filter fun q => q.sent.carries p n) : x ∈ s.carrying p n := by
  obtain ⟨hx, hcarries⟩ := List.mem_filter.mp hx
  refine List.mem_filter.mpr ⟨here ▸ ?_, hcarries⟩
  rcases List.mem_append.mp hx with hx | hx
  · exact List.mem_append_left _ hx
  · exact List.mem_append_right _ (List.mem_cons_of_mem _ hx)

/-- A request that leaves, or goes on, without the nonce. -/
theorem carrying_of_other {pre post : List Pending} {q : Pending} (here : s.requests = pre ++ q :: post)
    (h : q.sent.carries p n = false) (phase : Phase) :
    ((pre ++ post).filter fun q => q.sent.carries p n) = s.carrying p n ∧
      ((pre ++ ⟨q.sent, phase⟩ :: post).filter fun q => q.sent.carries p n) = s.carrying p n := by
  simp [State.carrying, here, h]

theorem existing_spec {previous : Option ℕ} {b : Submission} (h : s.existing r previous = some b) :
    b ∈ s.submissions ∧ previous = some b.id := by
  obtain ⟨id, hprevious, hfind⟩ := Option.bind_eq_some_iff.mp h
  have hid := List.find?_some hfind
  simp only [Bool.and_eq_true, decide_eq_true_eq] at hid
  exact ⟨List.mem_of_find?_eq_some hfind, hid.1 ▸ (Option.filter_eq_some_iff.mp hprevious).1⟩

theorem existing_of_row {id : ℕ} (hid : 0 < id) (hrow : ⟨id, r.profile⟩ ∈ s.submissions) :
    s.existing r (some id) ≠ none := by
  intro hnone
  have hprevious : (some id).filter (· ≠ 0) = some id := by
    simp [Option.filter, Nat.pos_iff_ne_zero.mp hid]
  rw [State.existing, hprevious] at hnone
  exact List.find?_eq_none.mp hnone _ hrow (by simp)

/-- A request that creates nothing is not on its way while another one with the nonce creates. -/
theorem not_during {q : Pending} {id : ℕ} (hrequests : s.carrying p n = [⟨r, .creating id⟩])
    (hq : q ∈ s.carrying p n) (hidle : q.creates = false) : False := by
  rw [hrequests] at hq
  obtain rfl := List.mem_singleton.mp hq
  cases hidle

theorem stage_asked (hn : 0 < n.length) (hlong : n.length ≤ 64) (h : Stage p n s) (hcarries : r.carries p n = true)
    (hapart : ∀ q ∈ s.carrying p n, q.creates = false)
    (hgrows : Grows s { s with requests := s.requests ++ [⟨r, .asked (s.cached r)⟩] }) :
    Stage p n { s with requests := s.requests ++ [⟨r, .asked (s.cached r)⟩] } := by
  have hcached : s.cached r = s.cache (nonceKey p n) := by
    rw [State.cached, key_of_carries hn hlong hcarries, Option.bind_some]
  have hlast : ∀ q ∈ (s.requests ++ [Pending.mk r (.asked (s.cached r))]).filter fun q => q.sent.carries p n,
      q ∈ s.carrying p n ∨ q = ⟨r, .asked (s.cache (nonceKey p n))⟩ := by
    intro q hq
    rw [List.filter_append, hcached] at hq
    exact (List.mem_append.mp hq).imp_right fun hq => List.mem_singleton.mp (List.mem_filter.mp hq).1
  cases h with
  | before cache requests created answered =>
      refine .before (fun id hid => (cache id hid).grows hgrows) (fun q hq => ?_) created answered
      rcases hlast q hq with hq | rfl
      · exact ⟨(requests q hq).1, fun id hid => ((requests q hq).2 id hid).grows hgrows⟩
      · exact ⟨rfl, fun id hid => (cache id (Phase.asked.inj hid)).grows hgrows⟩
  | during r' id cache requests created answered =>
      have hcreates : Pending.creates ⟨r', .creating id⟩ = false := hapart _ (requests ▸ List.mem_singleton_self _)
      cases hcreates
  | after r' id carries cache row requests created answered =>
      refine .after r' id carries cache row (fun q hq => ?_) created answered
      rcases hlast q hq with hq | rfl
      · exact requests q hq
      · rw [cache]

/-- A request leaves without an answer. -/
theorem stage_ended {pre post : List Pending} {q : Pending} (h : Stage p n s) (here : s.requests = pre ++ q :: post)
    (hcarries : q.sent.carries p n = true) (hidle : q.creates = false)
    (hgrows : Grows s { s with requests := pre ++ post }) : Stage p n { s with requests := pre ++ post } := by
  cases h with
  | before cache requests created answered =>
      refine .before (fun id hid => (cache id hid).grows hgrows) (fun x hx => ?_) created answered
      have hold := requests x (carrying_rest here hx)
      exact ⟨hold.1, fun id hid => (hold.2 id hid).grows hgrows⟩
  | during r id cache requests => exact (not_during requests (mem_carrying here hcarries) hidle).elim
  | after r id carries cache row requests created answered =>
      exact .after r id carries cache row (fun x hx => requests x (carrying_rest here hx)) created answered

/-- The submission that the cache named is there, so it is the one. -/
theorem stage_found {pre post : List Pending} {previous : Option ℕ} {b : Submission} (h : Stage p n s)
    (here : s.requests = pre ++ ⟨r, .asked previous⟩ :: post) (hcarries : r.carries p n = true)
    (hexisting : s.existing r previous = some b) :
    Stage p n { s with requests := pre ++ post, answered := (r, b.id) :: s.answered } := by
  obtain ⟨hb, rfl⟩ := existing_spec hexisting
  have hmem : ⟨r, .asked (some b.id)⟩ ∈ s.carrying p n := mem_carrying here hcarries
  cases h with
  | before cache requests => exact absurd (.inl ⟨b, hb, rfl⟩) ((requests _ hmem).2 b.id rfl).2
  | during r id cache requests => exact (not_during requests hmem rfl).elim
  | after r' id carries cache row requests created answered =>
      have hid : b.id = id := Option.some.inj (Phase.asked.inj (requests _ hmem))
      refine .after r' id carries cache row (fun x hx => requests x (carrying_rest here hx)) created fun a ha hac => ?_
      rcases List.mem_cons.mp ha with rfl | ha
      · exact hid
      · exact answered a ha hac

theorem stage_missed {pre post : List Pending} {previous : Option ℕ} (hsound : Sound s) (h : Stage p n s)
    (here : s.requests = pre ++ ⟨r, .asked previous⟩ :: post) (hcarries : r.carries p n = true)
    (hexisting : s.existing r previous = none) (hgrows : Grows s { s with requests := pre ++ ⟨r, .missed⟩ :: post }) :
    Stage p n { s with requests := pre ++ ⟨r, .missed⟩ :: post } := by
  have hmem : ⟨r, .asked previous⟩ ∈ s.carrying p n := mem_carrying here hcarries
  cases h with
  | before cache requests created answered =>
      refine .before (fun id hid => (cache id hid).grows hgrows) (fun x hx => ?_) created answered
      obtain ⟨hx, hxc⟩ := List.mem_filter.mp hx
      rcases rest_of_mem hx with rfl | hx
      · exact ⟨rfl, fun id hid => by cases hid⟩
      · have hold := requests x (carrying_rest here (List.mem_filter.mpr ⟨hx, hxc⟩))
        exact ⟨hold.1, fun id hid => (hold.2 id hid).grows hgrows⟩
  | during r id cache requests => exact (not_during requests hmem rfl).elim
  | after r' id carries cache row requests created answered =>
      obtain rfl : previous = some id := Phase.asked.inj (requests _ hmem)
      have hprofile : r.profile = p := of_decide_eq_true (Bool.and_eq_true_iff.mp hcarries).1
      have hid := (hsound.taken id (.inl ⟨_, row, rfl⟩)).1
      exact absurd hexisting (existing_of_row hid (hprofile ▸ row))

/-- A request that found nothing is on its way only before there is anything. -/
theorem before_of_missed (h : Stage p n s) (hmem : ⟨r, .missed⟩ ∈ s.carrying p n) :
    (∀ id, s.cache (nonceKey p n) = some id → s.Dead id) ∧
      (∀ q ∈ s.carrying p n, q.creates = false ∧ ∀ id, q.phase = .asked (some id) → s.Dead id) ∧
      (∀ c ∈ s.created, c.1.carries p n = false) ∧ ∀ a ∈ s.answered, a.1.carries p n = false := by
  cases h with
  | before cache requests created answered => exact ⟨cache, requests, created, answered⟩
  | during r id cache requests => exact (not_during requests hmem rfl).elim
  | after r' id carries cache row requests => cases requests _ hmem

theorem stage_created {pre post : List Pending} {site : Arena.Site} (hn : 0 < n.length) (hlong : n.length ≤ 64)
    (h : Stage p n s) (here : s.requests = pre ++ ⟨r, .missed⟩ :: post) (hcarries : r.carries p n = true)
    (hapart : s.carrying p n = [⟨r, .missed⟩]) :
    Stage p n { s with db := r.op.after site s.db, cache := s.store r (s.newId site r)
                       requests := pre ++ ⟨r, .creating (s.newId site r)⟩ :: post } := by
  obtain ⟨_, _, hcreated, hanswered⟩ := before_of_missed h (mem_carrying here hcarries)
  refine .during r (s.newId site r) (store_of_carries hn hlong hcarries _) ?_ hcreated hanswered
  -- nobody else carries the nonce, before the request in the list or after it
  simp only [State.carrying, here, List.filter_append, List.filter_cons, hcarries, if_true] at hapart ⊢
  have hlength := congrArg List.length hapart
  simp only [List.length_append, List.length_cons, List.length_nil] at hlength
  rw [List.eq_nil_of_length_eq_zero (l := pre.filter _) (by omega),
    List.eq_nil_of_length_eq_zero (l := post.filter _) (by omega)]
  rfl

theorem stage_lost {pre post : List Pending} {site : Arena.Site} (hn : 0 < n.length) (hlong : n.length ≤ 64)
    (hsound : Sound s) (h : Stage p n s) (here : s.requests = pre ++ ⟨r, .missed⟩ :: post)
    (hcarries : r.carries p n = true) (hsucceeds : r.op.succeeds site s.db = true)
    (hgrows : Grows s { s with db := { s.db with nextId := (r.op.after site s.db).nextId }
                               cache := s.store r (s.newId site r), requests := pre ++ post }) :
    Stage p n { s with db := { s.db with nextId := (r.op.after site s.db).nextId }
                       cache := s.store r (s.newId site r), requests := pre ++ post } := by
  obtain ⟨_, hrequests, hcreated, hanswered⟩ := before_of_missed h (mem_carrying here hcarries)
  obtain ⟨hge, hlt⟩ := newId_bounds hsound hsucceeds
  refine .before (fun id hid => ?_) (fun x hx => ?_) hcreated hanswered
  · obtain rfl : s.newId site r = id :=
      Option.some.inj ((store_of_carries (s := s) hn hlong hcarries _).symm.trans hid)
    refine ⟨hlt, ?_⟩
    -- whoever takes the key took it before it was given
    rintro (hrow | ⟨q, hq, hphase⟩)
    · exact absurd (hsound.taken _ (.inl hrow)).2 (not_lt.mpr hge)
    · exact absurd (hsound.taken _ (takes_of_rest here hq hphase)).2 (not_lt.mpr hge)
  · have hold := hrequests x (carrying_rest here hx)
    exact ⟨hold.1, fun id hid => (hold.2 id hid).grows hgrows⟩

theorem stage_committed {pre post : List Pending} {id : ℕ} (answers : Bool) (h : Stage p n s)
    (here : s.requests = pre ++ ⟨r, .creating id⟩ :: post) (hcarries : r.carries p n = true) :
    Stage p n { s with requests := pre ++ post, submissions := s.submissions ++ [{ id, user := r.profile }]
                       created := (r, id) :: s.created
                       answered := if answers then (r, id) :: s.answered else s.answered } := by
  have hmem : ⟨r, .creating id⟩ ∈ s.carrying p n := mem_carrying here hcarries
  cases h with
  | before cache requests =>
      have hcreates : Pending.creates ⟨r, .creating id⟩ = false := (requests _ hmem).1
      cases hcreates
  | during r' id' cache requests created answered =>
      rw [requests] at hmem
      obtain ⟨rfl, rfl⟩ : r = r' ∧ id = id' := by simpa using hmem
      have hprofile : r.profile = p := of_decide_eq_true (Bool.and_eq_true_iff.mp hcarries).1
      refine .after r id hcarries cache (by simp [hprofile]) (fun x hx => ?_) ?_ fun a ha hac => ?_
      · -- it was the only one
        have hlength := congrArg List.length requests
        simp only [State.carrying, here, List.filter_append, List.filter_cons, hcarries, if_true, List.length_append,
          List.length_cons, List.length_nil] at hlength
        have hpos := List.length_pos_of_mem hx
        simp only [State.carrying, List.filter_append, List.length_append] at hpos
        omega
      · have hrest : (s.created.filter fun c => c.1.carries p n) = [] :=
          List.filter_eq_nil_iff.mpr fun c hc => Bool.eq_false_iff.mp (created c hc)
        show ((r, id) :: s.created).filter (fun c => c.1.carries p n) = [(r, id)]
        rw [List.filter_cons, if_pos hcarries, hrest]
      · cases answers with
        | false => exact absurd hac (Bool.eq_false_iff.mp (answered a ha))
        | true =>
            rcases List.mem_cons.mp ha with rfl | ha
            · rfl
            · exact absurd hac (Bool.eq_false_iff.mp (answered a ha))
  | after r' id' carries cache row requests => cases requests _ hmem

/-! ## Runs -/

theorem Stage.moves (hn : 0 < n.length) (hlong : n.length ≤ 64) (hsound : Sound s) (h : Stage p n s)
    (hmove : Moves p n s s') : Stage p n s' := by
  have hgrows := hmove.grows hsound
  cases hmove with
  | stays => exact h
  | asked r apart =>
      cases hcarries : r.carries p n with
      | true => exact stage_asked hn hlong h hcarries (apart hcarries) hgrows
      | false =>
          refine h.frame hgrows ⟨rfl, ?_, rfl, fun a ha _ => ha⟩
          simp [State.carrying, hcarries]
  | @found pre post r previous b here existing =>
      cases hcarries : r.carries p n with
      | true => exact stage_found h here hcarries existing
      | false =>
          refine h.frame hgrows ⟨rfl, (carrying_of_other here hcarries .missed).1, rfl, fun a ha hac => ?_⟩
          rcases List.mem_cons.mp ha with rfl | ha
          · rw [hcarries] at hac
            cases hac
          · exact ha
  | @missed pre post r previous here existing =>
      cases hcarries : r.carries p n with
      | true => exact stage_missed hsound h here hcarries existing hgrows
      | false => exact h.frame hgrows ⟨rfl, (carrying_of_other here hcarries _).2, rfl, fun a ha _ => ha⟩
  | @ended pre post q here idle =>
      cases hcarries : q.sent.carries p n with
      | true => exact stage_ended h here hcarries idle hgrows
      | false => exact h.frame hgrows ⟨rfl, (carrying_of_other here hcarries .missed).1, rfl, fun a ha _ => ha⟩
  | @created pre post r site here succeeds apart =>
      cases hcarries : r.carries p n with
      | true => exact stage_created hn hlong h here hcarries (apart hcarries)
      | false =>
          exact h.frame hgrows ⟨store_of_other hcarries _, (carrying_of_other here hcarries _).2, rfl, fun a ha _ => ha⟩
  | @lost pre post r site here succeeds =>
      cases hcarries : r.carries p n with
      | true => exact stage_lost hn hlong hsound h here hcarries succeeds hgrows
      | false =>
          exact h.frame hgrows
            ⟨store_of_other hcarries _, (carrying_of_other here hcarries .missed).1, rfl, fun a ha _ => ha⟩
  | @committed pre post r id answers here =>
      cases hcarries : r.carries p n with
      | true => exact stage_committed answers h here hcarries
      | false =>
          refine h.frame hgrows
            ⟨rfl, (carrying_of_other here hcarries .missed).1, List.filter_cons_of_neg (by simp [hcarries]), ?_⟩
          intro a ha hac
          cases answers with
          | false => exact ha
          | true =>
              rcases List.mem_cons.mp ha with rfl | ha
              · rw [hcarries] at hac
                cases hac
              · exact ha
  | other => exact h.frame hgrows ⟨rfl, rfl, rfl, fun a ha _ => ha⟩
  | elsewhere => exact h.frame hgrows ⟨rfl, rfl, rfl, fun a ha _ => ha⟩

theorem Stage.sentOnce (h : Stage p n s) : SentOnce p n s := by
  cases h with
  | before _ _ created answered =>
      have hnone : (s.created.filter fun c => c.1.carries p n) = [] :=
        List.filter_eq_nil_iff.mpr fun c hc => Bool.eq_false_iff.mp (created c hc)
      refine ⟨by simp [hnone], fun a ha hac => absurd hac (Bool.eq_false_iff.mp (answered a ha))⟩
  | during _ _ _ _ created answered =>
      have hnone : (s.created.filter fun c => c.1.carries p n) = [] :=
        List.filter_eq_nil_iff.mpr fun c hc => Bool.eq_false_iff.mp (created c hc)
      refine ⟨by simp [hnone], fun a ha hac => absurd hac (Bool.eq_false_iff.mp (answered a ha))⟩
  | after r id carries _ _ _ created answered =>
      refine ⟨by simp [created], fun a ha hac => ⟨(r, id), ?_, carries, (answered a ha hac).symm⟩⟩
      have hmem : (r, id) ∈ s.created.filter fun c => c.1.carries p n := created ▸ List.mem_singleton_self _
      exact (List.mem_filter.mp hmem).1

theorem stage_run (hn : 0 < n.length) (hlong : n.length ≤ 64) (events : List Event) (hsound : Sound s)
    (h : Stage p n s) (hapart : ApartAll p n s events) : Stage p n (s.run events) := by
  induction events generalizing s with
  | nil => exact h
  | cons e events ih =>
      have hmove := step_moves hsound hapart.1
      exact ih (hmove.sound hsound) (h.moves hn hlong hsound hmove) hapart.2

theorem Fresh.sound (h : Fresh p n s) : Sound s := by
  have hdb : 1 ≤ s.db.nextId := Run.keeps (I := fun db => WellFormed db ∧ 1 ≤ db.nextId) (fun site op db _ hI =>
    ⟨Run.wellFormed (.step site op .refl trivial : Run anyStep db _) hI.1, hI.2.trans (nextId_le_after hI.1)⟩)
    h.reachable ⟨.empty, le_refl _⟩ |>.2
  refine ⟨h.reachable.wellFormed, hdb, ?_⟩
  rintro id (⟨b, hb, rfl⟩ | ⟨q, hq, _⟩)
  · exact h.rows b hb
  · rw [h.idle] at hq
    cases hq

theorem Fresh.stage (h : Fresh p n s) : Stage p n s := by
  refine .before (fun id hid => ?_) (fun q hq => ?_) (fun c hc => ?_) fun a ha => ?_
  · rw [h.unused] at hid
    cases hid
  · rw [State.carrying, h.idle] at hq
    cases hq
  · rw [h.created] at hc
    cases hc
  · rw [h.answered] at ha
    cases ha

end

/-! ## The claim -/

/-- A resent submission is sent once in every run that keeps the requests with its nonce apart. -/
theorem resent_once {profile : ProfileId} {nonce : String} (hn : 0 < nonce.length) (hlong : nonce.length ≤ 64)
    {s : State} (hfresh : Fresh profile nonce s) (events : List Event) (hapart : ApartAll profile nonce s events) :
    SentOnce profile nonce (s.run events) :=
  (stage_run hn hlong events hfresh.sound hfresh.stage hapart).sentOnce

/-- The duel under way, and nothing sent. -/
def idle : State where
  db := duelUnderWay
  submissions := []
  cache := fun _ => none

theorem fresh_idle : Fresh 1 "n1" idle where
  reachable := Run.play _
  rows := fun _ hb => absurd hb List.not_mem_nil
  unused := rfl
  idle := rfl
  created := rfl
  answered := rfl

/-- The first player sends something. -/
def print : Sent where
  profile := 1
  superuser := false
  id := 1
  game := 2
  order := 0
  language := "PY3"
  source := "print()"
  nonce := some "n1"

/-- It is sent, the answer is lost, and it is sent again. -/
def retried : List Event :=
  [.ask print, .find 0, .create 0 { now := 600000000 }, .commit 0 false, .ask print, .find 0]

theorem resent_once_retried : (idle.run retried).answered = [(print, 4)] ∧ SentOnce 1 "n1" (idle.run retried) := by
  have hapart : ApartAll 1 "n1" idle retried := by decide +kernel
  exact ⟨by decide +kernel, resent_once (by decide) (by decide) fresh_idle retried hapart⟩

/-- Both requests look for the nonce before either has created anything. -/
def overlapped : List Event :=
  [.ask print, .ask print, .find 0, .find 1, .create 0 { now := 600000000 }, .commit 0 true,
    .create 0 { now := 600000000 }, .commit 0 true]

theorem overlap_sends_twice : (idle.run overlapped).answered = [(print, 5), (print, 4)] ∧
    ¬ ∀ (profile : ProfileId) (nonce : String) (s : State) (events : List Event), 0 < nonce.length →
      nonce.length ≤ 64 → Fresh profile nonce s → SentOnce profile nonce (s.run events) := by
  refine ⟨by decide +kernel, fun h => ?_⟩
  have hcreated : ((idle.run overlapped).created.filter fun c => c.1.carries 1 "n1").length = 2 := by decide +kernel
  have honce := (h 1 "n1" idle overlapped (by decide) (by decide) fresh_idle).once
  omega

end Resend
end Arena
end CpcJudge
