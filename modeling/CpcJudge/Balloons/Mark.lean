import CpcJudge.Balloons.Sheet

/-!
# `Balloons.Mark` — marking a balloon

A request locks the participation, reads the latest action of its pair, and logs its own if that is the next one. It
agrees with the sheet on what can be marked. Since nobody else logs an action of the pair between the two, the actions of
a pair take turns, whatever else is changed meanwhile (`World.Sound`).

A query of a request is one step (`next`). The object of the contest that it goes on with is the one it loaded first.
-/

namespace CpcJudge
namespace Balloons

open Contest (Time ContestParticipation)
open Ranking

/-- A request of `contest_balloon_mark`. The action is none unless it is one of the two, and the ids are what `int` makes
of the fields. -/
structure Request where
  user : ℕ
  contest : ℕ
  action : Option ActionKind
  participation : Option ℤ
  problem : Option ℤ
  deriving DecidableEq

inductive Refusal where
  | alreadyMarked (user : Option ℕ)
  | notDue
  | notMarked
  deriving DecidableEq

def Refusal.message (username : ℕ → String) : Refusal → String
  | .alreadyMarked user => (user.map username).getD "?" ++ " already marked this balloon as delivered."
  | .notDue => "This balloon is not due anymore. The sheet has been refreshed."
  | .notMarked => "This balloon is not marked as delivered anymore. The sheet has been refreshed."

inductive Response where
  | notFound
  | badRequest
  | refused (refusal : Refusal)
  | ok
  deriving DecidableEq

/-- The query a request comes to next, and the objects that it holds. -/
inductive Stage where
  -- `get_object_or_404(Contest, ...)`, and the fields
  | received
  -- `select_for_update()`
  | checked (c : BalloonContest) (action : ActionKind) (participation : ℤ) (problem : ℕ)
  -- the latest action
  | locked (c : BalloonContest) (action : ActionKind) (p : Participation) (problem : ℕ)
  -- `balloon_is_due`
  | read (c : BalloonContest) (action : ActionKind) (p : Participation) (problem : ℕ) (latest : Option Action)
  -- `create`, and the end of the transaction
  | creating (action : ActionKind) (key : Key)
  | answered (response : Response)

/-- The participation that a request has locked. -/
def Stage.holds : Stage → Option ℕ
  | .locked _ _ p _ | .read _ _ p _ _ => some p.row.id
  | .creating _ key => some key.1
  | _ => none

/-- `get(id=...)`. -/
def byId? {α : Type} [Keyed α] (t : Table α) (id : ℤ) : Option α := if 0 ≤ id then t.get? id.toNat else none

/-- `error`. -/
def Db.refusal? (db : Db) (c : BalloonContest) (action : ActionKind) (p : Participation) (problem : ℕ)
    (latest : Option Action) : Option Refusal :=
  let delivered := latest.any (·.action = .delivered)
  match action with
  | .delivered =>
      if delivered then some (.alreadyMarked (latest.bind (·.user)))
      else if !db.balloonIsDue c p problem then some .notDue
      else none
  | .undone => if !delivered then some .notMarked else none

/-- The checks before the transaction. -/
def Db.check (db : Db) (r : Request) : Except Response (BalloonContest × ActionKind × ℤ × ℕ) := do
  let some c := db.contests.get? r.contest | throw .notFound
  if !c.managesBalloons r.user then throw .notFound
  let some action := r.action | throw .badRequest
  let some participation := r.participation | throw .badRequest
  let some problem := r.problem | throw .badRequest
  let some q := (byId? db.problems problem).filter (·.contest = c.id) | throw .notFound
  return (c, action, participation, q.id)

/-- The next query of a request, and where it leads. It waits for a participation that is locked. -/
def next (db : Db) (r : Request) (isLocked : ℕ → Bool) (now : Time) : Stage → Db × Stage
  | .received =>
      match db.check r with
      | .error response => (db, .answered response)
      | .ok (c, action, participation, problem) => (db, .checked c action participation problem)
  | .checked c action participation problem =>
      match (byId? db.participations participation).filter (·.contest = c.id) with
      | none => (db, .answered .notFound)
      | some p =>
          if isLocked p.row.id then (db, .checked c action participation problem)
          else (db, .locked c action p problem)
  | .locked c action p problem => (db, .read c action p problem (db.log.latest? (p.row.id, problem)))
  | .read c action p problem latest =>
      match db.refusal? c action p problem latest with
      | some refusal => (db, .answered (.refused refusal))
      | none => (db, .creating action (p.row.id, problem))
  | .creating action key => ({ db with log := db.log.create key action r.user now }, .answered .ok)
  | .answered response => (db, .answered response)

/-! ## A request alone -/

/-- A request after `n` queries, while nobody else does anything. -/
def Request.after (r : Request) (now : Time) : ℕ → Db → Stage → Db × Stage
  | 0, db, stage => (db, stage)
  | n + 1, db, stage =>
      r.after now n (next db r (fun _ => false) now stage).1 (next db r (fun _ => false) now stage).2

/-- The request gets this response in a state, alone. -/
def Db.Answers (db : Db) (r : Request) (now : Time) (response : Response) : Prop :=
  (r.after now 5 db .received).2 = .answered response

/-- The form of a pair on the sheet. -/
def BalloonContest.mark (c : BalloonContest) (user : ℕ) (action : ActionKind) (key : Key) : Request :=
  ⟨user, c.id, some action, some key.1, some key.2⟩

/-! ## Requests at the same time -/

structure Running where
  request : Request
  stage : Stage := .received

structure World where
  db : Db
  clock : Time
  requests : List Running := []

/-- What happens next: a request arrives, or runs its next query, the clock goes on, or anything but the log changes. -/
inductive Act where
  | arrive (request : Request)
  | proceed (request : ℕ)
  | tick (delta : ℕ)
  | change (site : Site)

def World.isLocked (w : World) (participation : ℕ) : Bool :=
  w.requests.any fun r => r.stage.holds = some participation

def World.act (w : World) : Act → World
  | .arrive request => { w with requests := w.requests ++ [{ request }] }
  | .proceed i =>
      match w.requests[i]? with
      | none => w
      | some r =>
          let (db, stage) := next w.db r.request w.isLocked w.clock r.stage
          { w with db, requests := w.requests.set i { r with stage } }
  | .tick delta => { w with clock := w.clock + delta }
  | .change site => { w with db := { site with log := w.db.log } }

def World.run (w : World) (acts : List Act) : World := acts.foldl World.act w

/-- Before the first request. -/
def World.start (site : Site) (clock : Time) : World := ⟨{ site with }, clock, []⟩

/-- The actions of a pair, in order of time. -/
def Log.turnsOf (log : Log) (key : Key) : List ActionKind :=
  (sortBy Action.place (log.rows.filter (·.key = key))).map (·.action)

/-- Delivered and undone in turns, delivered first. -/
def Alternates (turns : List ActionKind) : Prop :=
  ∀ (i : ℕ) (action : ActionKind), turns[i]? = some action → action = if i % 2 = 0 then .delivered else .undone

variable {db : Db} {c : BalloonContest} {r : Request} {user : ℕ} {now : Time} {action : ActionKind} {key : Key}
  {p : Participation} {log : Log} {w : World} {a : Act} {acts : List Act}

/-! ## What is marked is what the sheet shows -/

@[simp] theorem byId?_natCast {α : Type} [Keyed α] (t : Table α) (id : ℕ) : byId? t (id : ℤ) = t.get? id := by
  rw [byId?, if_pos (Int.natCast_nonneg id), Int.toNat_natCast]

@[simp] theorem Request.after_answered (r : Request) (now : Time) (db : Db) (response : Response) :
    ∀ n, (r.after now n db (.answered response)).2 = .answered response
  | 0 => rfl
  | n + 1 => r.after_answered now db response n

theorem Db.check_mark (hc : db.contests.get? c.id = some c) (hmanages : c.managesBalloons user = true) :
    db.check (c.mark user action key) =
      if (db.problems.get? key.2).any (·.contest = c.id) then .ok (c, action, (key.1 : ℤ), key.2)
      else .error .notFound := by
  cases hq : db.problems.get? key.2 with
  | none =>
      simp [Db.check, BalloonContest.mark, hc, hmanages, hq]
      rfl
  | some q =>
      have hid : q.id = key.2 := Table.key_of_get? hq
      by_cases hcontest : q.contest = c.id
      · have hfilter : (some q).filter (fun q => decide (q.contest = c.id)) = some q := by simp [hcontest]
        simp only [Db.check, BalloonContest.mark, hc, hmanages, byId?_natCast, hq, hfilter, hid]
        simp [hcontest]
        rfl
      · simp [Db.check, BalloonContest.mark, hc, hmanages, hq, hcontest]
        rfl

/-- A mark goes through if there are the problem and the participation in the contest, and nothing is against it. -/
theorem answers_ok (hc : db.contests.get? c.id = some c) (hmanages : c.managesBalloons user = true) :
    db.Answers (c.mark user action key) now .ok ↔
      (db.problems.get? key.2).any (·.contest = c.id) = true ∧
        ∃ p, db.participations.get? key.1 = some p ∧ p.contest = c.id ∧
          db.refusal? c action p key.2 (db.log.latest? key) = none := by
  by_cases hproblem : (db.problems.get? key.2).any (·.contest = c.id) = true
  · have hreceived : next db (c.mark user action key) (fun _ => false) now .received =
        (db, .checked c action key.1 key.2) := by
      rw [next, Db.check_mark hc hmanages, if_pos hproblem]
    rw [Db.Answers, Request.after, hreceived, Request.after, next, byId?_natCast]
    cases hp : db.participations.get? key.1 with
    | none => simp
    | some p =>
        have hid : p.row.id = key.1 := Table.key_of_get? hp
        by_cases hcontest : p.contest = c.id
        · have hfilter : (some p).filter (fun p => decide (p.contest = c.id)) = some p := by simp [hcontest]
          rw [hfilter]
          simp only [Bool.false_eq_true, if_false]
          rw [Request.after, next, Request.after, next, hid]
          cases hrefusal : db.refusal? c action p key.2 (db.log.latest? key) with
          | none => simp [Request.after, next, hproblem, hcontest, hrefusal]
          | some refusal => simp [hcontest, hrefusal]
        · have hfilter : (some p).filter (fun p => decide (p.contest = c.id)) = none := by simp [hcontest]
          rw [hfilter]
          simp [hcontest]
  · have hreceived : next db (c.mark user action key) (fun _ => false) now .received =
        (db, .answered .notFound) := by
      rw [next, Db.check_mark hc hmanages, if_neg hproblem]
    rw [Db.Answers, Request.after, hreceived]
    simp [hproblem]

/-- A balloon can be marked as delivered if the sheet shows it as pending. -/
theorem answers_delivered (hc : db.contests.get? c.id = some c) (hmanages : c.managesBalloons user = true) :
    db.Answers (c.mark user .delivered key) now .ok ↔ ∃ b ∈ (db.buildBalloonSheet c).pending, b.key = key := by
  rw [answers_ok hc hmanages, sheet_pending]
  constructor
  · rintro ⟨-, p, hp, hcontest, hrefusal⟩
    unfold Db.refusal? at hrefusal
    dsimp only at hrefusal
    split at hrefusal
    next => cases hrefusal
    next hdelivered =>
      split at hrefusal
      next => cases hrefusal
      next hdue =>
        refine ⟨Bool.not_eq_true _ ▸ hdelivered, ?_⟩
        exact (balloonIsDue_iff hp hcontest).mp (by simpa using hdue)
  · rintro ⟨hdelivered, s, p, hfirst, hentrant, hheld⟩
    obtain ⟨hearns, hkey⟩ := earns_of_firstAccepted hfirst
    have hproblem := (Db.entrant_of_earns hearns).2
    rw [show s.problem = key.2 from congrArg Prod.snd hkey] at hproblem
    obtain ⟨hp, hin⟩ := Option.filter_eq_some_iff.mp hentrant
    have hcontest : p.contest = c.id := by
      simp only [Bool.and_eq_true, decide_eq_true_eq] at hin
      exact hin.1.1
    have hdue := (balloonIsDue_iff hp hcontest).mpr ⟨s, p, hfirst, hentrant, hheld⟩
    refine ⟨hproblem, p, hp, hcontest, ?_⟩
    rw [Log.isDelivered] at hdelivered
    simp [Db.refusal?, hdelivered, hdue]

/-- A delivery can be undone if the sheet shows it. -/
theorem answers_undone (hc : db.contests.get? c.id = some c) (hmanages : c.managesBalloons user = true)
    (hp : (db.participations.get? key.1).any (·.contest = c.id) = true) :
    db.Answers (c.mark user .undone key) now .ok ↔ ∃ b ∈ (db.buildBalloonSheet c).delivered, b.key = key := by
  rw [answers_ok hc hmanages, sheet_delivered]
  refine and_congr_right fun _ => ?_
  obtain ⟨p, hp, hcontest⟩ := (Option.any_eq_true _ _).mp hp
  have hcontest : p.contest = c.id := of_decide_eq_true hcontest
  have hrefusal : db.refusal? c .undone p key.2 (db.log.latest? key) = none ↔ db.log.isDelivered key = true := by
    rw [Log.isDelivered]
    cases hany : (db.log.latest? key).any (·.action = .delivered) <;> simp [Db.refusal?, hany]
  rw [← hrefusal]
  constructor
  · rintro ⟨p', hp', -, hnone⟩
    obtain rfl := Option.some.inj (hp.symm.trans hp')
    exact hnone
  · exact fun hnone => ⟨p, hp, hcontest, hnone⟩

/-- A pair whose first accepted submission is in the freeze of its participation is not pending. -/
theorem not_pending_of_held {s : Submission} {start : Time} (hfirst : db.firstAccepted c key = some s)
    (hp : db.participations.get? key.1 = some p) (hstart : p.row.freezeStartsAt c.row = some start)
    (hheld : start ≤ s.date) : ¬ ∃ b ∈ (db.buildBalloonSheet c).pending, b.key = key := by
  rw [sheet_pending]
  rintro ⟨-, s', p', hfirst', hentrant, hnot⟩
  obtain rfl := Option.some.inj (hfirst.symm.trans hfirst')
  obtain rfl := Option.some.inj (hp.symm.trans (Option.filter_eq_some_iff.mp hentrant).1)
  rw [isHeld, hstart, Option.any_some, decide_eq_true hheld] at hnot
  cases hnot

/-! ## Turns -/

theorem alternates_nil : Alternates [] := by
  intro i action h
  cases h

theorem Alternates.last {turns : List ActionKind} (h : Alternates turns) :
    turns.getLast? = some .delivered ↔ turns.length % 2 = 1 := by
  rw [List.getLast?_eq_getElem?]
  constructor
  · intro hlast
    obtain ⟨hlt, -⟩ := List.getElem?_eq_some_iff.mp hlast
    have heven := h _ _ hlast
    split at heven
    · omega
    · cases heven
  · intro hodd
    have hlt : turns.length - 1 < turns.length := by omega
    rw [List.getElem?_eq_getElem hlt, h _ _ (List.getElem?_eq_getElem hlt), if_pos (by omega)]

/-- The next action is the other one. -/
theorem Alternates.concat {turns : List ActionKind} (h : Alternates turns)
    (hnext : action = .delivered ↔ turns.getLast? ≠ some .delivered) : Alternates (turns ++ [action]) := by
  intro i other hother
  rcases Nat.lt_or_ge i turns.length with hlt | hge
  · rw [List.getElem?_append_left hlt] at hother
    exact h i other hother
  · have hi : i = turns.length := by
      have hbound := (List.getElem?_eq_some_iff.mp hother).1
      rw [List.length_append, List.length_singleton] at hbound
      omega
    subst hi
    rw [List.getElem?_concat_length] at hother
    obtain rfl := Option.some.inj hother
    rw [Ne, h.last] at hnext
    split
    next heven => exact hnext.mpr (by omega)
    next hodd =>
      cases action with
      | delivered => exact absurd (hnext.mp rfl) (by omega)
      | undone => rfl

/-- The log is in order of time, and a clock shows what comes after it. -/
structure Log.InTime (log : Log) (clock : Time) : Prop where
  ordered : log.rows.Pairwise fun a b => a.time ≤ b.time
  past : ∀ a ∈ log.rows, a.time ≤ clock

theorem Log.InTime.turnsOf {clock : Time} (h : log.InTime clock) (key : Key) :
    log.turnsOf key = (log.rows.filter (·.key = key)).map (·.action) := by
  have hsorted : log.rows.Pairwise fun a b => a.place ≤ b.place := by
    refine (h.ordered.and log.increasing).imp fun ⟨htime, hid⟩ => Prod.Lex.le_iff.mpr ?_
    rcases htime.lt_or_eq with hlt | heq
    · exact .inl hlt
    · exact .inr ⟨heq, hid.le⟩
  have hsame : sortBy Action.place (log.rows.filter (·.key = key)) = log.rows.filter (·.key = key) :=
    isStableSort_sortBy.unique (.of_sorted (hsorted.sublist List.filter_sublist))
  rw [Log.turnsOf, hsame]

theorem Log.InTime.create {clock : Time} (h : log.InTime clock) : (log.create key action user clock).InTime clock where
  ordered := by
    refine List.pairwise_append.mpr ⟨h.ordered, List.pairwise_singleton _ _, fun a ha b hb => ?_⟩
    rw [List.mem_singleton.mp hb]
    exact h.past a ha
  past := by
    intro a ha
    rcases List.mem_append.mp ha with ha | ha
    · exact h.past a ha
    · rw [List.mem_singleton.mp ha]

theorem Log.isDelivered_iff : log.isDelivered key = true ↔ (log.turnsOf key).getLast? = some .delivered := by
  rw [Log.isDelivered, latest?_eq, Log.turnsOf, List.getLast?_map, Option.any_eq_true]
  simp

/-- An action is of its own pair only. -/
theorem Log.turnsOf_create {clock : Time} {other : Key} (h : log.InTime clock) :
    (log.create key action user clock).turnsOf other = log.turnsOf other ++ if key = other then [action] else [] := by
  rw [h.create.turnsOf, h.turnsOf, Log.create, List.filter_append, List.map_append]
  by_cases hkey : key = other <;> simp [Action.key, hkey]

theorem Log.latest?_create (clock : Time) {other : Key} (hne : key.1 ≠ other.1) :
    (log.create key action user clock).latest? other = log.latest? other := by
  have hnot : ¬ ((key.1, key.2) : Key) = other := fun heq => hne (congrArg Prod.fst heq)
  rw [Log.latest?, Log.latest?, Log.create, List.filter_append]
  simp [Action.key, hnot]

/-! ## Requests at the same time take turns -/

/-- What a request has read of the log is still so, and the action that it is about to log is the next one. -/
def Stage.Current (log : Log) : Stage → Prop
  | .read _ _ p problem latest => latest = log.latest? (p.row.id, problem)
  | .creating action key => action = .delivered ↔ log.isDelivered key = false
  | _ => True

structure World.Sound (w : World) : Prop where
  inTime : w.db.log.InTime w.clock
  turns : ∀ key, Alternates (w.db.log.turnsOf key)
  current : ∀ (i : ℕ) (r : Running), w.requests[i]? = some r → r.stage.Current w.db.log
  -- a participation is locked by one request at most
  alone : ∀ (i j : ℕ) (r t : Running), w.requests[i]? = some r → w.requests[j]? = some t →
    ∀ participation, r.stage.holds = some participation → t.stage.holds = some participation → i = j

/-- Nothing is against the action that comes next. -/
theorem next_of_refusal? {problem : ℕ} (h : db.refusal? c action p problem (log.latest? key) = none) :
    action = .delivered ↔ log.isDelivered key = false := by
  rw [Log.isDelivered]
  cases hdelivered : (log.latest? key).any (·.action = .delivered) with
  | true =>
      cases action with
      | delivered => simp [Db.refusal?, hdelivered] at h
      | undone => simp
  | false =>
      cases action with
      | delivered => simp
      | undone => simp [Db.refusal?, hdelivered] at h

/-- The log of other participations than those of an action says what it said. -/
theorem Stage.Current.create {stage : Stage} (h : stage.Current log) {clock : Time} (hlog : log.InTime clock)
    (hother : ∀ participation, stage.holds = some participation → participation ≠ key.1) :
    stage.Current (log.create key action user clock) := by
  cases stage with
  | read c next p problem latest =>
      have hne : key.1 ≠ ((p.row.id, problem) : Key).1 := (hother p.row.id rfl).symm
      exact Eq.trans h (Log.latest?_create clock hne).symm
  | creating next other =>
      have hne : key ≠ other := fun heq => hother other.1 rfl (congrArg Prod.fst heq).symm
      have hsame : (log.create key action user clock).isDelivered other = log.isDelivered other := by
        rw [Bool.eq_iff_iff, Log.isDelivered_iff, Log.isDelivered_iff, Log.turnsOf_create hlog, if_neg hne, List.append_nil]
      rw [Stage.Current, hsame]
      exact h
  | received => trivial
  | checked => trivial
  | locked => trivial
  | answered => trivial

/-- What one query does: the stage it leads to is current, it locks nothing that is locked, and an action that it logs is
the next of a pair that it had locked. -/
theorem next_spec (r : Request) (isLocked : ℕ → Bool) (now : Time) {stage : Stage} (hcurrent : stage.Current db.log) :
    ((next db r isLocked now stage).1.log = db.log ∨
      ∃ action key, stage = .creating action key ∧ (next db r isLocked now stage).1.log = db.log.create key action r.user now) ∧
    (∀ participation, (next db r isLocked now stage).2.holds = some participation →
      stage.holds = some participation ∨ isLocked participation = false) ∧
    (next db r isLocked now stage).2.Current (next db r isLocked now stage).1.log := by
  cases stage with
  | received =>
      rw [next]
      split
      next => exact ⟨.inl rfl, (fun _ h => nomatch h), trivial⟩
      next => exact ⟨.inl rfl, (fun _ h => nomatch h), trivial⟩
  | checked c action participation problem =>
      rw [next]
      split
      next => exact ⟨.inl rfl, (fun _ h => nomatch h), trivial⟩
      next p hp =>
        split
        next => exact ⟨.inl rfl, (fun _ h => nomatch h), trivial⟩
        next hfree =>
          refine ⟨.inl rfl, fun participation h => ?_, trivial⟩
          obtain rfl := Option.some.inj h
          exact .inr (Bool.not_eq_true _ ▸ hfree)
  | locked c action p problem => exact ⟨.inl rfl, fun _ h => .inl h, rfl⟩
  | read c action p problem latest =>
      rw [next]
      split
      next => exact ⟨.inl rfl, (fun _ h => nomatch h), trivial⟩
      next hrefusal =>
        rw [show latest = db.log.latest? (p.row.id, problem) from hcurrent] at hrefusal
        exact ⟨.inl rfl, fun _ h => .inl h, next_of_refusal? hrefusal⟩
  | creating action key => exact ⟨.inr ⟨action, key, rfl, rfl⟩, (fun _ h => nomatch h), trivial⟩
  | answered response => exact ⟨.inl rfl, (fun _ h => nomatch h), trivial⟩

theorem of_getElem?_concat {requests : List Running} {r t : Running} {i : ℕ} (h : (requests ++ [r])[i]? = some t) :
    requests[i]? = some t ∨ t = r := by
  rcases Nat.lt_or_ge i requests.length with hlt | hge
  · rw [List.getElem?_append_left hlt] at h
    exact .inl h
  · rw [List.getElem?_append_right hge] at h
    exact .inr (List.mem_singleton.mp (List.mem_of_getElem? h))

theorem of_getElem?_set {requests : List Running} {r t : Running} {i j : ℕ} (h : (requests.set i r)[j]? = some t) :
    j = i ∧ t = r ∨ j ≠ i ∧ requests[j]? = some t := by
  by_cases hji : j = i
  · subst hji
    obtain ⟨hlt, hget⟩ := List.getElem?_eq_some_iff.mp h
    exact .inl ⟨rfl, by simpa using hget.symm⟩
  · rw [List.getElem?_set_ne (Ne.symm hji)] at h
    exact .inr ⟨hji, h⟩

theorem World.isLocked_of_holds {i participation : ℕ} {r : Running} (hr : w.requests[i]? = some r)
    (hholds : r.stage.holds = some participation) : w.isLocked participation = true :=
  List.any_eq_true.mpr ⟨r, List.mem_of_getElem? hr, decide_eq_true hholds⟩

theorem World.Sound.proceed {i : ℕ} {t : Running} (h : w.Sound) (ht : w.requests[i]? = some t) :
    World.Sound
      { w with
        db := (next w.db t.request w.isLocked w.clock t.stage).1
        requests := w.requests.set i { t with stage := (next w.db t.request w.isLocked w.clock t.stage).2 } } := by
  obtain ⟨hlog, hholds, hcurrent⟩ :=
    next_spec t.request w.isLocked w.clock (h.current i t ht)
  refine ⟨?_, fun key => ?_, fun j r hr => ?_, fun j k r u hr hu participation hrholds huholds => ?_⟩
  · rcases hlog with hlog | ⟨action, key, -, hlog⟩
    · exact hlog ▸ h.inTime
    · exact hlog ▸ h.inTime.create
  · rcases hlog with hlog | ⟨action, other, hstage, hlog⟩
    · exact hlog ▸ h.turns key
    · show Alternates ((next w.db t.request w.isLocked w.clock t.stage).1.log.turnsOf key)
      rw [hlog, Log.turnsOf_create h.inTime]
      split
      next hkey =>
        subst hkey
        have hnext : action = .delivered ↔ w.db.log.isDelivered other = false := by
          have hready := h.current i t ht
          rwa [hstage] at hready
        refine (h.turns other).concat (hnext.trans ?_)
        rw [Ne, ← Log.isDelivered_iff, Bool.not_eq_true]
      next => exact (List.append_nil _).symm ▸ h.turns key
  · rcases of_getElem?_set hr with ⟨-, rfl⟩ | ⟨hji, hr⟩
    · exact hcurrent
    · have hready := h.current j r hr
      rcases hlog with hlog | ⟨action, key, hstage, hlog⟩
      · exact hlog ▸ hready
      · refine hlog ▸ hready.create h.inTime fun participation hheld heq => hji ?_
        exact h.alone j i r t hr ht participation hheld (by rw [hstage, heq]; rfl)
  · -- the participation that a request has just locked was not locked by another one
    have hother : ∀ (j : ℕ) (r : Running), j ≠ i → w.requests[j]? = some r → r.stage.holds = some participation →
        (next w.db t.request w.isLocked w.clock t.stage).2.holds ≠ some participation := by
      intro j r hji hr hheld hnew
      rcases hholds participation hnew with hold | hfree
      · exact hji (h.alone j i r t hr ht participation hheld hold)
      · rw [World.isLocked_of_holds hr hheld] at hfree
        cases hfree
    rcases of_getElem?_set hr with ⟨hj, rfl⟩ | ⟨hji, hr'⟩
    · rcases of_getElem?_set hu with ⟨hk, -⟩ | ⟨hki, hu'⟩
      · rw [hj, hk]
      · exact absurd hrholds (hother k u hki hu' huholds)
    · rcases of_getElem?_set hu with ⟨-, rfl⟩ | ⟨-, hu'⟩
      · exact absurd huholds (hother j r hji hr' hrholds)
      · exact h.alone j k r u hr' hu' participation hrholds huholds

theorem World.Sound.act (h : w.Sound) : (w.act a).Sound := by
  cases a with
  | arrive request =>
      refine ⟨h.inTime, h.turns, fun i r hr => ?_, fun i j r t hr ht participation hrholds htholds => ?_⟩
      · rcases of_getElem?_concat hr with hr | rfl
        · exact h.current i r hr
        · trivial
      · rcases of_getElem?_concat hr with hr | rfl
        · rcases of_getElem?_concat ht with ht | rfl
          · exact h.alone i j r t hr ht participation hrholds htholds
          · cases htholds
        · cases hrholds
  | proceed i =>
      cases hr : w.requests[i]? with
      | none =>
          rw [show w.act (.proceed i) = w by simp [World.act, hr]]
          exact h
      | some r =>
          have hact : w.act (.proceed i) =
              { w with
                db := (next w.db r.request w.isLocked w.clock r.stage).1
                requests := w.requests.set i { r with stage := (next w.db r.request w.isLocked w.clock r.stage).2 } } := by
            simp [World.act, hr]
          rw [hact]
          exact h.proceed hr
  | tick delta =>
      have hpast : ∀ a ∈ w.db.log.rows, a.time ≤ w.clock + delta := fun a ha =>
        (h.inTime.past a ha).trans (Int.le_add_of_nonneg_right (Int.natCast_nonneg delta))
      exact ⟨⟨h.inTime.ordered, hpast⟩, h.turns, h.current, h.alone⟩
  | change site => exact ⟨h.inTime, h.turns, h.current, h.alone⟩

theorem World.sound_start (site : Site) (clock : Time) : (World.start site clock).Sound where
  inTime := ⟨.nil, fun _ h => absurd h List.not_mem_nil⟩
  turns _ := alternates_nil
  current _ _ h := by cases h
  alone _ _ _ _ h := by cases h

theorem World.Sound.run (h : w.Sound) : (w.run acts).Sound := by
  induction acts generalizing w with
  | nil => exact h
  | cons a acts ih => exact ih h.act

/-- In every state of a contest a pair can be marked as delivered if it is pending on the sheet, and undone if it is
delivered there. The actions of a pair take turns, whatever requests and changes come between, and a pair that was
first solved in a freeze is never pending. -/
theorem balloons (db : Db) (c : BalloonContest) (user : ℕ) (now : Time) (key : Key)
    (hc : db.contests.get? c.id = some c) (hmanages : c.managesBalloons user = true) :
    (db.Answers (c.mark user .delivered key) now .ok ↔ ∃ b ∈ (db.buildBalloonSheet c).pending, b.key = key) ∧
    ((db.participations.get? key.1).any (·.contest = c.id) = true →
      (db.Answers (c.mark user .undone key) now .ok ↔ ∃ b ∈ (db.buildBalloonSheet c).delivered, b.key = key)) ∧
    (∀ (site : Site) (clock : Time) (acts : List Act), Alternates (((World.start site clock).run acts).db.log.turnsOf key)) ∧
    (∀ (s : Submission) (p : Participation) (start : Time), db.firstAccepted c key = some s →
      db.participations.get? key.1 = some p → p.row.freezeStartsAt c.row = some start → start ≤ s.date →
        ¬ ∃ b ∈ (db.buildBalloonSheet c).pending, b.key = key) :=
  ⟨answers_delivered hc hmanages, answers_undone hc hmanages,
    fun site clock _ => (World.sound_start site clock).run.turns key,
    fun _ _ _ => not_pending_of_held⟩

/-- A contest that freezes its last hour. -/
def sampleContest : BalloonContest where
  id := 1
  row :=
    { startTime := 0, endTime := 18000000000, timeLimit := none, freezeMinutes := some 60, scoreboardRevealed := false
      format := .icpc, formatConfig := {}, pointsPrecision := 0, problems := fun _ => { points := 1 } }
  managesBalloons user := user = 7
  label index := toString (index + 1)

/-- Two problems that one participation has solved, the second of them in the freeze. -/
def sampleDb : Db where
  contests := ⟨[sampleContest], List.nodup_singleton _⟩
  participations :=
    ⟨[⟨{ id := 3, realStart := 0, virtual := ContestParticipation.LIVE, team := none, isDisqualified := false }, 1⟩],
      List.nodup_singleton _⟩
  problems := ⟨[⟨5, 1, 0, 1⟩, ⟨6, 1, 1, 1⟩], by decide⟩
  submissions :=
    ⟨[⟨11, 3, 5, 1, false, 1000000000, .D, some .AC, false⟩, ⟨12, 3, 6, 1, false, 17000000000, .D, some .AC, false⟩],
      by decide⟩

theorem balloons_sample :
    sampleDb.Answers (sampleContest.mark 7 .delivered (3, 5)) 2000000000 .ok ∧
    ¬ sampleDb.Answers (sampleContest.mark 7 .undone (3, 5)) 2000000000 .ok ∧
    ¬ ∃ b ∈ (sampleDb.buildBalloonSheet sampleContest).pending, b.key = (3, 6) := by
  have hfirst := balloons sampleDb sampleContest 7 2000000000 (3, 5) rfl rfl
  have hsecond := balloons sampleDb sampleContest 7 2000000000 (3, 6) rfl rfl
  refine ⟨hfirst.1.mpr (by decide +kernel), fun hundone => ?_, ?_⟩
  · exact absurd ((hfirst.2.1 (by decide)).mp hundone) (by decide +kernel)
  · have hsolved : sampleDb.firstAccepted sampleContest (3, 6) =
        some ⟨12, 3, 6, 1, false, 17000000000, .D, some .AC, false⟩ := by decide +kernel
    exact hsecond.2.2.2 _ _ _ hsolved rfl rfl (by decide)

end Balloons
end CpcJudge
