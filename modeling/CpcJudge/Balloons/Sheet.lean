import CpcJudge.Contest.Freeze
import CpcJudge.Lib.Dict
import CpcJudge.Lib.Table

/-!
# `Balloons.Sheet` — the balloon sheet of a contest

A balloon is due for the first full accepted submission of an official participation on a problem, unless it falls in
the freeze of the participation. Nothing stores that: the sheet works it out for all pairs at once, in one pass over the
accepted submissions, and the request that marks a balloon works it out again for its own pair. The log of deliveries is
all that is written.
-/

namespace CpcJudge
namespace Balloons

open Contest (Time Status Result ContestRow ContestParticipation)
open Ranking

/-- A participation and a problem. -/
abbrev Key := ℕ × ℕ

/-! ## The rows -/

/-- `Contest`, with whoever may open the sheet, and its labels. -/
structure BalloonContest where
  id : ℕ
  row : ContestRow
  managesBalloons : ℕ → Bool
  label : ℕ → String

instance : Keyed BalloonContest := ⟨BalloonContest.id⟩

/-- `ContestParticipation`, with its contest. -/
structure Participation where
  row : ContestParticipation
  contest : ℕ

instance : Keyed Participation := ⟨fun p => p.row.id⟩

/-- `ContestProblem`. -/
structure Problem where
  id : ℕ
  contest : ℕ
  order : ℤ
  points : ℤ
  deriving DecidableEq, Repr

instance : Keyed Problem := ⟨Problem.id⟩

/-- `ContestSubmission`, with the row of its `submission`. -/
structure Submission where
  submission : ℕ
  participation : ℕ
  problem : ℕ
  points : ℚ
  isPretest : Bool
  date : Time
  status : Status
  result : Option Result
  isPretested : Bool
  deriving DecidableEq, Repr

instance : Keyed Submission := ⟨Submission.submission⟩

def Submission.key (s : Submission) : Key := (s.participation, s.problem)

/-- `ContestBalloonAction.action`: `D` and `U`. -/
inductive ActionKind where
  | delivered
  | undone
  deriving DecidableEq, Repr

/-- `ContestBalloonAction`. -/
structure Action where
  id : ℕ
  participation : ℕ
  problem : ℕ
  action : ActionKind
  user : Option ℕ
  time : Time
  deriving DecidableEq, Repr

def Action.key (a : Action) : Key := (a.participation, a.problem)

/-- `ordering`. -/
def Action.place (a : Action) : Time ×ₗ ℕ := toLex (a.time, a.id)

/-- The table of actions. Nothing in it is updated or deleted, and its ids are given out in order. -/
structure Log where
  rows : List Action := []
  nextId : ℕ := 1
  increasing : rows.Pairwise fun a b => a.id < b.id := by simp
  fresh : ∀ a ∈ rows, a.id < nextId := by simp

/-- `ContestBalloonAction.objects.create`. -/
def Log.create (log : Log) (key : Key) (action : ActionKind) (user : ℕ) (time : Time) : Log where
  rows := log.rows ++ [⟨log.nextId, key.1, key.2, action, some user, time⟩]
  nextId := log.nextId + 1
  increasing := by
    refine List.pairwise_append.mpr ⟨log.increasing, List.pairwise_singleton _ _, fun a ha b hb => ?_⟩
    rw [List.mem_singleton.mp hb]
    exact log.fresh a ha
  fresh := by
    intro a ha
    rcases List.mem_append.mp ha with ha | ha
    · exact (log.fresh a ha).trans (Nat.lt_succ_self _)
    · rw [List.mem_singleton.mp ha]
      exact Nat.lt_succ_self _

/-- What anything but a request for a balloon may change. -/
structure Site where
  contests : Table BalloonContest
  participations : Table Participation
  problems : Table Problem
  submissions : Table Submission

structure Db extends Site where
  log : Log := {}

variable (db : Db) (c : BalloonContest)

/-! ## What earns a balloon -/

/-- A row of `accepted_submissions`. -/
def Db.earns (s : Submission) : Bool :=
  (db.participations.get? s.participation).any fun p =>
    (db.problems.get? s.problem).any fun q =>
      p.contest = c.id && p.row.virtual = ContestParticipation.LIVE && !p.row.isDisqualified && q.contest = c.id &&
        s.status = .D && s.result = some .AC && !s.isPretest && !s.isPretested &&
        decide ((q.points : ℚ) ≤ s.points) && decide (0 < q.points) &&
        decide (c.row.startTime ≤ s.date) && decide (s.date < c.row.endTime) &&
        c.row.timeLimit.all fun limit => decide (p.row.realStart ≤ s.date) && decide (s.date < p.row.realStart + limit)

/-- `order_by('submission__date', 'submission_id')`. -/
def Submission.place (s : Submission) : Time ×ₗ ℕ := toLex (s.date, s.submission)

def Db.acceptedSubmissions : List Submission := db.submissions.rows.filter (db.earns c)

/-- `is_held`. -/
def isHeld (p : Participation) (time : Time) : Bool := (p.row.freezeStartsAt c.row).any (· ≤ time)

/-! ## The sheet -/

/-- `_contest_time`. -/
def contestTime (p : Participation) (time : Time) : String :=
  let seconds := max ((time - p.row.start c.row).tdiv 1000000) 0
  let minutes := seconds / 60 % 60
  toString (seconds / 3600) ++ (if minutes < 10 then ":0" else ":") ++ toString minutes

/-- `Balloon`. -/
structure Balloon where
  participation : ℕ
  problem : ℕ
  label : Option String
  solvedAt : Option Time := none
  contestTime : String := ""
  firstBlood : Bool := false
  deliveredBy : Option ℕ := none
  deliveredAt : Option Time := none
  deriving DecidableEq

def Balloon.key (b : Balloon) : Key := (b.participation, b.problem)

/-- `problems`. -/
def Db.contestProblems : List Problem := sortBy Problem.order (db.problems.rows.filter (·.contest = c.id))

/-- `labels`. -/
def Db.labelOf (problem : ℕ) : Option String :=
  ((db.contestProblems c).findIdx? (·.id = problem)).map c.label

/-- `participations`. -/
def Db.entrant? (participation : ℕ) : Option Participation :=
  (db.participations.get? participation).filter fun p =>
    p.contest = c.id && p.row.virtual = ContestParticipation.LIVE && !p.row.isDisqualified

/-- The variables of the loop over the accepted submissions. A held pair is there without a balloon. -/
structure Reading where
  balloons : List (Key × Option Balloon) := []
  firstBloodTaken : List (ℕ × Bool) := []
  held : ℕ := 0

def Reading.has (reading : Reading) (key : Key) : Bool := reading.balloons.any (·.1 = key)

/-- An accepted submission. -/
def Db.read (reading : Reading) (s : Submission) : Reading :=
  match db.entrant? c s.participation with
  | none => reading
  | some p =>
      if reading.has s.key then reading
      else if isHeld c p s.date then
        { reading with balloons := reading.balloons ++ [(s.key, none)], held := reading.held + 1 }
      else
        let division := (s.problem, p.row.team.isSome)
        let first := !reading.firstBloodTaken.contains division
        let balloon : Balloon :=
          { participation := s.participation, problem := s.problem, label := db.labelOf c s.problem,
            solvedAt := some s.date, contestTime := contestTime c p s.date, firstBlood := first }
        { reading with
          balloons := reading.balloons ++ [(s.key, some balloon)]
          firstBloodTaken := if first then division :: reading.firstBloodTaken else reading.firstBloodTaken }

def Db.readAll : Reading := (sortBy Submission.place (db.acceptedSubmissions c)).foldl (db.read c) {}

/-- `actions`. -/
def Db.actions : List Action :=
  sortBy Action.place (db.log.rows.filter fun a => (db.problems.get? a.problem).any (·.contest = c.id))

/-- `latest`. -/
def Db.latest : List (Key × Action) := Dict.ofList Action.key (db.actions c)

/-- What the sheet shows as delivered for the latest action of a pair. -/
def Db.delivery (item : Key × Action) : Option Balloon :=
  if item.2.action ≠ .delivered then none
  else
    let balloon := ((db.readAll c).balloons.find? (·.1 = item.1)).bind (·.2)
    let shown := balloon.getD { participation := item.1.1, problem := item.1.2, label := db.labelOf c item.1.2 }
    some { shown with deliveredBy := item.2.user, deliveredAt := some item.2.time }

/-- A line of `sheet.problems`. -/
structure ProblemLine where
  problem : ℕ
  label : Option String
  accepted : ℕ
  pending : ℕ
  deriving DecidableEq

/-- `BalloonSheet`, without the locations. -/
structure BalloonSheet where
  problems : List ProblemLine
  pending : List Balloon
  delivered : List Balloon
  log : List Action
  logTotal : ℕ
  held : ℕ

def LOG_LENGTH : ℕ := 100

/-- `build_balloon_sheet`. -/
def Db.buildBalloonSheet : BalloonSheet :=
  let reading := db.readAll c
  let delivered := (db.latest c).filterMap (db.delivery c)
  let pending := reading.balloons.filterMap fun item =>
    item.2.filter fun _ => !delivered.any (·.key = item.1)
  { problems := (db.contestProblems c).map fun q =>
      { problem := q.id
        label := db.labelOf c q.id
        accepted := (reading.balloons.filterMap (·.2)).countP (·.problem = q.id)
        pending := pending.countP (·.problem = q.id) }
    pending := sortBy (fun b => b.solvedAt.getD 0) pending
    delivered := sortBy (fun b => OrderDual.toDual (b.deliveredAt.getD 0)) delivered
    log := ((db.actions c).drop ((db.actions c).length - LOG_LENGTH)).reverse
    logTotal := (db.actions c).length
    held := reading.held }

/-! ## One pair -/

/-- `balloon_is_due`. -/
def Db.balloonIsDue (p : Participation) (problem : ℕ) : Bool :=
  if p.row.virtual ≠ ContestParticipation.LIVE || p.row.isDisqualified then false
  else
    let accepted := (db.acceptedSubmissions c).filter (·.key = (p.row.id, problem))
    (sortBy Submission.place accepted).head?.any fun first => !isHeld c p first.date

/-- The latest action of a pair, as `contest_balloon_mark` finds it. -/
def Log.latest? (log : Log) (key : Key) : Option Action :=
  (sortBy (fun a => OrderDual.toDual a.place) (log.rows.filter (·.key = key))).head?

variable {db : Db} {c : BalloonContest} {key : Key} {s : Submission} {p : Participation} {reading : Reading}
  {rows : List Submission} {log : Log} {participation : ℕ}

/-! ## What the loop has read -/

theorem Db.id_of_entrant (h : db.entrant? c participation = some p) : p.row.id = participation :=
  Table.key_of_get? (Option.filter_eq_some_iff.mp h).1

/-- An accepted submission is of an entrant, on a problem of the contest. -/
theorem Db.entrant_of_earns (h : db.earns c s = true) :
    (db.entrant? c s.participation).isSome ∧ (db.problems.get? s.problem).any (·.contest = c.id) = true := by
  obtain ⟨p, hp, h⟩ := (Option.any_eq_true _ _).mp h
  obtain ⟨q, hq, h⟩ := (Option.any_eq_true _ _).mp h
  simp only [Bool.and_eq_true, decide_eq_true_eq] at h
  obtain ⟨⟨⟨⟨⟨⟨⟨⟨⟨⟨⟨⟨hcontest, hlive⟩, hactive⟩, hproblem⟩, -⟩, -⟩, -⟩, -⟩, -⟩, -⟩, -⟩, -⟩, -⟩ := h
  refine ⟨?_, by rw [hq]; exact decide_eq_true hproblem⟩
  rw [Db.entrant?, hp, Option.filter_some, if_pos (by simp [hcontest, hlive, hactive])]
  rfl

/-- The pairs that were read, each with the first of its submissions. -/
structure Reads (db : Db) (c : BalloonContest) (rows : List Submission) (reading : Reading) : Prop where
  entry : ∀ key balloon, (key, balloon) ∈ reading.balloons → ∃ s p, rows.find? (·.key = key) = some s ∧
    db.entrant? c key.1 = some p ∧ if isHeld c p s.date then balloon = none else ∃ b, balloon = some b ∧ b.key = key
  covers : ∀ s ∈ rows, (db.entrant? c s.participation).isSome → reading.has s.key = true

theorem Reading.has_iff : reading.has key = true ↔ ∃ balloon, (key, balloon) ∈ reading.balloons := by
  simp [Reading.has]

/-- The first submission of a pair leaves an entry for it. -/
theorem Db.read_new {p : Participation} (hp : db.entrant? c s.participation = some p) (hnew : ¬ reading.has s.key = true) :
    ∃ balloon, (db.read c reading s).balloons = reading.balloons ++ [(s.key, balloon)] ∧
      if isHeld c p s.date then balloon = none else ∃ b, balloon = some b ∧ b.key = s.key := by
  by_cases hheld : isHeld c p s.date = true
  · exact ⟨none, by simp [Db.read, hp, hnew, hheld], by rw [if_pos hheld]⟩
  · refine ⟨_, by simp only [Db.read, hp, hnew, hheld]; rfl, ?_⟩
    rw [if_neg hheld]
    exact ⟨_, rfl, rfl⟩

theorem Reads.concat (h : Reads db c rows reading) : Reads db c (rows ++ [s]) (db.read c reading s) := by
  have hkept : ∀ key balloon, (key, balloon) ∈ reading.balloons → ∃ s' p,
      (rows ++ [s]).find? (·.key = key) = some s' ∧ db.entrant? c key.1 = some p ∧
        if isHeld c p s'.date then balloon = none else ∃ b, balloon = some b ∧ b.key = key := by
    intro key balloon hmem
    obtain ⟨s', p, hfind, hrest⟩ := h.entry key balloon hmem
    exact ⟨s', p, by rw [List.find?_append, hfind, Option.some_or], hrest⟩
  cases hp : db.entrant? c s.participation with
  | none =>
      rw [Db.read, hp]
      refine ⟨hkept, fun s' hs' hentrant => ?_⟩
      rcases List.mem_append.mp hs' with hs' | hs'
      · exact h.covers s' hs' hentrant
      · rw [List.mem_singleton.mp hs', hp] at hentrant
        cases hentrant
  | some p =>
      by_cases hhas : reading.has s.key = true
      · have hread : db.read c reading s = reading := by simp [Db.read, hp, hhas]
        rw [hread]
        refine ⟨hkept, fun s' hs' hentrant => ?_⟩
        rcases List.mem_append.mp hs' with hs' | hs'
        · exact h.covers s' hs' hentrant
        · rwa [List.mem_singleton.mp hs']
      · -- the first submission of its pair
        have hnew : rows.find? (·.key = s.key) = none := by
          refine List.find?_eq_none.mpr fun s' hs' hkey => hhas ?_
          have hkey : s'.key = s.key := of_decide_eq_true hkey
          have hsame : s'.participation = s.participation := (Prod.ext_iff.mp hkey).1
          exact hkey ▸ h.covers s' hs' (by rw [hsame, hp]; rfl)
        have hfind : (rows ++ [s]).find? (·.key = s.key) = some s := by
          rw [List.find?_append, hnew, Option.none_or, List.find?_singleton, if_pos (decide_eq_true rfl)]
        obtain ⟨balloon, hballoons, hballoon⟩ := Db.read_new hp hhas
        refine ⟨fun key other hmem => ?_, fun s' hs' hentrant => ?_⟩
        · rw [hballoons] at hmem
          rcases List.mem_append.mp hmem with hmem | hmem
          · exact hkept key other hmem
          · obtain ⟨rfl, rfl⟩ := Prod.mk.inj (List.mem_singleton.mp hmem)
            exact ⟨s, p, hfind, hp, hballoon⟩
        · rw [Reading.has_iff, hballoons]
          rcases List.mem_append.mp hs' with hs' | hs'
          · obtain ⟨old, hold⟩ := Reading.has_iff.mp (h.covers s' hs' hentrant)
            exact ⟨old, List.mem_append_left _ hold⟩
          · rw [List.mem_singleton.mp hs']
            exact ⟨balloon, List.mem_append_right _ (List.mem_singleton_self _)⟩

theorem reads_foldl : Reads db c rows (rows.foldl (db.read c) {}) := by
  induction rows using List.reverseRecOn with
  | nil => exact ⟨fun _ _ h => absurd h List.not_mem_nil, fun _ h => absurd h List.not_mem_nil⟩
  | append_singleton rows s ih =>
      rw [List.foldl_append]
      exact ih.concat

/-! ## First submissions and latest actions -/

/-- The first accepted submission of a pair. -/
def Db.firstAccepted (db : Db) (c : BalloonContest) (key : Key) : Option Submission :=
  (sortBy Submission.place ((db.acceptedSubmissions c).filter (·.key = key))).head?

theorem find?_accepted : (sortBy Submission.place (db.acceptedSubmissions c)).find? (·.key = key) =
    db.firstAccepted c key := by
  rw [Db.firstAccepted, ← List.head?_filter, sortBy, FirstBest.filter_insertionSort, ← sortBy]

theorem earns_of_firstAccepted (h : db.firstAccepted c key = some s) : db.earns c s = true ∧ s.key = key := by
  have hmem := (List.perm_insertionSort _ _).mem_iff.mp (List.mem_of_head? h)
  obtain ⟨hmem, hkey⟩ := List.mem_filter.mp hmem
  exact ⟨(List.mem_filter.mp hmem).2, of_decide_eq_true hkey⟩

/-- Ids follow the order of the rows, so that two actions are never at one place. -/
theorem Log.distinct_places (log : Log) : (log.rows.map Action.place).Nodup := by
  refine List.pairwise_map.mpr (log.increasing.imp fun hlt hplace => ?_)
  exact hlt.ne (congrArg (fun place => (ofLex place).2) hplace)

/-- The last of the actions of a pair by time is the first of them the other way round. -/
theorem latest?_eq : log.latest? key = (sortBy Action.place (log.rows.filter (·.key = key))).getLast? := by
  have hdistinct : ((log.rows.filter (·.key = key)).map Action.place).Nodup :=
    log.distinct_places.sublist (List.filter_sublist.map _)
  rw [Log.latest?, ← reverse_sortBy hdistinct, List.head?_reverse]

/-- A pair whose problem is of the contest has its latest action in the dictionary of the sheet. -/
theorem mem_latest {a : Action} : (key, a) ∈ db.latest c ↔
    (db.problems.get? key.2).any (·.contest = c.id) = true ∧ db.log.latest? key = some a := by
  rw [Db.latest, Dict.mem_ofList, Db.actions, sortBy, FirstBest.filter_insertionSort, ← sortBy, List.filter_filter]
  by_cases hproblem : (db.problems.get? key.2).any (·.contest = c.id) = true
  · have hsame : db.log.rows.filter (fun a => decide (a.key = key) && (db.problems.get? a.problem).any (·.contest = c.id)) =
        db.log.rows.filter (·.key = key) := by
      refine List.filter_congr fun a _ => ?_
      by_cases hkey : a.key = key
      · have hsame : a.problem = key.2 := congrArg Prod.snd hkey
        rw [hsame, hproblem, Bool.and_true]
      · simp [hkey]
    rw [hsame, latest?_eq]
    simp [hproblem]
  · have hnone : db.log.rows.filter (fun a => decide (a.key = key) && (db.problems.get? a.problem).any (·.contest = c.id)) =
        [] := by
      refine List.filter_eq_nil_iff.mpr fun a _ hboth => hproblem ?_
      obtain ⟨hkey, hany⟩ := (Bool.and_eq_true _ _).mp hboth
      have hsame : a.problem = key.2 := congrArg Prod.snd (of_decide_eq_true hkey)
      rwa [hsame] at hany
    rw [hnone]
    simp [hproblem, sortBy]

/-! ## What the sheet shows -/

/-- The latest action of a pair is a delivery. -/
def Log.isDelivered (log : Log) (key : Key) : Bool := (log.latest? key).any (·.action = .delivered)

theorem Db.key_of_delivery {item : Key × Action} {b : Balloon} (h : db.delivery c item = some b) : b.key = item.1 := by
  unfold Db.delivery at h
  split at h
  · cases h
  · obtain rfl := Option.some.inj h
    show ((((db.readAll c).balloons.find? (·.1 = item.1)).bind (·.2)).getD _).key = item.1
    cases hfind : (db.readAll c).balloons.find? (·.1 = item.1) with
    | none => rfl
    | some found =>
        cases hballoon : found.2 with
        | none => simp [hballoon, Balloon.key]
        | some balloon =>
            have hkey : found.1 = item.1 := by simpa using List.find?_some hfind
            have hmem : (found.1, some balloon) ∈ (db.readAll c).balloons := hballoon ▸ List.mem_of_find?_eq_some hfind
            obtain ⟨s, p, -, -, hentry⟩ := reads_foldl.entry _ _ hmem
            split at hentry
            · cases hentry
            · obtain ⟨b, hb, hbkey⟩ := hentry
              obtain rfl := Option.some.inj hb
              simpa [hballoon] using hbkey.trans hkey

theorem mem_delivered : (∃ b ∈ (db.latest c).filterMap (db.delivery c), b.key = key) ↔
    (db.problems.get? key.2).any (·.contest = c.id) = true ∧ db.log.isDelivered key = true := by
  constructor
  · rintro ⟨b, hb, hkey⟩
    obtain ⟨item, hitem, hdelivery⟩ := List.mem_filterMap.mp hb
    obtain rfl : item.1 = key := (Db.key_of_delivery hdelivery).symm.trans hkey
    obtain ⟨hproblem, hlatest⟩ := mem_latest.mp hitem
    refine ⟨hproblem, ?_⟩
    rw [Log.isDelivered, hlatest]
    unfold Db.delivery at hdelivery
    split at hdelivery
    next => cases hdelivery
    next haction => exact decide_eq_true (not_not.mp haction)
  · rintro ⟨hproblem, hdelivered⟩
    obtain ⟨a, hlatest, haction⟩ := (Option.any_eq_true _ _).mp hdelivered
    have hsome : (db.delivery c (key, a)).isSome := by
      rw [Db.delivery, if_neg (not_not.mpr (of_decide_eq_true haction))]
      rfl
    obtain ⟨b, hb⟩ := Option.isSome_iff_exists.mp hsome
    exact ⟨b, List.mem_filterMap.mpr ⟨_, mem_latest.mpr ⟨hproblem, hlatest⟩, hb⟩, Db.key_of_delivery hb⟩

theorem sheet_delivered : (∃ b ∈ (db.buildBalloonSheet c).delivered, b.key = key) ↔
    (db.problems.get? key.2).any (·.contest = c.id) = true ∧ db.log.isDelivered key = true := by
  rw [← mem_delivered]
  exact exists_congr fun b => and_congr_left fun _ => isStableSort_sortBy.mem_iff

/-- A pair is pending if its first accepted submission is not held, and it is not delivered. -/
theorem sheet_pending : (∃ b ∈ (db.buildBalloonSheet c).pending, b.key = key) ↔
    db.log.isDelivered key = false ∧ ∃ s p, db.firstAccepted c key = some s ∧ db.entrant? c key.1 = some p ∧
      isHeld c p s.date = false := by
  have hreads : Reads db c (sortBy Submission.place (db.acceptedSubmissions c)) (db.readAll c) := reads_foldl
  constructor
  · rintro ⟨b, hb, hkey⟩
    obtain ⟨item, hitem, hb⟩ := List.mem_filterMap.mp (isStableSort_sortBy.mem_iff.mp hb)
    obtain ⟨hsome, hunmarked⟩ := Option.filter_eq_some_iff.mp hb
    obtain ⟨s, p, hfind, hentrant, hentry⟩ := hreads.entry item.1 item.2 hitem
    rw [hsome] at hentry
    split at hentry
    next => cases hentry
    next hheld =>
      obtain ⟨b', hb', hkey'⟩ := hentry
      obtain rfl := Option.some.inj hb'
      rw [← hkey', hkey] at hfind hentrant hunmarked
      rw [find?_accepted] at hfind
      refine ⟨?_, s, p, hfind, hentrant, Bool.not_eq_true _ ▸ hheld⟩
      obtain ⟨hearns, hskey⟩ := earns_of_firstAccepted hfind
      have hproblem := (Db.entrant_of_earns hearns).2
      rw [show s.problem = key.2 from congrArg Prod.snd hskey] at hproblem
      rw [← Bool.not_eq_true]
      intro hdelivered
      obtain ⟨shown, hshown, hsame⟩ := mem_delivered.mpr ⟨hproblem, hdelivered⟩
      rw [List.any_eq_true.mpr ⟨shown, hshown, decide_eq_true hsame⟩] at hunmarked
      cases hunmarked
  · rintro ⟨hunmarked, s, p, hfirst, hentrant, hheld⟩
    have hfind := find?_accepted.trans hfirst
    have hskey := (earns_of_firstAccepted hfirst).2
    have hhas : (db.readAll c).has key = true := by
      have hcovers := hreads.covers s (List.mem_of_find?_eq_some hfind)
      rw [hskey, show s.participation = key.1 from congrArg Prod.fst hskey, hentrant] at hcovers
      exact hcovers rfl
    obtain ⟨balloon, hmem⟩ := Reading.has_iff.mp hhas
    obtain ⟨s', p', hfind', hentrant', hentry⟩ := hreads.entry key balloon hmem
    obtain rfl := Option.some.inj (hfind.symm.trans hfind')
    obtain rfl := Option.some.inj (hentrant.symm.trans hentrant')
    rw [hheld, if_neg Bool.false_ne_true] at hentry
    obtain ⟨b, rfl, hbkey⟩ := hentry
    refine ⟨b, isStableSort_sortBy.mem_iff.mpr (List.mem_filterMap.mpr ⟨_, hmem, ?_⟩), hbkey⟩
    refine Option.filter_eq_some_iff.mpr ⟨rfl, ?_⟩
    rw [Bool.not_eq_true', ← Bool.not_eq_true]
    intro hany
    obtain ⟨shown, hshown, hsame⟩ := List.any_eq_true.mp hany
    have hdelivered := (mem_delivered.mp ⟨shown, hshown, of_decide_eq_true hsame⟩).2
    rw [hunmarked] at hdelivered
    cases hdelivered

/-- The balloon of a pair is due if its first accepted submission is not held. -/
theorem balloonIsDue_iff (hp : db.participations.get? key.1 = some p) (hcontest : p.contest = c.id) :
    db.balloonIsDue c p key.2 = true ↔ ∃ s p', db.firstAccepted c key = some s ∧ db.entrant? c key.1 = some p' ∧
      isHeld c p' s.date = false := by
  have hid : p.row.id = key.1 := Table.key_of_get? hp
  rw [Db.balloonIsDue, hid]
  split
  next hout =>
    have hnone : db.entrant? c key.1 = none := by
      rw [Db.entrant?, hp, Option.filter_some, if_neg]
      simp only [Bool.or_eq_true, decide_eq_true_eq] at hout
      rcases hout with hvirtual | hdisqualified
      · simp [hvirtual]
      · simp [hdisqualified]
    simp [hnone]
  next hin =>
    have hsome : db.entrant? c key.1 = some p := by
      rw [Db.entrant?, hp, Option.filter_some, if_pos]
      simp only [Bool.or_eq_true, decide_eq_true_eq, not_or, not_not] at hin
      simp [hcontest, hin.1, hin.2]
    show (db.firstAccepted c key).any (fun first => !isHeld c p first.date) = true ↔ _
    rw [hsome]
    cases db.firstAccepted c key <;> simp

end Balloons
end CpcJudge
