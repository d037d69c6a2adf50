import CpcJudge.Arena.Scoring.Rows

/-!
# `Scoring.Completion` — every way a game can still end

`decide` calls a game before its verdicts and its time are over. What it claims is about the *completions*
of the game: the judged attempts stay, every pending one is judged in some way, and, while submissions are
open, the players send more.

A completion lies between the extremes `decide` compares: nothing is below the worst case
(`worst_atMost_confirmed`) and nothing is above the best case (`confirmed_atMost_best`). Only the ways to
submit a problem that `best_case` expects matter for the second half (`exists_best`).
-/

namespace CpcJudge
namespace Arena
namespace Scoring

open Decimal FirstBest

/-! ## Positions and completions -/

/-- A game as `decide` is asked about it, at `now`: the attempts of both players are rows of the database
    sent by now, and the problems are the items of a dictionary. -/
structure Position where
  attempts : Pair (List Attempt)
  problems : List (ℕ × ℕ)
  rules : Rules
  startedAt : Time
  endsAt : Time
  now : Time
  closed : Bool
  keys : (problems.map Prod.fst).Nodup
  worth : ∀ item ∈ problems, 0 < item.2
  ids : ∀ slot, ((attempts.get slot).map (·.id)).Nodup
  sent : ∀ slot, ∀ a ∈ attempts.get slot, a.date ≤ now

namespace Position
variable (p : Position)

def partialPoints : Bool := p.rules.partialPoints.getD false
def penalty : ℕ := p.rules.penalty.getD 0
def maxAttempts : ℕ := p.rules.maxAttempts.getD 0

/-- Whether somebody can still submit. -/
def openFuture : Bool := !p.closed && p.now < p.endsAt

def futureAt : Option Time := if p.openFuture then some p.now else none

/-- `decide` at this position. -/
def decision : Decision :=
  Scoring.decide p.attempts p.problems p.rules p.startedAt p.endsAt p.now p.closed

def worst (slot : Slot) : Standing :=
  worstCase (p.attempts.get slot) p.problems p.partialPoints p.penalty p.startedAt

def best (slot : Slot) : Standing :=
  bestCase (p.attempts.get slot) p.problems p.partialPoints p.penalty p.startedAt p.futureAt p.maxAttempts

/-- The confirmed standing of a player who ends up with these attempts. -/
def confirmedOf (attempts : List Attempt) : Standing :=
  confirmed attempts p.problems p.partialPoints p.penalty p.startedAt

end Position

/-- `b` is what became of `a`: a pending attempt is judged somehow, a judged one stays. -/
structure Attempt.Settles (a b : Attempt) : Prop where
  judged : b.pending = false
  id : b.id = a.id
  date : b.date = a.date
  problem : b.problem = a.problem
  kept : a.pending = false → b = a

/-- How one player can end the game: their attempts `settled`, and the attempts `added` since, dated before
    `bound`. -/
structure Position.PlayerCompletion (p : Position) (bound : WithTop Time) (slot : Slot)
    (settled added : List Attempt) : Prop where
  settles : List.Forall₂ Attempt.Settles (p.attempts.get slot) settled
  judged : ∀ a ∈ added, a.pending = false
  shut : p.openFuture = false → added = []
  since : ∀ a ∈ added, p.now ≤ a.date
  before : ∀ a ∈ added, (a.date : WithTop Time) < bound
  fresh : ∀ a ∈ added, ∀ s, ∀ b ∈ p.attempts.get s, b.id < a.id
  limit : p.maxAttempts ≠ 0 → ∀ a ∈ added, a.counts = true →
    (settled ++ added).countP (fun b => b.problem = a.problem && b.counts) ≤ p.maxAttempts

/-- A completion of the game: both players end with their own attempts. -/
structure Position.Completion (p : Position) (bound : WithTop Time) (settled added : Pair (List Attempt)) :
    Prop where
  player : ∀ slot, p.PlayerCompletion bound slot (settled.get slot) (added.get slot)
  ids : ((added.a ++ added.b).map (·.id)).Nodup

/-- The attempts of a player at the end of a completion. -/
def atEnd (settled added : Pair (List Attempt)) (slot : Slot) : List Attempt :=
  settled.get slot ++ added.get slot

/-- The game ends with `winner` ahead. -/
def Decision.Finishes (d : Decision) (winner : Slot) : Prop := d.outcome = .finish ∧ d.winner = some winner

instance (d : Decision) (winner : Slot) : Decidable (d.Finishes winner) :=
  inferInstanceAs (Decidable (_ ∧ _))

/-- **When `decide` calls a game**: the worst of the winner beats the best of the rival, and player A is
    asked first. -/
theorem decide_finishes_iff {attempts : Pair (List Attempt)} {problems : List (ℕ × ℕ)} {rules : Rules}
    {startedAt endsAt now : Time} {closed : Bool} (hstart : startedAt ≤ now) {worst best : Slot → Standing}
    (hworst : worst = fun slot => worstCase (attempts.get slot) problems (rules.partialPoints.getD false)
      (rules.penalty.getD 0) startedAt)
    (hbest : best = fun slot => bestCase (attempts.get slot) problems (rules.partialPoints.getD false)
      (rules.penalty.getD 0) startedAt (if !closed && now < endsAt then some now else none)
      (rules.maxAttempts.getD 0)) (w : Slot) :
    (Scoring.decide attempts problems rules startedAt endsAt now closed).Finishes w ↔
      beats (worst w) (best w.other) = true ∧ (w = .b → beats (worst .a) (best .b) = false) := by
  have hdec : ∃ reasonA reasonB rest, Decision.outcome rest ≠ .finish ∧
      Scoring.decide attempts problems rules startedAt endsAt now closed =
        if beats (worst .a) (best .b) then
          { outcome := .finish, winner := some .a, reason := some reasonA }
        else if beats (worst .b) (best .a) then
          { outcome := .finish, winner := some .b, reason := some reasonB }
        else rest := by
    subst hworst hbest
    unfold Scoring.decide
    rw [if_neg (not_lt.mpr hstart)]
    refine ⟨_, _, _, ?_, rfl⟩
    split
    · simp
    · split <;> simp
  obtain ⟨reasonA, reasonB, rest, hrest, hdec⟩ := hdec
  rw [hdec, Decision.Finishes]
  cases ha : beats (worst .a) (best .b) with
  | true => cases w <;> simp [Slot.other, ha]
  | false =>
      cases hb : beats (worst .b) (best .a) with
      | true => cases w <;> simp [Slot.other, ha, hb]
      | false => cases w <;> simp [Slot.other, ha, hb, hrest]

theorem Position.finishes_iff (p : Position) (hstart : p.startedAt ≤ p.now) (w : Slot) :
    p.decision.Finishes w ↔
      beats (p.worst w) (p.best w.other) = true ∧ (w = .b → beats (p.worst .a) (p.best .b) = false) :=
  decide_finishes_iff hstart rfl rfl w

/-! ## The rows of a position -/

/-- Counting attempts does not change who is ahead. -/
theorem annotate_atMost (s : Standing) (attempts : List Attempt) :
    s.AtMost (annotate s attempts) ∧ (annotate s attempts).AtMost s := by
  have hrel : Option.Rel (· ≤ ·) s.effective s.effective := by
    cases s.effective with
    | none => exact .none
    | some x => exact .some le_rfl
  exact ⟨⟨le_rfl, fun _ => hrel⟩, ⟨le_rfl, fun _ => hrel⟩⟩

theorem Standing.AtMost.trans {s t u : Standing} (h : s.AtMost t) (h' : t.AtMost u) : s.AtMost u where
  score := h.score.trans h'.score
  effective heq := by
    have hst : s.score = t.score := le_antisymm h.score (heq ▸ h'.score)
    have hst' := h.effective hst
    have htu := h'.effective (hst ▸ heq)
    revert hst' htu
    generalize s.effective = x, t.effective = y, u.effective = z
    intro hxy hyz
    cases hyz with
    | none => cases hxy with | none => exact .none
    | some hle => cases hxy with | some hle' => exact .some (hle.trans hle')

theorem annotate_exact {s : Standing} (h : s.Exact) (attempts : List Attempt) : (annotate s attempts).Exact :=
  ⟨h.score, h.effective⟩

namespace Position
variable (p : Position) {slot : Slot} {bound : WithTop Time} {settled added : List Attempt}

theorem confirmedOf_exact (attempts : List Attempt) : (p.confirmedOf attempts).Exact :=
  annotate_exact (standing_exact _ _ _ _) _

theorem worst_exact (slot : Slot) : (p.worst slot).Exact := standing_exact _ _ _ _

theorem best_exact (slot : Slot) : (p.best slot).Exact := standing_exact _ _ _ _

/-- What the best case of a problem adds to the attempts. -/
def future (slot : Slot) (item : ℕ × ℕ) : List Event :=
  match p.futureAt with
  | none => []
  | some moment =>
    (futureEvent (p.attempts.get slot) (bestEvents (p.attempts.get slot) p.problems p.partialPoints)
      p.maxAttempts moment item.1 item.2).toList

/-- The attempts on a problem, each with what became of it. -/
def items (slot : Slot) (settled : List Attempt) (key : ℕ) : List (Attempt × Attempt) :=
  ((p.attempts.get slot).zip settled).filter (·.1.problem = key)

end Position

section
variable {p : Position} {item : ℕ × ℕ} (hitem : item ∈ p.problems)
include hitem

theorem Position.worst_row (slot : Slot) :
    (rowEvents (judgedEvents (p.attempts.get slot) p.problems p.partialPoints ++
        (p.attempts.get slot).filterMap fun a =>
          if a.pending then (p.problems.lookup a.problem).map fun _ => pendingEvent 0 true a else none)
        item.1).Perm
      ((onProblem (p.attempts.get slot) item.1).map (worstEvent p.partialPoints item.2)) :=
  row_perm (lookup_of_mem p.keys hitem) _ (fun _ a => pendingEvent 0 true a) (fun _ _ => rfl) _

theorem Position.best_row (slot : Slot) :
    (rowEvents (bestEvents (p.attempts.get slot) p.problems p.partialPoints ++
        match p.futureAt with
        | none => []
        | some moment => p.problems.filterMap fun (key, full) =>
            futureEvent (p.attempts.get slot) (bestEvents (p.attempts.get slot) p.problems p.partialPoints)
              p.maxAttempts moment key full) item.1).Perm
      ((onProblem (p.attempts.get slot) item.1).map (bestEvent p.partialPoints item.2) ++
        p.future slot item) := by
  have hbest : (rowEvents (bestEvents (p.attempts.get slot) p.problems p.partialPoints) item.1).Perm
      ((onProblem (p.attempts.get slot) item.1).map (bestEvent p.partialPoints item.2)) :=
    row_perm (lookup_of_mem p.keys hitem) _ (fun n a => pendingEvent n false a) (fun _ _ => rfl) _
  rw [rowEvents, List.filter_append]
  refine hbest.append (List.Perm.of_eq ?_)
  unfold Position.future
  split
  · rfl
  · exact filter_filterMap_keys p.keys hitem fun _ e he => by rw [futureEvent_eq_some he]

theorem Position.confirmed_row {attempts : List Attempt} (hjudged : ∀ a ∈ attempts, a.pending = false) :
    rowEvents (judgedEvents attempts p.problems p.partialPoints) item.1 =
      (onProblem attempts item.1).map (judgedEvent p.partialPoints item.2) := by
  rw [judgedEvents_row (lookup_of_mem p.keys hitem), List.filter_eq_self.mpr]
  intro a ha
  simp [hjudged a (List.mem_of_mem_filter ha)]

end

/-- One event for each attempt, placed where the attempt is. -/
theorem placed_map {attempts : List Attempt} {event : Attempt → Event} {key : ℕ}
    (hids : (attempts.map (·.id)).Nodup) (horder : ∀ a, (event a).order = a.place)
    (hround : ∀ a, Rounded (event a).points) : Placed ((onProblem attempts key).map event) where
  distinct := by
    rw [List.map_map, show Event.order ∘ event = Attempt.place from funext horder]
    exact ((List.filter_sublist).map _).nodup (place_injOn hids)
  rounded x hx := by
    obtain ⟨a, _, rfl⟩ := List.mem_map.mp hx
    exact hround a

theorem Position.future_eq {p : Position} {slot : Slot} {item : ℕ × ℕ} {e : Event}
    (he : e ∈ p.future slot item) :
    e = { problem := item.1, date := p.now, order := toLex (p.now, ⊤), points := item.2,
          penalizable := false } ∧ p.openFuture = true := by
  unfold Position.future Position.futureAt at he
  by_cases hopen : p.openFuture = true
  · rw [if_pos hopen] at he
    exact ⟨futureEvent_eq_some (Option.mem_toList.mp he), hopen⟩
  · rw [if_neg hopen] at he
    cases he

theorem Position.place_lt_future (p : Position) {slot : Slot} {a : Attempt} (ha : a ∈ p.attempts.get slot) :
    a.place < toLex (p.now, ⊤) := by
  rw [Attempt.place, Prod.Lex.toLex_lt_toLex]
  rcases (p.sent slot a ha).lt_or_eq with hlt | heq
  · exact .inl hlt
  · exact .inr ⟨heq, WithTop.coe_lt_top _⟩

/-- The row of the best case is well placed: at most one future solve, after every attempt. -/
theorem Position.placed_best (p : Position) (slot : Slot) (item : ℕ × ℕ) :
    Placed ((onProblem (p.attempts.get slot) item.1).map (bestEvent p.partialPoints item.2) ++
      p.future slot item) := by
  have hattempts : Placed ((onProblem (p.attempts.get slot) item.1).map
      (bestEvent p.partialPoints item.2)) :=
    placed_map (p.ids slot) (fun _ => bestEvent_order) fun _ => bestEvent_rounded
  refine ⟨?_, fun x hx => ?_⟩
  · rw [List.map_append, List.nodup_append']
    refine ⟨hattempts.distinct, ?_, ?_⟩
    · unfold Position.future
      split
      · exact List.nodup_nil
      · exact (List.Nodup.map_on (by simp +contextual [Option.mem_toList]) (Option.toList_nodup _))
    · intro o ho ho'
      obtain ⟨x, hx, rfl⟩ := List.mem_map.mp ho
      obtain ⟨a, ha, rfl⟩ := List.mem_map.mp hx
      obtain ⟨e, he, heq⟩ := List.mem_map.mp ho'
      rw [(Position.future_eq he).1, bestEvent_order] at heq
      exact absurd heq (p.place_lt_future (List.mem_of_mem_filter ha)).ne'
  · rcases List.mem_append.mp hx with hx | hx
    · exact hattempts.rounded x hx
    · rw [(Position.future_eq hx).1]
      exact onGrid_natCast (by norm_num) _

namespace Position.PlayerCompletion
variable {p : Position} {bound : WithTop Time} {slot : Slot} {settled added : List Attempt}
  (h : p.PlayerCompletion bound slot settled added)
include h

theorem settles_of_mem {i : Attempt × Attempt} (hi : i ∈ (p.attempts.get slot).zip settled) :
    i.1.Settles i.2 := (List.forall₂_iff_zip.mp h.settles).2 hi

theorem map_fst_zip : ((p.attempts.get slot).zip settled).map Prod.fst = p.attempts.get slot :=
  List.map_fst_zip h.settles.length_eq.le

theorem map_snd_zip : ((p.attempts.get slot).zip settled).map Prod.snd = settled :=
  List.map_snd_zip h.settles.length_eq.ge

theorem onProblem_before (key : ℕ) :
    onProblem (p.attempts.get slot) key = (p.items slot settled key).map Prod.fst := by
  conv_lhs => rw [onProblem, ← h.map_fst_zip]
  rw [List.filter_map]
  rfl

theorem onProblem_after (key : ℕ) :
    onProblem settled key = (p.items slot settled key).map Prod.snd := by
  conv_lhs => rw [onProblem, ← h.map_snd_zip]
  rw [List.filter_map, Position.items]
  congr 1
  refine List.filter_congr fun i hi => ?_
  simp [(h.settles_of_mem hi).problem]

theorem settles_of_items {key : ℕ} {i : Attempt × Attempt} (hi : i ∈ p.items slot settled key) :
    i.1.Settles i.2 := h.settles_of_mem (List.mem_of_mem_filter hi)

theorem ids_settled : settled.map (·.id) = (p.attempts.get slot).map (·.id) := by
  calc settled.map (·.id)
      = ((p.attempts.get slot).zip settled).map (·.2.id) := by
        conv_lhs => rw [← h.map_snd_zip, List.map_map]
        rfl
    _ = ((p.attempts.get slot).zip settled).map (·.1.id) :=
        List.map_congr_left fun i hi => (h.settles_of_mem hi).id
    _ = (p.attempts.get slot).map (·.id) := by
        conv_rhs => rw [← h.map_fst_zip, List.map_map]
        rfl

theorem mem_settled {b : Attempt} (hb : b ∈ settled) :
    ∃ a ∈ p.attempts.get slot, a.Settles b := by
  rw [← h.map_snd_zip] at hb
  obtain ⟨i, hi, rfl⟩ := List.mem_map.mp hb
  exact ⟨i.1, (List.of_mem_zip hi).1, h.settles_of_mem hi⟩

theorem judged_after : ∀ a ∈ settled ++ added, a.pending = false := by
  intro a ha
  rcases List.mem_append.mp ha with ha | ha
  · obtain ⟨_, _, hs⟩ := h.mem_settled ha
    exact hs.judged
  · exact h.judged a ha

theorem nodup_after (hids : (added.map (·.id)).Nodup) : ((settled ++ added).map (·.id)).Nodup := by
  rw [List.map_append, h.ids_settled, List.nodup_append']
  refine ⟨p.ids slot, hids, ?_⟩
  intro id hid hid'
  obtain ⟨b, hb, rfl⟩ := List.mem_map.mp hid
  obtain ⟨a, ha, heq⟩ := List.mem_map.mp hid'
  exact absurd heq (h.fresh a ha slot b hb).ne'

/-- What is added comes after every attempt there was. -/
theorem place_lt {a : Attempt} (ha : a ∈ added) {b b' : Attempt} (hb : b ∈ p.attempts.get slot)
    (hs : b.Settles b') : b'.place < a.place := by
  have hdate : b.date ≤ a.date := (p.sent slot b hb).trans (h.since a ha)
  rw [Attempt.place, Attempt.place, Prod.Lex.toLex_lt_toLex, hs.date, hs.id]
  rcases hdate.lt_or_eq with hlt | heq
  · exact .inl hlt
  · have hid : (b.id : WithTop ℕ) < a.id := by exact_mod_cast h.fresh a ha slot b hb
    exact .inr ⟨heq, hid⟩

theorem openFuture_of_mem {a : Attempt} (ha : a ∈ added) : p.openFuture = true := by
  by_contra hopen
  rw [h.shut (by simpa using hopen)] at ha
  cases ha

/-- The row of one problem at the end: the settled attempts, then the added ones. -/
theorem row_after {item : ℕ × ℕ} (hitem : item ∈ p.problems) :
    rowEvents (judgedEvents (settled ++ added) p.problems p.partialPoints) item.1 =
      (p.items slot settled item.1).map (fun i => judgedEvent p.partialPoints item.2 i.2) ++
        (onProblem added item.1).map (judgedEvent p.partialPoints item.2) := by
  rw [Position.confirmed_row hitem h.judged_after, onProblem, List.filter_append, List.map_append]
  rw [← onProblem, ← onProblem, h.onProblem_after, List.map_map]
  rfl

theorem placed_after {item : ℕ × ℕ} (hitem : item ∈ p.problems) (hids : (added.map (·.id)).Nodup) :
    Placed (rowEvents (judgedEvents (settled ++ added) p.problems p.partialPoints) item.1) := by
  rw [Position.confirmed_row hitem h.judged_after]
  exact placed_map (h.nodup_after hids) (fun _ => rfl) fun _ => pointsOf_rounded _ _ _

/-- **The worst case is the worst.** -/
theorem worst_atMost_confirmed (hids : (added.map (·.id)).Nodup) :
    (p.worst slot).AtMost (p.confirmedOf (settled ++ added)) := by
  refine Standing.AtMost.trans ?_ (annotate_atMost _ _).1
  have hworst : ∀ item ∈ p.problems, Placed ((onProblem (p.attempts.get slot) item.1).map
      (worstEvent p.partialPoints item.2)) := fun item _ =>
    placed_map (p.ids slot) (fun _ => worstEvent_order) fun _ => worstEvent_rounded
  have hplaced := fun item hi => (hworst item hi).perm (Position.worst_row hi slot).symm
  refine standing_atMost (fun item hi => (hplaced item hi).rounded)
    (fun item hi => (h.placed_after hi hids).rounded) (fun item hi => ?_) _ _
  have hrow := (problemStanding_spec (hplaced item hi) item.2).perm (Position.worst_row hi slot)
  have hrow' := problemStanding_spec (h.placed_after hi hids) item.2
  rw [h.onProblem_before, List.map_map] at hrow
  rw [h.row_after hi] at hrow'
  refine atMost_judged hrow hrow' ?_ ?_ ?_ ?_ ?_
  · intro i hi
    have hs := h.settles_of_items hi
    simp [Attempt.place, hs.date, hs.id]
  · -- only a judged attempt earns anything in the worst case
    intro i hi hpos
    have hs := h.settles_of_items hi
    cases hp : i.1.pending with
    | true => simp [worstEvent, hp, pendingEvent] at hpos
    | false => simp [worstEvent, hp, hs.kept hp]
  · intro i hi hpen
    have hs := h.settles_of_items hi
    cases hp : i.1.pending with
    | true => simp [worstEvent, hp, pendingEvent]
    | false => simpa [worstEvent, hp, hs.kept hp] using hpen
  · intro i hi x hx
    obtain ⟨a, ha, rfl⟩ := List.mem_map.mp hx
    have hi' := List.mem_of_mem_filter hi
    exact h.place_lt (List.mem_of_mem_filter ha) (List.of_mem_zip hi').1 (h.settles_of_mem hi')
  · intro x hx
    rcases List.mem_append.mp hx with hx | hx
    all_goals
      obtain ⟨_, _, rfl⟩ := List.mem_map.mp hx
      exact judgedEvent_dated

/-- Whoever solves a problem after now could be expected to: the best case has it solved already, or it
    lets them solve it now. -/
theorem exists_best {item : ℕ × ℕ} (hitem : item ∈ p.problems) {a : Attempt} (ha : a ∈ added)
    (hkey : a.problem = item.1) (hpos : 0 < pointsOf a item.2 p.partialPoints) :
    ∃ y ∈ (p.items slot settled item.1).map (fun i => bestEvent p.partialPoints item.2 i.1) ++
      p.future slot item, (item.2 : ℚ) ≤ y.points := by
  set events := bestEvents (p.attempts.get slot) p.problems p.partialPoints with hevents
  have hrow : (rowEvents events item.1).Perm
      ((p.items slot settled item.1).map fun i => bestEvent p.partialPoints item.2 i.1) := by
    have := row_perm (lookup_of_mem p.keys hitem) p.partialPoints (fun n a => pendingEvent n false a) (fun _ _ => rfl)
      (p.attempts.get slot)
    rw [h.onProblem_before, List.map_map] at this
    exact this
  have hexact : ∀ y ∈ rowEvents events item.1,
      (item.2 : ℚ) - epsilon ≤ y.points ↔ (item.2 : ℚ) ≤ y.points := fun y hy => by
    obtain ⟨i, _, rfl⟩ := List.mem_map.mp (hrow.mem_iff.mp hy)
    exact le_tolerance_iff (by norm_num) epsilon_nonneg epsilon_lt_points
      (onGrid_natCast (by norm_num) _) bestEvent_rounded
  by_cases hdone : ∃ y ∈ rowEvents events item.1, (item.2 : ℚ) ≤ y.points
  · obtain ⟨y, hy, hle⟩ := hdone
    exact ⟨y, List.mem_append_left _ (hrow.mem_iff.mp hy), hle⟩
  · push Not at hdone
    -- nothing on the problem is pending, so every attempt used so far stays used
    have hsame : ∀ i ∈ p.items slot settled item.1, i.2 = i.1 := fun i hi => by
      refine (h.settles_of_items hi).kept ?_
      by_contra hp
      rw [Bool.not_eq_false] at hp
      refine absurd (hdone _ (hrow.mem_iff.mpr (List.mem_map_of_mem hi))) ?_
      simp [bestEvent, hp, pendingEvent]
    have hleft : (attemptsLeft (p.attempts.get slot) item.1 p.maxAttempts).isNone ||
        (attemptsLeft (p.attempts.get slot) item.1 p.maxAttempts).any (0 < ·) := by
      unfold attemptsLeft
      by_cases hmax : p.maxAttempts = 0
      · simp [hmax]
      · have hcounts := counts_of_pointsOf_pos hpos
        have hlimit := h.limit hmax a ha hcounts
        have hused : (p.attempts.get slot).countP (fun b => b.problem = item.1 && b.counts) =
            settled.countP (fun b => b.problem = item.1 && b.counts) := by
          have hsplit : ∀ l : List Attempt, l.countP (fun b => b.problem = item.1 && b.counts) =
              (onProblem l item.1).countP (·.counts) := fun l => by
            rw [onProblem, List.countP_filter]
            exact List.countP_congr fun b _ => by simp [and_comm]
          rw [hsplit, hsplit, h.onProblem_before, h.onProblem_after]
          congr 1
          exact List.map_congr_left fun i hi => (hsame i hi).symm
        have hone : 0 < added.countP (fun b => b.problem = item.1 && b.counts) :=
          List.countP_pos_iff.mpr ⟨a, ha, by simp [hkey, hcounts]⟩
        rw [hkey, List.countP_append] at hlimit
        simp only [hmax, if_false, Option.isNone_some, Option.any_some, Bool.false_or, decide_eq_true_eq]
        omega
    have hfuture : p.future slot item =
        [{ problem := item.1, date := p.now, order := toLex (p.now, ⊤), points := item.2,
           penalizable := false }] := by
      have hany : (events.any fun e => e.problem = item.1 && item.2 - epsilon ≤ e.points) = false := by
        rw [List.any_eq_false]
        intro y hy
        simp only [Bool.and_eq_true, decide_eq_true_eq, not_and]
        intro hproblem hle
        have hmem : y ∈ rowEvents events item.1 := List.mem_filter.mpr ⟨hy, by simpa using hproblem⟩
        exact absurd ((hexact y hmem).mp hle) (not_le.mpr (hdone y hmem))
      unfold Position.future Position.futureAt
      rw [if_pos (h.openFuture_of_mem ha)]
      simp only [futureEvent, ← hevents, hany, Bool.not_false, Bool.true_and]
      rw [if_pos hleft]
      rfl
    exact ⟨_, List.mem_append_right _ (by rw [hfuture]; exact List.mem_singleton_self _), le_rfl⟩

/-- **The best case is the best.** -/
theorem confirmed_atMost_best (hids : (added.map (·.id)).Nodup) :
    (p.confirmedOf (settled ++ added)).AtMost (p.best slot) := by
  refine (annotate_atMost _ _).2.trans ?_
  have hplaced := fun item hi => (p.placed_best slot item).perm (Position.best_row hi slot).symm
  refine standing_atMost (fun item hi => (h.placed_after hi hids).rounded)
    (fun item hi => (hplaced item hi).rounded) (fun item hi => ?_) _ _
  have hrow := problemStanding_spec (h.placed_after hi hids) item.2
  have hrow' := (problemStanding_spec (hplaced item hi) item.2).perm (Position.best_row hi slot)
  rw [h.row_after hi] at hrow
  rw [h.onProblem_before, List.map_map] at hrow'
  refine judged_atMost item.2 p.now hrow hrow' ?_ ?_ ?_ ?_ ?_ ?_ ?_ ?_ ?_ ?_
  · intro i hi
    have hs := h.settles_of_items hi
    simp [Attempt.place, hs.date, hs.id]
  · intro i hi
    have hs := h.settles_of_items hi
    cases hp : i.1.pending with
    | true => simpa [bestEvent, hp, pendingEvent] using pointsOf_le _ _ _
    | false => simp [bestEvent, hp, hs.kept hp]
  · intro i hi hpen
    have hs := h.settles_of_items hi
    cases hp : i.1.pending with
    | true => simp [bestEvent, hp, pendingEvent] at hpen
    | false => simpa [bestEvent, hp, hs.kept hp] using hpen
  · intro i hi x hx
    obtain ⟨a, ha, rfl⟩ := List.mem_map.mp hx
    have hi' := List.mem_of_mem_filter hi
    exact h.place_lt (List.mem_of_mem_filter ha) (List.of_mem_zip hi').1 (h.settles_of_mem hi')
  · intro x hx
    obtain ⟨a, ha, rfl⟩ := List.mem_map.mp hx
    exact h.since a (List.mem_of_mem_filter ha)
  · intro x hx
    obtain ⟨a, _, rfl⟩ := List.mem_map.mp hx
    exact pointsOf_le _ _ _
  · intro x hx hpos
    obtain ⟨a, ha, rfl⟩ := List.mem_map.mp hx
    exact h.exists_best hi (List.mem_of_mem_filter ha) (by simpa using (List.mem_filter.mp ha).2) hpos
  · intro x hx
    rw [(Position.future_eq hx).1]
    exact ⟨rfl, rfl⟩
  · intro x hx
    rcases List.mem_append.mp hx with hx | hx
    all_goals
      obtain ⟨_, _, rfl⟩ := List.mem_map.mp hx
      exact judgedEvent_dated
  · intro x hx
    rcases List.mem_append.mp hx with hx | hx
    · obtain ⟨_, _, rfl⟩ := List.mem_map.mp hx
      exact bestEvent_dated
    · rw [(Position.future_eq hx).1]
      rfl

end Position.PlayerCompletion

end Scoring
end Arena
end CpcJudge
