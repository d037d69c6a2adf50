import CpcJudge.Arena.Scoring.Completion

/-!
# `Scoring.Certain` — a game is called exactly when its winner is certain

*A game ends as soon as one player is certain to win.* Both halves are about the completions of the game:

* `decision_sound`: once a game is called, the winner ends ahead in every completion.
* `decision_complete`: a game is called as soon as the same player ends ahead in every completion. The
  extremes `decide` compares are completions themselves: `rejected` fails everything a player has pending,
  `accepted` and `solves` give them everything they can still get.
-/

namespace CpcJudge
namespace Arena
namespace Scoring

open Decimal FirstBest

/-! ## The extremes happen -/

/-- A pending attempt that fails. -/
def rejected (a : Attempt) : Attempt :=
  if a.pending then { a with status := .d, result := some .wa, casePoints := 0, caseTotal := 1 } else a

/-- A pending attempt that solves its problem. -/
def accepted (a : Attempt) : Attempt :=
  if a.pending then { a with status := .d, result := some .ac, casePoints := 1, caseTotal := 1 } else a

theorem rejected_settles (a : Attempt) : a.Settles (rejected a) := by
  cases hp : a.pending
  · simp only [rejected, hp, Bool.false_eq_true, if_false]
    exact ⟨hp, rfl, rfl, rfl, fun _ => rfl⟩
  · simp only [rejected, hp, if_true]
    exact ⟨rfl, rfl, rfl, rfl, fun h => absurd h (by rw [hp]; decide)⟩

theorem accepted_settles (a : Attempt) : a.Settles (accepted a) := by
  cases hp : a.pending
  · simp only [accepted, hp, Bool.false_eq_true, if_false]
    exact ⟨hp, rfl, rfl, rfl, fun _ => rfl⟩
  · simp only [accepted, hp, if_true]
    exact ⟨rfl, rfl, rfl, rfl, fun h => absurd h (by rw [hp]; decide)⟩

/-- An attempt waiting for its verdict uses up one of the attempts allowed, and so does its solve. -/
theorem accepted_counts (a : Attempt) : (accepted a).counts = a.counts := by
  cases hp : a.pending
  · simp [accepted, hp]
  · have hstatus : a.status ∈ pendingStatuses := by simpa [Attempt.pending] using hp
    simp only [accepted, hp, if_true, Attempt.counts]
    revert hstatus
    generalize a.status = status
    revert status
    decide

/-- A failed attempt is worth what the worst case takes it for. -/
theorem judgedEvent_rejected (partialPoints : Bool) (full : ℕ) (a : Attempt) :
    judgedEvent partialPoints full (rejected a) = worstEvent partialPoints full a := by
  cases hp : a.pending
  · simp [rejected, worstEvent, hp]
  · have hzero : round3 0 = 0 := roundTo_of_onGrid (by norm_num) onGrid_zero
    simp only [rejected, worstEvent, hp, if_true, judgedEvent, pendingEvent]
    congr 1
    unfold pointsOf
    cases partialPoints
    · simp
    · simp [hzero]

theorem pointsOf_accepted {a : Attempt} (hp : a.pending = true) (full : ℕ) (partialPoints : Bool) :
    pointsOf (accepted a) full partialPoints = full := by
  simp [pointsOf, accepted, hp]

/-- A solve of the problem `key` sent at `date`. -/
def solveAt (id : ℕ) (date : Time) (key : ℕ) : Attempt where
  id := id
  date := date
  status := .d
  result := some .ac
  casePoints := 1
  caseTotal := 1
  problem := key

namespace Position
variable (p : Position)

/-- An id no attempt has reached. -/
def freshId : ℕ := ((p.attempts.a ++ p.attempts.b).map (·.id)).foldr max 0 + 1

theorem lt_freshId {slot : Slot} {a : Attempt} (ha : a ∈ p.attempts.get slot) : a.id < p.freshId := by
  have hmem : a.id ∈ (p.attempts.a ++ p.attempts.b).map (·.id) := by
    refine List.mem_map_of_mem (List.mem_append.mpr ?_)
    cases slot
    · exact .inl ha
    · exact .inr ha
  have hmax : ∀ l : List ℕ, a.id ∈ l → a.id ≤ l.foldr max 0 := by
    intro l
    induction l with
    | nil => intro h; cases h
    | cons x l ih =>
        intro h
        rcases List.mem_cons.mp h with rfl | h
        · exact le_max_left _ _
        · exact (ih h).trans (le_max_right _ _)
  exact Nat.lt_succ_of_le (hmax _ hmem)

/-- The solve of one problem that the best case of a player still expects. -/
def solve (slot : Slot) (item : ℕ × ℕ) : Option Attempt :=
  if (p.future slot item).isEmpty then none else some (solveAt (p.freshId + item.1) p.now item.1)

/-- All of them, sent now. -/
def solves (slot : Slot) : List Attempt := p.problems.filterMap (p.solve slot)

theorem solve_eq {slot : Slot} {item : ℕ × ℕ} {a : Attempt} (h : p.solve slot item = some a) :
    a = solveAt (p.freshId + item.1) p.now item.1 ∧ ∃ e, e ∈ p.future slot item := by
  unfold solve at h
  split at h
  · cases h
  · rename_i hempty
    refine ⟨(Option.some.inj h).symm, ?_⟩
    exact List.exists_mem_of_ne_nil _ (by simpa using hempty)

theorem mem_solves {slot : Slot} {a : Attempt} (ha : a ∈ p.solves slot) :
    ∃ item ∈ p.problems, p.solve slot item = some a := List.mem_filterMap.mp ha

/-- A player has at most one solve left on a problem. -/
theorem onProblem_solves {item : ℕ × ℕ} (hitem : item ∈ p.problems) (slot : Slot) :
    onProblem (p.solves slot) item.1 = (p.solve slot item).toList :=
  filter_filterMap_keys p.keys hitem fun _ a ha => by rw [(p.solve_eq ha).1]; rfl

theorem nodup_solves (slot : Slot) : ((p.solves slot).map (·.id)).Nodup := by
  have hids : ∀ problems : List (ℕ × ℕ), (problems.map Prod.fst).Nodup →
      ((problems.filterMap (p.solve slot)).map (·.id)).Nodup := by
    intro problems hkeys
    induction problems with
    | nil => exact List.nodup_nil
    | cons item problems ih =>
        rw [List.map_cons, List.nodup_cons] at hkeys
        cases hsolve : p.solve slot item with
        | none => rw [List.filterMap_cons_none hsolve]; exact ih hkeys.2
        | some a =>
            rw [List.filterMap_cons_some hsolve, List.map_cons, List.nodup_cons]
            refine ⟨fun hmem => ?_, ih hkeys.2⟩
            obtain ⟨b, hb, hid⟩ := List.mem_map.mp hmem
            obtain ⟨other, hother, hb⟩ := List.mem_filterMap.mp hb
            rw [(p.solve_eq hb).1, (p.solve_eq hsolve).1] at hid
            have hkey : other.1 = item.1 := Nat.add_left_cancel hid
            exact hkeys.1 (hkey ▸ List.mem_map_of_mem (f := Prod.fst) hother)
  exact hids p.problems p.keys

/-- With a future solve on a problem, an attempt is left on it. -/
theorem attempts_left_of_future {slot : Slot} {item : ℕ × ℕ} {e : Event} (he : e ∈ p.future slot item)
    (hmax : p.maxAttempts ≠ 0) :
    (p.attempts.get slot).countP (fun b => b.problem = item.1 && b.counts) < p.maxAttempts := by
  have hopen := (future_eq he).2
  unfold future futureAt at he
  rw [if_pos hopen] at he
  simp only [futureEvent, attemptsLeft, hmax, if_false, Option.isNone_some, Option.any_some,
    Bool.false_or] at he
  split at he
  · rename_i h
    simp only [Bool.and_eq_true, decide_eq_true_eq] at h
    omega
  · cases he

/-- Everything a player has pending fails, and they send nothing else. -/
theorem rejected_completion (bound : WithTop Time) (slot : Slot) :
    p.PlayerCompletion bound slot ((p.attempts.get slot).map rejected) [] where
  settles := List.forall₂_map_right_iff.mpr (List.forall₂_same.mpr fun a _ => rejected_settles a)
  judged _ ha := by cases ha
  shut _ := rfl
  since _ ha := by cases ha
  before _ ha := by cases ha
  fresh _ ha := by cases ha
  limit _ _ ha := by cases ha

/-- Everything a player has pending succeeds, and they solve everything else right now. -/
theorem accepted_completion (slot : Slot) :
    p.PlayerCompletion p.endsAt slot ((p.attempts.get slot).map accepted) (p.solves slot) where
  settles := List.forall₂_map_right_iff.mpr (List.forall₂_same.mpr fun a _ => accepted_settles a)
  judged a ha := by
    obtain ⟨item, _, hsolve⟩ := p.mem_solves ha
    rw [(p.solve_eq hsolve).1]; rfl
  shut hshut := by
    refine List.eq_nil_iff_forall_not_mem.mpr fun a ha => ?_
    obtain ⟨item, _, hsolve⟩ := p.mem_solves ha
    obtain ⟨e, he⟩ := (p.solve_eq hsolve).2
    rw [(future_eq he).2] at hshut
    cases hshut
  since a ha := by
    obtain ⟨item, _, hsolve⟩ := p.mem_solves ha
    rw [(p.solve_eq hsolve).1]; rfl
  before a ha := by
    obtain ⟨item, _, hsolve⟩ := p.mem_solves ha
    obtain ⟨e, he⟩ := (p.solve_eq hsolve).2
    have hopen := (future_eq he).2
    simp only [openFuture, Bool.and_eq_true, decide_eq_true_eq] at hopen
    rw [(p.solve_eq hsolve).1]
    exact WithTop.coe_lt_coe.mpr hopen.2
  fresh a ha s b hb := by
    obtain ⟨item, _, hsolve⟩ := p.mem_solves ha
    rw [(p.solve_eq hsolve).1]
    exact (p.lt_freshId hb).trans_le (Nat.le_add_right _ _)
  limit hmax a ha _ := by
    obtain ⟨item, hitem, hsolve⟩ := p.mem_solves ha
    obtain ⟨heq, e, he⟩ := p.solve_eq hsolve
    have hleft := p.attempts_left_of_future he hmax
    have hkey : a.problem = item.1 := by rw [heq]; rfl
    rw [hkey, List.countP_append, List.countP_map]
    have hbefore : (p.attempts.get slot).countP
          ((fun b => decide (b.problem = item.1) && b.counts) ∘ accepted) =
        (p.attempts.get slot).countP fun b => b.problem = item.1 && b.counts :=
      List.countP_congr fun b _ => by
        simp [accepted_counts, (accepted_settles b).problem]
    have hafter : (p.solves slot).countP (fun b => b.problem = item.1 && b.counts) ≤ 1 := by
      calc (p.solves slot).countP (fun b => b.problem = item.1 && b.counts)
          ≤ (p.solves slot).countP (fun b => b.problem = item.1) :=
            List.countP_mono_left fun b _ hb => by simp only [Bool.and_eq_true] at hb; exact hb.1
        _ = (onProblem (p.solves slot) item.1).length := List.countP_eq_length_filter
        _ ≤ 1 := by
            rw [p.onProblem_solves hitem]
            cases p.solve slot item <;> simp
    omega

end Position

/-- Failing everything pending is the worst case. -/
theorem Position.confirmed_rejected_atMost (p : Position) (slot : Slot) :
    (p.confirmedOf ((p.attempts.get slot).map rejected)).AtMost (p.worst slot) := by
  refine (annotate_atMost _ _).2.trans ?_
  have hworst : ∀ item ∈ p.problems, Placed ((onProblem (p.attempts.get slot) item.1).map
      (worstEvent p.partialPoints item.2)) := fun item _ =>
    placed_map (p.ids slot) (fun _ => worstEvent_order) fun _ => worstEvent_rounded
  have hreal : ∀ item ∈ p.problems,
      rowEvents (judgedEvents ((p.attempts.get slot).map rejected) p.problems p.partialPoints) item.1 =
        (onProblem (p.attempts.get slot) item.1).map (worstEvent p.partialPoints item.2) := by
    intro item hi
    have hjudged := (p.rejected_completion ⊤ slot).judged_after
    rw [List.append_nil] at hjudged
    rw [Position.confirmed_row hi hjudged, onProblem, List.filter_map, List.map_map, onProblem]
    have hfilter : (fun a : Attempt => decide (a.problem = item.1)) ∘ rejected =
        fun a => decide (a.problem = item.1) := funext fun a => by simp [(rejected_settles a).problem]
    rw [hfilter]
    exact List.map_congr_left fun a _ => judgedEvent_rejected _ _ _
  have hplaced : ∀ item ∈ p.problems, Placed (rowEvents
      (judgedEvents ((p.attempts.get slot).map rejected) p.problems p.partialPoints) item.1) :=
    fun item hi => (hreal item hi).symm ▸ hworst item hi
  have hplaced' := fun item hi => (hworst item hi).perm (Position.worst_row hi slot).symm
  refine standing_atMost (fun item hi => (hplaced item hi).rounded) (fun item hi => (hplaced' item hi).rounded)
    (fun item hi => ?_) _ _
  have hrow := problemStanding_spec (hplaced item hi) item.2
  rw [hreal item hi] at hrow
  refine hrow.atMost_self ((problemStanding_spec (hplaced' item hi) item.2).perm
    (Position.worst_row hi slot)) fun x hx => ?_
  obtain ⟨a, _, rfl⟩ := List.mem_map.mp hx
  exact worstEvent_dated

/-- Solving everything that is left is the best case. -/
theorem Position.best_atMost_confirmed (p : Position) (slot : Slot) :
    (p.best slot).AtMost (p.confirmedOf ((p.attempts.get slot).map accepted ++ p.solves slot)) := by
  have h := p.accepted_completion slot
  refine Standing.AtMost.trans ?_ (annotate_atMost _ _).1
  have hplaced := fun item hi => (p.placed_best slot item).perm (Position.best_row hi slot).symm
  refine standing_atMost (fun item hi => (hplaced item hi).rounded)
    (fun item hi => (h.placed_after hi (p.nodup_solves slot)).rounded) (fun item hi => ?_) _ _
  have hrow := (problemStanding_spec (hplaced item hi) item.2).perm (Position.best_row hi slot)
  have hrow' := problemStanding_spec (h.placed_after hi (p.nodup_solves slot)) item.2
  rw [h.row_after hi] at hrow'
  rw [h.onProblem_before, List.map_map] at hrow
  have haccepted : ∀ i ∈ p.items slot ((p.attempts.get slot).map accepted) item.1, i.2 = accepted i.1 := by
    intro i hi
    obtain ⟨n, hn, rfl⟩ := List.getElem_of_mem (List.mem_of_mem_filter hi)
    simp
  have hsolved : ∀ x ∈ (onProblem (p.solves slot) item.1).map (judgedEvent p.partialPoints item.2),
      x = judgedEvent p.partialPoints item.2 (solveAt (p.freshId + item.1) p.now item.1) := by
    intro x hx
    obtain ⟨a, ha, rfl⟩ := List.mem_map.mp hx
    rw [p.onProblem_solves hi] at ha
    rw [(p.solve_eq (Option.mem_toList.mp ha)).1]
  refine best_atMost_judged item.2 hrow hrow' ?_ ?_ ?_ ?_ ?_ ?_ ?_ ?_ ?_
  · intro i hi
    have hs := h.settles_of_items hi
    simp [Attempt.place, hs.date, hs.id]
  · intro i hi
    have hs := h.settles_of_items hi
    cases hp : i.1.pending with
    | true => simp [bestEvent, hp, pendingEvent, haccepted i hi, pointsOf_accepted hp]
    | false => simp [bestEvent, hp, hs.kept hp]
  · intro i hi hpen
    have hs := h.settles_of_items hi
    cases hp : i.1.pending with
    | true => exact .inr (by simp [haccepted i hi, pointsOf_accepted hp])
    | false => exact .inl (by simpa [bestEvent, hp, hs.kept hp] using hpen)
  · intro x hx
    rcases List.mem_append.mp hx with hx | hx
    all_goals
      obtain ⟨_, _, rfl⟩ := List.mem_map.mp hx
      exact pointsOf_le _ _ _
  · intro i hi x hx
    obtain ⟨a, ha, rfl⟩ := List.mem_map.mp hx
    have hi' := List.mem_of_mem_filter hi
    exact h.place_lt (List.mem_of_mem_filter ha) (List.of_mem_zip hi').1 (h.settles_of_mem hi')
  · intro x hx
    rw [(Position.future_eq hx).1]
    refine ⟨le_rfl, fun i hi => ?_, ?_⟩
    · have hi' := List.of_mem_zip (List.mem_of_mem_filter hi)
      simpa using p.place_lt_future hi'.1
    · refine ⟨judgedEvent p.partialPoints item.2 (solveAt (p.freshId + item.1) p.now item.1), ?_, ?_, rfl⟩
      · refine List.mem_map_of_mem ?_
        rw [p.onProblem_solves hi, Position.solve, if_neg]
        · simp
        · simpa using List.ne_nil_of_mem hx
      · simp [judgedEvent, pointsOf, solveAt]
  · intro x hx y hy
    rw [hsolved x hx, hsolved y hy]
  · intro x hx
    rcases List.mem_append.mp hx with hx | hx
    all_goals
      obtain ⟨_, _, rfl⟩ := List.mem_map.mp hx
      exact judgedEvent_dated
  · intro x hx
    rcases List.mem_append.mp hx with hx | hx
    · obtain ⟨_, _, rfl⟩ := List.mem_map.mp hx
      exact bestEvent_dated
    · rw [(Position.future_eq hx).1]
      rfl

/-! ## Calling a game is right -/

theorem atEnd_get (settled added : Pair (List Attempt)) (slot : Slot) :
    (⟨atEnd settled added .a, atEnd settled added .b⟩ : Pair (List Attempt)).get slot =
      atEnd settled added slot := by cases slot <;> rfl

theorem Position.Completion.nodup_added {p : Position} {bound : WithTop Time}
    {settled added : Pair (List Attempt)} (h : p.Completion bound settled added) (slot : Slot) :
    ((added.get slot).map (·.id)).Nodup := by
  have hids := h.ids
  rw [List.map_append, List.nodup_append'] at hids
  cases slot
  · exact hids.1
  · exact hids.2.1

/-- What the two extremes say of a completion. -/
theorem Position.Completion.beats_of_extremes {p : Position} {bound : WithTop Time}
    {settled added : Pair (List Attempt)} (h : p.Completion bound settled added) {w : Slot}
    (hb : beats (p.worst w) (p.best w.other) = true) :
    beats (p.confirmedOf (atEnd settled added w)) (p.confirmedOf (atEnd settled added w.other)) = true :=
  beats_of_atMost (p.worst_exact w) (p.confirmedOf_exact _) (p.best_exact _) (p.confirmedOf_exact _)
    ((h.player w).worst_atMost_confirmed (h.nodup_added w))
    ((h.player w.other).confirmed_atMost_best (h.nodup_added w.other)) hb

/-- Nobody is called before the countdown is over. -/
theorem Position.started_of_finishes {p : Position} {w : Slot} (h : p.decision.Finishes w) :
    p.startedAt ≤ p.now := by
  by_contra hstart
  have hcountdown : p.decision.outcome = .countdown := by
    unfold Position.decision Scoring.decide
    rw [if_pos (not_le.mp hstart)]
  rw [Decision.Finishes, hcountdown] at h
  cases h.1

/-- Without pending attempts and with submissions closed, both extremes are the confirmed standing. -/
theorem extremes_judged {attempts : List Attempt} (hjudged : ∀ a ∈ attempts, a.pending = false)
    (problems : List (ℕ × ℕ)) (partialPoints : Bool) (penalty : ℕ) (startedAt : Time) (maxAttempts : ℕ) :
    worstCase attempts problems partialPoints penalty startedAt =
        standing (judgedEvents attempts problems partialPoints) problems penalty startedAt ∧
      bestCase attempts problems partialPoints penalty startedAt none maxAttempts =
        standing (judgedEvents attempts problems partialPoints) problems penalty startedAt := by
  have hnone : ∀ event : ℕ → Attempt → Event, (attempts.filterMap fun a =>
      if a.pending then (problems.lookup a.problem).map fun n => event n a else none) = [] := by
    intro event
    refine List.filterMap_eq_nil_iff.mpr fun a ha => ?_
    simp [hjudged a ha]
  constructor
  · have := hnone fun _ a => pendingEvent 0 true a
    simp only [worstCase, this, List.append_nil]
  · have := hnone fun n a => pendingEvent n false a
    simp only [bestCase, bestEvents, this, List.append_nil]

/-- **A called game stays called**: in every completion the winner ends ahead, and asking again once the
    completed game is closed calls it for the same player. -/
theorem decision_sound (p : Position) {winner : Slot} (h : p.decision.Finishes winner)
    {settled added : Pair (List Attempt)} (hc : p.Completion ⊤ settled added) :
    beats (p.confirmedOf (atEnd settled added winner))
        (p.confirmedOf (atEnd settled added winner.other)) = true ∧
      ∀ now closed, p.startedAt ≤ now → (closed = true ∨ p.endsAt ≤ now) →
        (Scoring.decide ⟨atEnd settled added .a, atEnd settled added .b⟩ p.problems p.rules p.startedAt
          p.endsAt now closed).Finishes winner := by
  have hstart := Position.started_of_finishes h
  have hahead := hc.beats_of_extremes ((p.finishes_iff hstart winner).mp h).1
  refine ⟨hahead, fun now closed hnow hclosed => ?_⟩
  rw [decide_finishes_iff hnow rfl rfl]
  have hshut : (!closed && decide (now < p.endsAt)) = false := by
    rcases hclosed with hclosed | hover
    · simp [hclosed]
    · simp [not_lt.mpr hover]
  simp only [hshut, Bool.false_eq_true, if_false, atEnd_get]
  -- once everything is judged, the extremes are the standings `beats` compared
  have hstanding : ∀ s t : Slot,
      beats (worstCase (atEnd settled added s) p.problems p.partialPoints p.penalty p.startedAt)
        (bestCase (atEnd settled added t) p.problems p.partialPoints p.penalty p.startedAt none
          p.maxAttempts) =
        beats (p.confirmedOf (atEnd settled added s)) (p.confirmedOf (atEnd settled added t)) := by
    intro s t
    unfold atEnd
    rw [(extremes_judged (hc.player s).judged_after _ _ _ _ p.maxAttempts).1,
      (extremes_judged (hc.player t).judged_after _ _ _ _ _).2]
    rfl
  refine ⟨(hstanding winner winner.other).trans hahead, ?_⟩
  rintro rfl
  exact (hstanding .a .b).trans (beats_asymm (p.confirmedOf_exact _) (p.confirmedOf_exact _) hahead)

/-- Player A solved the only problem after a minute; a solution of player B, sent half a minute later, is
    still being judged. -/
def solvedFirst : Position where
  attempts :=
    { a := [{ id := 1, date := seconds 60, status := .d, result := some .ac, casePoints := 10,
              caseTotal := 10, problem := 0 }]
      b := [{ id := 2, date := seconds 90, status := .g, result := none, casePoints := 0,
              caseTotal := 0, problem := 0 }] }
  problems := [(0, 100)]
  rules := Rules.defaults
  startedAt := 0
  endsAt := minutes 15
  now := seconds 95
  closed := false
  keys := by decide
  worth := by decide
  ids slot := by cases slot <;> decide
  sent slot := by cases slot <;> decide

/-- Whatever becomes of the solution of player B, player A keeps the game. -/
theorem decision_sound_solvedFirst :
    beats (solvedFirst.confirmedOf (atEnd (solvedFirst.attempts.map (List.map rejected)) (.both []) .a))
        (solvedFirst.confirmedOf (atEnd (solvedFirst.attempts.map (List.map rejected)) (.both []) .b)) = true :=
  have hcalled : solvedFirst.decision.Finishes .a := by decide +kernel
  have hc : solvedFirst.Completion ⊤ (solvedFirst.attempts.map (List.map rejected)) (.both []) :=
    { player := fun slot => by
        rw [Pair.get_map, Pair.get_both]
        exact solvedFirst.rejected_completion ⊤ slot
      ids := List.nodup_nil }
  (decision_sound solvedFirst hcalled hc).1

/-! ## A certain winner is called -/

/-- Everything of `winner` fails and everything of the rival succeeds. -/
theorem Position.extreme_completion (p : Position) (winner : Slot) :
    p.Completion p.endsAt
      ((Pair.both []).set winner ((p.attempts.get winner).map rejected) |>.set winner.other
        ((p.attempts.get winner.other).map accepted))
      ((Pair.both []).set winner.other (p.solves winner.other)) where
  player slot := by
    by_cases hslot : slot = winner
    · subst hslot
      rw [Pair.get_set_of_ne _ _ slot.other_ne.symm, Pair.get_set_self,
        Pair.get_set_of_ne _ _ slot.other_ne.symm, Pair.get_both]
      exact p.rejected_completion _ _
    · rw [Slot.eq_other_of_ne hslot, Pair.get_set_self, Pair.get_set_self]
      exact p.accepted_completion _
  ids := by
    have hids := p.nodup_solves winner.other
    cases winner <;> simpa [Pair.both, Pair.set, Slot.other] using hids

/-- **A game is called as soon as its winner is certain**: a player who ends ahead in every completion is
    given the game at once. -/
theorem decision_complete (p : Position) (hstart : p.startedAt ≤ p.now) {winner : Slot}
    (h : ∀ settled added, p.Completion p.endsAt settled added →
      beats (p.confirmedOf (atEnd settled added winner))
        (p.confirmedOf (atEnd settled added winner.other)) = true) :
    p.decision.Finishes winner := by
  have hextreme := p.extreme_completion winner
  have hbeats := h _ _ hextreme
  rw [p.finishes_iff hstart]
  refine ⟨?_, ?_⟩
  · have hw := winner.other_ne
    simp only [atEnd, Pair.get_set_self, Pair.get_set_of_ne _ _ hw.symm, Pair.get_both,
      List.append_nil] at hbeats
    exact beats_of_atMost (p.confirmedOf_exact _) (p.worst_exact _) (p.confirmedOf_exact _) (p.best_exact _)
      (p.confirmed_rejected_atMost winner) (p.best_atMost_confirmed winner.other) hbeats
  · -- the extremes cannot favour the rival: they would end ahead in the same completion
    rintro rfl
    by_contra ha
    rw [Bool.not_eq_false] at ha
    have hrival := hextreme.beats_of_extremes (w := .a) ha
    have := beats_asymm (p.confirmedOf_exact _) (p.confirmedOf_exact _) hrival
    simp only [Slot.other] at hbeats this
    rw [hbeats] at this
    cases this

/-- In the game of `solvedFirst` nothing can happen to player A any more, so it is called. -/
theorem decision_complete_solvedFirst : solvedFirst.decision.Finishes .a :=
  decision_complete solvedFirst (by decide) fun _ _ hc => hc.beats_of_extremes (by decide +kernel)

end Scoring
end Arena
end CpcJudge
