import CpcJudge.Arena.Scoring.Cases
import CpcJudge.Arena.Scoring.Rows

/-!
# `Scoring.Fairness` — the order of the players does not matter

`decide` asks about player A before it asks about player B. That favours nobody: a player's worst case is
never better than their best case (`worstCase_atMost_bestCase`, whatever the attempts are), and `beats` is
asymmetric, so at most one of the two questions is answered yes (`not_both`). `decide_swap` is the symmetry
of the whole decision.
-/

namespace CpcJudge
namespace Arena

/-- The same pair with its slots exchanged. -/
def Pair.swap {α : Type*} (p : Pair α) : Pair α := ⟨p.b, p.a⟩

theorem Pair.get_swap {α : Type*} (p : Pair α) (slot : Slot) : p.swap.get slot = p.get slot.other := by
  cases slot <;> rfl

namespace Scoring

open Decimal

/-- The same decision with the players exchanged. -/
def Decision.swap (d : Decision) : Decision := { d with winner := d.winner.map Slot.other }

/-! ## The attempts as the two cases list them -/

/-- The attempts on the problems of the game, the judged ones first, each with the points of its problem:
    what both cases turn into events. -/
def listed (attempts : List Attempt) (problems : List (ℕ × ℕ)) : List (Attempt × ℕ) :=
  (attempts.filter (!·.pending) ++ attempts.filter (·.pending)).filterMap fun a =>
    (problems.lookup a.problem).map fun full => (a, full)

/-- The judged events, and the pending attempts read as `event` says. -/
theorem events_eq_map_listed (attempts : List Attempt) (problems : List (ℕ × ℕ)) (partialPoints : Bool)
    (event : ℕ → Attempt → Event) :
    (judgedEvents attempts problems partialPoints ++ attempts.filterMap fun a =>
        if a.pending then (problems.lookup a.problem).map fun full => event full a else none) =
      (listed attempts problems).map fun i =>
        if i.1.pending then event i.2 i.1 else judgedEvent partialPoints i.2 i.1 := by
  unfold listed judgedEvents
  rw [List.filterMap_append, List.map_append, List.map_filterMap, List.map_filterMap,
    List.filterMap_filter, List.filterMap_filter]
  congr 1
  · refine List.filterMap_congr fun a _ => ?_
    cases hp : a.pending <;> cases problems.lookup a.problem <;> simp [hp]
  · refine List.filterMap_congr fun a _ => ?_
    cases hp : a.pending <;> cases problems.lookup a.problem <;> simp [hp]

theorem worstCase_eq (attempts : List Attempt) (problems : List (ℕ × ℕ)) (partialPoints : Bool)
    (penalty : ℕ) (startedAt : Time) :
    worstCase attempts problems partialPoints penalty startedAt =
      standing ((listed attempts problems).map fun i => worstEvent partialPoints i.2 i.1) problems
        penalty startedAt := by
  unfold worstCase
  rw [events_eq_map_listed attempts problems partialPoints fun _ => pendingEvent 0 true]
  rfl

theorem bestEvents_eq (attempts : List Attempt) (problems : List (ℕ × ℕ)) (partialPoints : Bool) :
    bestEvents attempts problems partialPoints =
      (listed attempts problems).map fun i => bestEvent partialPoints i.2 i.1 := by
  unfold bestEvents
  rw [events_eq_map_listed attempts problems partialPoints fun full => pendingEvent (full : ℚ) false]
  rfl

/-! ## One problem -/

/-- Events read off the attempts are sorted as the attempts are. -/
theorem sortedRow_map {listed : List (Attempt × ℕ)} {event : Attempt × ℕ → Event} (key : ℕ)
    (horder : ∀ i, (event i).order = i.1.place) (hproblem : ∀ i, (event i).problem = i.1.problem) :
    sortedRow (listed.map event) key =
      ((listed.filter (·.1.problem = key)).insertionSort (·.1.place ≤ ·.1.place)).map event := by
  have hfilter : (fun e : Event => decide (e.problem = key)) ∘ event =
      fun i => decide (i.1.problem = key) := funext fun i => by simp [hproblem]
  unfold sortedRow rowEvents
  rw [List.filter_map, hfilter]
  exact (List.map_insertionSort (fun i j : Attempt × ℕ => i.1.place ≤ j.1.place)
    (fun x y : Event => x.order ≤ y.order) event _ fun i _ j _ => by rw [horder, horder]).symm

theorem Found.le_best {ordered : List Event} {row : ProblemStanding} (h : Found ordered row) {x : Event}
    (hx : x ∈ ordered) : x.points ≤ row.best := by
  cases h with
  | nothing _ hbest _ hpoints => exact hbest ▸ hpoints x hx
  | first i e _ hmost _ _ hbest => exact hbest ▸ hmost x hx

/-- A row is no better than one with an event worth more than everything in it. -/
theorem Found.atMost_of_more {ordered ordered' : List Event} {row row' : ProblemStanding}
    (h : Found ordered row) (h' : Found ordered' row') {y : Event} (hy : y ∈ ordered')
    (hmore : ∀ x ∈ ordered, x.points < y.points) : row.AtMost row' := by
  cases h with
  | nothing hnone hbest hpen _ =>
      cases h' with
      | nothing hnone' hbest' hpen' _ =>
          exact .inr ⟨by rw [hbest, hbest'], by rw [hnone, hnone']; exact .none, by rw [hpen, hpen']⟩
      | first _ _ _ _ _ hpos' hbest' => exact .inl (by rw [hbest, hbest']; exact hpos')
  | first n e hget _ _ _ hbest _ _ =>
      rw [ProblemStanding.AtMost, hbest]
      exact .inl ((hmore e (List.mem_of_getElem? hget)).trans_le (h'.le_best hy))

section
variable {ordered : List (Attempt × ℕ)} {failed solved : Attempt × ℕ → Event}
  {row row' : ProblemStanding}

/-- Of two readings of the same sorted attempts, the one that gives no fewer points and charges no more
    failed attempts does at least as well. -/
theorem Found.atMost (h : Found (ordered.map failed) row) (h' : Found (ordered.map solved) row')
    (hsorted : ordered.Pairwise (·.1.place ≤ ·.1.place))
    (hplace : ∀ i, (failed i).order = i.1.place) (hplace' : ∀ i, (solved i).order = i.1.place)
    (hpoints : ∀ i ∈ ordered, (failed i).points ≤ (solved i).points)
    (hpen : ∀ i ∈ ordered, (solved i).penalizable = true → (failed i).penalizable = true)
    (hdated : ∀ i, (failed i).Dated) (hdated' : ∀ i, (solved i).Dated) : row.AtMost row' := by
  cases h with
  | nothing hnone hbest hpenalized _ =>
      cases h' with
      | nothing hnone' hbest' hpenalized' _ =>
          exact .inr ⟨by rw [hbest, hbest'], by rw [hnone, hnone']; exact .none,
            by rw [hpenalized, hpenalized']⟩
      | first _ _ _ _ _ hpos' hbest' => exact .inl (by rw [hbest, hbest']; exact hpos')
  | first n e hget hmost hbefore hpos hbest hat hpenalized =>
      obtain ⟨i, hi, rfl⟩ : ∃ i, ordered[n]? = some i ∧ failed i = e := by simpa using hget
      have hmem := List.mem_of_getElem? hi
      cases h' with
      | nothing _ _ _ hzero =>
          have := hzero _ (List.mem_map_of_mem hmem)
          exact absurd (hpos.trans_le (hpoints i hmem)) (not_lt.mpr this)
      | first n' e' hget' hmost' hbefore' _ hbest' hat' hpenalized' =>
          obtain ⟨i', hi', rfl⟩ : ∃ i', ordered[n']? = some i' ∧ solved i' = e' := by simpa using hget'
          have hle := (hpoints i hmem).trans (hmost' _ (List.mem_map_of_mem hmem))
          rcases hle.lt_or_eq with hlt | heq
          · exact .inl (by rw [hbest, hbest']; exact hlt)
          · -- the same points: the second reading reaches them no later, so before fewer failed attempts
            have hsooner : n' ≤ n := by
              by_contra hlt
              obtain ⟨hn, hget⟩ := List.getElem?_eq_some_iff.mp hi
              have htake : solved i ∈ (ordered.map solved).take n' := by
                rw [← List.map_take]
                exact List.mem_map_of_mem
                  (List.mem_take_iff_getElem.mpr ⟨n, lt_min (not_le.mp hlt) hn, hget⟩)
              exact absurd (hbefore' _ htake) (not_lt.mpr (heq ▸ hpoints i hmem))
            have hle' : i'.1.place ≤ i.1.place := by
              obtain ⟨hn, rfl⟩ := List.getElem?_eq_some_iff.mp hi
              obtain ⟨hn', rfl⟩ := List.getElem?_eq_some_iff.mp hi'
              rcases hsooner.lt_or_eq with hlt | rfl
              · exact List.pairwise_iff_getElem.mp hsorted n' n hn' hn hlt
              · exact le_rfl
            refine .inr ⟨by rw [hbest, hbest', heq], ?_, ?_⟩
            · rw [hat, hat']
              exact .some (Event.date_le (hdated' i') (hdated i) (by rw [hplace, hplace']; exact hle'))
            · rw [hpenalized, hpenalized', ← List.map_take, ← List.map_take, List.countP_map,
                List.countP_map]
              calc (ordered.take n').countP ((·.penalizable) ∘ solved)
                  ≤ (ordered.take n).countP ((·.penalizable) ∘ solved) :=
                    ((List.take_prefix_take_left hsooner).sublist).countP_le
                _ ≤ (ordered.take n).countP ((·.penalizable) ∘ failed) :=
                    List.countP_mono_left fun j hj hpenj => hpen j (List.mem_of_mem_take hj) hpenj

end

/-! ## A player's worst and best cases -/

/-- A full solve is only added where nothing is worth as much. -/
theorem futureEvent_above {attempts : List Attempt} {events : List Event} {maxAttempts : ℕ}
    {moment : Time} {key full : ℕ} {e : Event}
    (h : futureEvent attempts events maxAttempts moment key full = some e) {x : Event} (hx : x ∈ events)
    (hkey : x.problem = e.problem) : x.points < e.points := by
  have he := futureEvent_eq_some h
  unfold futureEvent at h
  simp only at h
  split at h
  · rename_i hcond
    simp only [Bool.and_eq_true, Bool.not_eq_true', List.any_eq_false, decide_eq_true_eq, not_and,
      not_le] at hcond
    rw [he] at hkey ⊢
    exact (hcond.1 x hx hkey).trans_le (sub_le_self _ epsilon_nonneg)
  · cases h

/-- What `best_case` adds for the time still to come. -/
def futureEvents (attempts : List Attempt) (problems : List (ℕ × ℕ)) (partialPoints : Bool)
    (futureAt : Option Time) (maxAttempts : ℕ) : List Event :=
  match futureAt with
  | none => []
  | some moment => problems.filterMap fun (key, full) =>
      futureEvent attempts (bestEvents attempts problems partialPoints) maxAttempts moment key full

theorem mem_futureEvents {attempts : List Attempt} {problems : List (ℕ × ℕ)} {partialPoints : Bool}
    {futureAt : Option Time} {maxAttempts : ℕ} {e : Event}
    (h : e ∈ futureEvents attempts problems partialPoints futureAt maxAttempts) :
    ∃ moment, ∃ item : ℕ × ℕ, futureEvent attempts (bestEvents attempts problems partialPoints) maxAttempts moment
      item.1 item.2 = some e := by
  unfold futureEvents at h
  split at h
  · cases h
  · obtain ⟨item, _, hitem⟩ := List.mem_filterMap.mp h
    exact ⟨_, item, hitem⟩

/-- **Nobody's worst case is better than their best case**, whatever their attempts are. -/
theorem worstCase_atMost_bestCase (attempts : List Attempt) (problems : List (ℕ × ℕ))
    (partialPoints : Bool) (penalty : ℕ) (startedAt : Time) (futureAt : Option Time) (maxAttempts : ℕ) :
    (worstCase attempts problems partialPoints penalty startedAt).AtMost
      (bestCase attempts problems partialPoints penalty startedAt futureAt maxAttempts) := by
  set future := futureEvents attempts problems partialPoints futureAt maxAttempts with hfuture
  have hbest : bestCase attempts problems partialPoints penalty startedAt futureAt maxAttempts =
      standing (bestEvents attempts problems partialPoints ++ future) problems penalty startedAt := rfl
  rw [hbest, worstCase_eq]
  set worst : Attempt × ℕ → Event := fun i => worstEvent partialPoints i.2 i.1
  set best : Attempt × ℕ → Event := fun i => bestEvent partialPoints i.2 i.1
  have hround : ∀ key, ∀ x ∈ rowEvents ((listed attempts problems).map worst) key, Rounded x.points := by
    intro key x hx
    obtain ⟨i, _, rfl⟩ := List.mem_map.mp (List.mem_of_mem_filter hx)
    exact worstEvent_rounded
  have hround' : ∀ key, ∀ x ∈ rowEvents (bestEvents attempts problems partialPoints ++ future) key,
      Rounded x.points := by
    intro key x hx
    rcases List.mem_append.mp (List.mem_of_mem_filter hx) with hx | hx
    · rw [bestEvents_eq] at hx
      obtain ⟨i, _, rfl⟩ := List.mem_map.mp hx
      exact bestEvent_rounded
    · obtain ⟨_, _, hx⟩ := mem_futureEvents hx
      rw [futureEvent_eq_some hx]
      exact onGrid_natCast (by norm_num) _
  refine standing_atMost (fun _ _ => hround _) (fun _ _ => hround' _) (fun item _ => ?_) _ _
  have hworst := problemStanding_found (hround item.1) item.2
  have hsolved := problemStanding_found (hround' item.1) item.2
  have hle : ∀ i, (worst i).points ≤ (best i).points := fun _ => worstEvent_le_bestEvent
  by_cases hnone : rowEvents future item.1 = []
  · -- nothing more can come: both cases go through the same attempts
    have hrow : sortedRow (bestEvents attempts problems partialPoints ++ future) item.1 =
        sortedRow ((listed attempts problems).map best) item.1 := by
      unfold sortedRow rowEvents at hnone ⊢
      rw [List.filter_append, hnone, List.append_nil, bestEvents_eq]
    rw [hrow, sortedRow_map _ (fun _ => bestEvent_order) fun _ => bestEvent_problem] at hsolved
    rw [sortedRow_map _ (fun _ => worstEvent_order) fun _ => worstEvent_problem] at hworst
    exact hworst.atMost hsolved (FirstBest.pairwise_le_insertionSort _) (fun _ => worstEvent_order)
      (fun _ => bestEvent_order) (fun i _ => hle i) (fun _ _ => worstEvent_penalizable_of_best)
      (fun _ => worstEvent_dated) fun _ => bestEvent_dated
  · obtain ⟨y, hy⟩ := List.exists_mem_of_ne_nil _ hnone
    obtain ⟨hyfuture, hykey⟩ := List.mem_filter.mp hy
    have hyrow : y ∈ sortedRow (bestEvents attempts problems partialPoints ++ future) item.1 :=
      (sortedRow_perm _ _).mem_iff.mpr (List.mem_filter.mpr ⟨List.mem_append_right _ hyfuture, hykey⟩)
    refine hworst.atMost_of_more hsolved hyrow fun x hx => ?_
    obtain ⟨hx, hxkey⟩ := List.mem_filter.mp ((sortedRow_perm _ _).mem_iff.mp hx)
    obtain ⟨i, hi, rfl⟩ := List.mem_map.mp hx
    obtain ⟨_, _, hfut⟩ := mem_futureEvents hyfuture
    refine (hle i).trans_lt (futureEvent_above hfut (x := best i) ?_ ?_)
    · rw [bestEvents_eq]
      exact List.mem_map_of_mem hi
    · rw [of_decide_eq_true hykey, ← of_decide_eq_true hxkey, bestEvent_problem, worstEvent_problem]

/-! ## The decision -/

/-- What `decide` does once the game has started: the comparison of both cases of both players, and the
    outcome when it settles nothing. -/
def call (openFuture : Bool) (total : ℚ) (waiting : Bool) (worst best : Pair Standing) : Decision :=
  if beats worst.a best.b then
    { outcome := .finish, winner := some .a, reason := some (winReason openFuture total worst.a best.b) }
  else if beats worst.b best.a then
    { outcome := .finish, winner := some .b, reason := some (winReason openFuture total worst.b best.a) }
  else if openFuture then { outcome := .live }
  else if waiting then { outcome := .verifying }
  else { outcome := .tie }

theorem decide_eq_call {attempts : Pair (List Attempt)} {problems : List (ℕ × ℕ)} {rules : Rules}
    {startedAt endsAt now : Time} {closed : Bool} (hstart : ¬ now < startedAt) :
    Scoring.decide attempts problems rules startedAt endsAt now closed =
      call (!closed && now < endsAt) (round3 ((problems.map fun item => (item.2 : ℚ)).sum))
        (attempts.a.any (·.pending) || attempts.b.any (·.pending))
        (attempts.map fun l => worstCase l problems (rules.partialPoints.getD false)
          (rules.penalty.getD 0) startedAt)
        (attempts.map fun l => bestCase l problems (rules.partialPoints.getD false)
          (rules.penalty.getD 0) startedAt (if !closed && now < endsAt then some now else none)
          (rules.maxAttempts.getD 0)) := by
  unfold Scoring.decide
  rw [if_neg hstart]
  rfl

/-- The worst cases of both players never both beat the best case of the other. -/
theorem not_both (attempts : Pair (List Attempt)) (problems : List (ℕ × ℕ)) (partialPoints : Bool)
    (penalty : ℕ) (startedAt : Time) (futureAt : Option Time) (maxAttempts : ℕ)
    (h : beats (worstCase attempts.a problems partialPoints penalty startedAt)
      (bestCase attempts.b problems partialPoints penalty startedAt futureAt maxAttempts) = true) :
    beats (worstCase attempts.b problems partialPoints penalty startedAt)
      (bestCase attempts.a problems partialPoints penalty startedAt futureAt maxAttempts) = false := by
  have hlead := beats_of_atMost (standing_exact _ _ _ _) (standing_exact _ _ _ _) (standing_exact _ _ _ _)
    (standing_exact _ _ _ _)
    (worstCase_atMost_bestCase attempts.a problems partialPoints penalty startedAt futureAt maxAttempts)
    (worstCase_atMost_bestCase attempts.b problems partialPoints penalty startedAt futureAt maxAttempts) h
  exact beats_asymm (standing_exact _ _ _ _) (standing_exact _ _ _ _) hlead

theorem call_swap {worst best : Pair Standing}
    (h : beats worst.a best.b = true → beats worst.b best.a = false) (openFuture : Bool) (total : ℚ)
    (waiting : Bool) :
    call openFuture total waiting worst.swap best.swap = (call openFuture total waiting worst best).swap := by
  unfold call
  change (if beats worst.b best.a then _ else if beats worst.a best.b then _ else _) = _
  by_cases ha : beats worst.a best.b = true
  · rw [if_neg (Bool.eq_false_iff.mp (h ha)), if_pos ha, if_pos ha]
    rfl
  · rw [if_neg ha, if_neg ha]
    split
    · rfl
    · split
      · rfl
      · split <;> rfl

/-- **The order of the players does not matter.** Exchanging them exchanges the winner and changes nothing
    else; and never do the worst cases of both players beat the best case of the other. -/
theorem decide_swap (attempts : Pair (List Attempt)) (problems : List (ℕ × ℕ)) (rules : Rules)
    (startedAt endsAt now : Time) (closed : Bool) :
    Scoring.decide attempts.swap problems rules startedAt endsAt now closed =
        (Scoring.decide attempts problems rules startedAt endsAt now closed).swap ∧
      ∀ (partialPoints : Bool) (penalty : ℕ) (futureAt : Option Time) (maxAttempts : ℕ),
        let worst := fun slot => worstCase (attempts.get slot) problems partialPoints penalty startedAt
        let best := fun slot =>
          bestCase (attempts.get slot) problems partialPoints penalty startedAt futureAt maxAttempts
        ¬ (beats (worst .a) (best .b) = true ∧ beats (worst .b) (best .a) = true) := by
  refine ⟨?_, fun partialPoints penalty futureAt maxAttempts => ?_⟩
  · by_cases hstart : now < startedAt
    · unfold Scoring.decide
      rw [if_pos hstart, if_pos hstart]
      rfl
    · rw [decide_eq_call hstart, decide_eq_call hstart, ← call_swap]
      · rw [Bool.or_comm (attempts.a.any _)]
        rfl
      · exact not_both attempts problems _ _ _ _ _
  · rintro worst best ⟨ha, hb⟩
    exact Bool.eq_false_iff.mp (not_both attempts problems partialPoints penalty startedAt futureAt
      maxAttempts ha) hb

end Scoring
end Arena
end CpcJudge
