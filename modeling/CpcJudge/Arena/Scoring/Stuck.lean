import CpcJudge.Arena.Scoring.Certain
import CpcJudge.Arena.Scoring.Fairness

/-!
# `Scoring.Stuck` — closing a game whose verdicts never arrive

`decide_ignoring_pending` is said to count whatever is still pending as failed. It drops it instead. A failed
attempt costs its player the penalty when it was sent before their best submission on the problem; a dropped
one costs nothing. Scores are the same either way (`standing_rejected`), so the two only part where the
players are tied on points and the penalty for what `overtaken` counts would have changed the order of their
times: `ignoring_pending_iff`.
-/

namespace CpcJudge
namespace Arena
namespace Scoring

open Decimal FirstBest

/-! ## What failing the pending attempts costs -/

/-- The points of an attempt: none while it is pending, or off the problems of the game. -/
def worth (problems : List (ℕ × ℕ)) (partialPoints : Bool) (a : Attempt) : ℚ :=
  ((problems.lookup a.problem).map fun full => pointsOf a full partialPoints).getD 0

/-- The pending attempts on a problem sent before the first of the best judged ones. -/
def overtaken (attempts : List Attempt) (problems : List (ℕ × ℕ)) (partialPoints : Bool) (key : ℕ) : ℕ :=
  let ordered := (onProblem attempts key).insertionSort (·.place ≤ ·.place)
  let best := (ordered.map (worth problems partialPoints)).foldr max 0
  (ordered.takeWhile fun a => worth problems partialPoints a < best).countP (·.pending)

/-- The same over all the problems. -/
def overtakenAll (attempts : List Attempt) (problems : List (ℕ × ℕ)) (partialPoints : Bool) : ℕ :=
  (problems.map fun item => overtaken attempts problems partialPoints item.1).sum

theorem worth_of_pending {problems : List (ℕ × ℕ)} {partialPoints : Bool} {a : Attempt}
    (h : a.pending = true) : worth problems partialPoints a = 0 := by
  have hstatus : a.status ≠ .d := by
    rintro hd
    simp [Attempt.pending, hd, pendingStatuses] at h
  unfold worth pointsOf
  cases problems.lookup a.problem <;> simp [hstatus]

theorem foldr_max_le {l : List ℚ} {x : ℚ} (hpos : 0 ≤ x) (hle : ∀ y ∈ l, y ≤ x) : l.foldr max 0 ≤ x := by
  induction l with
  | nil => exact hpos
  | cons y l ih => exact max_le (hle y (by simp)) (ih fun z hz => hle z (by simp [hz]))

theorem le_foldr_max {l : List ℚ} {x : ℚ} (hmem : x ∈ l) : x ≤ l.foldr max 0 := by
  induction l with
  | nil => cases hmem
  | cons y l ih =>
      rcases List.mem_cons.mp hmem with rfl | hmem
      · exact le_max_left _ _
      · exact (ih hmem).trans (le_max_right _ _)

/-- What the search finds, once the events are split at the first of the best. -/
theorem Found.of_split {before after : List Event} {e : Event} {row : ProblemStanding}
    (h : Found (before ++ e :: after) row) (hpos : 0 < e.points)
    (hbefore : ∀ x ∈ before, x.points < e.points) (hafter : ∀ x ∈ after, x.points ≤ e.points) :
    row.best = e.points ∧ row.bestAt = some e.date ∧ row.penalized = before.countP (·.penalizable) := by
  have hmem : e ∈ before ++ e :: after := by simp
  have hmost : ∀ x ∈ before ++ e :: after, x.points ≤ e.points := by
    intro x hx
    rcases List.mem_append.mp hx with hx | hx
    · exact (hbefore x hx).le
    · rcases List.mem_cons.mp hx with rfl | hx
      · exact le_rfl
      · exact hafter x hx
  cases h with
  | nothing _ _ _ hpoints => exact absurd hpos (not_lt.mpr (hpoints e hmem))
  | first n e' hget hmost' hfirst _ hbest hat hpen =>
      have hpoints := le_antisymm (hmost e' (List.mem_of_getElem? hget)) (hmost' e hmem)
      have hn : n = before.length := by
        rcases lt_trichotomy n before.length with hlt | heq | hlt
        · rw [List.getElem?_append_left hlt] at hget
          exact absurd hpoints (hbefore e' (List.mem_of_getElem? hget)).ne
        · exact heq
        · have htake : e ∈ (before ++ e :: after).take n := by
            obtain ⟨k, rfl⟩ := Nat.exists_eq_add_of_lt hlt
            rw [Nat.add_assoc, List.take_length_add_append]
            simp
          exact absurd hpoints.symm (hfirst e htake).ne
      subst hn
      rw [List.getElem?_append_right le_rfl, Nat.sub_self] at hget
      obtain rfl : e = e' := by simpa using hget
      exact ⟨hbest, hat, by rw [hpen, List.take_left]⟩

section
variable {partialPoints : Bool} {full : ℕ}

theorem worstEvent_points (a : Attempt) :
    (worstEvent partialPoints full a).points = pointsOf a full partialPoints := by
  unfold worstEvent
  split
  · rename_i hp
    have hstatus : a.status ≠ .d := by
      rintro hd
      simp [Attempt.pending, hd, pendingStatuses] at hp
    simp [pendingEvent, pointsOf, hstatus]
  · rfl

theorem worstEvent_of_judged {a : Attempt} (h : a.pending = false) :
    worstEvent partialPoints full a = judgedEvent partialPoints full a := by
  unfold worstEvent
  rw [if_neg (by simp [h])]

/-- Every pending attempt is one failed attempt more. -/
theorem countP_worstEvent (attempts : List Attempt) :
    (attempts.map (worstEvent partialPoints full)).countP (·.penalizable) =
      ((attempts.filter (!·.pending)).map (judgedEvent partialPoints full)).countP (·.penalizable) +
        attempts.countP (·.pending) := by
  induction attempts with
  | nil => rfl
  | cons a attempts ih =>
      cases hp : a.pending with
      | true =>
          have hpen : (worstEvent partialPoints full a).penalizable = true := by
            simp [worstEvent, hp, pendingEvent]
          rw [List.map_cons, List.countP_cons_of_pos hpen, ih, List.filter_cons_of_neg (by simp [hp]),
            List.countP_cons_of_pos (by exact hp), Nat.add_assoc]
      | false =>
          rw [List.map_cons, worstEvent_of_judged hp, List.countP_cons, ih,
            List.filter_cons_of_pos (by simp [hp]), List.map_cons, List.countP_cons,
            List.countP_cons_of_neg (by simp [hp])]
          omega

/-- **One problem with its pending attempts failed**: the same points at the same moment, and one failed
    attempt more for each of those sent before. -/
theorem Found.rejected {problems : List (ℕ × ℕ)} {ordered : List Attempt} {row row' : ProblemStanding}
    (hworth : ∀ a ∈ ordered, worth problems partialPoints a = pointsOf a full partialPoints)
    (h : Found ((ordered.filter (!·.pending)).map (judgedEvent partialPoints full)) row)
    (h' : Found (ordered.map (worstEvent partialPoints full)) row') :
    row'.best = row.best ∧ row'.bestAt = row.bestAt ∧
      row'.penalized = row.penalized +
        (ordered.takeWhile fun a => worth problems partialPoints a <
          (ordered.map (worth problems partialPoints)).foldr max 0).countP (·.pending) := by
  set best := (ordered.map (worth problems partialPoints)).foldr max 0 with hbestdef
  cases h' with
  | nothing hnone' hbest' hpen' hpoints' =>
      have hzero : ∀ a ∈ ordered, worth problems partialPoints a ≤ 0 := by
        intro a ha
        rw [hworth a ha, ← worstEvent_points]
        exact hpoints' _ (List.mem_map_of_mem ha)
      have hbest : best ≤ 0 := foldr_max_le le_rfl fun x hx => by
        obtain ⟨a, ha, rfl⟩ := List.mem_map.mp hx
        exact hzero a ha
      have hnobody : (ordered.takeWhile fun a => worth problems partialPoints a < best).countP
          (·.pending) = 0 := by
        refine List.countP_eq_zero.mpr fun a ha hp => ?_
        have hlt := of_decide_eq_true (List.all_eq_true.mp List.all_takeWhile a ha)
        rw [worth_of_pending hp] at hlt
        exact absurd hlt (not_lt.mpr hbest)
      cases h with
      | nothing hnone hbest hpen _ =>
          exact ⟨by rw [hbest', hbest], by rw [hnone', hnone], by rw [hpen', hpen, hnobody]⟩
      | first n e hget _ _ hpos =>
          obtain ⟨a, ha, rfl⟩ := List.mem_map.mp (List.mem_of_getElem? hget)
          have hmem := List.mem_of_mem_filter ha
          exact absurd hpos (not_lt.mpr ((hworth a hmem).symm.trans_le (hzero a hmem)))
  | first n e hget hmost hbefore hpos hbest' hat' hpen' =>
      obtain ⟨a, ha, rfl⟩ : ∃ a, ordered[n]? = some a ∧ worstEvent partialPoints full a = e := by
        simpa using hget
      obtain ⟨hn, hget⟩ := List.getElem?_eq_some_iff.mp ha
      have hsplit : ordered = ordered.take n ++ a :: ordered.drop (n + 1) := by
        rw [← hget, List.getElem_cons_drop, List.take_append_drop]
      rw [worstEvent_points] at hpos hbest'
      have hjudged : a.pending = false := by
        refine Bool.eq_false_iff.mpr fun hp => ?_
        rw [← hworth a (List.mem_of_getElem? ha), worth_of_pending hp] at hpos
        exact lt_irrefl _ hpos
      have hlt : ∀ b ∈ ordered.take n, pointsOf b full partialPoints < pointsOf a full partialPoints := by
        intro b hb
        have := hbefore _ (by rw [← List.map_take]; exact List.mem_map_of_mem hb)
        rwa [worstEvent_points, worstEvent_points] at this
      have hle : ∀ b ∈ ordered, pointsOf b full partialPoints ≤ pointsOf a full partialPoints := by
        intro b hb
        have := hmost _ (List.mem_map_of_mem hb)
        rwa [worstEvent_points, worstEvent_points] at this
      have hbest : best = pointsOf a full partialPoints := by
        refine le_antisymm (foldr_max_le hpos.le fun x hx => ?_) (le_foldr_max ?_)
        · obtain ⟨b, hb, rfl⟩ := List.mem_map.mp hx
          rw [hworth b hb]
          exact hle b hb
        · rw [← hworth a (List.mem_of_getElem? ha)]
          exact List.mem_map_of_mem (List.mem_of_getElem? ha)
      have htake : (ordered.takeWhile fun a => worth problems partialPoints a < best) = ordered.take n := by
        have hbefore : ∀ b ∈ ordered.take n, decide (worth problems partialPoints b < best) = true := by
          intro b hb
          rw [hbest, hworth b (List.mem_of_mem_take hb)]
          exact decide_eq_true (hlt b hb)
        have hstop : ¬ worth problems partialPoints a < best := by
          rw [hbest, hworth a (List.mem_of_getElem? ha)]
          exact lt_irrefl _
        conv_lhs => rw [hsplit]
        rw [List.takeWhile_append_of_pos hbefore, List.takeWhile_cons_of_neg (by simpa using hstop),
          List.append_nil]
      have hrow : (ordered.filter (!·.pending)).map (judgedEvent partialPoints full) =
          ((ordered.take n).filter (!·.pending)).map (judgedEvent partialPoints full) ++
            judgedEvent partialPoints full a ::
              ((ordered.drop (n + 1)).filter (!·.pending)).map (judgedEvent partialPoints full) := by
        conv_lhs => rw [hsplit]
        rw [List.filter_append, List.filter_cons_of_pos (by simp [hjudged]), List.map_append, List.map_cons]
      rw [hrow] at h
      obtain ⟨hbest, hat, hpen⟩ := h.of_split hpos
        (fun x hx => by
          obtain ⟨b, hb, rfl⟩ := List.mem_map.mp hx
          exact hlt b (List.mem_of_mem_filter hb))
        (fun x hx => by
          obtain ⟨b, hb, rfl⟩ := List.mem_map.mp hx
          exact hle b (List.mem_of_mem_drop (List.mem_of_mem_filter hb)))
      refine ⟨by rw [hbest', hbest]; rfl, by rw [hat', hat, worstEvent_of_judged hjudged], ?_⟩
      rw [hpen', hpen, htake, ← List.map_take, countP_worstEvent]

end

/-! ## Standings -/

/-- The same totals, but for `charged` failed attempts more. -/
structure Tally.Charged (charged : ℕ) (tally tally' : Tally) : Prop where
  total : tally'.total = tally.total
  reach : tally'.standing.reach = tally.standing.reach
  penalized : tally'.standing.penalized = tally.standing.penalized + charged

theorem Tally.Charged.foldl {rows rows' : ℕ × ℕ → ProblemStanding} {extra : ℕ × ℕ → ℕ}
    (problems : List (ℕ × ℕ))
    (hrows : ∀ item ∈ problems, (rows' item).best = (rows item).best ∧
      (rows' item).bestAt = (rows item).bestAt ∧
      (rows' item).penalized = (rows item).penalized + extra item)
    (hc : ∀ item ∈ problems, (rows item).Coherent) (hc' : ∀ item ∈ problems, (rows' item).Coherent) :
    ∀ (charged : ℕ) (tally tally' : Tally), Tally.Charged charged tally tally' →
      Tally.Charged (charged + (problems.map extra).sum)
        (problems.foldl (fun tally item => tally.add item.1 (rows item)) tally)
        (problems.foldl (fun tally item => tally.add item.1 (rows' item)) tally') := by
  induction problems with
  | nil => intro charged tally tally' h; exact h
  | cons item problems ih =>
      intro charged tally tally' h
      rw [List.foldl_cons, List.foldl_cons, List.map_cons, List.sum_cons, ← Nat.add_assoc]
      refine ih (fun i hi => hrows i (by simp [hi])) (fun i hi => hc i (by simp [hi]))
        (fun i hi => hc' i (by simp [hi])) _ _ _ ?_
      obtain ⟨hbest, hat, hpen⟩ := hrows item (by simp)
      have hci := hc item (by simp)
      have hci' := hc' item (by simp)
      constructor
      · rw [add_total hci, add_total hci', h.total, hbest]
      · rw [add_reach, add_reach, h.reach, hat]
      · rw [add_penalized hci, add_penalized hci', h.penalized, hpen]
        omega

theorem Tally.Charged.close {charged : ℕ} {tally tally' : Tally} (h : Tally.Charged charged tally tally')
    (penalty : ℕ) (startedAt : Time) :
    (tally'.close penalty startedAt).score = (tally.close penalty startedAt).score ∧
      (tally'.close penalty startedAt).effective =
        (tally.close penalty startedAt).effective.map fun x : ℚ => x + (penalty * 60 * charged : ℕ) := by
  simp only [Tally.close, h.total, h.reach, h.penalized, Option.map_map, true_and]
  congr 1
  funext reach
  simp only [Function.comp_apply]
  push_cast
  ring

/-- The points and the time of a player's judged submissions. -/
def judgedStanding (attempts : List Attempt) (problems : List (ℕ × ℕ)) (partialPoints : Bool)
    (penalty : ℕ) (startedAt : Time) : Standing :=
  standing (judgedEvents attempts problems partialPoints) problems penalty startedAt

theorem exists_lookup {problems : List (ℕ × ℕ)} {item : ℕ × ℕ} (h : item ∈ problems) :
    ∃ full, problems.lookup item.1 = some full := by
  induction problems with
  | nil => cases h
  | cons other problems ih =>
      rw [List.lookup_cons]
      split
      · exact ⟨_, rfl⟩
      · rename_i hne
        rcases List.mem_cons.mp h with rfl | h
        · simp at hne
        · exact ih h

theorem onProblem_rejected (attempts : List Attempt) (key : ℕ) :
    onProblem (attempts.map rejected) key = (onProblem attempts key).map rejected := by
  have hkey : (fun a : Attempt => decide (a.problem = key)) ∘ rejected =
      fun a => decide (a.problem = key) := funext fun a => by simp [(rejected_settles a).problem]
  unfold onProblem
  rw [List.filter_map, hkey]

section
variable {problems : List (ℕ × ℕ)} {key full : ℕ} (hlookup : problems.lookup key = some full)
include hlookup

/-- The judged attempts on a problem, sorted. -/
theorem sortedRow_judged (attempts : List Attempt) (partialPoints : Bool) :
    sortedRow (judgedEvents attempts problems partialPoints) key =
      (((onProblem attempts key).insertionSort (·.place ≤ ·.place)).filter (!·.pending)).map
        (judgedEvent partialPoints full) := by
  unfold sortedRow
  rw [judgedEvents_row hlookup, filter_insertionSort]
  exact (List.map_insertionSort (fun a b : Attempt => a.place ≤ b.place)
    (fun x y : Event => x.order ≤ y.order) _ _ fun _ _ _ _ => Iff.rfl).symm

/-- All of them, once the pending ones have failed. -/
theorem sortedRow_rejected (attempts : List Attempt) (partialPoints : Bool) :
    sortedRow (judgedEvents (attempts.map rejected) problems partialPoints) key =
      ((onProblem attempts key).insertionSort (·.place ≤ ·.place)).map (worstEvent partialPoints full) := by
  have hall : ((onProblem attempts key).map rejected).filter (!·.pending) =
      (onProblem attempts key).map rejected := by
    refine List.filter_eq_self.mpr fun b hb => ?_
    obtain ⟨a, _, rfl⟩ := List.mem_map.mp hb
    simp [(rejected_settles a).judged]
  have hevent : judgedEvent partialPoints full ∘ rejected = worstEvent partialPoints full :=
    funext fun a => judgedEvent_rejected partialPoints full a
  unfold sortedRow
  rw [judgedEvents_row hlookup, onProblem_rejected, hall, List.map_map, hevent]
  exact (List.map_insertionSort (fun a b : Attempt => a.place ≤ b.place)
    (fun x y : Event => x.order ≤ y.order) _ _ fun _ _ _ _ => by
      rw [worstEvent_order, worstEvent_order]).symm

end

theorem judgedEvents_rounded {attempts : List Attempt} {problems : List (ℕ × ℕ)} {partialPoints : Bool}
    {key : ℕ} : ∀ x ∈ rowEvents (judgedEvents attempts problems partialPoints) key, Rounded x.points := by
  intro x hx
  obtain ⟨a, _, ha⟩ := List.mem_filterMap.mp (List.mem_of_mem_filter hx)
  split at ha
  · cases ha
  · obtain ⟨full, _, rfl⟩ := Option.map_eq_some_iff.mp ha
    exact pointsOf_rounded _ _ _

/-- **A player with their pending attempts failed**: the same score, and the penalty for each of those
    they had sent before their best submission. -/
theorem standing_rejected (attempts : List Attempt) (problems : List (ℕ × ℕ)) (partialPoints : Bool)
    (penalty : ℕ) (startedAt : Time) :
    (judgedStanding (attempts.map rejected) problems partialPoints penalty startedAt).score =
        (judgedStanding attempts problems partialPoints penalty startedAt).score ∧
      (judgedStanding (attempts.map rejected) problems partialPoints penalty startedAt).effective =
        (judgedStanding attempts problems partialPoints penalty startedAt).effective.map
          fun x : ℚ => x + (penalty * 60 * overtakenAll attempts problems partialPoints : ℕ) := by
  refine Tally.Charged.close ?_ penalty startedAt
  have hrow (l : List Attempt) (item : ℕ × ℕ) :
      Found (sortedRow (judgedEvents l problems partialPoints) item.1)
        (problemStanding (judgedEvents l problems partialPoints) item.1 item.2) :=
    problemStanding_found judgedEvents_rounded item.2
  have hcoherent : ∀ l : List Attempt, ∀ item ∈ problems,
      (problemStanding (judgedEvents l problems partialPoints) item.1 item.2).Coherent :=
    fun l item _ => (hrow l item).coherent fun x hx =>
      judgedEvents_rounded x ((sortedRow_perm _ _).mem_iff.mp hx)
  rw [← Nat.zero_add (overtakenAll attempts problems partialPoints)]
  refine Tally.Charged.foldl problems (fun item hitem => ?_) (hcoherent _) (hcoherent _) 0 _ _
    ⟨rfl, rfl, rfl⟩
  obtain ⟨full, hlookup⟩ := exists_lookup hitem
  have hjudged := hrow attempts item
  have hrejected := hrow (attempts.map rejected) item
  rw [sortedRow_judged hlookup] at hjudged
  rw [sortedRow_rejected hlookup] at hrejected
  have hworth : ∀ a ∈ (onProblem attempts item.1).insertionSort (·.place ≤ ·.place),
      worth problems partialPoints a = pointsOf a full partialPoints := by
    intro a ha
    have hkey : a.problem = item.1 := of_decide_eq_true
      (List.mem_filter.mp ((List.perm_insertionSort _ _).mem_iff.mp ha)).2
    unfold worth
    rw [hkey, hlookup]
    rfl
  exact hjudged.rejected hworth hrejected

/-! ## Both ways of closing a game -/

theorem judgedStanding_exact (attempts : List Attempt) (problems : List (ℕ × ℕ)) (partialPoints : Bool)
    (penalty : ℕ) (startedAt : Time) :
    (judgedStanding attempts problems partialPoints penalty startedAt).Exact := standing_exact _ _ _ _

theorem judgedEvents_filter (attempts : List Attempt) (problems : List (ℕ × ℕ)) (partialPoints : Bool) :
    judgedEvents (attempts.filter (!·.pending)) problems partialPoints =
      judgedEvents attempts problems partialPoints := by
  unfold judgedEvents
  rw [List.filterMap_filter]
  refine List.filterMap_congr fun a _ => ?_
  cases a.pending <;> rfl

/-- A closed game with every verdict in: the standings of the players against each other. -/
theorem decide_judged {attempts : Pair (List Attempt)} (hjudged : ∀ slot, ∀ a ∈ attempts.get slot,
    a.pending = false) (problems : List (ℕ × ℕ)) (rules : Rules) {startedAt endsAt now : Time}
    (hstart : ¬ now < startedAt) :
    Scoring.decide attempts problems rules startedAt endsAt now true =
      let final := attempts.map fun l => judgedStanding l problems (rules.partialPoints.getD false)
        (rules.penalty.getD 0) startedAt
      call false (round3 ((problems.map fun item => (item.2 : ℚ)).sum)) false final final := by
  have hnone : ∀ slot, (attempts.get slot).any (·.pending) = false := fun slot =>
    List.any_eq_false.mpr fun a ha => by simp [hjudged slot a ha]
  have ha := extremes_judged (hjudged .a) problems (rules.partialPoints.getD false)
    (rules.penalty.getD 0) startedAt (rules.maxAttempts.getD 0)
  have hb := extremes_judged (hjudged .b) problems (rules.partialPoints.getD false)
    (rules.penalty.getD 0) startedAt (rules.maxAttempts.getD 0)
  have hnone_a := hnone .a
  have hnone_b := hnone .b
  simp only [Pair.get] at ha hb hnone_a hnone_b
  rw [decide_eq_call hstart, hnone_a, hnone_b]
  simp only [Bool.not_true, Bool.false_and, Bool.false_eq_true, if_false, Pair.map, ha.1, ha.2, hb.1, hb.2]
  rfl

/-- Two closed games with the same scores are called alike when the same player is ahead in both. -/
theorem call_eq_iff {total : ℚ} {s t : Pair Standing} (hs : ∀ slot, (s.get slot).Exact)
    (ht : ∀ slot, (t.get slot).Exact) (hscore : ∀ slot, (t.get slot).score = (s.get slot).score) :
    call false total false s s = call false total false t t ↔
      ∀ slot, beats (s.get slot) (s.get slot.other) = beats (t.get slot) (t.get slot.other) := by
  have hreason : ∀ slot, winReason false total (t.get slot) (t.get slot.other) =
      winReason false total (s.get slot) (s.get slot.other) := fun slot => by
    simp only [winReason, hscore]
  have hra := hreason .a
  have hrb := hreason .b
  have hasymm := fun h => beats_asymm (hs .a) (hs .b) h
  have hasymm' := fun h => beats_asymm (ht .a) (ht .b) h
  have hcall : ∀ u : Pair Standing, call false total false u u =
      if beats (u.get .a) (u.get .b) then
        { outcome := .finish, winner := some .a, reason := some (winReason false total (u.get .a) (u.get .b)) }
      else if beats (u.get .b) (u.get .a) then
        { outcome := .finish, winner := some .b, reason := some (winReason false total (u.get .b) (u.get .a)) }
      else { outcome := .tie } := fun _ => rfl
  have hslots : (∀ slot, beats (s.get slot) (s.get slot.other) = beats (t.get slot) (t.get slot.other)) ↔
      beats (s.get .a) (s.get .b) = beats (t.get .a) (t.get .b) ∧
        beats (s.get .b) (s.get .a) = beats (t.get .b) (t.get .a) :=
    ⟨fun h => ⟨h .a, h .b⟩, fun h slot => by cases slot; exacts [h.1, h.2]⟩
  simp only [Slot.other] at hra hrb
  rw [hslots, hcall, hcall, hra, hrb]
  cases hsa : beats (s.get .a) (s.get .b) <;> cases hsb : beats (s.get .b) (s.get .a) <;>
    cases hta : beats (t.get .a) (t.get .b) <;> cases htb : beats (t.get .b) (t.get .a) <;> simp_all

/-- One standing is ahead of another in time. -/
def Standing.Sooner (s t : Standing) : Prop := ∃ x ∈ s.effective, ∃ y ∈ t.effective, x < y

theorem Standing.sooner_iff_charged {s t s' t' : Standing} {c d : ℚ}
    (hs : s'.effective = s.effective.map fun x => x + c) (ht : t'.effective = t.effective.map fun y => y + d) :
    (s.Sooner t ↔ s'.Sooner t') ↔
      ∀ x ∈ s.effective, ∀ y ∈ t.effective, (x < y ↔ x + c < y + d) := by
  unfold Standing.Sooner
  rw [hs, ht]
  cases s.effective <;> cases t.effective <;> simp

/-- With the scores kept, only the times of tied players matter. -/
theorem beats_eq_iff {s t s' t' : Standing} (hs : s.Exact) (ht : t.Exact) (hs' : s'.Exact) (ht' : t'.Exact)
    (hscore : s'.score = s.score) (hscore' : t'.score = t.score) :
    beats s t = beats s' t' ↔
      (s.score ≠ t.score ∨ s.score ≤ 0 ∨ (s.Sooner t ↔ s'.Sooner t')) := by
  have hsooner : ∀ u v : Standing, (∃ x y, u.effective = some x ∧ v.effective = some y ∧ x < y) ↔
      u.Sooner v := fun u v =>
    ⟨fun ⟨x, y, hx, hy, h⟩ => ⟨x, hx, y, hy, h⟩, fun ⟨x, hx, y, hy, h⟩ => ⟨x, y, hx, hy, h⟩⟩
  rw [Bool.eq_iff_iff, beats_iff hs ht, beats_iff hs' ht', hsooner, hsooner, hscore, hscore']
  by_cases hne : s.score = t.score
  · by_cases hpos : 0 < s.score
    · simp [hne, hne ▸ hpos, hne ▸ not_le.mpr hpos]
    · simp [hne, hne ▸ hpos, hne ▸ not_lt.mp hpos]
  · simp [hne]

/-- Failing the pending attempts leaves the players as they are: the game has not started, they differ in
    points or have none, or the penalties for what `overtaken` counts keep the order of their times. -/
def PenaltiesKeepOrder (attempts : Pair (List Attempt)) (problems : List (ℕ × ℕ)) (rules : Rules)
    (startedAt endsAt now : Time) : Prop :=
  let partialPoints := rules.partialPoints.getD false
  let penalty := rules.penalty.getD 0
  let judged := fun slot => confirmed (attempts.get slot) problems partialPoints penalty startedAt
  let charge := fun slot => penalty * 60 * overtakenAll (attempts.get slot) problems partialPoints
  max now endsAt < startedAt ∨ (judged .a).score ≠ (judged .b).score ∨ (judged .a).score ≤ 0 ∨
    ∀ x ∈ (judged .a).effective, ∀ y ∈ (judged .b).effective,
      (x < y ↔ x + (charge .a : ℚ) < y + (charge .b : ℚ)) ∧
        (y < x ↔ y + (charge .b : ℚ) < x + (charge .a : ℚ))

/-- **When dropping the pending attempts is failing them.** -/
theorem ignoring_pending_iff (attempts : Pair (List Attempt)) (problems : List (ℕ × ℕ)) (rules : Rules)
    (startedAt endsAt now : Time) :
    decideIgnoringPending attempts problems rules startedAt endsAt now =
        Scoring.decide (attempts.map fun l => l.map rejected) problems rules startedAt endsAt
          (max now endsAt) true ↔
      PenaltiesKeepOrder attempts problems rules startedAt endsAt now := by
  unfold decideIgnoringPending
  by_cases hstart : max now endsAt < startedAt
  · unfold Scoring.decide
    rw [if_pos hstart, if_pos hstart]
    exact iff_of_true rfl (.inl hstart)
  have hleft : ∀ slot, ∀ a ∈ (attempts.map fun l => l.filter (!·.pending)).get slot, a.pending = false := by
    intro slot a ha
    rw [Pair.get_map] at ha
    simpa using (List.mem_filter.mp ha).2
  have hright : ∀ slot, ∀ a ∈ (attempts.map fun l => l.map rejected).get slot, a.pending = false := by
    intro slot a ha
    rw [Pair.get_map] at ha
    obtain ⟨b, _, rfl⟩ := List.mem_map.mp ha
    exact (rejected_settles b).judged
  rw [decide_judged hleft _ _ hstart, decide_judged hright _ _ hstart]
  set partialPoints := rules.partialPoints.getD false with hpartial
  set penalty := rules.penalty.getD 0 with hpenalty
  set dropped : Pair Standing := attempts.map fun l =>
    judgedStanding l problems partialPoints penalty startedAt with hdropped
  set failed : Pair Standing := attempts.map fun l =>
    judgedStanding (l.map rejected) problems partialPoints penalty startedAt with hfailed
  have hfilter : (attempts.map fun l => l.filter (!·.pending)).map (fun l =>
      judgedStanding l problems partialPoints penalty startedAt) = dropped := by
    simp only [hdropped, Pair.map, judgedStanding, judgedEvents_filter]
  have hstanding := fun slot => standing_rejected (attempts.get slot) problems partialPoints penalty startedAt
  have hexact : ∀ slot, (dropped.get slot).Exact := fun slot => by
    rw [hdropped, Pair.get_map]; exact judgedStanding_exact _ _ _ _ _
  have hexact' : ∀ slot, (failed.get slot).Exact := fun slot => by
    rw [hfailed, Pair.get_map]; exact judgedStanding_exact _ _ _ _ _
  have hscore : ∀ slot, (failed.get slot).score = (dropped.get slot).score := fun slot => by
    rw [hfailed, hdropped, Pair.get_map, Pair.get_map]; exact (hstanding slot).1
  have heffective : ∀ slot, (failed.get slot).effective = (dropped.get slot).effective.map fun x : ℚ =>
      x + (penalty * 60 * overtakenAll (attempts.get slot) problems partialPoints : ℕ) := fun slot => by
    rw [hfailed, hdropped, Pair.get_map, Pair.get_map]; exact (hstanding slot).2
  have hcalls : (attempts.map fun l => l.map rejected).map (fun l =>
      judgedStanding l problems partialPoints penalty startedAt) = failed := rfl
  simp only [hfilter, hcalls]
  rw [call_eq_iff hexact hexact' hscore]
  have hslot : ∀ slot, beats (dropped.get slot) (dropped.get slot.other) =
      beats (failed.get slot) (failed.get slot.other) ↔
        ((dropped.get slot).score ≠ (dropped.get slot.other).score ∨ (dropped.get slot).score ≤ 0 ∨
          ∀ x ∈ (dropped.get slot).effective, ∀ y ∈ (dropped.get slot.other).effective,
            (x < y ↔ x + ((penalty * 60 * overtakenAll (attempts.get slot) problems partialPoints : ℕ) : ℚ) <
              y + ((penalty * 60 * overtakenAll (attempts.get slot.other) problems partialPoints : ℕ) : ℚ))) :=
    fun slot => by
      rw [beats_eq_iff (hexact _) (hexact _) (hexact' _) (hexact' _) (hscore _) (hscore _),
        Standing.sooner_iff_charged (heffective slot) (heffective slot.other)]
  have hcond : PenaltiesKeepOrder attempts problems rules startedAt endsAt now ↔
      ((dropped.get .a).score ≠ (dropped.get .b).score ∨ (dropped.get .a).score ≤ 0 ∨
        ∀ x ∈ (dropped.get .a).effective, ∀ y ∈ (dropped.get .b).effective,
          (x < y ↔ x + ((penalty * 60 * overtakenAll (attempts.get .a) problems partialPoints : ℕ) : ℚ) <
              y + ((penalty * 60 * overtakenAll (attempts.get .b) problems partialPoints : ℕ) : ℚ)) ∧
            (y < x ↔ y + ((penalty * 60 * overtakenAll (attempts.get .b) problems partialPoints : ℕ) : ℚ) <
              x + ((penalty * 60 * overtakenAll (attempts.get .a) problems partialPoints : ℕ) : ℚ))) :=
    or_iff_right hstart
  rw [hcond]
  constructor
  · intro h
    by_cases hne : (dropped.get .a).score = (dropped.get .b).score
    · by_cases hpos : (dropped.get .a).score ≤ 0
      · exact .inr (.inl hpos)
      · have ha := (((hslot .a).mp (h .a)).resolve_left (not_not.mpr hne)).resolve_left hpos
        have hb := (((hslot .b).mp (h .b)).resolve_left (not_not.mpr hne.symm)).resolve_left (hne ▸ hpos)
        exact .inr (.inr fun x hx y hy => ⟨ha x hx y hy, hb y hy x hx⟩)
    · exact .inl hne
  · intro h slot
    rw [hslot]
    rcases h with hne | hzero | hkeep
    · cases slot
      · exact .inl hne
      · exact .inl hne.symm
    · by_cases hne : (dropped.get .a).score = (dropped.get .b).score
      · cases slot
        · exact .inr (.inl hzero)
        · exact .inr (.inl (hne ▸ hzero))
      · cases slot
        · exact .inl hne
        · exact .inl (Ne.symm hne)
    · cases slot
      · exact .inr (.inr fun x hx y hy => (hkeep x hx y hy).1)
      · exact .inr (.inr fun x hx y hy => (hkeep y hy x hx).2)

/-- Player A has an attempt stuck in the queue, sent before their solve; player B solved it later. -/
def stuckLeader : Pair (List Attempt) where
  a := [{ id := 1, date := minutes 1, status := .qu, result := none, casePoints := 0, caseTotal := 0,
          problem := 0 },
        { id := 2, date := minutes 3, status := .d, result := some .ac, casePoints := 10, caseTotal := 10,
          problem := 0 }]
  b := [{ id := 3, date := minutes 5, status := .d, result := some .ac, casePoints := 10, caseTotal := 10,
          problem := 0 }]

/-- With a penalty of ten minutes, dropping the attempt gives the game to player A, and failing it to
    player B. -/
theorem ignoring_pending_forgives :
    let rules := { Rules.defaults with penalty := some 10 }
    let dropped := decideIgnoringPending stuckLeader [(0, 100)] rules 0 (minutes 15) (minutes 16)
    let failed := Scoring.decide (stuckLeader.map fun l => l.map rejected) [(0, 100)] rules 0 (minutes 15)
      (max (minutes 16) (minutes 15)) true
    dropped ≠ failed ∧ dropped.winner = some .a ∧ failed.winner = some .b := by
  decide +kernel

end Scoring
end Arena
end CpcJudge
