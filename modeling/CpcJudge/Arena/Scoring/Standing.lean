import CpcJudge.Arena.Scoring

/-!
# `Scoring.Standing` — comparing standings problem by problem

`_standing` sorts, searches and accumulates. This module says once what comes out of it, so that no later
proof unfolds it:

* `problemStanding_spec`: the row of a problem is empty, or it is read off the *first best* event of the
  problem (`Lib.FirstBest`);
* `Row.AtMost`/`AtMost`: when a row, or a whole standing, is no better than another one. Rows compare
  problem by problem and the order is carried through the accumulation (`standing_atMost`);
* `beats_of_atMost`: `beats` is monotone in both standings, so a bound on each player decides a game.

Points are rounded to three decimals and dates to microseconds, so on what `_standing` produces the
comparisons with `EPSILON` are exact (`Lib.Decimal`).
-/

namespace CpcJudge
namespace Arena
namespace Scoring

open Decimal FirstBest

theorem epsilon_nonneg : 0 ≤ epsilon := by norm_num [epsilon]
theorem epsilon_lt_points : epsilon < 1 / (1000 : ℕ) := by norm_num [epsilon]
theorem epsilon_lt_seconds : epsilon < 1 / (10 ^ 6 : ℕ) := by norm_num [epsilon]

/-- Points of a submission are rounded to three decimals. -/
abbrev Rounded (x : ℚ) : Prop := OnGrid 1000 x

theorem pointsOf_rounded (a : Attempt) (full : ℕ) (p : Bool) : Rounded (pointsOf a full p) := by
  unfold pointsOf
  split
  · exact onGrid_zero
  · split
    · exact onGrid_natCast (by norm_num) _
    · split
      · exact (onGrid_natCast (by norm_num) _).min onGrid_roundTo
      · exact onGrid_zero

theorem pointsOf_le (a : Attempt) (full : ℕ) (p : Bool) : pointsOf a full p ≤ full := by
  unfold pointsOf
  split
  · positivity
  · split
    · exact le_rfl
    · split
      · exact min_le_left _ _
      · positivity

/-- Whatever earns points uses up an attempt. -/
theorem counts_of_pointsOf_pos {a : Attempt} {full : ℕ} {p : Bool} (h : 0 < pointsOf a full p) :
    a.counts = true := by
  unfold pointsOf at h
  split at h
  · exact absurd h (lt_irrefl _)
  · rename_i hd
    push Not at hd
    simp [Attempt.counts, notAttempts, hd.1]

/-! ## The row of one problem -/

/-- The events of one problem. -/
def rowEvents (events : List Event) (key : ℕ) : List Event := events.filter (·.problem = key)

/-- The failed attempts placed before `e`. -/
def failedBefore (events : List Event) (e : Event) : ℕ :=
  events.countP fun x => decide (x.order < e.order) && x.penalizable

/-- What the sort and the search of `_standing` find on one problem. -/
inductive RowOf (events : List Event) : ProblemStanding → Prop
  | empty {row} (hnone : row.bestAt = none) (hbest : row.best = 0) (hpen : row.penalized = 0)
      (hpoints : ∀ x ∈ events, x.points ≤ 0) : RowOf events row
  | reached {row} (e : Event) (hfirst : IsFirstBest Event.points Event.order events e)
      (hpos : 0 < e.points) (hbest : row.best = e.points) (hat : row.bestAt = some e.date)
      (hpen : row.penalized = failedBefore events e) : RowOf events row

/-- Events of one problem with distinct places and rounded points: what the code sorts. -/
structure Placed (row : List Event) : Prop where
  distinct : (row.map Event.order).Nodup
  rounded : ∀ x ∈ row, Rounded x.points

theorem Placed.perm {row row' : List Event} (h : Placed row) (hp : row.Perm row') : Placed row' where
  distinct := (hp.map _).nodup_iff.mp h.distinct
  rounded x hx := h.rounded x (hp.mem_iff.mpr hx)

theorem getD_max?_map_le {events : List Event} {x : Event} (hx : x ∈ events) :
    x.points ≤ ((events.map (·.points)).max?).getD 0 := by
  have hmem : x.points ∈ events.map (·.points) := List.mem_map_of_mem hx
  cases hmax : (events.map (·.points)).max? with
  | none => rw [List.max?_eq_none_iff.mp hmax] at hmem; cases hmem
  | some m => exact (List.max?_eq_some_iff.mp hmax).2 _ hmem

/-- What the search of `_standing` finds among the sorted events of a problem: nothing, or the first of
    those worth the most. -/
inductive Found (ordered : List Event) : ProblemStanding → Prop
  | nothing {row} (hnone : row.bestAt = none) (hbest : row.best = 0) (hpen : row.penalized = 0)
      (hpoints : ∀ x ∈ ordered, x.points ≤ 0) : Found ordered row
  | first {row} (i : ℕ) (e : Event) (hget : ordered[i]? = some e)
      (hmost : ∀ x ∈ ordered, x.points ≤ e.points) (hbefore : ∀ x ∈ ordered.take i, x.points < e.points)
      (hpos : 0 < e.points) (hbest : row.best = e.points) (hat : row.bestAt = some e.date)
      (hpen : row.penalized = (ordered.take i).countP (·.penalizable)) : Found ordered row

/-- The events of one problem as `_standing` goes through them. -/
def sortedRow (events : List Event) (key : ℕ) : List Event :=
  (rowEvents events key).insertionSort (·.order ≤ ·.order)

theorem sortedRow_perm (events : List Event) (key : ℕ) : (sortedRow events key).Perm (rowEvents events key) :=
  List.perm_insertionSort _ _

/-- The tolerance of the search is of no consequence on rounded points. -/
theorem problemStanding_found {events : List Event} {key : ℕ}
    (hround : ∀ x ∈ rowEvents events key, Rounded x.points) (full : ℕ) :
    Found (sortedRow events key) (problemStanding events key full) := by
  set ordered := sortedRow events key with hordered
  have hround : ∀ x ∈ ordered, Rounded x.points := fun x hx =>
    hround x ((sortedRow_perm events key).mem_iff.mp hx)
  set best := ((ordered.map (·.points)).max?).getD 0 with hbest
  have hle : ∀ x ∈ ordered, x.points ≤ best := fun x hx => getD_max?_map_le hx
  have hunfold : problemStanding events key full =
      if epsilon < best then
        (ordered[ordered.findIdx fun event => best - epsilon ≤ event.points]?).elim {} fun event =>
          { best
            full := decide (full - epsilon ≤ best)
            bestAt := some event.date
            penalized := (ordered.take
              (ordered.findIdx fun event => best - epsilon ≤ event.points)).countP (·.penalizable)
            solvedAt := if decide (full - epsilon ≤ best) then some event.date else none }
      else {} := rfl
  rw [hunfold]
  by_cases hpos : epsilon < best
  · -- the maximum is attained by some event of the row, so the search finds one
    have hattained : ∃ m ∈ ordered, m.points = best := by
      cases hmax : (ordered.map (·.points)).max? with
      | none => rw [hmax] at hbest; simp [hbest] at hpos; exact absurd hpos (not_lt.mpr epsilon_nonneg)
      | some m =>
          obtain ⟨x, hx, hxm⟩ := List.mem_map.mp (List.max?_eq_some_iff.mp hmax).1
          exact ⟨x, hx, by rw [hxm, hbest, hmax]; rfl⟩
    obtain ⟨m, hm, hmbest⟩ := hattained
    have hbestround : Rounded best := hmbest ▸ hround m hm
    have hcross : ∀ x ∈ ordered, best - epsilon ≤ x.points ↔ best ≤ x.points := fun x hx =>
      le_tolerance_iff (by norm_num) epsilon_nonneg epsilon_lt_points hbestround (hround x hx)
    set i := ordered.findIdx fun event => best - epsilon ≤ event.points with hi
    have hidx : i < ordered.length :=
      List.findIdx_lt_length_of_exists ⟨m, hm, by simpa [hcross m hm] using hmbest.ge⟩
    have hpoints : ordered[i].points = best := by
      have hreached : decide (best - epsilon ≤ ordered[i].points) = true :=
        List.findIdx_getElem (w := hidx)
      have hmem : ordered[i] ∈ ordered := List.getElem_mem hidx
      exact le_antisymm (hle _ hmem) ((hcross _ hmem).mp (of_decide_eq_true hreached))
    rw [if_pos hpos, List.getElem?_eq_getElem hidx, Option.elim_some]
    refine .first i ordered[i] (List.getElem?_eq_getElem hidx) (fun x hx => hpoints ▸ hle x hx)
      (fun x hx => ?_) (hpoints ▸ epsilon_nonneg.trans_lt hpos) hpoints.symm rfl rfl
    obtain ⟨j, hj, rfl⟩ := List.mem_take_iff_getElem.mp hx
    have hmissed := List.not_of_lt_findIdx (lt_of_lt_of_le hj (min_le_left _ _))
    rw [hpoints]
    simpa [hcross _ (List.getElem_mem _)] using hmissed
  · rw [if_neg hpos]
    refine .nothing rfl rfl rfl fun x hx => ?_
    by_contra hxpos
    have := (lt_tolerance_iff (by norm_num) epsilon_nonneg epsilon_lt_points (hround x hx)
      onGrid_zero).mpr (not_le.mp hxpos)
    linarith [hle x hx, not_lt.mp hpos]

/-- **What the row of a problem holds.** -/
theorem problemStanding_spec {events : List Event} {key : ℕ} (hrow : Placed (rowEvents events key))
    (full : ℕ) : RowOf (rowEvents events key) (problemStanding events key full) := by
  have hperm := sortedRow_perm events key
  have hlt : (sortedRow events key).Pairwise (Event.order · < Event.order ·) :=
    pairwise_lt_insertionSort hrow.distinct
  cases problemStanding_found hrow.rounded full with
  | nothing hnone hbest hpen hpoints =>
      exact .empty hnone hbest hpen fun x hx => hpoints x (hperm.mem_iff.mpr hx)
  | first i e hget hmost hbefore hpos hbest hat hpen =>
      have hfirst := isFirstBest_getElem (hlt.imp le_of_lt) hget hmost hbefore
      refine .reached e (hfirst.perm hperm) hpos hbest hat (hpen.trans ?_)
      rw [countP_take_eq hlt hget]
      exact hperm.countP_eq _

theorem RowOf.best_nonneg {events : List Event} {row : ProblemStanding} (h : RowOf events row) :
    0 ≤ row.best := by
  cases h with
  | empty _ hbest _ _ => exact hbest.ge
  | reached e _ hpos hbest _ _ => rw [hbest]; exact hpos.le

/-- A row is at least as good as any of its events. -/
theorem RowOf.le_best {events : List Event} {row : ProblemStanding} (h : RowOf events row) {x : Event}
    (hx : x ∈ events) : x.points ≤ row.best := by
  cases h with
  | empty _ hbest _ hpoints => rw [hbest]; exact hpoints x hx
  | reached e hfirst _ hbest _ _ => rw [hbest]; exact hfirst.best x hx

/-! ## Rows and standings that are no better than others -/

/-- `row` is no better than `row'`: fewer points, or the same points reached no sooner and with no fewer
    failed attempts. -/
def ProblemStanding.AtMost (row row' : ProblemStanding) : Prop :=
  row.best < row'.best ∨
    (row.best = row'.best ∧ Option.Rel (· ≤ ·) row'.bestAt row.bestAt ∧ row'.penalized ≤ row.penalized)

/-- What is left to check once the points are no more: the moment and the failed attempts when they are
    the same points, both reached. -/
theorem RowOf.atMost {events events' : List Event} {row row' : ProblemStanding}
    (h : RowOf events row) (h' : RowOf events' row')
    (hpoints : ∀ x ∈ events, 0 < x.points → ∃ y ∈ events', x.points ≤ y.points)
    (hfirst : ∀ e e', IsFirstBest Event.points Event.order events e →
      IsFirstBest Event.points Event.order events' e' → 0 < e.points → e.points = e'.points →
      e'.date ≤ e.date ∧ failedBefore events' e' ≤ failedBefore events e) :
    row.AtMost row' := by
  cases h with
  | empty hnone hbest hpen _ =>
      cases h' with
      | empty hnone' hbest' hpen' _ =>
          exact .inr ⟨by rw [hbest, hbest'], by rw [hnone, hnone']; exact .none, by rw [hpen, hpen']⟩
      | reached e' _ hpos' hbest' _ _ => exact .inl (by rw [hbest, hbest']; exact hpos')
  | reached e he hpos hbest hat hpen =>
      obtain ⟨y, hy, hxy⟩ := hpoints e he.mem hpos
      have hle : e.points ≤ row'.best := hxy.trans (h'.le_best hy)
      cases h' with
      | empty _ hbest' _ _ => rw [hbest'] at hle; exact absurd hpos (not_lt.mpr hle)
      | reached e' he' _ hbest' hat' hpen' =>
          rw [hbest'] at hle
          rcases hle.lt_or_eq with hlt | heq
          · exact .inl (by rw [hbest, hbest']; exact hlt)
          · obtain ⟨hdate, hfailed⟩ := hfirst e e' he he' hpos heq
            refine .inr ⟨by rw [hbest, hbest', heq], ?_, by rw [hpen, hpen']; exact hfailed⟩
            rw [hat, hat']
            exact .some hdate

/-! ## Accumulating the rows -/

/-- The later of two moments that may be missing. -/
def later : Option Time → Option Time → Option Time
  | none, y => y
  | some x, none => some x
  | some x, some y => some (max x y)

theorem later_rel {x x' y y' : Option Time} (hx : Option.Rel (· ≤ ·) x x')
    (hy : Option.Rel (· ≤ ·) y y') : Option.Rel (· ≤ ·) (later x y) (later x' y') := by
  cases hx with
  | none => exact hy
  | some hxx =>
      cases hy with
      | none => exact .some hxx
      | some hyy => exact .some (max_le_max hxx hyy)

/-- A row gave points exactly when it says when. -/
structure ProblemStanding.Coherent (row : ProblemStanding) : Prop where
  nothing : row.bestAt = none → row.best = 0 ∧ row.penalized = 0
  rounded : Rounded row.best

theorem Found.coherent {ordered : List Event} {row : ProblemStanding} (h : Found ordered row)
    (hround : ∀ x ∈ ordered, Rounded x.points) : row.Coherent := by
  cases h with
  | nothing hnone hbest hpen _ => exact ⟨fun _ => ⟨hbest, hpen⟩, hbest ▸ onGrid_zero⟩
  | first i e hget _ _ _ hbest hat _ =>
      refine ⟨fun hnone => ?_, ?_⟩
      · rw [hnone] at hat; cases hat
      · rw [hbest]
        exact hround e (List.mem_of_getElem? hget)

theorem Tally.add_total {row : ProblemStanding} (h : row.Coherent) (tally : Tally) (key : ℕ) :
    (tally.add key row).total = tally.total + row.best := by
  unfold Tally.add
  split
  · rename_i hnone; rw [(h.nothing hnone).1, add_zero]
  · rfl

theorem Tally.add_penalized {row : ProblemStanding} (h : row.Coherent) (tally : Tally) (key : ℕ) :
    (tally.add key row).standing.penalized = tally.standing.penalized + row.penalized := by
  unfold Tally.add
  split
  · rename_i hnone; rw [(h.nothing hnone).2, Nat.add_zero]
  · rfl

theorem Tally.add_reach (tally : Tally) (key : ℕ) (row : ProblemStanding) :
    (tally.add key row).standing.reach = later tally.standing.reach row.bestAt := by
  unfold Tally.add
  cases row.bestAt <;> cases tally.standing.reach <;> simp [later]

/-- The totals so far are no better than the other ones. -/
structure Tally.AtMost (tally tally' : Tally) : Prop where
  total : tally.total ≤ tally'.total
  sooner : tally.total = tally'.total →
    Option.Rel (· ≤ ·) tally'.standing.reach tally.standing.reach ∧
      tally'.standing.penalized ≤ tally.standing.penalized

theorem Tally.AtMost.add {tally tally' : Tally} {row row' : ProblemStanding} {key : ℕ}
    (h : tally.AtMost tally') (hrow : row.AtMost row') (hc : row.Coherent) (hc' : row'.Coherent) :
    (tally.add key row).AtMost (tally'.add key row') := by
  have hbest : row.best ≤ row'.best := by
    rcases hrow with hlt | ⟨heq, _, _⟩
    · exact hlt.le
    · exact heq.le
  constructor
  · rw [add_total hc, add_total hc']
    exact add_le_add h.total hbest
  · intro heq
    rw [add_total hc, add_total hc'] at heq
    have htotal : tally.total = tally'.total := by linarith [h.total]
    have hbesteq : row.best = row'.best := by linarith
    obtain ⟨hreach, hpen⟩ := h.sooner htotal
    rcases hrow with hlt | ⟨_, hat, hrowpen⟩
    · exact absurd hbesteq hlt.ne
    · rw [add_reach, add_reach, add_penalized hc, add_penalized hc']
      exact ⟨later_rel hreach hat, Nat.add_le_add hpen hrowpen⟩

/-- Going through the problems keeps one side no better than the other. -/
theorem Tally.AtMost.foldl {rows rows' : ℕ × ℕ → ProblemStanding} (problems : List (ℕ × ℕ))
    (hrows : ∀ item ∈ problems, (rows item).AtMost (rows' item))
    (hc : ∀ item ∈ problems, (rows item).Coherent) (hc' : ∀ item ∈ problems, (rows' item).Coherent) :
    ∀ tally tally' : Tally, tally.AtMost tally' →
      (problems.foldl (fun tally item => tally.add item.1 (rows item)) tally).AtMost
        (problems.foldl (fun tally item => tally.add item.1 (rows' item)) tally') := by
  induction problems with
  | nil => intro tally tally' h; exact h
  | cons item problems ih =>
      intro tally tally' h
      rw [List.foldl_cons, List.foldl_cons]
      refine ih (fun i hi => hrows i (by simp [hi])) (fun i hi => hc i (by simp [hi]))
        (fun i hi => hc' i (by simp [hi])) _ _ ?_
      exact h.add (hrows item (by simp)) (hc item (by simp)) (hc' item (by simp))

theorem Tally.foldl_rounded {rows : ℕ × ℕ → ProblemStanding} (problems : List (ℕ × ℕ))
    (hc : ∀ item ∈ problems, (rows item).Coherent) :
    ∀ tally : Tally, Rounded tally.total →
      Rounded (problems.foldl (fun tally item => tally.add item.1 (rows item)) tally).total := by
  induction problems with
  | nil => intro tally h; exact h
  | cons item problems ih =>
      intro tally h
      rw [List.foldl_cons]
      refine ih (fun i hi => hc i (by simp [hi])) _ ?_
      rw [add_total (hc item (by simp))]
      exact h.add (hc item (by simp)).rounded

/-! ## Standings -/

/-- What `_standing` returns: a rounded score, an effective time in whole microseconds. -/
structure Standing.Exact (s : Standing) : Prop where
  score : Rounded s.score
  effective : ∀ x, s.effective = some x → OnGrid (10 ^ 6) x

/-- `s` ranks no higher than `s'`. -/
structure Standing.AtMost (s s' : Standing) : Prop where
  score : s.score ≤ s'.score
  effective : s.score = s'.score → Option.Rel (· ≤ ·) s'.effective s.effective

theorem totalSeconds_onGrid (t : Time) : OnGrid (10 ^ 6) (totalSeconds t) := ⟨t, rfl⟩

theorem totalSeconds_mono {s t : Time} (h : s ≤ t) : totalSeconds s ≤ totalSeconds t := by
  unfold totalSeconds
  have : (s : ℚ) ≤ t := by exact_mod_cast h
  gcongr

theorem Tally.close_exact (tally : Tally) (penalty : ℕ) (startedAt : Time) :
    (tally.close penalty startedAt).Exact where
  score := onGrid_roundTo
  effective x hx := by
    obtain ⟨reach, _, rfl⟩ := Option.map_eq_some_iff.mp hx
    exact (totalSeconds_onGrid _).add (onGrid_natCast (by norm_num) _)

theorem Tally.AtMost.close {tally tally' : Tally} (h : tally.AtMost tally') (hr : Rounded tally.total)
    (hr' : Rounded tally'.total) (penalty : ℕ) (startedAt : Time) :
    (tally.close penalty startedAt).AtMost (tally'.close penalty startedAt) := by
  have hscore : ∀ {t : Tally}, Rounded t.total → (t.close penalty startedAt).score = t.total :=
    fun ht => roundTo_of_onGrid (by norm_num) ht
  constructor
  · rw [hscore hr, hscore hr']; exact h.total
  · intro heq
    rw [hscore hr, hscore hr'] at heq
    obtain ⟨hreach, hpen⟩ := h.sooner heq
    simp only [Tally.close]
    revert hreach
    generalize tally'.standing.reach = reach', tally.standing.reach = reach
    intro hreach
    cases hreach with
    | none => exact .none
    | some hxy =>
        refine .some ?_
        have hseconds := totalSeconds_mono (sub_le_sub_right hxy startedAt)
        have hminutes : ((penalty * 60 * tally'.standing.penalized : ℕ) : ℚ) ≤
            (penalty * 60 * tally.standing.penalized : ℕ) := by
          exact_mod_cast Nat.mul_le_mul_left _ hpen
        exact add_le_add hseconds hminutes

theorem standing_exact (events : List Event) (problems : List (ℕ × ℕ)) (penalty : ℕ) (startedAt : Time) :
    (standing events problems penalty startedAt).Exact := Tally.close_exact _ _ _

/-- **Standings compare problem by problem.** -/
theorem standing_atMost {events events' : List Event} {problems : List (ℕ × ℕ)}
    (h : ∀ item ∈ problems, ∀ x ∈ rowEvents events item.1, Rounded x.points)
    (h' : ∀ item ∈ problems, ∀ x ∈ rowEvents events' item.1, Rounded x.points)
    (hrows : ∀ item ∈ problems,
      (problemStanding events item.1 item.2).AtMost (problemStanding events' item.1 item.2))
    (penalty : ℕ) (startedAt : Time) :
    (standing events problems penalty startedAt).AtMost (standing events' problems penalty startedAt) := by
  have hc : ∀ {evs : List Event}, (∀ item ∈ problems, ∀ x ∈ rowEvents evs item.1, Rounded x.points) →
      ∀ item ∈ problems, (problemStanding evs item.1 item.2).Coherent := fun hp item hi =>
    (problemStanding_found (hp item hi) item.2).coherent fun x hx =>
      hp item hi x ((sortedRow_perm _ _).mem_iff.mp hx)
  refine Tally.AtMost.close ?_ (Tally.foldl_rounded _ (hc h) _ onGrid_zero)
    (Tally.foldl_rounded _ (hc h') _ onGrid_zero) penalty startedAt
  exact Tally.AtMost.foldl problems hrows (hc h) (hc h') _ _ ⟨le_rfl, fun _ => ⟨.none, le_rfl⟩⟩

/-! ## `beats` -/

/-- Without the tolerance: more points, or the same points (some) in less time. -/
theorem beats_iff {s t : Standing} (hs : s.Exact) (ht : t.Exact) :
    beats s t = true ↔ t.score < s.score ∨
      (s.score = t.score ∧ 0 < s.score ∧
        ∃ x y, s.effective = some x ∧ t.effective = some y ∧ x < y) := by
  have hmore := lt_tolerance_iff (by norm_num) epsilon_nonneg epsilon_lt_points hs.score ht.score
  have hsame := abs_tolerance_iff (by norm_num) epsilon_nonneg epsilon_lt_points hs.score ht.score
  have hsome : epsilon < s.score ↔ 0 < s.score := by
    have := lt_tolerance_iff (by norm_num) epsilon_nonneg epsilon_lt_points hs.score onGrid_zero
    rwa [zero_add] at this
  unfold beats
  simp only [hmore, hsame, hsome]
  by_cases h1 : t.score < s.score
  · simp [h1]
  · rw [if_neg h1]
    by_cases h2 : s.score = t.score ∧ 0 < s.score
    · rw [if_pos h2]
      cases hx : s.effective with
      | none => simp [h1]
      | some x =>
          cases hy : t.effective with
          | none => simp [h1]
          | some y =>
              have hlt := lt_tolerance_iff (by norm_num) epsilon_nonneg epsilon_lt_seconds
                (ht.effective y hy) (hs.effective x hx)
              rw [← lt_sub_iff_add_lt] at hlt
              simp [hlt, h2.1, h2.1 ▸ h2.2]
    · rw [if_neg h2]
      constructor
      · intro h; cases h
      · rintro (h | ⟨heq, hpos, _⟩)
        · exact absurd h h1
        · exact absurd ⟨heq, hpos⟩ h2

/-- Nobody beats whoever beats them. -/
theorem beats_asymm {s t : Standing} (hs : s.Exact) (ht : t.Exact) (h : beats s t = true) :
    beats t s = false := by
  rw [Bool.eq_false_iff]
  intro h'
  rw [beats_iff hs ht] at h
  rw [beats_iff ht hs] at h'
  rcases h with h | ⟨heq, _, x, y, hx, hy, hlt⟩
  · rcases h' with h' | ⟨heq', _⟩
    · exact lt_asymm h h'
    · exact absurd heq' h.ne
  · rcases h' with h' | ⟨_, _, y', x', hy', hx', hlt'⟩
    · exact absurd heq h'.ne
    · rw [hx] at hx'; rw [hy] at hy'
      injection hx' with hx'; injection hy' with hy'
      subst hx' hy'
      exact lt_asymm hlt hlt'

/-- **A bound on each player decides the game**: what beats the other's best beats anything the other
    gets, and so does anything better than it. -/
theorem beats_of_atMost {s s' t t' : Standing} (hs : s.Exact) (hs' : s'.Exact) (ht : t.Exact)
    (ht' : t'.Exact) (hss : s.AtMost s') (htt : t'.AtMost t) (h : beats s t = true) :
    beats s' t' = true := by
  rw [beats_iff hs ht] at h
  rw [beats_iff hs' ht']
  rcases h with h | ⟨heq, hpos, x, y, hx, hy, hlt⟩
  · exact .inl (htt.score.trans_lt (h.trans_le hss.score))
  · have hle : t'.score ≤ s'.score := (htt.score.trans heq.ge).trans hss.score
    rcases hle.lt_or_eq with hlt' | heq'
    · exact .inl hlt'
    · -- nothing was gained on either side, so both effective times are on the right side of the bounds
      have hseq : s.score = s'.score := le_antisymm hss.score (heq' ▸ htt.score.trans heq.ge)
      have hteq : t'.score = t.score := le_antisymm htt.score (heq ▸ heq' ▸ hss.score)
      have hrels := hss.effective hseq
      have hrelt := htt.effective hteq
      rw [hx] at hrels
      rw [hy] at hrelt
      obtain ⟨x', hx', hxx⟩ : ∃ x', s'.effective = some x' ∧ x' ≤ x := by
        cases hrels' : s'.effective with
        | none => rw [hrels'] at hrels; cases hrels
        | some x' => rw [hrels'] at hrels; cases hrels with | some h => exact ⟨x', rfl, h⟩
      obtain ⟨y', hy', hyy⟩ : ∃ y', t'.effective = some y' ∧ y ≤ y' := by
        cases hrelt' : t'.effective with
        | none => rw [hrelt'] at hrelt; cases hrelt
        | some y' => rw [hrelt'] at hrelt; cases hrelt with | some h => exact ⟨y', rfl, h⟩
      exact .inr ⟨heq'.symm, hseq ▸ hpos, x', y', hx', hy', hxx.trans_lt (hlt.trans_le hyy)⟩

end Scoring
end Arena
end CpcJudge
