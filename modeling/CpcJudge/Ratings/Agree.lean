import CpcJudge.Ratings.Rate
import CpcJudge.Lib.FirstBest

/-!
# Rating again and rating everything

What a contest writes depends on the rows there are alone, so the rows that `rate` leaves are those of `rateAll`
whenever the rows of the contests before are.
-/

namespace CpcJudge.Ratings
open Table

variable {recalculate : Recalculate} {s t : Site} {c d : Contest} {user now : ℕ}

/-- Both sites have these contests, and the same ratings of them. -/
structure Site.Agree (s t : Site) : Prop where
  contests : s.contests = t.contests
  ratings : ∀ d ∈ s.contests.rows, ∀ user, s.ratings d.id user = t.ratings d.id user

theorem Site.history_congr (hcontests : s.contests = t.contests)
    (h : ∀ d ∈ s.contests.rows, s.ratings d.id user = t.ratings d.id user) : s.history user = t.history user := by
  have hrows : s.chronological = t.chronological := by rw [chronological, chronological, hcontests]
  rw [history, history, hrows]
  refine congrArg List.reverse (List.filterMap_congr fun d hd => h d ?_)
  rw [hcontests]
  exact (List.perm_insertionSort _ _).mem_iff.mp hd

/-! ## One contest -/

namespace Site

theorem rateContest_contests : (rateContest recalculate s c).contests = s.contests := rfl

theorem rateContest_ratings {contest : ℕ} : (rateContest recalculate s c).ratings contest user =
    if contest = c.id then ((s.newRatings recalculate c).lookup user).or (s.ratings contest user)
    else s.ratings contest user := rfl

theorem Agree.rateContest (h : s.Agree t) : (s.rateContest recalculate c).Agree (t.rateContest recalculate c) := by
  have hhistory (user : ℕ) : s.history user = t.history user :=
    history_congr h.contests fun d hd => h.ratings d hd user
  have hentrant : s.entrant = t.entrant := by
    funext p
    rw [entrant, entrant, latest, latest, hhistory]
  have hnew : s.newRatings recalculate c = t.newRatings recalculate c := by
    rw [newRatings, newRatings, entrants, entrants, hentrant]
  refine ⟨h.contests, fun d hd user => ?_⟩
  rw [rateContest_ratings, rateContest_ratings, hnew, h.ratings d hd]

theorem Agree.foldl {rated : List Contest} (h : s.Agree t) :
    (rated.foldl (Site.rateContest recalculate) s).Agree (rated.foldl (Site.rateContest recalculate) t) := by
  induction rated generalizing s t with
  | nil => exact h
  | cons c rated ih => exact ih h.rateContest

theorem foldl_contests {rated : List Contest} : (rated.foldl (rateContest recalculate) s).contests = s.contests := by
  induction rated generalizing s with
  | nil => rfl
  | cons c rated ih => exact ih

/-- The contests that are not rated keep their rows. -/
theorem foldl_ratings {rated : List Contest} {contest : ℕ} (h : ∀ c ∈ rated, contest ≠ c.id) :
    (rated.foldl (rateContest recalculate) s).ratings contest user = s.ratings contest user := by
  induction rated generalizing s with
  | nil => rfl
  | cons c rated ih =>
      rw [List.foldl_cons, ih fun d hd => h d (List.mem_cons_of_mem c hd), rateContest_ratings,
        if_neg (h c List.mem_cons_self)]

/-! ## The rows of `rate` are those of `rateAll` -/

/-- `rateAll` rates the contests that end before `c`, and then those `rate` rates. -/
theorem rateAll_eq : rateAll recalculate s now = (s.rerated c now).foldl (rateContest recalculate)
    (((s.contests.rows.filter fun d => d.isRated && d.endTime ≤ now).insertionSort (·.endTime ≤ ·.endTime)
      |>.filter (·.endTime < c.endTime)).foldl (rateContest recalculate) s.clear) := by
  rw [rateAll, ← List.foldl_append]
  refine congrArg (fun l => List.foldl (rateContest recalculate) s.clear l) ?_
  rw [rerated]
  have hlater : (s.contests.rows.filter fun d => d.isRated && c.endTime ≤ d.endTime && d.endTime ≤ now) =
      (s.contests.rows.filter fun d => d.isRated && d.endTime ≤ now).filter fun d => c.endTime ≤ d.endTime := by
    rw [List.filter_filter]
    refine List.filter_congr fun d _ => ?_
    cases d.isRated
    · simp
    · simp
  rw [hlater, ← FirstBest.filter_insertionSort (fun d : Contest => c.endTime ≤ d.endTime)]
  exact (FirstBest.filter_lt_append_filter_le c.endTime (FirstBest.pairwise_le_insertionSort _)).symm

theorem mem_rerated : d ∈ s.rerated c now ↔
    d ∈ s.contests.rows ∧ d.isRated = true ∧ c.endTime ≤ d.endTime ∧ d.endTime ≤ now := by
  rw [rerated, (List.perm_insertionSort _ _).mem_iff, List.mem_filter]
  simp [and_assoc]

theorem clearFrom_ratings (hd : d ∈ s.contests.rows) (hfinished : d.endTime ≤ now) :
    (s.clearFrom c now).ratings d.id user = if d.endTime < c.endTime then s.ratings d.id user else none := by
  have hany : (s.contests.rows.any fun e => e.id = d.id && c.endTime ≤ e.endTime && e.endTime ≤ now) =
      decide (c.endTime ≤ d.endTime) := by
    rw [Bool.eq_iff_iff, List.any_eq_true, decide_eq_true_iff]
    constructor
    · rintro ⟨e, he, hcond⟩
      simp only [Bool.and_eq_true, decide_eq_true_iff] at hcond
      obtain rfl : e = d := Table.eq_of_key he hd hcond.1.1
      exact hcond.1.2
    · intro hle
      exact ⟨d, hd, by simp [hle, hfinished]⟩
  rw [clearFrom]
  simp only [hany, decide_eq_true_iff]
  by_cases hlt : d.endTime < c.endTime
  · rw [if_neg (not_le.mpr hlt), if_pos hlt]
  · rw [if_pos (not_lt.mp hlt), if_neg hlt]

/-- With the rows of the contests before `c` in order, what `rate` leaves is what `rateAll` does. -/
theorem rate_agree (hfinished : ∀ d ∈ s.contests.rows, d.endTime ≤ now)
    (hbefore : ∀ d ∈ s.contests.rows, d.endTime < c.endTime → ∀ user,
      s.ratings d.id user = (rateAll recalculate s now).ratings d.id user) :
    (rate recalculate s c now).Agree (rateAll recalculate s now) := by
  rw [rateAll_eq (c := c), rate]
  refine Agree.foldl ⟨(foldl_contests (s := s.clear)).symm, fun d hd user => ?_⟩
  have hd : d ∈ s.contests.rows := hd
  rw [clearFrom_ratings hd (hfinished d hd)]
  split
  · rename_i hlt
    rw [hbefore d hd hlt user, rateAll_eq (c := c)]
    refine foldl_ratings fun e he heq => ?_
    obtain rfl : d = e := Table.eq_of_key hd (mem_rerated.mp he).1 heq
    exact absurd hlt (not_lt.mpr (mem_rerated.mp he).2.2.1)
  · rename_i hlt
    refine (foldl_ratings (s := s.clear) fun e he heq => ?_).symm
    have hmem := List.mem_filter.mp he
    have he : e ∈ s.contests.rows := List.mem_of_mem_filter ((List.perm_insertionSort _ _).mem_iff.mp hmem.1)
    obtain rfl : d = e := Table.eq_of_key hd he heq
    exact hlt (by simpa using hmem.2)

end Site
end CpcJudge.Ratings
