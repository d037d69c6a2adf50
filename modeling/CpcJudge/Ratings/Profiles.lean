import CpcJudge.Ratings.Agree

/-!
# The rating on a profile

A profile has a copy of the rating of its latest row. `rateContest` writes it for those with the contest in their
history, and they are the only ones with new rows. So after `rate` the copy is right for whoever is in one of the
contests it rated again; the others have the one they had, also when the row it came from has just been deleted.
-/

namespace CpcJudge.Ratings
open Table

variable {recalculate : Recalculate} {s : Site} {c d : Contest} {p : Profile} {user now : ℕ}

namespace Site

/-- Whoever a contest rates is in it, officially and alone. -/
theorem mem_entrants {e : Entrant} (h : e ∈ s.entrants c) :
    e.participation ∈ c.users ∧ e.participation.live = true := by
  have hall : e ∈ ((c.users.insertionSort fun p q => p.order ≤ q.order).filter (fun p => p.user ∉ c.rateExclude)
      |>.filter (·.live)).map s.entrant := by
    rw [entrants] at h
    cases hceiling : c.ratingCeiling <;> cases hfloor : c.ratingFloor <;> cases hall : c.rateAll <;>
      simp only [hceiling, hfloor, hall, Bool.not_true, Bool.not_false, Bool.false_eq_true, if_true, if_false] at h
    all_goals
      repeat' first
        | exact h
        | exact List.mem_of_mem_filter h
        | replace h := List.mem_of_mem_filter h
  obtain ⟨q, hq, rfl⟩ := List.mem_map.mp hall
  obtain ⟨hq, hlive⟩ := List.mem_filter.mp hq
  exact ⟨(List.perm_insertionSort _ _).mem_iff.mp (List.mem_of_mem_filter hq), hlive⟩

theorem lookup_newRatings (h : c.participates user = false) : (s.newRatings recalculate c).lookup user = none := by
  rw [List.lookup_eq_none_iff]
  intro row hrow
  obtain ⟨tuple, htuple, rfl⟩ := List.mem_map.mp hrow
  obtain ⟨hmem, hlive⟩ := mem_entrants (List.of_mem_zip htuple).1
  rw [Contest.participates, List.any_eq_false] at h
  have hother := h _ hmem
  rw [hlive, Bool.true_and, decide_eq_true_iff] at hother
  exact bne_iff_ne.mpr (Ne.symm hother)

/-! ## One contest -/

theorem rateContest_history (h : c.participates user = false) :
    (rateContest recalculate s c).history user = s.history user := by
  refine history_congr rfl fun d _ => ?_
  rw [rateContest_ratings, lookup_newRatings h]
  simp

theorem foldl_history {rated : List Contest} (h : ∀ c ∈ rated, c.participates user = false) :
    (rated.foldl (rateContest recalculate) s).history user = s.history user := by
  induction rated generalizing s with
  | nil => rfl
  | cons c rated ih =>
      rw [List.foldl_cons, ih fun d hd => h d (List.mem_cons_of_mem c hd),
        rateContest_history (h c List.mem_cons_self)]

theorem rateContest_profiles : Maps
    (fun p p' : Profile => p'.id = p.id ∧
      p'.rating = if c.participates p.id then (rateContest recalculate s c).latest p.id else p.rating)
    s.profiles (rateContest recalculate s c).profiles := by
  refine ⟨_, rfl, fun p _ => ?_⟩
  by_cases hp : c.participates p.id = true
  · simp only [if_pos hp]
    exact ⟨rfl, trivial, rfl⟩
  · simp only [if_neg hp]
    exact ⟨trivial, trivial, trivial⟩

/-- Those in one of the contests have the rating of their latest row, and the others the one they had. -/
theorem foldl_profiles {rated : List Contest} : Maps
    (fun p p' : Profile => p'.id = p.id ∧
      ((∃ c ∈ rated, c.participates p.id = true) →
        p'.rating = (rated.foldl (rateContest recalculate) s).latest p.id) ∧
      ((∀ c ∈ rated, c.participates p.id = false) → p'.rating = p.rating))
    s.profiles (rated.foldl (rateContest recalculate) s).profiles := by
  induction rated generalizing s with
  | nil => exact Maps.refl (fun p => ⟨rfl, by simp, fun _ => rfl⟩) _
  | cons c rated ih =>
      refine (@rateContest_profiles recalculate s c).comp ?_ ih
      rintro p p' p'' ⟨hid, hrating⟩ ⟨hid', hlatest, hkept⟩
      rw [hid] at hlatest hkept hid'
      refine ⟨hid', ?_, ?_⟩
      · rintro ⟨d, hd, hin⟩
        by_cases hlater : ∃ e ∈ rated, e.participates p.id = true
        · exact hlatest hlater
        · have hout : ∀ e ∈ rated, e.participates p.id = false := by simpa using hlater
          have hc : c.participates p.id = true := by
            rcases List.mem_cons.mp hd with rfl | hd
            · exact hin
            · exact absurd ⟨d, hd, hin⟩ hlater
          rw [hkept hout, hrating, if_pos hc, List.foldl_cons, latest, latest, foldl_history hout]
      · intro hout
        have hc := hout c List.mem_cons_self
        rw [hkept fun d hd => hout d (List.mem_cons_of_mem c hd), hrating, hc]
        simp

/-! ## All the profiles -/

/-- The ratings of a user in the contests that end before `c`, newest first. -/
def historyBefore (s : Site) (c : Contest) (user : ℕ) : List Rating :=
  ((s.chronological.filter (·.endTime < c.endTime)).filterMap fun d => s.ratings d.id user).reverse

/-- Whoever is in no contest that is rated again already has the rating of their latest row before `c`. -/
def Kept (s : Site) (c : Contest) (now : ℕ) : Prop :=
  ∀ p ∈ s.profiles.rows, (∀ d ∈ s.rerated c now, d.participates p.id = false) →
    p.rating = (s.historyBefore c p.id).head?.map (·.rating)

theorem clearFrom_history (hfinished : ∀ d ∈ s.contests.rows, d.endTime ≤ now) :
    (s.clearFrom c now).history user = s.historyBefore c user := by
  rw [history, historyBefore, List.filterMap_filter]
  refine congrArg List.reverse (List.filterMap_congr fun d hd => ?_)
  have hd : d ∈ s.contests.rows := (List.perm_insertionSort _ _).mem_iff.mp hd
  rw [clearFrom_ratings hd (hfinished d hd)]
  simp

theorem rate_latest (hfinished : ∀ d ∈ s.contests.rows, d.endTime ≤ now)
    (hout : ∀ d ∈ s.rerated c now, d.participates user = false) :
    (rate recalculate s c now).latest user = (s.historyBefore c user).head?.map (·.rating) := by
  rw [latest, rate, foldl_history hout, clearFrom_history hfinished]

/-- Rating a contest again leaves the rows of `rateAll`, and the profiles have the rating of their latest row
exactly when those nobody wrote to had it before. -/
theorem rate_again (hfinished : ∀ d ∈ s.contests.rows, d.endTime ≤ now)
    (hbefore : ∀ d ∈ s.contests.rows, d.endTime < c.endTime → ∀ user,
      s.ratings d.id user = (rateAll recalculate s now).ratings d.id user) :
    ((∀ d ∈ s.contests.rows, ∀ user,
        (rate recalculate s c now).ratings d.id user = (rateAll recalculate s now).ratings d.id user) ∧
      ∀ p ∈ (rate recalculate s c now).profiles.rows, p.rating = (rate recalculate s c now).latest p.id) ↔
    s.Kept c now := by
  have hprofiles := @foldl_profiles recalculate (s.clearFrom c now) (s.rerated c now)
  constructor
  · rintro ⟨-, hlatest⟩ p hp hout
    obtain ⟨p', hp', hid, -, hkept⟩ := hprofiles.forth (Table.get?_of_mem hp)
    have hp' := hlatest p' (Table.mem_of_get? hp')
    rw [← hkept hout, hp', hid, rate_latest hfinished hout]
  · intro hKept
    refine ⟨fun d hd user => ?_, fun p' hp' => ?_⟩
    · exact (rate_agree hfinished hbefore).ratings d (by rwa [rate, foldl_contests]) user
    · obtain ⟨p, hp, -, hid, hlatest, hkept⟩ := hprofiles.back hp'
      rw [hid]
      by_cases hin : ∃ d ∈ s.rerated c now, d.participates p.id = true
      · exact hlatest hin
      · have hout : ∀ d ∈ s.rerated c now, d.participates p.id = false := by simpa using hin
        rw [hkept hout, rate_latest hfinished hout]
        exact hKept p hp hout

/-! ## A contest that is not rated any more -/

/-- Two contests of one person each, the second of them rated or not. -/
def twoContests (isRated : Bool) : Table Contest where
  rows :=
    let person (id user : ℕ) : Participation :=
      { id, user, score := 100, cumtime := 5, tiebreaker := 0, isDisqualified := false, virtual := 0, team := none,
        submissions := 1 }
    let contest (id endTime : ℕ) (isRated : Bool) : Contest :=
      { id, endTime, isRated, rateAll := false, ratingFloor := none, ratingCeiling := none, rateExclude := [],
        users := [person id id] }
    [contest 1 10 true, contest 2 20 isRated]
  distinct := by revert isRated; decide

/-- Everything has just been rated, and then the second contest was left rated or not. -/
def ratedThen (recalculate : Recalculate) (isRated : Bool) : Site :=
  let s : Site :=
    { contests := twoContests true, profiles := ⟨[⟨1, none⟩, ⟨2, none⟩], by decide⟩, ratings := fun _ _ => none }
  { rateAll recalculate s 30 with contests := twoContests isRated }

/-- Everybody gets 1300. -/
def thirteen : Recalculate := fun ranking _ _ _ => (ranking.map fun _ => 1300, ranking.map fun _ => 1500,
  ranking.map fun _ => 1500)

theorem kept_rated : (ratedThen thirteen true).Kept ((twoContests true).rows.head (by decide)) 30 := by
  rw [Kept]
  decide +kernel

theorem rate_again_rated : (ratedThen thirteen true).Kept ((twoContests true).rows.head (by decide)) 30 ∧
    ∀ p ∈ (rate thirteen (ratedThen thirteen true) ((twoContests true).rows.head (by decide)) 30).profiles.rows,
      p.rating =
        (rate thirteen (ratedThen thirteen true) ((twoContests true).rows.head (by decide)) 30).latest p.id :=
  ⟨kept_rated, ((rate_again (by decide) fun d hd hlt => absurd hlt (by revert d; decide)).mpr kept_rated).2⟩

theorem rate_again_unrated : ¬ ∀ (recalculate : Recalculate) (s : Site) (c : Contest) (now : ℕ),
    c ∈ s.contests.rows → (s.contests.rows.map (·.endTime)).Nodup → (∀ d ∈ s.contests.rows, d.endTime ≤ now) →
    (∀ d ∈ s.contests.rows, d.endTime < c.endTime → ∀ user,
      s.ratings d.id user = (rateAll recalculate s now).ratings d.id user) →
    (∀ d ∈ s.contests.rows, ∀ user,
      (rate recalculate s c now).ratings d.id user = (rateAll recalculate s now).ratings d.id user) ∧
    ∀ p ∈ (rate recalculate s c now).profiles.rows, p.rating = (rate recalculate s c now).latest p.id := by
  intro h
  have hstale := (h thirteen (ratedThen thirteen false) ((twoContests false).rows.head (by decide)) 30 (by decide)
    (by decide) (by decide) fun d hd hlt => absurd hlt (by revert d; decide)).2
  revert hstale
  decide +kernel

end Site
end CpcJudge.Ratings
