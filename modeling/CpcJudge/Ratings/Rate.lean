import CpcJudge.Lib.Table
import Mathlib.Data.List.Sort
import Mathlib.Data.Prod.Lex

/-!
# Rating contests

`judge/ratings.py`: a contest is rated from the ratings its participants have from other contests, and each of
them is left with the rating of their latest contest on their profile. `rateAll` starts from nothing;
`Contest.rate` only deletes what a contest and the later ones wrote, and rates those again.

The formulas (`recalculate_ratings`) are a parameter. There is one `Rating` for a user and a contest at most, so
the table is a function of the two; the moment each was written (`last_rated`) is left out.
-/

namespace CpcJudge.Ratings

/-- A `ContestParticipation`, with how many submissions it has. -/
structure Participation where
  id : ℕ
  user : ℕ
  score : ℚ
  cumtime : ℕ
  tiebreaker : ℚ
  isDisqualified : Bool
  virtual : ℤ
  team : Option ℕ
  submissions : ℕ
  deriving DecidableEq

structure Contest where
  id : ℕ
  endTime : ℕ
  isRated : Bool
  rateAll : Bool
  ratingFloor : Option ℤ
  ratingCeiling : Option ℤ
  rateExclude : List ℕ
  users : List Participation
  deriving DecidableEq

structure Profile where
  id : ℕ
  rating : Option ℤ
  deriving DecidableEq

structure Rating where
  participation : ℕ
  rank : ℚ
  rating : ℤ
  mean : ℚ
  performance : ℚ
  deriving DecidableEq

instance : Keyed Contest := ⟨Contest.id⟩
instance : Keyed Profile := ⟨Profile.id⟩

/-- The tables; `ratings` is by contest and user. -/
structure Site where
  contests : Table Contest
  profiles : Table Profile
  ratings : ℕ → ℕ → Option Rating

/-- `recalculate_ratings`: from the ranking, the means, how often each was rated and their performances, newest
first, to the new ratings, means and performances. -/
abbrev Recalculate := List ℚ → List ℚ → List ℕ → List (List ℚ) → List ℤ × List ℚ × List ℚ

/-- `RATING_INIT`. -/
def ratingInit : ℤ := 1200

/-- `MEAN_INIT`. -/
def meanInit : ℚ := 1500

/-! ## The ranking -/

/-- `tie_ranker`, from the rank, the size and the key of the items that are tied, `buf` of them still to be
ranked. -/
def tieRankerFrom {κ : Type} [DecidableEq κ] : List κ → ℚ → ℚ → Option κ → ℕ → List ℚ
  | [], rank, delta, _, buf => List.replicate buf (rank + (delta - 1) / 2)
  | new :: items, rank, delta, last, buf =>
      if some new ≠ last then
        List.replicate buf (rank + (delta - 1) / 2) ++ tieRankerFrom items (rank + delta) 1 (some new) 1
      else tieRankerFrom items rank (delta + 1) last (buf + 1)

def tieRanker {κ : Type} [DecidableEq κ] (items : List κ) : List ℚ := tieRankerFrom items 0 1 none 0

namespace Participation

/-- `order_by('is_disqualified', '-score', 'cumtime', 'tiebreaker')`. -/
def order (p : Participation) : Bool ×ₗ ℚ ×ₗ ℕ ×ₗ ℚ :=
  toLex (p.isDisqualified, toLex (-p.score, toLex (p.cumtime, p.tiebreaker)))

/-- Official, and of one person. -/
def live (p : Participation) : Bool := p.virtual = 0 && p.team.isNone

end Participation

namespace Contest

/-- The contest is in the history of this profile. -/
def participates (c : Contest) (profile : ℕ) : Bool := c.users.any fun p => p.live && p.user = profile

end Contest

/-! ## Rating one contest -/

/-- A participation with the rating its user brings. -/
structure Entrant where
  participation : Participation
  lastRating : ℤ
  lastMean : ℚ
  times : ℕ
  performances : List ℚ

namespace Site

def chronological (s : Site) : List Contest := s.contests.rows.insertionSort (·.endTime ≤ ·.endTime)

/-- The ratings of a user, newest first. -/
def history (s : Site) (user : ℕ) : List Rating :=
  (s.chronological.filterMap fun c => s.ratings c.id user).reverse

/-- The rating of the latest `Rating` of a user. -/
def latest (s : Site) (user : ℕ) : Option ℤ := (s.history user).head?.map (·.rating)

def entrant (s : Site) (p : Participation) : Entrant where
  participation := p
  lastRating := (s.latest p.user).getD ratingInit
  lastMean := ((s.history p.user).head?.map (·.mean)).getD meanInit
  times := (s.history p.user).length
  performances := (s.history p.user).map (·.performance)

/-- Those a contest rates, as they are ranked. -/
def entrants (s : Site) (c : Contest) : List Entrant :=
  let ordered := c.users.insertionSort fun p q => p.order ≤ q.order
  let users := ((ordered.filter fun p => p.user ∉ c.rateExclude).filter (·.live)).map s.entrant
  let users := if !c.rateAll then users.filter (0 < ·.participation.submissions) else users
  let users := match c.ratingFloor with
    | some floor => users.filter fun u => !decide (u.lastRating < floor)
    | none => users
  match c.ratingCeiling with
  | some ceiling => users.filter fun u => !decide (u.lastRating > ceiling)
  | none => users

/-- The rows a contest writes, by user. -/
def newRatings (recalculate : Recalculate) (s : Site) (c : Contest) : List (ℕ × Rating) :=
  let users := s.entrants c
  let ranking := tieRanker (users.map fun u =>
    (u.participation.score, u.participation.cumtime, u.participation.tiebreaker))
  let new := recalculate ranking (users.map (·.lastMean)) (users.map (·.times)) (users.map (·.performances))
  (users.zip (new.1.zip (new.2.1.zip (new.2.2.zip ranking)))).map fun row =>
    (row.1.participation.user,
      { participation := row.1.participation.id, rank := row.2.2.2.2, rating := row.2.1, mean := row.2.2.1,
        performance := row.2.2.2.1 })

/-- `bulk_create`. -/
def createRatings (s : Site) (c : Contest) (rows : List (ℕ × Rating)) : Site :=
  { s with
    ratings := fun contest user =>
      if contest = c.id then (rows.lookup user).or (s.ratings contest user) else s.ratings contest user }

/-- The profiles with the contest in their history get the rating of their latest `Rating`. -/
def updateProfiles (s : Site) (c : Contest) : Site :=
  { s with
    profiles := s.profiles.modify (fun p => c.participates p.id) (fun p => { p with rating := s.latest p.id })
      fun _ => rfl }

def rateContest (recalculate : Recalculate) (s : Site) (c : Contest) : Site :=
  (s.createRatings c (s.newRatings recalculate c)).updateProfiles c

/-! ## Rating them again -/

/-- The contests `rate` rates again: the rated ones from the end of `c` on. -/
def rerated (s : Site) (c : Contest) (now : ℕ) : List Contest :=
  (s.contests.rows.filter fun d => d.isRated && c.endTime ≤ d.endTime && d.endTime ≤ now).insertionSort
    (·.endTime ≤ ·.endTime)

/-- The rows of the contests from the end of `c` on are deleted. -/
def clearFrom (s : Site) (c : Contest) (now : ℕ) : Site :=
  { s with
    ratings := fun contest user =>
      if s.contests.rows.any fun d => d.id = contest && c.endTime ≤ d.endTime && d.endTime ≤ now then none
      else s.ratings contest user }

/-- `Contest.rate`. -/
def rate (recalculate : Recalculate) (s : Site) (c : Contest) (now : ℕ) : Site :=
  (s.rerated c now).foldl (rateContest recalculate) (s.clearFrom c now)

/-- Every row deleted, and every profile without a rating. -/
def clear (s : Site) : Site :=
  { s with
    ratings := fun _ _ => none
    profiles := s.profiles.modify (fun _ => true) (fun p => { p with rating := none }) fun _ => rfl }

/-- `rate_all_view`. -/
def rateAll (recalculate : Recalculate) (s : Site) (now : ℕ) : Site :=
  ((s.contests.rows.filter fun d => d.isRated && d.endTime ≤ now).insertionSort (·.endTime ≤ ·.endTime)).foldl
    (rateContest recalculate) s.clear

end Site
end CpcJudge.Ratings
