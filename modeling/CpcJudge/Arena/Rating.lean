import CpcJudge.Arena.System
import CpcJudge.Lib.Sync

/-!
# `Arena.Rating` — the ranking of the duels

`judge/arena/rating.py`: which battles count, the ranking worked out from them, and the stored one that `recompute`
brings up to date after a commit that scheduled it. The formulas of Glicko-2 (`rate` and `grown_deviation`) are a
parameter, and a float is a rational number.
-/

namespace CpcJudge
namespace Arena

/-! ## What counts -/

/-- `counts_q`. -/
def countsQ (db : Db) (m : Match) : Bool :=
  ((m.tournament.isNone && m.ranking = .counts) ||
      ((tournamentOf db m).any (·.ranking = .counts) && m.ranking ≠ .excluded)) &&
    m.status = .decided && m.players.a.isSome && m.players.b.isSome &&
    m.displayNames.a = "" && m.displayNames.b = "" &&
    !(m.decidedReason = some .bye || m.decidedReason = some .walkover)

/-- The number, the winner and the end of a game that counts: finished, with a winner. -/
def Game.counted (g : Game) : Option (ℕ × Slot × Option Time) :=
  if g.status = .finished then g.winnerSlot.map fun w => (g.number, w, g.finishedAt) else none

/-- The games of a match that count, by number. -/
def Match.counted (m : Match) : List (ℕ × Slot × Option Time) :=
  (m.games.rows.filterMap Game.counted).insertionSort fun g h => g.1 ≤ h.1

/-- The later of two moments, if there is any. -/
def later (x y : Option Time) : Option Time :=
  match x, y with
  | some x, some y => some (max x y)
  | none, y => y
  | x, none => x

/-- An entry of `_battles`: the players, who won each game that counts, and when the last of them ended. -/
structure Battle where
  id : MatchId
  players : Pair ProfileId
  winners : List Slot
  time : Time
  deriving DecidableEq

/-- The entry of a match, if it counts and some of its games do. -/
def battleOf (db : Db) (m : Match) : Option Battle :=
  if countsQ db m then do
    let a ← m.players.a
    let b ← m.players.b
    let time ← (m.counted.map (·.2.2)).foldl later none
    return { id := m.id, players := ⟨a, b⟩, winners := m.counted.map (·.2.1), time }
  else none

/-- `_battles`: by the end of their last game that counts, then by id. -/
def battles (db : Db) : List Battle :=
  (db.battles.rows.filterMap (battleOf db)).insertionSort fun x y => toLex (x.time, x.id) ≤ toLex (y.time, y.id)

/-! ## Working it out -/

/-- The rating of a player, its deviation and its volatility. -/
structure Strength where
  rating : ℚ
  deviation : ℚ
  volatility : ℚ
  deriving DecidableEq

/-- `START_RATING`, `START_DEVIATION` and `START_VOLATILITY`. -/
def Strength.start : Strength := { rating := 1500, deviation := 350, volatility := 6 / 100 }

/-- The formulas of Glicko-2. -/
structure Glicko where
  /-- `rate`, from the results: the rating of the rival, their deviation, and 1 or 0. -/
  rate : Strength → List (ℚ × ℚ × ℚ) → Strength
  /-- `grown_deviation`. -/
  grownDeviation : ℚ → ℚ → ℤ → ℚ

/-- `PERIOD`. -/
def period : Time := minutes (7 * 24 * 60)

/-- `ArenaRating`. -/
structure Rating where
  profile : ProfileId
  strength : Strength
  games : ℕ
  wins : ℕ
  battles : ℕ
  lastPlayed : Time
  deriving DecidableEq

instance : Keyed Rating := ⟨Rating.profile⟩

/-- `ArenaRatingChange`, one for each match and player. -/
structure RatingChange where
  «match» : MatchId
  profile : ProfileId
  time : Time
  ratingBefore : ℚ
  after : Strength
  games : ℕ
  wins : ℕ
  gamesTotal : ℕ
  deriving DecidableEq

instance : Keyed RatingChange := ⟨fun change => Nat.pair change.match change.profile⟩

/-- The ranking: `players` and `changes` of `compute`, or the rows stored. -/
structure DuelRanking where
  ratings : Table Rating := .empty
  changes : Table RatingChange := .empty

namespace Glicko
variable (g : Glicko)

/-- What a player is worth before a battle at `time`. -/
def before (ranking : DuelRanking) (time : Time) (profile : ProfileId) : Strength :=
  match ranking.ratings.get? profile with
  | none => .start
  | some state =>
    let weeks := (time - state.lastPlayed).tdiv period
    { state.strength with
      deviation := g.grownDeviation state.strength.deviation state.strength.volatility weeks }

/-- What a battle leaves of one of its players, who enters it with `before` of its slot. -/
def rateSlot (battle : Battle) (before : Pair Strength) (ranking : DuelRanking) (slot : Slot) : DuelRanking :=
  let rival := before.get slot.other
  let results := battle.winners.map fun winner =>
    (rival.rating, rival.deviation, if winner = slot then (1 : ℚ) else 0)
  let strength := g.rate (before.get slot) results
  let profile := battle.players.get slot
  let state := ranking.ratings.get? profile
  let wins := battle.winners.count slot
  let rating : Rating :=
    { profile, strength
      games := (state.map (·.games)).getD 0 + battle.winners.length
      wins := (state.map (·.wins)).getD 0 + wins
      battles := (state.map (·.battles)).getD 0 + 1
      lastPlayed := battle.time }
  let change : RatingChange :=
    { «match» := battle.id, profile, time := battle.time, ratingBefore := (before.get slot).rating, after := strength
      games := battle.winners.length, wins, gamesTotal := rating.games }
  { ratings := ranking.ratings.upsert rating, changes := ranking.changes.upsert change }

/-- `compute`, from a list of battles. -/
def compute (list : List Battle) : DuelRanking :=
  list.foldl (fun ranking battle =>
    let before := battle.players.map (g.before ranking battle.time)
    [Slot.a, .b].foldl (g.rateSlot battle before) ranking) {}

end Glicko

/-! ## The stored ranking -/

/-- Two floats no more than `1e-7` apart. -/
def closeTo (old new : ℚ) : Bool := |old - new| ≤ 1 / 10 ^ 7

namespace Strength

def closeTo (old new : Strength) : Bool :=
  Arena.closeTo old.rating new.rating && Arena.closeTo old.deviation new.deviation &&
    Arena.closeTo old.volatility new.volatility

end Strength

/-- `_same`, on `RATING_FIELDS`. -/
def Rating.same (stored computed : Rating) : Bool :=
  stored.strength.closeTo computed.strength && stored.games = computed.games && stored.wins = computed.wins &&
    stored.battles = computed.battles && stored.lastPlayed = computed.lastPlayed

/-- `_same`, on `CHANGE_FIELDS`. -/
def RatingChange.same (stored computed : RatingChange) : Bool :=
  stored.time = computed.time && Arena.closeTo stored.ratingBefore computed.ratingBefore &&
    stored.after.closeTo computed.after && stored.games = computed.games && stored.wins = computed.wins &&
    stored.gamesTotal = computed.gamesTotal

namespace Glicko
variable (g : Glicko)

/-- `check`: how many stored rows are not what the battles give. -/
def check (db : Db) (stored : DuelRanking) : ℕ :=
  let computed := g.compute (battles db)
  Table.differences Rating.same stored.ratings computed.ratings +
    Table.differences RatingChange.same stored.changes computed.changes

/-- `recompute`. -/
def recompute (db : Db) (stored : DuelRanking) : DuelRanking :=
  let computed := g.compute (battles db)
  { ratings := .sync Rating.same stored.ratings computed.ratings
    changes := .sync RatingChange.same stored.changes computed.changes }

/-- What runs after a commit. -/
def runHook (db : Db) (stored : DuelRanking) : Hook → DuelRanking
  | .refreshLock => stored
  | .recompute => g.recompute db stored

end Glicko

/-- The arena with its ranking. -/
structure Rated where
  db : Db := {}
  stored : DuelRanking := {}

/-- An operation, and whatever it left for after its commit. -/
def Rated.step (g : Glicko) (site : Site) (op : Op) (r : Rated) : Rated :=
  match op.result site r.db with
  | .ok _ s => { db := s.db, stored := s.hooks.foldl (g.runHook s.db) r.stored }
  | .error _ _ => r

/-- The arena after a sequence of operations, from the empty tables. -/
def Rated.play (g : Glicko) (steps : List (Site × Op)) : Rated :=
  steps.foldl (fun r step => r.step g step.1 step.2) {}

/-- The hooks an operation leaves for after its commit. -/
def Op.hooks (site : Site) (op : Op) (db : Db) : List Hook :=
  match op.result site db with
  | .ok _ s => s.hooks
  | .error _ _ => []

end Arena
end CpcJudge
