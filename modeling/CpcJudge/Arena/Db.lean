import CpcJudge.Arena.Scoring
import CpcJudge.Lib.Table
import CpcJudge.Lib.Txn

/-!
# `Arena.Db` — the rows of the arena and its transactions

The tables of `judge/models/arena.py`. A match holds its games, and a started game the submissions of its
backing contest, so whatever happens to a match under its lock is a change of one row.

An operation runs in a transaction (`ArenaM`): it reads and writes the tables, takes row locks, schedules
hooks for after the commit, and may be refused with an `ArenaError`, in which case nothing it wrote stays.
Whatever the arena asks the rest of the site is gathered in a `Site`.
-/

namespace CpcJudge
namespace Arena

open Scoring (Attempt Reason Summary)

/-! ## Games -/

/-- `ArenaGame.STATUS`. -/
inductive GameStatus where
  | prepared | countdown | live | verifying | finished | tie | cancelled
  deriving DecidableEq, Repr

namespace GameStatus

/-- `ACTIVE_STATUSES`. -/
def active : GameStatus → Bool
  | countdown | live | verifying => true
  | _ => false

/-- `OPEN_STATUSES`. -/
def opened : GameStatus → Bool
  | countdown | live => true
  | _ => false

end GameStatus

/-- `ArenaGameProblem`. -/
structure GameProblem where
  problem : ProblemId
  order : ℕ
  points : ℕ
  deriving DecidableEq, Repr

/-- The backing contest of a started game: its end and the submissions of each player, keyed by the order
    of the problem. -/
structure Contest where
  endTime : Time
  attempts : Pair (List Attempt)
  deriving DecidableEq

/-- `ArenaGame`. -/
structure Game where
  id : GameId
  number : ℕ
  status : GameStatus := .prepared
  problems : List GameProblem := []
  rules : Rules := {}
  contest : Option Contest := none
  startedAt : Option Time := none
  endsAt : Option Time := none
  closedAt : Option Time := none
  finishedAt : Option Time := none
  winnerSlot : Option Slot := none
  reason : Option Reason := none
  result : Option (Pair Summary) := none
  decidedBy : Option ProfileId := none
  deriving DecidableEq

instance : Keyed Game := ⟨Game.id⟩

namespace Game

/-- A game that has been played, or is being played, has its contest. -/
def started (game : Game) : Bool := game.contest.isSome

/-- A game prepared in advance: its problems can still change, and it can still be thrown away. -/
def unplayed (game : Game) : Bool := game.status = .prepared && game.contest.isNone

/-- The submissions of a player. -/
def attempts (game : Game) (slot : Slot) : List Attempt := game.contest.elim [] (·.attempts.get slot)

/-- What each player has sent. -/
def submissions (game : Game) (slot : Slot) : List (ℕ × Time × ℕ) := (game.attempts slot).map (·.submission)

/-- `UNSEEN_GAMES`: voided during its countdown, so nobody saw its problems. -/
def unseen (game : Game) : Bool :=
  game.status = .cancelled &&
    match game.finishedAt, game.startedAt with
    | some finished, some started => finished < started
    | _, _ => false

end Game

/-! ## Matches -/

/-- `ArenaMatch.STATUS`. -/
inductive MatchStatus where
  | pending | ready | called | playing | decided | cancelled
  deriving DecidableEq, Repr

/-- `LOCKING_STATUSES`. -/
def MatchStatus.locking : MatchStatus → Bool
  | called | playing => true
  | _ => false

/-- `RANKING`. -/
inductive Ranking where
  | pending | counts | excluded
  deriving DecidableEq, Repr

/-- What decided a match. -/
inductive DecidedReason where
  | games | walkover | bye | organizer
  deriving DecidableEq, Repr

/-- `ArenaMatch`, with its games. A quick battle has no tournament. -/
structure Match where
  id : MatchId
  tournament : Option TournamentId := none
  round : Option ℕ := none
  position : ℕ := 0
  isThirdPlace : Bool := false
  title : String := ""
  players : Pair (Option ProfileId)
  displayNames : Pair String := .both ""
  seeds : Pair (Option ℕ) := .both none
  nextMatch : Option (MatchId × Slot) := none
  loserNextMatch : Option (MatchId × Slot) := none
  bestOf : ℕ := 1
  rules : Rules := {}
  status : MatchStatus := .pending
  calledAt : Option Time := none
  wins : Pair ℕ := .both 0
  winnerSlot : Option Slot := none
  decidedReason : Option DecidedReason := none
  decidedAt : Option Time := none
  createdBy : Option ProfileId := none
  createdAt : Time := 0
  ranking : Ranking := .pending
  version : ℕ := 0
  games : Table Game := .empty
  deriving DecidableEq

instance : Keyed Match := ⟨Match.id⟩

namespace Match

/-- `wins_needed`. -/
def winsNeeded (m : Match) : ℕ := m.bestOf / 2 + 1

/-- `max(wins_a, wins_b)`. -/
def mostWins (m : Match) : ℕ := max m.wins.a m.wins.b

/-- Decided or cancelled. -/
def isOver (m : Match) : Bool := m.status = .decided || m.status = .cancelled

/-- `slot_of`. -/
def slotOf (m : Match) (profile : ProfileId) : Option Slot :=
  if m.players.a = some profile then some .a
  else if m.players.b = some profile then some .b
  else none

def ready (m : Match) : Bool := m.players.a.isSome && m.players.b.isSome

/-- A game of the match is being played. -/
def inPlay (m : Match) : Bool := m.games.rows.any (·.status.active)

/-- Some game of the match has been started. -/
def started (m : Match) : Bool := m.games.rows.any (·.started)

/-- The match with one of its games changed. -/
def setGame (m : Match) (game : Game) : Match := { m with games := m.games.put game }

end Match

/-! ## Tournaments and screens -/

/-- `ArenaTournament.STATUS`. -/
inductive TournamentStatus where
  | draft | running | finished | archived
  deriving DecidableEq, Repr

/-- `ArenaTournament.SEEDING`. -/
inductive Seeding where
  | manual | random | rating | duel
  deriving DecidableEq, Repr

/-- `ArenaParticipant`. -/
structure Participant where
  profile : ProfileId
  seed : ℕ
  deriving DecidableEq, Repr

/-- `ArenaRound`, named by its number. -/
structure Round where
  number : ℕ
  name : String := ""
  bestOf : ℕ := 1
  rules : Rules := {}
  deriving DecidableEq, Repr

/-- `ArenaTournament`, with its participants and its rounds. -/
structure Tournament where
  id : TournamentId
  name : String
  description : String := ""
  status : TournamentStatus := .draft
  bank : Option BankId := none
  thirdPlaceMatch : Bool := false
  seeding : Seeding := .manual
  rules : Rules := {}
  createdBy : Option ProfileId := none
  startedAt : Option Time := none
  finishedAt : Option Time := none
  showInHistory : Bool := true
  plannedAt : Option Time := none
  ranking : Ranking := .pending
  version : ℕ := 0
  participants : List Participant := []
  rounds : List Round := []
  deriving DecidableEq

instance : Keyed Tournament := ⟨Tournament.id⟩

def Tournament.round? (t : Tournament) (number : ℕ) : Option Round := t.rounds.find? (·.number = number)

/-- `ArenaScreen.MODES`. -/
inductive ScreenMode where
  | idle | bracket | battle | message
  deriving DecidableEq, Repr

/-- `ArenaScreen`. -/
structure Screen where
  id : ScreenId
  name : String
  mode : ScreenMode := .idle
  tournament : Option TournamentId := none
  «match» : Option MatchId := none
  followLive : Bool := true
  message : String := ""
  createdBy : Option ProfileId := none
  version : ℕ := 0
  deriving DecidableEq

instance : Keyed Screen := ⟨Screen.id⟩

/-! ## What is recorded, locked and scheduled -/

/-- The names of `ArenaAction`. -/
inductive ActionName where
  | create | screen | call | problems | bankProblems | bankEmpty | start | verifying | finish | tie
  | decided | extend | cancelGame | finalize | cancel | update | replace | setWinner | ranking
  | tournamentCreate | tournamentUpdate | tournamentStart | tournamentArchive | tournamentFinish
  | history | participants | round | bracket
  deriving DecidableEq, Repr

/-- `ArenaAction`: who did what, append only. -/
structure Action where
  action : ActionName
  actor : Option ProfileId := none
  «match» : Option MatchId := none
  game : Option GameId := none
  tournament : Option TournamentId := none
  deriving DecidableEq, Repr

/-- A row lock (`select_for_update`). The lock of a match says whose tournament it is. -/
inductive Lock where
  | tournament (id : TournamentId)
  | match (tournament : Option TournamentId) (id : MatchId)
  | screen (id : ScreenId)
  deriving DecidableEq, Repr

/-- What is left for after the commit: the players kept inside the arena, and the ranking of the duels. -/
inductive Hook where
  | refreshLock | recompute
  deriving DecidableEq, Repr

/-- The tables of the arena. `nextId` is the next primary key of any of them. -/
structure Db where
  tournaments : Table Tournament := .empty
  battles : Table Match := .empty
  screens : Table Screen := .empty
  actions : List Action := []
  nextId : ℕ := 1
  deriving DecidableEq

/-- A transaction under way: the tables as it sees them, the locks it holds in the order it took them, and
    the hooks it scheduled. -/
structure Txn where
  db : Db
  locks : List Lock := []
  hooks : List Hook := []

abbrev ArenaM := EStateM ArenaError Txn

/-- An entry of a problem bank (`ArenaBankProblem`). -/
structure BankEntry where
  problem : ProblemId
  level : Option ℕ := none
  order : ℕ := 0
  deriving DecidableEq, Repr

/-- What the arena asks the rest of the site at a given moment. -/
structure Site where
  /-- The time. -/
  now : Time
  displayName : ProfileId → String := fun _ => ""
  /-- `visible_problems` of a user, or of nobody. -/
  visibleTo : Option ProfileId → ProblemId → Bool := fun _ _ => true
  problemExists : ProblemId → Bool := fun _ => true
  problemName : ProblemId → String := fun _ => ""
  /-- The keys of the usable languages of a problem, or of the allowed ones if no judge is online. -/
  languages : ProblemId → List String := fun _ => ["PY3"]
  judgeOnline : ProblemId → Bool := fun _ => true
  /-- `is_connected`: whether the player of a slot has the arena open. -/
  connected : MatchId → Slot → Bool := fun _ _ => true
  bank : BankId → List BankEntry := fun _ => []
  /-- Whether the player has ever submitted the problem. -/
  touched : ProfileId → ProblemId → Bool := fun _ _ => false
  /-- `SystemRandom().sample`. -/
  sample : List BankEntry → ℕ → List BankEntry := fun pool count => pool.take count
  /-- `SystemRandom().shuffle`. -/
  shuffle : List ProfileId → List ProfileId := id
  rating : ProfileId → Option ℤ := fun _ => none
  duelRating : ProfileId → Option ℚ := fun _ => none
  /-- `screens_of_actor`. -/
  managesScreen : Option ProfileId → Screen → Bool := fun _ _ => true
  /-- The languages a problem allows (`allowed_languages`), online or not. -/
  allowed : ProblemId → List String := fun _ => ["PY3"]
  /-- Whether the user may not submit the problem (`banned_users`). -/
  banned : ProfileId → ProblemId → Bool := fun _ _ => false
  /-- Whether the user has reached the limit of unjudged submissions. -/
  flooding : ProfileId → Bool := fun _ => false

end Arena
end CpcJudge
