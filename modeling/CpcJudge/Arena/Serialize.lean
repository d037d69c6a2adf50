import CpcJudge.Arena.Held
import CpcJudge.Arena.Podium
import CpcJudge.Arena.Rating

/-!
# `Arena.Serialize` — what the players and the screens are told

`judge/arena/serialize.py`: `player_state`, the page a player polls, and `screen_state`, the page of a projector, with
everything they call. Each brings the game being played up to date first (`_tick_active`) and then reads the tables.
The dictionaries of the source are structures here, and a key that may be missing is an option.
-/

namespace CpcJudge
open Ranking (sortBy)

namespace Arena
namespace Serialize

open Scoring (Attempt Reason Status Summary Verdict)

/-! ## What a page reads besides the tables -/

/-- The columns of a submission that only the pages show. -/
structure SubmissionDetails where
  time : Option ℚ := none
  memory : Option ℚ := none
  currentTestcase : ℕ := 0
  language : String := ""
  deriving DecidableEq, Repr

/-- A language, as the editor gets it. -/
structure LanguageRow where
  key : String
  name : String
  ace : String
  id : ℕ
  deriving DecidableEq, Repr

/-- What a page reads besides the tables. The clock is read when the page is asked for, when the game is brought up
    to date (`site.now`), right after that, and once more when the page of a screen is ready. -/
structure Page where
  site : Site
  asked : Time
  told : Time
  answered : Time
  language : String := ""
  settings : Settings := {}
  ranking : DuelRanking := {}
  username : ProfileId → String := fun _ => ""
  /-- `gravatar`: the address of a picture of a size. -/
  gravatar : ProfileId → ℕ → String := fun _ _ => ""
  /-- The name of a problem in a language (`ProblemTranslation`). -/
  translation : ProblemId → String → Option String := fun _ _ => none
  timeLimit : ProblemId → ℚ := fun _ => 0
  memoryLimit : ProblemId → ℕ := fun _ => 0
  languageRow : String → LanguageRow := fun key => ⟨key, key, "", 0⟩
  /-- What the cache keeps of the languages of a game under some rules, by the order of its problems. -/
  cachedLanguages : GameId → List String → Option (List (ℕ × List LanguageRow)) := fun _ _ => none
  submission : ℕ → SubmissionDetails := fun _ => {}
  /-- An active account that is a superuser or has the permission to organize all battles. -/
  organizesAll : ProfileId → Bool := fun _ => false

/-- Why a page is not answered: the operation it asked for was refused, or a key is missing from a dictionary. -/
inductive Failure where
  | refused (error : ArenaError)
  | missing (key : ℕ)
  deriving DecidableEq, Repr

/-! ## Small pieces -/

/-- `ts`, of a moment there is. -/
def stamp (moment : Time) : ℚ := Scoring.round3 (Scoring.totalSeconds moment)

/-- `ts`. -/
def ts (moment : Option Time) : Option ℚ := moment.map stamp

/-- `RECENT_RESULT`. -/
def recentResult : Time := minutes 30

def bigAvatar : ℕ := 512
def pollFast : ℕ := 1000
def pollMedium : ℕ := 2000
def pollSlow : ℕ := 5000

/-- `_started`. A game voided during its countdown never starts. -/
def started (g : Game) (now : Time) : Bool :=
  (g.startedAt.any fun moment => moment ≤ now) && g.status ≠ .prepared && !g.unseen

/-- `DONE_STATUSES`. -/
def done : GameStatus → Bool
  | .finished | .tie | .cancelled => true
  | _ => false

/-- `ArenaGameProblem.label`. -/
def label (order : ℕ) : String :=
  if order < 26 then String.singleton (Char.ofNat ('A'.toNat + order)) else toString (order + 1)

/-- `problem_names`, of one problem. -/
def problemName (page : Page) (problem : ProblemId) : String :=
  (page.translation problem page.language).getD (page.site.problemName problem)

/-- `round_label`. -/
def roundLabel (db : Db) (m : Match) : String :=
  ((roundOf db m).map fun round => roundName round (((tournamentOf db m).map (·.rounds.length)).getD 0)).getD ""

/-- `player_card`. -/
structure PlayerCard where
  name : String
  username : String
  avatar : Option String
  seed : Option ℕ
  deriving DecidableEq, Repr

def playerCard (page : Page) (m : Match) (slot : Slot) (size : ℕ) : PlayerCard where
  name := if shownName page.site m slot ≠ "" then shownName page.site m slot else "To be decided"
  username := ((m.players.get slot).map page.username).getD ""
  avatar := (m.players.get slot).map (page.gravatar · size)
  seed := m.seeds.get slot

/-- `_rules_view`. -/
structure RulesView where
  duration : ℕ
  countdown : ℕ
  partialPoints : Bool
  penalty : ℕ
  maxAttempts : ℕ
  blockPaste : Bool
  showRival : Bool
  screenCode : Bool
  deriving DecidableEq, Repr

def rulesView (rules : Rules) : RulesView :=
  let rules := Rules.merge [rules]
  { duration := rules.duration.getD 0
    countdown := rules.countdown.getD 0
    partialPoints := rules.partialPoints.getD false
    penalty := rules.penalty.getD 0
    maxAttempts := rules.maxAttempts.getD 0
    blockPaste := rules.blockPaste.getD false
    showRival := rules.showRival.getD false
    screenCode := rules.screenCode.getD false }

/-- `_game_rules`: those of the game, or those of its battle while it has none. -/
def gameRules (db : Db) (m : Match) (g : Game) : Rules := if g.rules ≠ {} then g.rules else matchRules db m

/-! ## Verdicts and standings -/

/-- A row of `_verdicts`. -/
structure VerdictRow where
  id : ℕ
  problem : ℕ
  label : String
  date : ℚ
  status : Status
  result : Option Verdict
  pending : Bool
  points : ℚ
  full : ℕ
  time : Option ℚ
  memory : Option ℚ
  case : ℕ
  language : String
  deriving DecidableEq, Repr

def verdictRow (page : Page) (rules : Rules) (a : Attempt) (gp : GameProblem) : VerdictRow where
  id := a.id
  problem := gp.order
  label := label gp.order
  date := stamp a.date
  status := a.status
  result := a.result
  pending := a.pending
  points := Scoring.pointsOf a gp.points (rules.partialPoints.getD false)
  full := gp.points
  time := (page.submission a.id).time
  memory := (page.submission a.id).memory
  case := (page.submission a.id).currentTestcase
  language := (page.submission a.id).language

/-- `_verdicts`: the submissions of some of the players, the newest first, with the slot of each. Those beyond the
    limit are not read, and those on no problem of the game are skipped. -/
def verdicts (page : Page) (db : Db) (m : Match) (g : Game) (slots : List Slot) (limit : Option ℕ) :
    List (Slot × VerdictRow) :=
  let rows := slots.flatMap fun slot => (g.attempts slot).map fun a => (slot, a)
  let rows := rows.insertionSort fun x y => y.2.id ≤ x.2.id
  let rows := limit.elim rows rows.take
  rows.filterMap fun row => (g.problems.find? (·.order = row.2.problem)).map fun gp =>
    (row.1, verdictRow page (gameRules db m g) row.2 gp)

/-- `_standings_view`: the standing kept with a game that ended, or the one of now. -/
def standingsView (g : Game) : Pair Summary :=
  if done g.status then g.result.getD (resultSnapshot g (loadAttempts g)) else resultSnapshot g (loadAttempts g)

/-! ## The series -/

/-- A game of `_series`; `α` is how the page names its players. -/
structure GameLine (α : Type) where
  number : ℕ
  status : GameStatus
  winner : Option α
  reason : Option Reason
  deriving DecidableEq, Repr

/-- `_series`. -/
structure SeriesView (α : Type) where
  bestOf : ℕ
  needed : ℕ
  wins : Pair ℕ
  games : List (GameLine α)
  deriving DecidableEq, Repr

def series {α : Type} (who : Slot → α) (m : Match) (games : List Game) : SeriesView α where
  bestOf := m.bestOf
  needed := m.winsNeeded
  wins := m.wins
  games := (games.filter fun g => g.status ≠ .prepared || !g.problems.isEmpty).map fun g =>
    { number := g.number, status := g.status, winner := g.winnerSlot.map who, reason := g.reason }

/-! ## The games of a match -/

/-- The games by number. -/
def gamesOf (m : Match) : List Game := sortBy Game.number m.games.rows

/-- `_current_games`. -/
structure CurrentGames where
  games : List Game
  active : Option Game
  lastDone : Option Game
  prepared : Option Game

def currentGames (m : Match) : CurrentGames where
  games := gamesOf m
  active := (gamesOf m).find? (·.status.active)
  lastDone := ((gamesOf m).filter fun g => done g.status).getLast?
  prepared := (gamesOf m).find? (·.status = .prepared)

/-- The game a page shows: the one being played, else the last that ended. -/
def CurrentGames.shown (c : CurrentGames) : Option Game := c.active <|> c.lastDone

/-- `_tick_active`: the tables with the game being played brought up to date, and the row of the match again. -/
def tickActive (site : Site) (db : Db) (m : Match) : Except Failure (Db × Match) :=
  match (currentGames m).active with
  | none => .ok (db, m)
  | some g =>
    match tick site m.id g site.now { db } with
    | .ok _ s => .ok (s.db, (s.db.match? m.id).getD m)
    | .error e _ => .error (.refused e)

/-! ## The page of a player -/

/-- How the page of a player names the two of them. -/
inductive Side where
  | me | rival
  deriving DecidableEq, Repr

/-- The side a slot is on, for the player of another. -/
def side (perspective slot : Slot) : Side := if slot = perspective then .me else .rival

inductive Phase where
  | cancelled | decided | between | lobby
  | game (status : GameStatus)
  deriving DecidableEq, Repr

/-- `own_account`. -/
def ownAccount (m : Match) (slot : Slot) : Bool := m.displayNames.get slot = ""

/-- What a player is told of a game, started or not. -/
structure GameHead where
  id : GameId
  number : ℕ
  status : GameStatus
  startedAt : Option ℚ
  endsAt : Option ℚ
  closedAt : Option ℚ
  rules : RulesView
  winner : Option Side
  reason : Option Reason
  started : Bool
  deriving DecidableEq, Repr

/-- A problem of a started game. -/
structure ProblemRow where
  order : ℕ
  label : String
  name : String
  points : ℕ
  timeLimit : ℚ
  memoryLimit : ℕ
  languages : List LanguageRow
  attemptsLeft : Option ℕ
  deriving DecidableEq, Repr

/-- What a player is told of a started game besides. -/
structure GameBody where
  problems : List ProblemRow
  standing : Summary × Option Summary
  submissions : List VerdictRow
  deriving DecidableEq, Repr

/-- The game of the page: one prepared, of which only the rules are told, or one that was started. -/
inductive PlayerGame where
  | prepared (id : GameId) (number : ℕ) (status : GameStatus) (rules : RulesView)
  | shown (head : GameHead) (body : Option GameBody)
  deriving DecidableEq, Repr

/-- `cached_game_languages`. -/
def cachedGameLanguages (page : Page) (g : Game) (rules : Rules) : List (ℕ × List LanguageRow) :=
  (page.cachedLanguages g.id ((rules.languages.getD []).insertionSort (· ≤ ·))).getD
    (g.problems.map fun gp => (gp.order, (gameLanguages page.site rules gp).map page.languageRow))

def problemRow (page : Page) (g : Game) (rules : Rules) (slot : Slot) (gp : GameProblem) :
    Except Failure ProblemRow :=
  match (cachedGameLanguages page g rules).lookup gp.order with
  | none => .error (.missing gp.order)
  | some languages => .ok
    { order := gp.order
      label := label gp.order
      name := problemName page gp.problem
      points := gp.points
      timeLimit := page.timeLimit gp.problem
      memoryLimit := page.memoryLimit gp.problem
      languages
      attemptsLeft := Scoring.attemptsLeft ((loadAttempts g).get slot) gp.order (rules.maxAttempts.getD 0) }

def gameHead (page : Page) (db : Db) (m : Match) (g : Game) (slot : Slot) : GameHead where
  id := g.id
  number := g.number
  status := g.status
  startedAt := ts g.startedAt
  endsAt := ts g.endsAt
  closedAt := ts g.closedAt
  rules := rulesView (gameRules db m g)
  winner := g.winnerSlot.map (side slot)
  reason := g.reason
  started := started g page.told

def gameBody (page : Page) (db : Db) (m : Match) (g : Game) (slot : Slot) : Except Failure GameBody := do
  let rules := gameRules db m g
  let problems ← g.problems.mapM (problemRow page g rules slot)
  let standing := standingsView g
  return { problems
           standing := (standing.get slot,
             if rules.showRival.getD false then some (standing.get slot.other) else none)
           submissions := (verdicts page db m g [slot] none).map (·.2) }

/-- `_player_game`. -/
def playerGame (page : Page) (db : Db) (m : Match) (g : Game) (slot : Slot) : Except Failure PlayerGame :=
  if started g page.told then do
    let body ← gameBody page db m g slot
    return .shown (gameHead page db m g slot) (some body)
  else .ok (.shown (gameHead page db m g slot) none)

/-- Why a battle can never count for the ranking. -/
inductive NeverReason where
  | cancelled | bye | walkover | guest
  deriving DecidableEq, Repr

/-- `never_reason`. -/
def neverReason (m : Match) : Option NeverReason :=
  if m.status = .cancelled then some .cancelled
  else if m.decidedReason = some .bye then some .bye
  else if m.decidedReason = some .walkover then some .walkover
  else if m.displayNames.a ≠ "" ∨ m.displayNames.b ≠ "" then some .guest
  else none

/-- What a battle that counts did to a rating. -/
structure ChangeView where
  change : ℤ
  rating : ℤ
  games : ℕ
  needed : ℤ
  provisional : Bool
  deriving DecidableEq, Repr

/-- What `battle_summary` returns. -/
inductive BattleSummary where
  | never (reason : NeverReason)
  | undecided (decision : Ranking)
  | counts (change : Option ChangeView)
  deriving DecidableEq, Repr

def changeView (settings : Settings) (change : RatingChange) : ChangeView :=
  let before := Decimal.roundHalfEven change.ratingBefore
  let after := Decimal.roundHalfEven change.after.rating
  { change := after - before, rating := after, games := change.gamesTotal, needed := settings.provisional
    provisional := change.gamesTotal < settings.provisional }

/-- `battle_summary`. -/
def battleSummary (page : Page) (db : Db) (m : Match) (profile : ProfileId) : BattleSummary :=
  match neverReason m with
  | some reason => .never reason
  | none =>
    if rankingDecision db m ≠ .counts then .undecided (rankingDecision db m)
    else .counts ((page.ranking.changes.get? (Nat.pair m.id profile)).map (changeView page.settings))

/-- The battle of the page. -/
structure MatchLine where
  id : MatchId
  title : String
  tournament : String
  round : String
  status : MatchStatus
  winner : Option Side
  reason : Option DecidedReason
  deriving DecidableEq, Repr

/-- The page of a player in a battle. -/
structure PlayerPage where
  phase : Phase
  now : ℚ
  poll : ℕ
  review : Bool
  locked : Bool
  battle : MatchLine
  me : PlayerCard
  rival : PlayerCard
  series : SeriesView Side
  game : Option PlayerGame
  ranking : Option BattleSummary
  deriving DecidableEq, Repr

/-- What `player_state` returns. -/
inductive PlayerState where
  | idle (now : ℚ) (poll : ℕ)
  | playing (page : PlayerPage)
  deriving DecidableEq, Repr

/-- A moment as the database sorts it: none at all comes before any. -/
def sorted (moment : Option Time) : WithBot Time := moment

/-- The row with the highest key, as `order_by('-key').first()`. -/
def latest {α κ : Type} [LinearOrder κ] (key : α → κ) (rows : List α) : Option α :=
  (sortBy (fun row => OrderDual.toDual (key row)) rows).head?

/-- The profile plays the battle. -/
def plays (profile : ProfileId) (m : Match) : Bool := m.players.a = some profile || m.players.b = some profile

/-- `active_match_for`. -/
def activeMatchFor (db : Db) (profile : ProfileId) : Option Match :=
  latest (fun m => toLex (sorted m.calledAt, m.id))
    (db.battles.rows.filter fun m => m.status.locking && plays profile m)

/-- `_player_match`. -/
def playerMatch (db : Db) (profile : ProfileId) (now : Time) : Option Match :=
  activeMatchFor db profile <|>
    latest (fun m => toLex (sorted m.decidedAt, m.id))
      (db.battles.rows.filter fun m => plays profile m && m.isOver &&
        (m.decidedAt.any fun moment => now - recentResult ≤ moment) && m.decidedReason ≠ some .bye)

/-- The phase of a battle. -/
def phase (m : Match) : Phase :=
  if m.status = .cancelled then .cancelled
  else if m.status = .decided then .decided
  else
    match (currentGames m).active, (currentGames m).lastDone with
    | some g, _ => .game g.status
    | none, some _ => .between
    | none, none => .lobby

/-- How often a page asks again. -/
def poll : Phase → ℕ
  | .cancelled | .decided => pollSlow
  | .game .countdown | .game .live | .game .verifying => pollFast
  | _ => pollMedium

/-- The game of the page of a player, if there is one to show. -/
def shownGame (page : Page) (db : Db) (m : Match) (slot : Slot) : Except Failure (Option PlayerGame) :=
  match (currentGames m).shown, (currentGames m).prepared with
  | some g, _ => (playerGame page db m g slot).map some
  | none, some g => .ok (some (.prepared g.id g.number g.status (rulesView (matchRules db m))))
  | none, none => .ok none

/-- `player_state`, of a battle that is up to date. -/
def playerPage (page : Page) (db : Db) (m : Match) (profile : ProfileId) (slot : Slot) :
    Except Failure PlayerPage := do
  let game ← shownGame page db m slot
  return {
    phase := phase m
    now := stamp page.told
    poll := poll (phase m)
    review := (phase m = .decided || phase m = .between) && ownAccount m slot
    locked := m.status.locking && page.told < lockUntil page.settings m (gamesOf m)
    battle :=
      { id := m.id, title := m.title, tournament := ((tournamentOf db m).map (·.name)).getD ""
        round := roundLabel db m, status := m.status, winner := m.winnerSlot.map (side slot)
        reason := m.decidedReason }
    me := playerCard page m slot bigAvatar
    rival := playerCard page m slot.other bigAvatar
    series := series (side slot) m (gamesOf m)
    game
    ranking := if phase m = .decided then some (battleSummary page db m profile) else none }

/-- `player_state`. -/
def playerState (page : Page) (db : Db) (profile : ProfileId) : Except Failure PlayerState :=
  match playerMatch db profile page.asked with
  | none => .ok (.idle (stamp page.asked) pollSlow)
  | some m => do
    let (db, m) ← tickActive page.site db m
    -- the match was found as one this profile plays, so it has a slot
    let view ← playerPage page db m profile ((m.slotOf profile).getD .a)
    return .playing view

/-! ## The bracket -/

/-- A player of the bracket. -/
structure BracketCell where
  name : String
  seed : Option ℕ
  avatar : String
  deriving DecidableEq, Repr

structure BracketMatch where
  id : MatchId
  position : ℕ
  thirdPlace : Bool
  status : MatchStatus
  cells : Pair (Option BracketCell)
  wins : Pair ℕ
  winner : Option Slot
  reason : Option DecidedReason
  live : Bool
  bestOf : ℕ
  deriving DecidableEq, Repr

structure BracketRound where
  number : ℕ
  name : String
  bestOf : ℕ
  games : List BracketMatch
  deriving DecidableEq, Repr

/-- What `bracket_view` returns. -/
structure BracketView where
  rounds : List BracketRound
  champion : Option BracketCell
  deriving DecidableEq, Repr

/-- `cell`. -/
def bracketCell (page : Page) (m : Match) (slot : Slot) : Option BracketCell :=
  (m.players.get slot).map fun profile =>
    { name := shownName page.site m slot, seed := m.seeds.get slot, avatar := page.gravatar profile 64 }

def bracketMatch (page : Page) (m : Match) : BracketMatch where
  id := m.id
  position := m.position
  thirdPlace := m.isThirdPlace
  status := m.status
  cells := ⟨bracketCell page m .a, bracketCell page m .b⟩
  wins := m.wins
  winner := m.winnerSlot
  reason := m.decidedReason
  live := m.inPlay
  bestOf := m.bestOf

/-- The matches of a tournament, in the order of the bracket. -/
def bracketMatches (db : Db) (t : Tournament) : List Match := sortBy Match.shownOrder (battlesOf db t.id)

/-- The final: the last round, and no match after it. -/
def bracketFinal (db : Db) (t : Tournament) : Option Match :=
  (bracketMatches db t).find? fun m =>
    m.nextMatch.isNone && !m.isThirdPlace && (m.round.bind t.round?).any (·.number = t.rounds.length)

/-- `bracket_view`. -/
def bracketView (page : Page) (db : Db) (t : Tournament) : BracketView where
  rounds := (sortBy Round.number t.rounds).map fun r =>
    { number := r.number
      name := roundName r t.rounds.length
      bestOf := r.bestOf
      games := ((bracketMatches db t).filter (·.round = some r.number)).map (bracketMatch page) }
  champion := (bracketFinal db t).bind fun m =>
    if m.status = .decided then m.winnerSlot.bind (bracketCell page m) else none

/-! ## Which battle a screen shows -/

/-- `_contended_by`, of one tournament: somebody still plays it. -/
def profileContends (db : Db) (profile : ProfileId) (t : Tournament) : Bool :=
  (t.status = .draft && t.participants.any (·.profile = profile)) ||
    ((t.status = .draft || t.status = .running) &&
      (battlesOf db t.id).any fun m => plays profile m && !m.isOver)

/-- `_held_by_a_player`. -/
def heldByAPlayer (page : Page) (db : Db) (screen : Screen) (m : Match) : Bool :=
  if m.isOver then false
  else
    let rules := (((currentGames m).shown).map (gameRules db m)).getD (matchRules db m)
    if !rules.screenCode.getD false && rules.showRival.getD false then false
    else
      let players := m.players.a.toList ++ m.players.b.toList
      players.any fun p => screen.createdBy = some p || page.organizesAll p

/-- `_held`. -/
def held (page : Page) (db : Db) (screen : Screen) (m : Match) : Bool :=
  (match screen.createdBy, tournamentOf db m with
    | some creator, some t => profileContends db creator t
    | _, _ => false) || heldByAPlayer page db screen m

/-- The battle being played of a tournament, the one whose game started last. -/
def liveMatch (db : Db) (t : TournamentId) : Option Match :=
  (latest (fun row => sorted row.2.startedAt)
    ((battlesOf db t).flatMap fun m => (m.games.rows.filter (·.status.active)).map fun g => (m, g))).map (·.1)

/-- What a screen shows: its mode, the battle and the tournament. -/
structure Target where
  mode : ScreenMode
  battle : Option Match
  tournament : Option Tournament

/-- The target of a screen that shows `m`. -/
def matchTarget (page : Page) (db : Db) (screen : Screen) (m : Match) : Target :=
  if !held page db screen m then ⟨.battle, some m, tournamentOf db m⟩
  else
    match tournamentOf db m with
    | some t => ⟨.bracket, none, some t⟩
    | none => ⟨.idle, none, screen.tournament.bind db.tournament?⟩

/-- The target of a screen aimed at the tournament `t`. -/
def bracketTarget (page : Page) (db : Db) (screen : Screen) (t : Tournament) : Target :=
  match if screen.followLive then liveMatch db t.id else none with
  | some m => if held page db screen m then ⟨.bracket, none, some t⟩ else ⟨.battle, some m, some t⟩
  | none => ⟨.bracket, none, some t⟩

/-- `_screen_target`. -/
def screenTarget (page : Page) (db : Db) (screen : Screen) : Target :=
  match screen.mode, screen.match.bind db.match?, screen.tournament.bind db.tournament? with
  | .battle, some m, _ => matchTarget page db screen m
  | .bracket, _, some t => bracketTarget page db screen t
  | .message, _, t => ⟨.message, none, t⟩
  | _, _, t => ⟨.idle, none, t⟩

/-! ## The page of a screen -/

/-- A problem on a screen. -/
structure ScreenProblem where
  order : ℕ
  label : String
  name : String
  points : ℕ
  deriving DecidableEq, Repr

/-- What a screen shows of a started game besides. -/
structure ScreenBody where
  problems : List ScreenProblem
  standing : Pair Summary
  verdicts : List (Slot × VerdictRow)
  deriving DecidableEq, Repr

/-- The game on a screen. -/
structure ScreenGame where
  id : GameId
  number : ℕ
  status : GameStatus
  startedAt : Option ℚ
  endsAt : Option ℚ
  closedAt : Option ℚ
  winner : Option Slot
  reason : Option Reason
  started : Bool
  code : Bool
  partialPoints : Bool
  penalty : ℕ
  body : Option ScreenBody
  deriving DecidableEq, Repr

/-- What `screen_match` returns. -/
structure ScreenMatch where
  id : MatchId
  title : String
  round : String
  status : MatchStatus
  players : Pair PlayerCard
  series : SeriesView Slot
  winner : Option Slot
  game : Option ScreenGame
  nextGame : Option ℕ
  deriving DecidableEq, Repr

def screenBody (page : Page) (db : Db) (m : Match) (g : Game) : ScreenBody where
  problems := g.problems.map fun gp =>
    { order := gp.order, label := label gp.order, name := problemName page gp.problem, points := gp.points }
  standing := standingsView g
  verdicts := verdicts page db m g [.a, .b] (some 12)

def screenGame (page : Page) (db : Db) (m : Match) (g : Game) : ScreenGame where
  id := g.id
  number := g.number
  status := g.status
  startedAt := ts g.startedAt
  endsAt := ts g.endsAt
  closedAt := ts g.closedAt
  winner := g.winnerSlot
  reason := g.reason
  started := started g page.told
  code := (gameRules db m g).screenCode.getD false
  partialPoints := (gameRules db m g).partialPoints.getD false
  penalty := (gameRules db m g).penalty.getD 0
  body := if started g page.told then some (screenBody page db m g) else none

/-- `screen_match`, of a battle that is up to date. -/
def screenMatch (page : Page) (db : Db) (m : Match) : ScreenMatch where
  id := m.id
  title := m.title
  round := roundLabel db m
  status := m.status
  players := ⟨playerCard page m .a bigAvatar, playerCard page m .b bigAvatar⟩
  series := series id m (gamesOf m)
  winner := m.winnerSlot
  game := (currentGames m).shown.map (screenGame page db m)
  nextGame := if (currentGames m).active.isNone then (currentGames m).prepared.map (·.number) else none

/-- What `screen_state` returns. -/
structure ScreenPage where
  now : ℚ
  mode : ScreenMode
  name : String
  version : ℕ
  message : String
  tournament : String
  battle : Option ScreenMatch
  bracket : Option BracketView
  deriving DecidableEq, Repr

/-- The page of a screen that shows no battle. -/
def screenPage (page : Page) (db : Db) (screen : Screen) (target : Target) (now : Time)
    (battle : Option ScreenMatch) : ScreenPage where
  now := stamp now
  mode := target.mode
  name := screen.name
  version := screen.version
  message := if target.mode = .message then screen.message else ""
  tournament := (target.tournament.map (·.name)).getD ""
  battle := battle
  bracket := target.tournament.map (bracketView page db)

/-- `screen_state`. -/
def screenState (page : Page) (db : Db) (screen : Screen) : Except Failure ScreenPage :=
  let target := screenTarget page db screen
  match target.battle with
  | none => .ok (screenPage page db screen target page.asked none)
  | some m => do
    let (db, m) ← tickActive page.site db m
    return screenPage page db screen target page.answered (some (screenMatch page db m))

end Serialize
end Arena
end CpcJudge
