import CpcJudge.Arena.Advance

/-!
# `Arena.Engine` — creating, calling, starting and deciding battles

`judge/arena/engine.py`, operation by operation. An operation takes the lock of its match, checks the version
the page carried and the state of the match, and writes. A function of the source that changes a match
object returns the changed match here.
-/

namespace CpcJudge
namespace Arena

open Scoring (Attempt Decision Outcome Reason Standing Summary)

/-! ## The games of a match -/

/-- `_current_prepared_game`: the prepared game with the lowest number. -/
def Match.preparedGame (m : Match) : Option Game :=
  let prepared := m.games.rows.filter (·.status = .prepared)
  prepared.find? fun g => prepared.all (g.number ≤ ·.number)

/-- The highest number of a game, 0 without games. -/
def Match.lastNumber (m : Match) : ℕ := (m.games.rows.map (·.number)).foldl max 0

/-- `ArenaGame.objects.create`, with the next number. -/
def newGame (m : Match) : ArenaM (Match × Game) := do
  let id ← freshId
  let game : Game := { id, number := m.lastNumber + 1 }
  let m := { m with games := m.games.add game }
  saveMatch m
  return (m, game)

/-- `_ensure_next_game`. -/
def ensureNextGame (m : Match) : ArenaM (Match × Game) :=
  match m.preparedGame with
  | some game => return (m, game)
  | none => newGame m

/-- The next game, with its problems if the bank gives them: `_from_bank(match, _ensure_next_game(match))`. -/
def nextGameFromBank (site : Site) (actor : Option ProfileId) (m : Match) : ArenaM Match := do
  let (m, game) ← ensureNextGame m
  let (m, _) ← fromBank site actor m game
  return m

/-- `max_game_number`: one more for every tie or void so far. -/
def Match.maxGameNumber (m : Match) : ℕ :=
  m.bestOf + m.games.rows.countP fun g => g.status = .tie || g.status = .cancelled

/-- Create `count` games, one after another. -/
def newGames (m : Match) : ℕ → ArenaM Match
  | 0 => return m
  | count + 1 => do
    let (m, _) ← newGame m
    newGames m count

/-- `_game_number`: the game with that number, created with any before it if it does not exist yet. -/
def gameNumber (m : Match) (number : ℕ) : ArenaM (Match × Game) := do
  refuseIf (¬ (1 ≤ number ∧ number ≤ m.maxGameNumber)) .noGame
  match m.games.rows.find? (·.number = number) with
  | some game => return (m, game)
  | none => do
    let m ← newGames m (number - m.lastNumber)
    let game ← orRefuse (m.games.rows.find? (·.number = number)) .noGame
    return (m, game)

/-- `_game_of`. -/
def gameOf (m : Match) (id : GameId) : ArenaM Game := orRefuse (m.games.get? id) .noGame

/-- `_require_running_tournament`. -/
def requireRunningTournament (m : Match) : ArenaM Unit := do
  let db ← tables
  refuseIf (∃ t ∈ tournamentOf db m, t.status ≠ .running)
    ⟨"Start the tournament before calling its matches.", 400⟩

/-- Neither player is in another battle. -/
def refuseBusy (site : Site) (m : Match) (slot : Slot) : ArenaM Unit := do
  let db ← tables
  refuseIf (∃ p ∈ m.players.get slot, busyElsewhere db p (some m.id))
    ⟨shownName site m slot ++ " is already in another battle.", 400⟩

/-! ## Creating battles -/

/-- The problems of the first games, each with none of those before. -/
def cleanGames (site : Site) (actor : Option ProfileId) :
    List (List Entry) → List ProblemId → Except ArenaError (List (List GameProblem))
  | [], _ => return []
  | entries :: games, used => do
    let problems ← cleanProblemList site actor entries used []
    let rest ← cleanGames site actor games (used ++ problems.map (·.problem))
    return problems :: rest

/-- The first games of a quick battle, numbered from `number`. -/
def addGames (m : Match) (number : ℕ) : List (List GameProblem) → ArenaM Match
  | [] => return m
  | problems :: games => do
    let id ← freshId
    let m := { m with games := m.games.add { id, number, problems } }
    saveMatch m
    addGames m (number + 1) games

/-- Screens in the order of `order_by('name', 'id')`. -/
def byName (screens : List Screen) : List Screen :=
  screens.insertionSort fun s t => s.name < t.name ∨ (s.name = t.name ∧ s.id ≤ t.id)

/-- `ensure_default_screen`. -/
def ensureDefaultScreen (site : Site) (actor : Option ProfileId) : ArenaM Unit := do
  let db ← tables
  if db.screens.rows.any (site.managesScreen actor) then pure ()
  else do
    let id ← freshId
    write fun db => { db with screens := db.screens.add { id, name := "Main screen", createdBy := actor } }

/-- Take the locks of the screens, in the order of their rows. -/
def lockScreens : List ScreenId → ArenaM Unit
  | [] => pure ()
  | id :: ids => do
    lock (.screen id)
    lockScreens ids

/-- Nothing to show for now: waiting, or still showing a battle that is over (or gone). -/
def Screen.free (db : Db) (s : Screen) : Bool :=
  s.mode = .idle || (s.mode = .battle && ((s.match.bind db.match?).all (·.isOver)))

/-- `_free_screen`. -/
def freeScreen (site : Site) (actor : Option ProfileId) : ArenaM (Option Screen) := do
  let db ← tables
  let screens := byName (db.screens.rows.filter (site.managesScreen actor))
  lockScreens ((screens.map (·.id)).insertionSort (· ≤ ·))
  return screens.find? (Screen.free db)

/-- `create_duel`. -/
def createDuel (site : Site) (actor : Option ProfileId) (players : Pair (Option ProfileId))
    (games : List (List Entry)) (bestOf : ℕ) (rules : Rules) (display : Pair String) (title : String)
    (call : Bool) (ranking : Ranking) : ArenaM MatchId := do
  let a ← orRefuse players.a ⟨"Choose both players.", 400⟩
  let b ← orRefuse players.b ⟨"Choose both players.", 400⟩
  refuseIf (a = b) ⟨"A player cannot face themselves.", 400⟩
  refuseSelf actor [a, b]
  let bestOf ← cleaned (Rules.cleanBestOf bestOf)
  let rules ← cleaned (Rules.clean rules)
  let displayA ← cleaned (cleanDisplay display.a true)
  let displayB ← cleaned (cleanDisplay display.b true)
  let db ← tables
  refuseIf (busyElsewhere db a none) ⟨site.displayName a ++ " is already in another battle.", 400⟩
  refuseIf (busyElsewhere db b none) ⟨site.displayName b ++ " is already in another battle.", 400⟩
  refuseIf (games = []) ⟨"Choose the problems of the first game.", 400⟩
  refuseIf (bestOf < games.length) ⟨"You can prepare at most as many games as the series has.", 400⟩
  let problems ← cleaned (cleanGames site actor games [])
  refuseIf (problems.head? = some []) ⟨"Choose the problems of the first game.", 400⟩
  let id ← freshId
  let m : Match :=
    { id, players := ⟨some a, some b⟩, displayNames := ⟨displayA, displayB⟩, title := cut 100 (strip title),
      bestOf, rules, status := if call then .called else .ready,
      calledAt := if call then some site.now else none, createdBy := actor, createdAt := site.now, ranking }
  write fun db => { db with battles := db.battles.add m }
  let m ← addGames m 1 problems
  logMatch .create actor m
  ensureDefaultScreen site actor
  let screen ← freeScreen site actor
  match screen with
  | none => pure ()
  | some s => do
    -- the projector moves on to the new battle by itself
    let s := { s with mode := .battle, «match» := some id, message := "", version := s.version + 1 }
    write fun db => { db with screens := db.screens.put s }
    logMatch .screen actor m
  refreshLockOnCommit
  return id

/-- `call_match`. -/
def callMatch (site : Site) (actor : Option ProfileId) (id : MatchId) (version : Option ℤ) : ArenaM Unit := do
  let m ← lockMatch id
  checkVersion m.version version
  if m.status = .called ∨ m.status = .playing then pure ()
  else do
    refuseIf (m.status ≠ .ready ∨ ¬ m.ready) ⟨"This battle cannot be called yet.", 400⟩
    requireRunningTournament m
    refuseBusy site m .a
    refuseBusy site m .b
    let m := { m with status := .called, calledAt := some site.now }.bump
    saveMatch m
    let m ← nextGameFromBank site actor m
    logMatch .call actor m
    refreshLockOnCommit

/-- `set_game_problems`: by id, by its number in the series, or else the next game to play. -/
def setGameProblems (site : Site) (actor : Option ProfileId) (id : MatchId) (gameId : Option GameId)
    (entries : List Entry) (version : Option ℤ) (number : Option ℕ) : ArenaM Unit := do
  let m ← lockMatch id
  checkVersion m.version version
  refuseIf m.isOver .matchOver
  let (m, game) ← match gameId, number with
    | some gameId, _ => do
      let game ← gameOf m gameId
      pure (m, game)
    | none, some number => gameNumber m number
    | none, none => ensureNextGame m
  refuseIf (game.status ≠ .prepared) ⟨"The problems of a game cannot change once it has started.", 400⟩
  let problems ← cleaned (cleanProblemList site actor entries (problemsUsedInMatch m (some game.id))
    (game.problems.map (·.problem)))
  let m := (m.setGame { game with problems }).bump
  saveMatch m
  logMatch .problems actor m game.id

/-- `add_game`. -/
def addGame (id : MatchId) (version : Option ℤ) : ArenaM Unit := do
  let m ← lockMatch id
  checkVersion m.version version
  refuseIf m.isOver .matchOver
  let (m, _) ← ensureNextGame m
  saveMatch m.bump

/-! ## Starting a game -/

/-- What an organizer is told before a game starts. -/
inductive Warning where
  | absent (slot : Slot)
  | noJudge (problem : ProblemId)
  deriving DecidableEq, Repr

/-- `start_warnings`. -/
def startWarnings (site : Site) (m : Match) (game : Game) : List Warning :=
  ([Slot.a, Slot.b].filter (fun slot => !site.connected m.id slot)).map .absent ++
    (game.problems.filter fun gp => !site.judgeOnline gp.problem).map fun gp => .noJudge gp.problem

/-- `game_languages`, for one problem. -/
def gameLanguages (site : Site) (rules : Rules) (gp : GameProblem) : List String :=
  match rules.languages.getD [] with
  | [] => site.languages gp.problem
  | wanted => (site.languages gp.problem).filter (· ∈ wanted)

/-- The game to start: the one asked for, or the prepared one with the lowest number. -/
def Match.startable (m : Match) (gameId : Option GameId) : Option Game :=
  match gameId with
  | none => m.preparedGame
  | some gameId => (m.games.get? gameId).filter (·.status = .prepared)

/-- The game as `start_game` leaves it: its contest created, its rules frozen, its countdown running. -/
def Game.launch (game : Game) (rules : Rules) (now : Time) : Game :=
  let startedAt := now + seconds (rules.countdown.getD 0)
  let endsAt := startedAt + minutes (rules.duration.getD 0)
  { game with
    contest := some { endTime := endsAt, attempts := .both [] }
    rules, startedAt := some startedAt, endsAt := some endsAt, status := .countdown }

/-- `start_game`: the warnings that stopped it, if any. -/
def startGame (site : Site) (actor : Option ProfileId) (id : MatchId) (gameId : Option GameId) (force : Bool)
    (version : Option ℤ) : ArenaM (List Warning) := do
  let m ← lockMatch id
  checkVersion m.version version
  refuseIf (m.status ≠ .ready ∧ m.status ≠ .called ∧ m.status ≠ .playing)
    ⟨"This battle cannot start a game now.", 400⟩
  refuseIf (¬ m.ready) ⟨"Both players are needed to start.", 400⟩
  requireRunningTournament m
  refuseIf m.inPlay ⟨"A game of this battle is already being played.", 400⟩
  let game ← orRefuse (m.startable gameId) ⟨"There is no game ready to start.", 400⟩
  refuseBusy site m .a
  refuseBusy site m .b
  let (m, _) ← fromBank site actor m game
  let game ← gameOf m game.id
  refuseIf (game.problems = []) ⟨"Choose the problems of this game before starting it.", 400⟩
  let db ← tables
  let rules := matchRules db m
  let blocked := game.problems.find? fun gp => (gameLanguages site rules gp).isEmpty
  refuseIf blocked.isSome ⟨((blocked.map fun gp => site.problemName gp.problem).getD "") ++
    " has no language allowed by the rules of this battle.", 400⟩
  let warnings := startWarnings site m game
  if ¬ force ∧ warnings ≠ [] then return warnings
  else do
    let m := m.setGame (game.launch rules site.now)
    let m := if m.status = .playing then m
      else { m with status := .playing, calledAt := m.calledAt <|> some site.now }
    let m := m.bump
    saveMatch m
    logMatch .start actor m game.id
    refreshLockOnCommit
    return []

/-! ## Working out the state of a game -/

/-- `load_attempts`: by date, on the problems of the game. -/
def loadAttempts (game : Game) : Pair (List Attempt) :=
  match game.contest with
  | none => .both []
  | some contest => contest.attempts.map fun attempts =>
    (attempts.filter fun a => game.problems.any (·.order = a.problem)).insertionSort fun x y =>
      toLex (x.date, x.id) ≤ toLex (y.date, y.id)

/-- `problem_points`. -/
def problemPoints (game : Game) : List (ℕ × ℕ) := game.problems.map fun gp => (gp.order, gp.points)

/-- `evaluate`. -/
def evaluate (game : Game) (now : Time) : Option Decision :=
  if !game.status.active then none
  else
    match game.startedAt, game.endsAt with
    | some startedAt, some endsAt =>
      some (Scoring.decide (loadAttempts game) (problemPoints game) game.rules startedAt endsAt now
        game.closedAt.isSome)
    | _, _ => none

/-- `_result_snapshot`: the confirmed standing of each player. -/
def resultSnapshot (game : Game) (attempts : Pair (List Attempt)) : Pair Summary :=
  attempts.map fun attempts =>
    Scoring.summary
      (Scoring.confirmed attempts (problemPoints game) (game.rules.partialPoints.getD false)
        (game.rules.penalty.getD 0) (game.startedAt.getD 0))
      (game.startedAt.getD 0) (game.problems.map (·.order))

/-- `_close_contest`: the backing contest ends at `moment`, if it would end later. -/
def Game.closeContest (game : Game) (moment : Time) : Game :=
  { game with contest := game.contest.map fun c =>
      if moment < c.endTime then { c with endTime := moment } else c }

/-- `_expected`: the status a game that goes on should have. -/
def expected (decision : Decision) : Option GameStatus :=
  match decision.outcome with
  | .countdown => some .countdown
  | .live => some .live
  | .verifying => some .verifying
  | _ => none

/-- The actions left when the unplayed games of a match are deleted. -/
def Db.forgetUnplayed (db : Db) (m : Match) : Db :=
  { db with actions := db.actions.filter fun a =>
      a.game.all fun id => (m.games.get? id).all fun g => !g.unplayed }

/-- `ArenaGame.objects.filter(status=PREPARED, contest__isnull=True).delete()`. -/
def dropUnplayed (m : Match) : ArenaM Match := do
  write (·.forgetUnplayed m)
  let m := { m with games := m.games.filter fun g => !g.unplayed }
  saveMatch m
  return m

/-- `_decide_match`. -/
def decideMatch (now : Time) (actor : Option ProfileId) (m : Match) (slot : Slot) (reason : DecidedReason) :
    ArenaM Match := do
  let m := { m with status := .decided, winnerSlot := some slot, decidedReason := some reason,
                    decidedAt := some now }.bump actor.isNone
  saveMatch m
  -- games prepared in advance and never played leave nothing behind
  let m ← dropUnplayed m
  logMatch .decided actor m
  advance now m
  afterDecided m
  refreshLockOnCommit
  return m

/-- The game as `_finish` and `_tie` leave it: closed at `now`, or at its end if that came first. -/
def Game.settle (game : Game) (status : GameStatus) (result : Pair Summary) (now : Time) : Game :=
  let closedAt := (game.closedAt.getD (min now (game.endsAt.getD now)))
  { game with status, result := some result, finishedAt := some now, closedAt := some closedAt }.closeContest
    closedAt

/-- The game as `_finish` leaves it. -/
def Game.finish (game : Game) (slot : Slot) (reason : Reason) (result : Pair Summary) (now : Time)
    (actor : Option ProfileId) : Game :=
  { game.settle .finished result now with winnerSlot := some slot, reason := some reason, decidedBy := actor }

/-- One more game won. -/
def Match.win (m : Match) (slot : Slot) : Match := { m with wins := m.wins.set slot (m.wins.get slot + 1) }

/-- `_finish`. -/
def finish (site : Site) (actor : Option ProfileId) (m : Match) (game : Game) (slot : Slot) (reason : Reason)
    (result : Pair Summary) (now : Time) : ArenaM Match := do
  let m := m.setGame (game.finish slot reason result now actor)
  if m.isOver then do
    -- a game still open when its battle was decided keeps its result, but the series is over
    saveMatch m
    logMatch .finish actor m game.id
    return m
  else do
    let m := (m.win slot).bump actor.isNone
    saveMatch m
    logMatch .finish actor m game.id
    if m.winsNeeded ≤ m.mostWins then decideMatch now actor m slot .games
    else do
      let m ← nextGameFromBank site actor m
      refreshLockOnCommit
      return m

/-- `_tie`. -/
def tieGame (site : Site) (actor : Option ProfileId) (m : Match) (game : Game) (result : Pair Summary)
    (now : Time) : ArenaM Match := do
  let m := (m.setGame (game.settle .tie result now)).bump actor.isNone
  saveMatch m
  logMatch .tie actor m game.id
  if m.isOver then do
    refreshLockOnCommit
    return m
  else do
    let m ← nextGameFromBank site actor m
    refreshLockOnCommit
    return m

/-- The game waiting for verdicts: closed now, or at its end if that came first. -/
def Game.verify (game : Game) (now : Time) : Game :=
  let closedAt := game.closedAt.getD (min now (game.endsAt.getD now))
  { game with status := .verifying, closedAt := some closedAt }.closeContest closedAt

/-- `_apply`. -/
def applyDecision (site : Site) (actor : Option ProfileId) (m : Match) (game : Game) (decision : Decision)
    (now : Time) : ArenaM Match :=
  match decision.outcome with
  | .countdown => return m
  | .live =>
    if game.status = .live then return m
    else do
      let m := m.setGame { game with status := .live }
      saveMatch m
      return m
  | .verifying =>
    if game.status = .verifying then return m
    else do
      let m := m.setGame (game.verify now)
      saveMatch m
      logMatch .verifying actor m game.id
      return m
  | .finish =>
    match decision.winner, decision.reason with
    | some winner, some reason =>
      finish site actor m game winner reason (resultSnapshot game (loadAttempts game)) now
    | _, _ => return m
  | .tie => tieGame site actor m game (resultSnapshot game (loadAttempts game)) now

/-- `_tick_locked`. -/
def tickLocked (site : Site) (m : Match) (game : Game) (now : Time) : ArenaM Match :=
  match evaluate game now with
  | none => return m
  | some decision =>
    if expected decision = some game.status then return m
    else applyDecision site none m game decision now

/-- `tick`: `game` is the copy the page has, which may be old, and so may `now`; the game is read again under
    the lock. -/
def tick (site : Site) (id : MatchId) (game : Game) (now : Time) : ArenaM Unit :=
  if !game.status.active then pure ()
  else if (evaluate game now).bind expected = some game.status then pure ()
  else do
    let m ← lockMatch id
    let game ← gameOf m game.id
    let _ ← tickLocked site m game now
    return ()

/-! ## Organizer actions during play -/

/-- `_refuse_while_another_runs`: a tied game is decided or voided only while no other one is being
    played. -/
def refuseWhileAnotherRuns (m : Match) (game : Game) : ArenaM Unit :=
  refuseIf (game.status = .tie ∧ m.games.rows.any fun g => g.status.active && g.id ≠ game.id)
    ⟨"Another game of this battle is being played; decide or void that one first.", 400⟩

def maxTotalMinutes : ℤ := 300

/-- `extend_game`. -/
def extendGame (actor : Option ProfileId) (id : MatchId) (gameId : GameId) (more : ℤ) (version : Option ℤ) :
    ArenaM Unit := do
  let m ← lockMatch id
  checkVersion m.version version
  refuseIf m.isOver .matchOver
  let game ← gameOf m gameId
  refuseIf (!game.status.opened) ⟨"Only a game being played can get more time.", 400⟩
  refuseIf (¬ (1 ≤ more ∧ more ≤ 60)) ⟨"Add between 1 and 60 minutes.", 400⟩
  let endsAt := game.endsAt.getD 0 + minutes more
  refuseIf (minutes maxTotalMinutes < endsAt - game.startedAt.getD 0)
    ⟨"A game cannot last more than 300 minutes.", 400⟩
  let game := { game with endsAt := some endsAt, contest := game.contest.map fun c => { c with endTime := endsAt } }
  let m := (m.setGame game).bump
  saveMatch m
  logMatch .extend actor m game.id
  refreshLockOnCommit

/-- A game voided at `now`: its contest ends then, but not before its start nor after its end. -/
def Game.void (game : Game) (now : Time) : Game :=
  { game with status := .cancelled, finishedAt := some now, closedAt := game.closedAt <|> some now
    }.closeContest (max (game.startedAt.getD now) (min now (game.endsAt.getD now)))

/-- `cancel_game`. -/
def cancelGame (site : Site) (actor : Option ProfileId) (id : MatchId) (gameId : GameId)
    (version : Option ℤ) : ArenaM Unit := do
  let m ← lockMatch id
  checkVersion m.version version
  refuseIf m.isOver .matchOver
  let game ← gameOf m gameId
  refuseIf (¬ (game.status.active ∨ game.status = .tie)) ⟨"Only a started game can be cancelled.", 400⟩
  refuseWhileAnotherRuns m game
  let m := (m.setGame { game.void site.now with decidedBy := actor }).bump
  saveMatch m
  logMatch .cancelGame actor m game.id
  if m.status = .playing then do
    let _ ← nextGameFromBank site actor m
    refreshLockOnCommit
  else refreshLockOnCommit

/-- `declare_winner`. -/
def declareWinner (site : Site) (actor : Option ProfileId) (id : MatchId) (gameId : GameId) (slot : Slot)
    (version : Option ℤ) : ArenaM Unit := do
  let m ← lockMatch id
  checkVersion m.version version
  let game ← gameOf m gameId
  refuseIf (¬ (game.status.active ∨ game.status = .tie)) ⟨"This game cannot be decided now.", 400⟩
  refuseIf (m.status ≠ .playing) .matchOver
  refuseWhileAnotherRuns m game
  let result := resultSnapshot game (loadAttempts game)
  let game := if game.status.opened then { game with closedAt := some site.now } else game
  let _ ← finish site actor m game slot .organizer result site.now
  return ()

/-- `finalize_verification`: whatever is still pending counts as failed. -/
def finalizeVerification (site : Site) (actor : Option ProfileId) (id : MatchId) (gameId : GameId)
    (version : Option ℤ) : ArenaM Unit := do
  let m ← lockMatch id
  checkVersion m.version version
  refuseIf m.isOver .matchOver
  let game ← gameOf m gameId
  refuseIf (game.status ≠ .verifying) ⟨"This game is not waiting for verdicts.", 400⟩
  let attempts := loadAttempts game
  let decision := Scoring.decideIgnoringPending attempts (problemPoints game) game.rules
    (game.startedAt.getD 0) (game.endsAt.getD 0) site.now
  let result := resultSnapshot game (attempts.map fun l => l.filter (!·.pending))
  let m ← match decision.outcome, decision.winner, decision.reason with
    | .finish, some winner, some reason => finish site actor m game winner reason result site.now
    | _, _, _ => tieGame site actor m game result site.now
  logMatch .finalize actor m gameId

/-- The games still going, and the tied ones, voided. -/
def Match.voidGames (m : Match) (now : Time) (decidedBy : Game → Option ProfileId) : Match :=
  let games := m.games.modify (fun g => g.status.active || g.status = .tie)
    (fun g => { g.void now with decidedBy := decidedBy g }) fun _ => rfl
  { m with games }

/-- `walkover`. -/
def walkover (site : Site) (actor : Option ProfileId) (id : MatchId) (slot : Slot) (version : Option ℤ) :
    ArenaM Unit := do
  let m ← lockMatch id
  checkVersion m.version version
  refuseIf m.isOver .matchOver
  refuseIf (m.players.get slot).isNone ⟨"That player is not set yet.", 400⟩
  let m := m.voidGames site.now fun _ => actor
  let _ ← decideMatch site.now actor m slot .walkover
  return ()

/-- `cancel_match`. -/
def cancelMatch (site : Site) (actor : Option ProfileId) (id : MatchId) (version : Option ℤ) :
    ArenaM Unit := do
  let m ← lockMatch id
  checkVersion m.version version
  refuseIf m.tournament.isSome
    ⟨"A tournament match cannot be cancelled; give it to one player instead.", 400⟩
  refuseIf m.isOver .matchOver
  let m := m.voidGames site.now (·.decidedBy)
  let m ← dropUnplayed m
  let m := { m with status := .cancelled, decidedAt := some site.now }.bump
  saveMatch m
  logMatch .cancel actor m
  refreshLockOnCommit

/-- `update_match`; what is not given stays. -/
def updateMatch (actor : Option ProfileId) (id : MatchId) (version : Option ℤ) (bestOf : Option ℕ)
    (rules : Option Rules) (title : Option String) (display : Pair (Option String)) : ArenaM Unit := do
  let m ← lockMatch id
  checkVersion m.version version
  refuseIf m.isOver .matchOver
  let m ← match bestOf with
    | none => pure m
    | some bestOf => do
      let bestOf ← cleaned (Rules.cleanBestOf bestOf)
      refuseIf (bestOf / 2 + 1 ≤ m.mostWins) ⟨"With that length the series would already be decided.", 400⟩
      pure { m with bestOf }
  let m ← match rules with
    | none => pure m
    | some rules => do
      let rules ← cleaned (Rules.clean rules)
      pure { m with rules }
  let m := { m with title := (title.map fun t => cut 100 (strip t)).getD m.title }
  let displayA ← cleaned ((display.a.map fun v => cleanDisplay v m.tournament.isNone).getD (.ok m.displayNames.a))
  let displayB ← cleaned ((display.b.map fun v => cleanDisplay v m.tournament.isNone).getD (.ok m.displayNames.b))
  let m := { m with displayNames := ⟨displayA, displayB⟩ }.bump
  saveMatch m
  logMatch .update actor m

/-- A match with another player in one of its slots: the row `replace_player` saves. -/
def Match.replace (m : Match) (slot : Slot) (profile : ProfileId) (display : String) : Match :=
  let m := { m with players := m.players.set slot (some profile)
                    displayNames := m.displayNames.set slot display }
  let m := if m.status = .pending && m.ready then { m with status := .ready } else m
  m.bump

/-- `replace_player`. -/
def replacePlayer (site : Site) (actor : Option ProfileId) (id : MatchId) (slot : Slot)
    (profile : Option ProfileId) (display : String) (version : Option ℤ) : ArenaM Unit := do
  let profile ← orRefuse profile ⟨"Choose a player.", 400⟩
  let m ← lockMatch id
  checkVersion m.version version
  refuseIf m.isOver .matchOver
  refuseIf m.started ⟨"Players cannot change once a game has been played.", 400⟩
  refuseIf (m.players.get slot.other = some profile) ⟨"A player cannot face themselves.", 400⟩
  refuseSelf actor [profile]
  let db ← tables
  refuseIf (busyElsewhere db profile (some m.id))
    ⟨site.displayName profile ++ " is already in another battle.", 400⟩
  let display ← cleaned (cleanDisplay display m.tournament.isNone)
  let m := m.replace slot profile display
  saveMatch m
  logMatch .replace actor m
  refreshLockOnCommit

/-! ## Submitting from the arena -/

/-- `submit`: a new submission of `profile`, unjudged, on the problem `order` of the game. The source text is
    kept elsewhere; here it is only refused when it is empty or too long. -/
def submit (site : Site) (profile : ProfileId) (superuser : Bool) (id : MatchId) (gameId : GameId)
    (order : ℕ) (language source : String) : ArenaM Unit := do
  refuseIf (strip source = "") ⟨"Write some code before submitting.", 400⟩
  refuseIf (65536 < source.length) ⟨"The code is too long.", 400⟩
  let m ← lockMatch id
  let game ← gameOf m gameId
  let slot ← orRefuse (m.slotOf profile) ⟨"You are not playing this game.", 403⟩
  let m ← tickLocked site m game site.now
  let game ← gameOf m gameId
  refuseIf (!game.status.opened ∨ game.closedAt.isSome ∨ ¬ (∃ t ∈ game.startedAt, t ≤ site.now))
    ⟨"This game is not accepting submissions.", 409⟩
  refuseIf (¬ (∃ t ∈ game.endsAt, site.now < t)) ⟨"Time is up.", 409⟩
  let gp ← orRefuse (game.problems.find? (·.order = order)) ⟨"That problem is not part of this game.", 400⟩
  let wanted := game.rules.languages.getD []
  refuseIf (language ∉ site.allowed gp.problem ∨ (wanted ≠ [] ∧ language ∉ wanted))
    ⟨"That language is not allowed here.", 400⟩
  refuseIf (!superuser && site.banned profile gp.problem) ⟨"You cannot submit to this problem.", 403⟩
  let contest ← orRefuse game.contest ⟨"That problem is not part of this game.", 400⟩
  let maxAttempts := game.rules.maxAttempts.getD 0
  let used := (contest.attempts.get slot).countP fun a => a.problem = order && a.counts
  refuseIf (maxAttempts ≠ 0 ∧ maxAttempts ≤ used) ⟨"You have no attempts left on this problem.", 409⟩
  refuseIf (site.flooding profile) ⟨"Wait for your previous submissions to be judged.", 429⟩
  let id ← freshId
  let attempt : Attempt := { id, date := site.now, status := .qu, result := none, casePoints := 0,
                             caseTotal := 0, problem := order }
  let contest := { contest with
    attempts := contest.attempts.set slot (contest.attempts.get slot ++ [attempt]) }
  saveMatch (m.setGame { game with contest := some contest })

end Arena
end CpcJudge
