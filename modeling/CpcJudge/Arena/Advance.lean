import CpcJudge.Arena.Session

/-!
# `Arena.Advance` — moving players forward, and problems from the bank

The two parts of `judge/arena/tournament.py` that the games call back into: `advance` sends the winner of
a decided match to the next one (and the loser of a semifinal to the third place match) and finishes the
tournament when its last match is over; `fill_from_bank` gives the game about to be played its problems.
-/

namespace CpcJudge
namespace Arena

/-! ## Moving players forward -/

/-- A match that gets a player in one of its slots: the row `_place` saves. -/
def Match.receive (m : Match) (slot : Slot) (profile : Option ProfileId) (seed : Option ℕ) : Match :=
  let m := { m with players := m.players.set slot profile, seeds := m.seeds.set slot seed }
  let m :=
    if m.ready && m.status = .pending then { m with status := .ready }
    else if !m.ready && m.status = .ready then { m with status := .pending }
    else m
  m.bump

/-- `_place`. -/
def place (id : MatchId) (slot : Slot) (profile : Option ProfileId) (seed : Option ℕ) : ArenaM Unit := do
  let target ← lockMatch id
  refuseIf target.started .nextPlayed
  saveMatch (target.receive slot profile seed)

/-- The final of a tournament: of the matches whose winner goes nowhere, leaving out the third place match,
    the one of the last round. -/
def Db.final? (db : Db) (t : TournamentId) : Option Match :=
  let last := db.battles.rows.filter fun m =>
    m.tournament = some t && m.nextMatch.isNone && !m.isThirdPlace
  last.find? fun m => last.all fun other => other.round.getD 0 ≤ m.round.getD 0

/-- The third place match of a tournament. -/
def Db.third? (db : Db) (t : TournamentId) : Option Match :=
  db.battles.rows.find? fun m => m.tournament = some t && m.isThirdPlace

/-- The final is decided and so is the third place match, if there is one. -/
def Db.bracketDone (db : Db) (t : TournamentId) : Bool :=
  (db.final? t).any (·.status = .decided) && (db.third? t).all (·.isOver)

/-- `_check_finished`. -/
def checkFinished (now : Time) (id : TournamentId) : ArenaM Unit := do
  lock (.tournament id)
  let db ← tables
  let t ← orRefuse (db.tournament? id) .noTournament
  if t.status = .running ∧ db.bracketDone id then do
    saveTournament { t with status := .finished, finishedAt := some now, version := t.version + 1 }
    logTournament .tournamentFinish none id
  else pure ()

/-- `advance`: the winner, and the loser if there is one, to their next match. -/
def advance (now : Time) (m : Match) : ArenaM Unit :=
  match m.tournament, m.winnerSlot with
  | some t, some winner => do
    match m.nextMatch with
    | none => pure ()
    | some (next, slot) => place next slot (m.players.get winner) (m.seeds.get winner)
    match m.loserNextMatch with
    | none => pure ()
    | some (next, slot) =>
      if (m.players.get winner.other).isSome then
        place next slot (m.players.get winner.other) (m.seeds.get winner.other)
      else pure ()
    checkFinished now t
  | _, _ => pure ()

/-! ## Problems from the bank -/

/-- `draw_problems`: never a problem already used in the tournament, one neither player has tried if there
    are enough, in order of level. Only what whoever draws can see; by itself, the creator of the
    tournament. -/
def drawProblems (site : Site) (db : Db) (actor : Option ProfileId) (m : Match) (game : Option GameId)
    (count : ℕ) (levelMin levelMax : Option ℕ) : Except ArenaError (List ProblemId) :=
  match (tournamentOf db m).bind (·.bank) with
  | none => .error ⟨"This battle has no problem bank to draw from.", 400⟩
  | some bank =>
    let count := max 1 (min count 5)
    let entries := (site.bank bank).filter fun entry =>
      levelMin.all (fun low => entry.level.any (low ≤ ·)) &&
        levelMax.all (fun high => entry.level.any (· ≤ high))
    let viewer := actor <|> (tournamentOf db m).bind (·.createdBy)
    let used := problemsUsedInTournament db m.tournament game ++
      (m.games.rows.filter fun g => some g.id ≠ game).flatMap fun g => g.problems.map (·.problem)
    let candidates := entries.filter fun entry =>
      site.visibleTo viewer entry.problem && !decide (entry.problem ∈ used)
    let players := m.players.a.toList ++ m.players.b.toList
    let fresh := candidates.filter fun entry => !players.any fun p => site.touched p entry.problem
    let pool := if fresh.length < count then candidates else fresh
    if pool.length < count then
      .error ⟨"The bank does not have enough unused problems for this game.", 400⟩
    else
      .ok (((site.sample pool count).insertionSort fun x y =>
        toLex (x.level.getD 0, x.order) ≤ toLex (y.level.getD 0, y.order)).map (·.problem))

/-- What `draw_settings` returns. -/
structure DrawSettings where
  auto : Bool := false
  bank : Option BankId := none
  count : ℕ := 1
  levelMin : Option ℕ := none
  levelMax : Option ℕ := none
  deriving DecidableEq

/-- `draw_settings`: the round can change how many problems each game has and their levels. -/
def drawSettings (db : Db) (m : Match) : DrawSettings :=
  match tournamentOf db m with
  | none => {}
  | some t =>
    let roundRules := ((roundOf db m).map (·.rules)).getD {}
    { auto := t.rules.autoDraw.getD false && t.bank.isSome
      bank := t.bank
      count := (roundRules.drawCount <|> t.rules.drawCount).getD 1
      levelMin := roundRules.levelMin
      levelMax := roundRules.levelMax }

/-- What `fill_from_bank` asks the bank for a game, and what the bank answers; nothing when the tournament
    does not give problems by itself or the game already has some. -/
def bankOffer (site : Site) (db : Db) (actor : Option ProfileId) (force : Bool) (m : Match) (game : Game) :
    Option (Except ArenaError (List GameProblem)) :=
  let settings := drawSettings db m
  if m.tournament.isSome && game.status = .prepared && settings.bank.isSome && (settings.auto || force) &&
      game.problems.isEmpty then
    some ((drawProblems site db actor m (some game.id) settings.count settings.levelMin
      settings.levelMax).map fun problems =>
        problems.zipIdx.map fun (problem, order) => { problem, order, points := Rules.defaultPoints })
  else none

/-- `fill_from_bank`: the match with the problems given, and whether any were. -/
def fillFromBank (site : Site) (actor : Option ProfileId) (force : Bool) (m : Match) (game : Game) :
    ArenaM (Match × Bool) := do
  let db ← tables
  match bankOffer site db actor force m game with
  | none => return (m, false)
  | some (.error _) => do
    logMatch .bankEmpty actor m game.id
    return (m, false)
  | some (.ok problems) => do
    let m := m.setGame { game with problems }
    saveMatch m
    logMatch .bankProblems actor m game.id
    return (m, true)

/-- `_from_bank`, for the game about to be played. -/
def fromBank (site : Site) (actor : Option ProfileId) (m : Match) (game : Game) : ArenaM (Match × Bool) :=
  fillFromBank site actor false m game

/-! ## What the ranking of the duels hears -/

/-- `never_reason`: a match that can never count for the ranking. -/
def neverCounts (m : Match) : Bool :=
  m.status = .cancelled || m.decidedReason = some .bye || m.decidedReason = some .walkover ||
    m.displayNames.a ≠ "" || m.displayNames.b ≠ ""

/-- `decision`: a quick battle by itself; a match of a tournament as its tournament, unless it was left
    out. -/
def rankingDecision (db : Db) (m : Match) : Ranking :=
  match tournamentOf db m with
  | none => m.ranking
  | some t => if m.ranking = .excluded then .excluded else t.ranking

/-- `after_decided`. -/
def afterDecided (m : Match) : ArenaM Unit := do
  let db ← tables
  if rankingDecision db m = .counts ∧ !neverCounts m then onCommit .recompute else pure ()

end Arena
end CpcJudge
