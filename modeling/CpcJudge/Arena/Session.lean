import CpcJudge.Arena.Db

/-!
# `Arena.Session` — what every operation is made of

The first helpers of `judge/arena/engine.py`: refusing, taking the lock of a match, checking and moving
its version, saving a row, recording an action. A helper that reads the tables is a function of them
(`busyElsewhere`, `matchRules`); the ones that write are transactions.
-/

namespace CpcJudge
namespace Arena

/-! ## Refusals -/

/-- `Conflict`. -/
def ArenaError.conflict : ArenaError :=
  ⟨"Somebody else changed this battle a moment ago. The page has been updated; check it and try again.", 409⟩

def ArenaError.noMatch : ArenaError := ⟨"That battle does not exist.", 404⟩
def ArenaError.noGame : ArenaError := ⟨"That game does not exist.", 404⟩
def ArenaError.noTournament : ArenaError := ⟨"That tournament does not exist.", 404⟩
def ArenaError.matchOver : ArenaError := ⟨"This battle is over.", 400⟩

/-- Raised when a player would arrive at a match that has already been played. -/
def ArenaError.nextPlayed : ArenaError :=
  ⟨"The next match has already been played; it cannot receive another player.", 400⟩

/-- `if c: raise ArenaError(message)`. -/
def refuseIf (c : Prop) [Decidable c] (error : ArenaError) : ArenaM Unit :=
  if c then throw error else pure ()

/-- The value, or a refusal when there is none. -/
def orRefuse {α : Type} (value : Option α) (error : ArenaError) : ArenaM α :=
  match value with
  | none => throw error
  | some x => pure x

/-- A cleaned value, or the refusal of the cleaner (`except ValidationError`). -/
def cleaned {α : Type} (value : Except ArenaError α) : ArenaM α :=
  match value with
  | .error e => throw e
  | .ok x => pure x

/-! ## Rows and locks -/

/-- Write the tables. -/
def write (f : Db → Db) : ArenaM Unit := modify fun s => { s with db := f s.db }

/-- Read the tables. -/
def tables : ArenaM Db := do
  let s ← get
  return s.db

/-- Take a row lock; a lock already held is not taken again. -/
def lock (l : Lock) : ArenaM Unit :=
  modify fun s => if l ∈ s.locks then s else { s with locks := s.locks ++ [l] }

def Db.match? (db : Db) (id : MatchId) : Option Match := db.battles.get? id

def Db.tournament? (db : Db) (id : TournamentId) : Option Tournament := db.tournaments.get? id

/-- The tables with the row of a match saved. -/
def Db.putMatch (db : Db) (m : Match) : Db := { db with battles := db.battles.put m }

def Db.putTournament (db : Db) (t : Tournament) : Db := { db with tournaments := db.tournaments.put t }

/-- The tables with an action recorded. -/
def Db.record (db : Db) (a : Action) : Db := { db with actions := db.actions ++ [a] }

/-- `match.save()`. -/
def saveMatch (m : Match) : ArenaM Unit := write (·.putMatch m)

/-- `tournament.save()`. -/
def saveTournament (t : Tournament) : ArenaM Unit := write (·.putTournament t)

/-- The next primary key. -/
def freshId : ArenaM ℕ := do
  let db ← tables
  write fun db => { db with nextId := db.nextId + 1 }
  return db.nextId

/-- `_log`, for an action about a match. -/
def logMatch (action : ActionName) (actor : Option ProfileId) (m : Match) (game : Option GameId := none) :
    ArenaM Unit :=
  write (·.record { action, actor, «match» := some m.id, game, tournament := m.tournament })

/-- `_log`, for an action about a tournament. -/
def logTournament (action : ActionName) (actor : Option ProfileId) (id : TournamentId) : ArenaM Unit :=
  write (·.record { action, actor, tournament := some id })

/-- `transaction.on_commit`. -/
def onCommit (hook : Hook) : ArenaM Unit := modify fun s => { s with hooks := s.hooks ++ [hook] }

/-- `refresh_lock_on_commit`. -/
def refreshLockOnCommit : ArenaM Unit := onCommit .refreshLock

/-- `_check_version`. A version that is not a number is a conflict too. -/
def checkVersion (current : ℕ) (version : Option ℤ) : ArenaM Unit :=
  match version with
  | none => pure ()
  | some v => refuseIf (v ≠ current) .conflict

/-- `_bump` on the row that is about to be saved: an organizer's change moves the version, what the game does
    by itself does not. -/
def Match.bump (m : Match) (system : Bool := false) : Match :=
  if system then m else { m with version := m.version + 1 }

/-- `lock_match`: the lock of its tournament first, then its own. -/
def lockMatch (id : MatchId) : ArenaM Match := do
  let db ← tables
  let m ← orRefuse (db.match? id) .noMatch
  match m.tournament with
  | none => lock (.match none id)
  | some t => do
    lock (.tournament t)
    lock (.match (some t) id)
  return m

/-! ## Reading the tables -/

/-- `_busy_elsewhere`. -/
def busyElsewhere (db : Db) (profile : ProfileId) (except : Option MatchId) : Bool :=
  db.battles.rows.any fun m =>
    m.status.locking && (m.players.a = some profile || m.players.b = some profile) && some m.id ≠ except

/-- `shown_name`. -/
def shownName (site : Site) (m : Match) (slot : Slot) : String :=
  if m.displayNames.get slot ≠ "" then m.displayNames.get slot
  else ((m.players.get slot).map site.displayName).getD ""

/-- The tournament of a match. -/
def tournamentOf (db : Db) (m : Match) : Option Tournament := m.tournament.bind db.tournament?

/-- The round of a match. -/
def roundOf (db : Db) (m : Match) : Option Round := do
  (← tournamentOf db m).round? (← m.round)

/-- `match_rules`. -/
def matchRules (db : Db) (m : Match) : Rules :=
  Rules.merge (((tournamentOf db m).map (·.rules)).toList ++ ((roundOf db m).map (·.rules)).toList ++ [m.rules])

/-- The problems of the games that count as used: an unseen game gives its problems back. -/
def usedIn (games : List Game) (except : Option GameId) : List ProblemId :=
  (games.filter fun g => !g.unseen && some g.id ≠ except).flatMap fun g => g.problems.map (·.problem)

/-- `_problems_used_in_match`. -/
def problemsUsedInMatch (m : Match) (except : Option GameId) : List ProblemId := usedIn m.games.rows except

/-- `problems_used_in_tournament`. -/
def problemsUsedInTournament (db : Db) (t : Option TournamentId) (except : Option GameId) : List ProblemId :=
  match t with
  | none => []
  | some t => (db.battles.rows.filter (·.tournament = some t)).flatMap fun m => usedIn m.games.rows except

/-! ## Texts -/

/-- `text.strip()`. -/
def strip (text : String) : String :=
  String.ofList ((text.toList.dropWhile Char.isWhitespace).reverse.dropWhile Char.isWhitespace).reverse

/-- `text[:n]`. -/
def cut (n : ℕ) (text : String) : String := String.ofList (text.toList.take n)

def maxDisplayName : ℕ := 40
def maxProblemsPerGame : ℕ := 5

/-- `_clean_display`. -/
def cleanDisplay (value : String) (allowed : Bool) : Except ArenaError String :=
  if strip value = "" then .ok ""
  else if !allowed then
    .error ⟨"Display names are only for quick battles; tournament players use their own accounts.", 400⟩
  else if maxDisplayName < (strip value).length then
    .error ⟨"A display name can have at most 40 characters.", 400⟩
  else .ok (strip value)

/-- `_refuse_self`. -/
def refuseSelf (actor : Option ProfileId) (players : List ProfileId) : ArenaM Unit :=
  refuseIf (∃ a ∈ actor, a ∈ players)
    ⟨"You cannot play in a battle you organize. Another organizer has to set it up and run it.", 400⟩

/-! ## Problems -/

/-- A problem as a form sends it. -/
structure Entry where
  id : ProblemId
  points : ℕ := Rules.defaultPoints
  deriving DecidableEq, Repr

/-- `_clean_problem_list`, numbered as `_set_problems` saves them. -/
def cleanProblemList (site : Site) (actor : Option ProfileId) (entries : List Entry)
    (usedElsewhere kept : List ProblemId) : Except ArenaError (List GameProblem) := do
  if maxProblemsPerGame < entries.length then throw ⟨"A game can have at most 5 problems.", 400⟩
  entries.forM fun entry => discard (Rules.cleanPoints entry.points)
  let ids := entries.map (·.id)
  if ¬ ids.Nodup then throw ⟨"The same problem cannot appear twice in a game.", 400⟩
  if ids.any (· ∈ usedElsewhere) then throw ⟨"Each game of a battle must use different problems.", 400⟩
  if ids.any fun id => !site.visibleTo actor id && !(decide (id ∈ kept) && site.problemExists id) then
    throw ⟨"One of the problems does not exist or you cannot see it.", 400⟩
  return entries.zipIdx.map fun (entry, order) =>
    { problem := entry.id, order := order, points := entry.points }

end Arena
end CpcJudge
