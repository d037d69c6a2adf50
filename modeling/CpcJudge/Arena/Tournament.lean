import CpcJudge.Arena.Engine

/-!
# `Arena.Tournament` — brackets and whole-tournament operations

`judge/arena/tournament.py`: participants and seeding, the bracket and its byes, rounds, starting and
archiving, correcting a winner, and filling matches from the bank. Every operation takes the lock of the
tournament before anything else; an operation on one match of it does so through `lockMatch`.
-/

namespace CpcJudge
namespace Arena

/-! ## Seeding -/

def minParticipants : ℕ := 2
def maxParticipants : ℕ := 64

/-- `MAX_PLANNED_DAYS`. -/
def maxPlannedDays : ℤ := 730

/-- The loop of `seeding_order`: double the order until it has `size` seeds. -/
def seedingLoop (size : ℕ) : ℕ → List ℕ → List ℕ
  | 0, order => order
  | fuel + 1, order =>
    if order.length < size then
      let total := order.length * 2 + 1
      seedingLoop size fuel (order.flatMap fun current => [current, total - current])
    else order

/-- `seeding_order`. -/
def seedingOrder (size : ℕ) : List ℕ := seedingLoop size size [1]

/-- The loop of `bracket_size`. -/
def sizeLoop (count : ℕ) : ℕ → ℕ → ℕ
  | 0, size => size
  | fuel + 1, size => if size < count then sizeLoop count fuel (size * 2) else size

/-- `bracket_size`: the next power of two. -/
def bracketSize (count : ℕ) : ℕ := sizeLoop count count 1

/-- The loop of `round_count`. -/
def roundLoop : ℕ → ℕ → ℕ → ℕ
  | 0, _, rounds => rounds
  | fuel + 1, size, rounds => if 1 < size then roundLoop fuel (size / 2) (rounds + 1) else rounds

/-- `round_count`. -/
def roundCount (count : ℕ) : ℕ := roundLoop (bracketSize count) (bracketSize count) 0

/-- `_clean_participants`. -/
def cleanParticipants (profiles : List (Option ProfileId)) : Except ArenaError (List ProfileId) :=
  let result := (profiles.reduceOption.reverse.dedup).reverse
  if result.length < minParticipants then .error ⟨"A tournament needs at least 2 participants.", 400⟩
  else if maxParticipants < result.length then
    .error ⟨"A tournament can have at most 64 participants.", 400⟩
  else .ok result

/-- `_refuse_self`, of a tournament. -/
def refuseParticipant (actor : Option ProfileId) (profiles : List ProfileId) : ArenaM Unit :=
  refuseIf (∃ a ∈ actor, a ∈ profiles)
    ⟨"You cannot add yourself to a tournament you organize: another organizer has to add you.", 400⟩

/-- The order of the ratings: rated players first, from the best. -/
def byRating (site : Site) (p : ProfileId) : Bool ×ₗ ℤ ×ₗ ℕ :=
  toLex ((site.rating p).isNone, toLex (-((site.rating p).getD 0), p))

/-- The order of the ranking of the duels; who has no rating there goes last, by the other one. -/
def byDuelRating (site : Site) (p : ProfileId) : Bool ×ₗ ℚ ×ₗ Bool ×ₗ ℤ ×ₗ ℕ :=
  toLex ((site.duelRating p).isNone, toLex (-((site.duelRating p).getD 0), byRating site p))

/-- `_ordered_by_seeding`. -/
def orderedBySeeding (site : Site) (profiles : List ProfileId) : Seeding → List ProfileId
  | .manual => profiles
  | .random => site.shuffle profiles
  | .rating => profiles.insertionSort fun p q => byRating site p ≤ byRating site q
  | .duel => profiles.insertionSort fun p q => byDuelRating site p ≤ byDuelRating site q

/-- `ArenaParticipant.objects.bulk_create`: seeds from one, in order. -/
def seeded (profiles : List ProfileId) : List Participant :=
  profiles.zipIdx.map fun (profile, index) => { profile, seed := index + 1 }

/-- `_lock_tournament`. -/
def lockTournament (id : TournamentId) : ArenaM Tournament := do
  let db ← tables
  let t ← orRefuse (db.tournament? id) .noTournament
  lock (.tournament id)
  return t

/-- `clean_planned_at`. -/
def cleanPlannedAt (site : Site) (value : Option Time) : Except ArenaError (Option Time) :=
  match value with
  | none => .ok none
  | some moment =>
    if moment < site.now - minutes (24 * 60) then
      .error ⟨"That planned date has already passed.", 400⟩
    else if site.now + minutes (maxPlannedDays * 24 * 60) < moment then
      .error ⟨"The planned date can be at most two years ahead.", 400⟩
    else .ok (some moment)

/-! ## The bracket -/

/-- `_sync_rounds`: one round per level of the bracket, keeping what was configured on those that stay. -/
def Tournament.syncRounds (t : Tournament) (count : ℕ) : Tournament :=
  { t with rounds := (List.range (roundCount count)).map fun i =>
      (t.round? (i + 1)).getD { number := i + 1 } }

/-- Where a chosen list of problems goes: the round, the position, whether it is the third place match, and
    the number of the game. -/
abbrev Place := ℕ × ℕ × Bool × ℕ

/-- `_chosen_problems`. -/
def chosenProblems (db : Db) (id : TournamentId) : List (Place × List GameProblem) :=
  (db.battles.rows.filter (·.tournament = some id)).flatMap fun m =>
    match m.round with
    | none => []
    | some round => (m.games.rows.filter fun g => !g.started && !g.problems.isEmpty).map fun g =>
        ((round, m.position, m.isThirdPlace, g.number), g.problems)

/-- The problems chosen for the games of a match, from its first game to the last one that has any. -/
def chosenFor (chosen : List (Place × List GameProblem)) (m : Match) : List (List GameProblem) :=
  let mine := chosen.filter fun entry =>
    some entry.1.1 = m.round && entry.1.2.1 = m.position && entry.1.2.2.1 = m.isThirdPlace
  let last := (mine.map fun entry => entry.1.2.2.2).foldl max 0
  (List.range last).map fun i =>
    ((mine.find? fun entry => entry.1.2.2.2 = i + 1).map (·.2)).getD []

/-- What the matches of a bracket are built from. -/
structure BracketPlan where
  tournament : Tournament
  actor : Option ProfileId
  now : Time
  /-- The primary key of the first match created, the final. -/
  base : MatchId
  rounds : ℕ
  size : ℕ
  third : Bool

namespace BracketPlan
variable (d : BracketPlan)

/-- The match `position` of the round that is `back` rounds before the final: the `2 ^ back - 1` matches of
    the later rounds were created first. -/
def matchId (back position : ℕ) : MatchId := d.base + (2 ^ back - 1) + position

/-- The third place match is created after the others. -/
def thirdId : MatchId := d.base + (2 ^ d.rounds - 1)

/-- `rounds[number].best_of`. -/
def bestOf (number : ℕ) : ℕ := ((d.tournament.round? number).map (·.bestOf)).getD 1

/-- The slot an even or an odd position leads to. -/
def slotOf (position : ℕ) : Slot := if position % 2 = 0 then .a else .b

/-- A match as it is first created, before the players of the first round take their places. -/
def blank (back position : ℕ) : Match where
  id := d.matchId back position
  tournament := some d.tournament.id
  round := some (d.rounds - back)
  position := position
  players := .both none
  nextMatch := if back = 0 then none else some (d.matchId (back - 1) (position / 2), slotOf position)
  loserNextMatch := if back = 1 ∧ d.third then some (d.thirdId, if position = 0 then .a else .b) else none
  bestOf := d.bestOf (d.rounds - back)
  createdBy := d.actor
  createdAt := d.now

/-- The participant with a seed. -/
def seat (seed : ℕ) : Option Participant := d.tournament.participants.find? (·.seed = seed)

/-- A match of the first round, with the players its seeds give it. -/
def seatPlayers (m : Match) : Match :=
  let order := seedingOrder d.size
  let seatOf : ℕ → Option Participant := fun index => order[index]?.bind d.seat
  let m := { m with
    players := ⟨(seatOf (2 * m.position)).map Participant.profile,
      (seatOf (2 * m.position + 1)).map Participant.profile⟩
    seeds := ⟨(seatOf (2 * m.position)).map Participant.seed,
      (seatOf (2 * m.position + 1)).map Participant.seed⟩ }
  if m.ready then { m with status := .ready } else m

/-- The matches of a round, from the final backwards (`back` counts from it). -/
def roundMatches (back : ℕ) : List Match :=
  (List.range (d.size >>> (d.rounds - back))).map fun position =>
    if back + 1 = d.rounds then d.seatPlayers (d.blank back position) else d.blank back position

/-- The third place match. -/
def thirdMatch : Match :=
  { d.blank 0 1 with id := d.thirdId, isThirdPlace := true, nextMatch := none, loserNextMatch := none }

/-- Every match of the bracket, in the order they are created. -/
def allMatches : List Match :=
  (List.range d.rounds).flatMap d.roundMatches ++ if d.third then [d.thirdMatch] else []

end BracketPlan

/-- Byes: the lone player goes straight through. -/
def giveByes (now : Time) : List MatchId → ArenaM Unit
  | [] => pure ()
  | id :: ids => do
    let db ← tables
    if (db.match? id).any (·.status = .pending) then do
      let m ← lockMatch id
      let slot : Slot := if m.players.a.isSome then .a else .b
      let m := { m with status := .decided, winnerSlot := some slot, decidedReason := some .bye,
                        decidedAt := some now }.bump
      saveMatch m
      advance now m
    else pure ()
    giveByes now ids

/-- The problems already chosen go back to their place. -/
def restoreGames (chosen : List (Place × List GameProblem)) : List MatchId → ArenaM Unit
  | [] => pure ()
  | id :: ids => do
    let db ← tables
    match db.match? id with
    | none => pure ()
    | some m =>
      if m.status = .decided then pure ()
      else do
        let _ ← addGames m 1 (chosenFor chosen m)
    restoreGames chosen ids

/-- The matches of a tournament deleted, with their prepared games and what was recorded about them; a
    screen that showed one shows none. -/
def Db.dropBracket (db : Db) (id : TournamentId) : Db :=
  let dropped := (db.battles.rows.filter (·.tournament = some id)).map (·.id)
  { db with
    battles := db.battles.filter fun m => m.tournament ≠ some id
    screens := db.screens.modify (fun s => s.match.any (· ∈ dropped)) ({ · with «match» := none }) fun _ => rfl
    actions := db.actions.filter fun a => a.match.all (· ∉ dropped) }

/-- `ProtectedError`: a started game keeps its match from being deleted. -/
def ArenaError.protectedGames : ArenaError :=
  ⟨"Cannot delete some instances of model 'ArenaMatch' because they are referenced through protected " ++
    "foreign keys.", 500⟩

/-- `_build_bracket`: every match of the bracket from the seeds, for a draft tournament already locked. The
    problems already chosen stay with their place. -/
def buildBracket (site : Site) (actor : Option ProfileId) (t : Tournament) : ArenaM Tournament := do
  let count := t.participants.length
  refuseIf (count < minParticipants) ⟨"A tournament needs at least 2 participants.", 400⟩
  let db ← tables
  let chosen := chosenProblems db t.id
  refuseIf (db.battles.rows.any fun m => m.tournament = some t.id && m.started) .protectedGames
  write (·.dropBracket t.id)
  let t := t.syncRounds count
  saveTournament t
  let rounds := t.rounds.length
  let db ← tables
  let plan : BracketPlan :=
    { tournament := t, actor, now := site.now, base := db.nextId, rounds, size := bracketSize count,
      third := t.thirdPlaceMatch && 2 ≤ rounds && 4 ≤ count }
  let ids := plan.allMatches.map (·.id)
  write fun db =>
    { db with
      battles := plan.allMatches.foldl Table.add db.battles
      nextId := db.nextId + plan.allMatches.length }
  giveByes site.now ((plan.roundMatches (rounds - 1)).map (·.id))
  restoreGames chosen ids
  let t := { t with version := t.version + 1 }
  saveTournament t
  logTournament .bracket actor t.id
  return t

/-! ## Operations on a tournament -/

/-- `create_tournament`. -/
def createTournament (site : Site) (actor : Option ProfileId) (name : String)
    (profiles : List (Option ProfileId)) (seeding : Seeding) (thirdPlace : Bool) (rules : Rules)
    (description : String) (bank : Option BankId) (showInHistory : Bool) (plannedAt : Option Time)
    (ranking : Ranking) : ArenaM TournamentId := do
  refuseIf (cut 100 (strip name) = "") ⟨"Give the tournament a name.", 400⟩
  let rules ← cleaned (Rules.clean rules)
  let plannedAt ← cleaned (cleanPlannedAt site plannedAt)
  let profiles ← cleaned (cleanParticipants profiles)
  refuseParticipant actor profiles
  let profiles := orderedBySeeding site profiles seeding
  let id ← freshId
  let t : Tournament :=
    { id, name := cut 100 (strip name), description := cut 2000 (strip description), seeding,
      thirdPlaceMatch := thirdPlace, rules, bank, createdBy := actor, showInHistory, plannedAt, ranking,
      participants := seeded profiles }
  let t := t.syncRounds profiles.length
  write fun db => { db with tournaments := db.tournaments.add t }
  let _ ← buildBracket site actor t
  logTournament .tournamentCreate actor id
  ensureDefaultScreen site actor
  return id

/-- `update_tournament`; what is not given stays. A change of the third place match builds the bracket
    again. -/
def updateTournament (site : Site) (actor : Option ProfileId) (id : TournamentId) (version : Option ℤ)
    (name description : Option String) (rules : Option Rules) (bank : Option (Option BankId))
    (thirdPlace : Option Bool) (draw : Option Rules.Draw) (showInHistory : Option Bool)
    (plannedAt : Option (Option Time)) : ArenaM Unit := do
  let t ← lockTournament id
  checkVersion t.version version
  let t := { t with showInHistory := showInHistory.getD t.showInHistory }
  let plannedAt : Option Time ← match plannedAt with
    | none => pure t.plannedAt
    | some moment =>
      if moment = t.plannedAt then pure moment else cleaned (cleanPlannedAt site moment)
  let t := { t with plannedAt }
  refuseIf (name.any fun n => cut 100 (strip n) = "") ⟨"Give the tournament a name.", 400⟩
  let t := { t with name := (name.map fun n => cut 100 (strip n)).getD t.name
                    description := (description.map fun d => cut 2000 (strip d)).getD t.description }
  let rules ← cleaned ((rules.map fun r => (Rules.clean r).map some).getD (.ok none))
  let draw ← cleaned (Rules.cleanDraw (draw.getD {}))
  let t : Tournament := { t with rules := Rules.withDraw t.rules rules draw, bank := bank.getD t.bank }
  let rebuild : Bool := thirdPlace.any (· ≠ t.thirdPlaceMatch)
  refuseIf (rebuild ∧ t.status ≠ .draft)
    ⟨"The bracket is already set; this can only change in a draft.", 400⟩
  let t := { t with thirdPlaceMatch := thirdPlace.getD t.thirdPlaceMatch, version := t.version + 1 }
  saveTournament t
  if rebuild then do
    let _ ← buildBracket site actor t
    logTournament .tournamentUpdate actor id
  else logTournament .tournamentUpdate actor id

/-- `set_show_in_history`. -/
def setShowInHistory (actor : Option ProfileId) (id : TournamentId) (shown : Bool) : ArenaM Unit := do
  let t ← lockTournament id
  if shown ≠ t.showInHistory then do
    saveTournament { t with showInHistory := shown, version := t.version + 1 }
    logTournament .history actor id
  else pure ()

/-- `set_participants`: saving them builds the bracket again at once. -/
def setParticipants (site : Site) (actor : Option ProfileId) (id : TournamentId)
    (profiles : List (Option ProfileId)) (seeding : Option Seeding) (version : Option ℤ) : ArenaM Unit := do
  let t ← lockTournament id
  checkVersion t.version version
  refuseIf (t.status ≠ .draft) ⟨"Participants can only change while the tournament is a draft.", 400⟩
  let t := { t with seeding := seeding.getD t.seeding }
  let profiles ← cleaned (cleanParticipants profiles)
  refuseParticipant actor profiles
  let profiles := orderedBySeeding site profiles t.seeding
  let t := { t.syncRounds profiles.length with participants := seeded profiles, version := t.version + 1 }
  saveTournament t
  let _ ← buildBracket site actor t
  logTournament .participants actor id

/-- The undecided matches of a round. -/
def inRound (id : TournamentId) (number : ℕ) (m : Match) : Bool :=
  m.tournament = some id && m.round = some number && m.status ≠ .decided

/-- A list of locks, one after another. -/
def lockAll : List Lock → ArenaM Unit
  | [] => pure ()
  | l :: ls => do
    lock l
    lockAll ls

/-- `set_round`; what is not given stays. -/
def setRound (actor : Option ProfileId) (id : TournamentId) (number : ℕ) (bestOf : Option ℕ)
    (rules : Option Rules) (name : Option String) (version : Option ℤ) (draw : Option Rules.Draw) :
    ArenaM Unit := do
  let t ← lockTournament id
  checkVersion t.version version
  let round ← orRefuse (t.round? number) ⟨"That round does not exist.", 404⟩
  let round ← match bestOf with
    | none => pure round
    | some bestOf => do
      let bestOf ← cleaned (Rules.cleanBestOf bestOf)
      let db ← tables
      refuseIf (bestOf ≠ round.bestOf ∧ db.battles.rows.any fun m =>
          m.tournament = some id && m.round = some number && m.started)
        ⟨"This round has already started; change the length of each match instead.", 400⟩
      lockAll ((db.battles.rows.filter (inRound id number)).map fun m => .match (some id) m.id)
      write fun db =>
        { db with battles := db.battles.modify (inRound id number) ({ · with bestOf }) fun _ => rfl }
      pure { round with bestOf }
  let rules ← cleaned ((rules.map fun r => (Rules.clean r).map some).getD (.ok none))
  let draw ← cleaned (Rules.cleanDraw (draw.getD {}))
  let round := { round with rules := Rules.withDraw round.rules rules { draw with autoDraw := none }
                            name := (name.map fun n => cut 60 (strip n)).getD round.name }
  saveTournament { t with rounds := t.rounds.map (fun r => if r.number = number then round else r)
                          version := t.version + 1 }
  logTournament .round actor id

/-- `generate_bracket`. -/
def generateBracket (site : Site) (actor : Option ProfileId) (id : TournamentId) (version : Option ℤ) :
    ArenaM Unit := do
  let t ← lockTournament id
  checkVersion t.version version
  refuseIf (t.status ≠ .draft) ⟨"The bracket can only be built while the tournament is a draft.", 400⟩
  let _ ← buildBracket site actor t
  return ()

/-- `start_tournament`. -/
def startTournament (site : Site) (actor : Option ProfileId) (id : TournamentId) (version : Option ℤ) :
    ArenaM Unit := do
  let t ← lockTournament id
  checkVersion t.version version
  refuseIf (t.status ≠ .draft) ⟨"This tournament has already started.", 400⟩
  let db ← tables
  refuseIf (¬ db.battles.rows.any fun m => m.tournament = some id)
    ⟨"Build the bracket before starting.", 400⟩
  saveTournament { t with status := .running, startedAt := some site.now, version := t.version + 1 }
  logTournament .tournamentStart actor id

/-- `archive_tournament`. -/
def archiveTournament (actor : Option ProfileId) (id : TournamentId) (version : Option ℤ) :
    ArenaM Unit := do
  let t ← lockTournament id
  checkVersion t.version version
  refuseIf (t.status ≠ .finished) ⟨"Only a finished tournament can be archived.", 400⟩
  let db ← tables
  refuseIf (db.battles.rows.any fun m => m.tournament = some id && m.status.locking)
    ⟨"Finish or decide the matches being played first.", 400⟩
  saveTournament { t with status := .archived, version := t.version + 1 }
  logTournament .tournamentArchive actor id

/-! ## Correcting a winner -/

/-- The matches the players of a match go to. -/
def Match.targets (m : Match) : List (MatchId × Slot) := m.nextMatch.toList ++ m.loserNextMatch.toList

/-- Who may not correct a winner: whoever played the match, or plays a match it leads to that is not over. -/
def concerned (db : Db) (m : Match) : List ProfileId :=
  m.players.a.toList ++ m.players.b.toList ++
    (m.targets.filterMap fun (id, _) => db.match? id).flatMap fun target =>
      if target.isOver then [] else target.players.a.toList ++ target.players.b.toList

/-- The match with its winner corrected; a walkover stays one. -/
def Match.correct (m : Match) (slot : Slot) (now : Time) : Match :=
  { m with
    winnerSlot := some slot
    decidedReason := if m.decidedReason = some DecidedReason.walkover then some DecidedReason.walkover
      else some DecidedReason.organizer
    decidedAt := some now }.bump

/-- A finished tournament goes on while one of its winners is corrected. -/
def reopen (id : TournamentId) : ArenaM Unit := do
  lock (.tournament id)
  let db ← tables
  match db.tournament? id with
  | none => pure ()
  | some t =>
    if t.status = .finished then saveTournament { t with status := .running, finishedAt := none }
    else pure ()

/-- `set_winner`. -/
def setWinner (site : Site) (actor : Option ProfileId) (id : MatchId) (slot : Slot) (version : Option ℤ) :
    ArenaM Unit := do
  let m ← lockMatch id
  checkVersion m.version version
  let t ← orRefuse m.tournament ⟨"Only the winner of a tournament match can be corrected.", 400⟩
  refuseIf (m.status ≠ .decided ∨ m.winnerSlot = some slot)
    ⟨"Only the winner of a decided match can be corrected.", 400⟩
  refuseIf (m.players.get slot).isNone ⟨"That player is not set yet.", 400⟩
  let db ← tables
  refuseIf (∃ a ∈ actor, a ∈ concerned db m)
    ⟨"You played this battle or play the next one: another organizer has to correct it.", 400⟩
  refuseIf (m.targets.any fun (target, _) => (db.match? target).any (·.started)) .nextPlayed
  let m := m.correct slot site.now
  saveMatch m
  reopen t
  advance site.now m
  logMatch .setWinner actor m
  afterDecided m
  refreshLockOnCommit

/-! ## Filling matches, the ranking and the screens -/

/-- The matches `fill_ready_matches` goes through. -/
def fillable (db : Db) (id : TournamentId) : List MatchId :=
  (db.battles.rows.filter fun m => m.tournament = some id &&
    (m.status = .ready || m.status = .called || m.status = .playing)).map (·.id)

/-- One turn of the loop of `fill_ready_matches`, in its own transaction: whether the match got its
    problems. -/
def fillMatch (site : Site) (actor : Option ProfileId) (id : MatchId) : ArenaM Bool := do
  let m ← lockMatch id
  if m.inPlay then return false
  else do
    let (m, game) ← ensureNextGame m
    let (m, filled) ← fillFromBank site actor true m game
    if filled then do
      saveMatch m.bump
      return true
    else return false

/-- `set_tournament_ranking`. -/
def setTournamentRanking (actor : Option ProfileId) (id : TournamentId) (value : Ranking) : ArenaM Unit := do
  let t ← lockTournament id
  if value ≠ t.ranking then do
    saveTournament { t with ranking := value }
    logTournament .ranking actor id
    onCommit .recompute
  else pure ()

/-- `set_match_ranking`. -/
def setMatchRanking (actor : Option ProfileId) (id : MatchId) (value : Ranking) : ArenaM Unit := do
  let m ← lockMatch id
  refuseIf (m.tournament.isSome ∧ value = .counts)
    ⟨"A battle of a tournament counts when its tournament counts; it can only be left out.", 400⟩
  if value ≠ m.ranking then do
    let m := { m with ranking := value }
    saveMatch m
    logMatch .ranking actor m
    onCommit .recompute
  else pure ()

/-- The screen, locked. -/
def lockScreen (id : ScreenId) : ArenaM Screen := do
  let db ← tables
  let s ← orRefuse (db.screens.get? id) ⟨"That screen does not exist.", 404⟩
  lock (.screen id)
  return s

def saveScreen (s : Screen) : ArenaM Unit := write fun db => { db with screens := db.screens.put s }

/-- `create_screen`. -/
def createScreen (actor : Option ProfileId) (name : String) : ArenaM Unit := do
  let id ← freshId
  let name := if cut 60 (strip name) = "" then "Screen" else cut 60 (strip name)
  write fun db => { db with screens := db.screens.add { id, name, createdBy := actor } }

/-- `show_on_screen`. -/
def showOnScreen (id : ScreenId) (mode : ScreenMode) (battle : Option MatchId)
    (tournament : Option TournamentId) (message : String) (followLive : Option Bool) (version : Option ℤ) :
    ArenaM Unit := do
  let s ← lockScreen id
  checkVersion s.version version
  saveScreen { s with
    mode
    «match» := if mode = .battle then battle else battle <|> s.match
    tournament := tournament <|> s.tournament
    followLive := followLive.getD s.followLive
    message := cut 200 (strip message)
    version := s.version + 1 }

/-- `rename_screen`. -/
def renameScreen (id : ScreenId) (name : String) : ArenaM Unit := do
  let s ← lockScreen id
  saveScreen { s with
    name := if cut 60 (strip name) = "" then s.name else cut 60 (strip name)
    version := s.version + 1 }

/-- `regenerate_screen_token`. -/
def regenerateScreenToken (id : ScreenId) : ArenaM Unit := do
  let s ← lockScreen id
  saveScreen { s with version := s.version + 1 }

end Arena
end CpcJudge
