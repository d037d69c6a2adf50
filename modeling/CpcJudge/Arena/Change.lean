import CpcJudge.Arena.System
import Mathlib.Logic.Relation

/-!
# `Arena.Change` — an abstract arena

The arena without forms, clocks and texts: what a single change may do to the tables, and nothing about why it
was asked for. A change rewrites one match (`RowStep`), decides one and moves its players on (`Decides` and
`Advanced`), draws a bracket, or touches what no match depends on. Four organizer requests are more than
that (a length for a whole round, another player, a corrected winner, the start of a tournament): they are the
`special` part of an operation, and come before its changes.

Every invariant of the arena is proved about these; that the operations are made of them is `Arena.Refine`.
-/

namespace CpcJudge
namespace Arena

/-! ## Games -/

namespace GameStatus

/-- How far a game is. -/
def rank : GameStatus → ℕ
  | prepared => 0
  | countdown => 1
  | live => 2
  | verifying => 3
  | tie => 4
  | finished | cancelled => 5

/-- A status moves forward or stays; a tie is left by organizers only. -/
def Onward (organizer : Bool) (x y : GameStatus) : Prop :=
  x = y ∨ (x.rank < y.rank ∧ (x = .tie → organizer = true))

theorem Onward.refl {organizer : Bool} (x : GameStatus) : Onward organizer x x := .inl rfl

theorem Onward.trans {organizer : Bool} {x y z : GameStatus} (hxy : Onward organizer x y)
    (hyz : Onward organizer y z) : Onward organizer x z := by
  rcases hxy with rfl | ⟨hlt, htie⟩
  · exact hyz
  · rcases hyz with rfl | ⟨hlt', _⟩
    · exact .inr ⟨hlt, htie⟩
    · exact .inr ⟨by omega, htie⟩

end GameStatus

/-- A change of one game that neither starts it nor gives it a winner. Only players submit. -/
structure GameStep (organizer : Bool) (g g' : Game) : Prop where
  id : g'.id = g.id
  contest : g'.contest.isSome = g.contest.isSome
  submissions : organizer = true → g'.submissions = g.submissions
  closed : g'.status = .verifying → (g.status = .verifying → g.closedAt.isSome) → g'.closedAt.isSome
  status : (g'.status = g.status ∧ g'.winnerSlot = g.winnerSlot) ∨
    ((g.status.active ∨ g.status = .tie) ∧ g'.status ≠ .finished ∧ g.status.Onward organizer g'.status)

/-- A game won: one being played, or a tied one an organizer decides. -/
structure GameWon (organizer : Bool) (slot : Slot) (g g' : Game) : Prop where
  id : g'.id = g.id
  contest : g'.contest.isSome = g.contest.isSome
  submissions : g'.submissions = g.submissions
  before : g.status.active ∨ (g.status = .tie ∧ organizer)
  after : g'.status = .finished
  winner : g'.winnerSlot = some slot

/-! ## One match -/

namespace Match

/-- What no change of a match touches. -/
def static (m : Match) :
    MatchId × Option TournamentId × Option ℕ × Bool × Option (MatchId × Slot) × Option (MatchId × Slot) :=
  (m.id, m.tournament, m.round, m.isThirdPlace, m.nextMatch, m.loserNextMatch)

/-- The match decided. -/
def award (m : Match) (slot : Slot) (reason : DecidedReason) (moment : Time) (v : ℕ) : Match :=
  { m with status := .decided, winnerSlot := some slot, decidedReason := some reason,
           decidedAt := some moment, version := v }

/-- The match without the games prepared in advance. -/
def dropUnplayed (m : Match) : Match := { m with games := m.games.filter fun g => !g.unplayed }

/-- The match has a game with that status. -/
def gameIn (m : Match) (id : GameId) (status : GameStatus) : Bool :=
  (m.games.get? id).any (·.status = status)

/-- What arriving players change. -/
theorem receive_eq (m : Match) (slot : Slot) (p : Option ProfileId) (seed : Option ℕ) :
    ∃ status, m.receive slot p seed =
        { m with players := m.players.set slot p, seeds := m.seeds.set slot seed, status,
                 version := m.version + 1 } ∧
      (status = m.status ∨ (m.status = .pending ∧ status = .ready) ∨
        (m.status = .ready ∧ status = .pending)) := by
  let full : Match := { m with players := m.players.set slot p, seeds := m.seeds.set slot seed }
  by_cases hready : (full.ready && m.status = .pending) = true
  · refine ⟨.ready, ?_, .inr (.inl ⟨?_, rfl⟩)⟩
    · show Match.bump (if (full.ready && m.status = .pending) = true then { full with status := .ready } else _) = _
      rw [if_pos hready]
      rfl
    · exact of_decide_eq_true (Bool.and_eq_true_iff.mp hready).2
  · by_cases hpending : (!full.ready && m.status = .ready) = true
    · refine ⟨.pending, ?_, .inr (.inr ⟨?_, rfl⟩)⟩
      · show Match.bump (if (full.ready && m.status = .pending) = true then _ else
          if (!full.ready && m.status = .ready) = true then { full with status := .pending } else full) = _
        rw [if_neg hready, if_pos hpending]
        rfl
      · exact of_decide_eq_true (Bool.and_eq_true_iff.mp hpending).2
    · refine ⟨m.status, ?_, .inl rfl⟩
      show Match.bump (if (full.ready && m.status = .pending) = true then _ else
        if (!full.ready && m.status = .ready) = true then _ else full) = _
      rw [if_neg hready, if_neg hpending]
      rfl

end Match

/-- A change of one match that leaves its players and its winner alone. -/
inductive RowStep (organizer : Bool) (m : Match) : Match → Prop
  | edit (title : String) (displayNames : Pair String) (rules : Rules) (ranking : Ranking) (v : ℕ)
      (hv : m.version ≤ v) : RowStep organizer m { m with title, displayNames, rules, ranking, version := v }
  | length (bestOf : ℕ) (going : m.isOver = false) (short : m.mostWins < bestOf / 2 + 1) :
      RowStep organizer m { m with bestOf }
  | call (moment : Option Time) (v : ℕ) (ready : m.status = .ready) (hv : m.version ≤ v) :
      RowStep organizer m { m with status := .called, calledAt := moment, version := v }
  | addGame (g : Game) (status : g.status = .prepared) (contest : g.contest = none)
      (fresh : m.games.get? g.id = none) : RowStep organizer m { m with games := m.games.add g }
  | game {g g' : Game} (v : ℕ) (here : m.games.get? g.id = some g) (step : GameStep organizer g g')
      (hv : m.version ≤ v) : RowStep organizer m { m.setGame g' with version := v }
  | start {g g' : Game} (moment : Option Time) (v : ℕ) (here : m.games.get? g.id = some g)
      (prepared : g.status = .prepared) (going : m.isOver = false) (ready : m.ready = true)
      (idle : m.inPlay = false) (id : g'.id = g.id) (status : g'.status = .countdown)
      (contest : g'.contest.isSome = true) (submissions : ∀ slot, g'.submissions slot = []) (hv : m.version ≤ v) :
      RowStep organizer m { m.setGame g' with status := .playing, calledAt := moment, version := v }
  | win {g g' : Game} {slot : Slot} (v : ℕ) (here : m.games.get? g.id = some g)
      (won : GameWon organizer slot g g') (going : m.isOver = false)
      (short : ((m.setGame g').win slot).mostWins < m.winsNeeded) (hv : m.version ≤ v) :
      RowStep organizer m { (m.setGame g').win slot with version := v }
  | voidGames (now : Time) (decidedBy : Game → Option ProfileId) (organized : organizer = true) :
      RowStep organizer m (m.voidGames now decidedBy)
  | dropUnplayed : RowStep organizer m m.dropUnplayed
  | cancel (moment : Time) (v : ℕ) (quick : m.tournament = none) (going : m.isOver = false)
      (idle : m.inPlay = false) (hv : m.version ≤ v) :
      RowStep organizer m { m with status := .cancelled, decidedAt := some moment, version := v }

/-- A match decided: by one of its games, or given to a player. -/
inductive Decides (organizer : Bool) (m : Match) : Match → Prop
  | game {g g' : Game} {slot : Slot} (reason : DecidedReason) (moment : Time) (v : ℕ)
      (here : m.games.get? g.id = some g) (won : GameWon organizer slot g g')
      (alone : g.status.active ∨ m.inPlay = false) (going : m.isOver = false) (hv : m.version ≤ v) :
      Decides organizer m (((m.setGame g').win slot).award slot reason moment v).dropUnplayed
  | given {slot : Slot} (reason : DecidedReason) (moment : Time) (v : ℕ)
      (seated : (m.players.get slot).isSome) (idle : m.inPlay = false) (going : m.isOver = false)
      (hv : m.version ≤ v) : Decides organizer m (m.award slot reason moment v)

/-! ## The tables -/

/-- How many times an action is recorded about a game. -/
def Db.recorded (db : Db) (name : ActionName) (id : GameId) : ℕ :=
  db.actions.countP fun a => a.action = name ∧ a.game = some id

/-- No result is recorded, and no primary key is used again. -/
structure Logs (db db' : Db) : Prop where
  nextId : db.nextId ≤ db'.nextId
  finishes : ∀ id, db'.recorded .finish id ≤ db.recorded .finish id
  ties : ∀ id, db'.recorded .tie id ≤ db.recorded .tie id

/-- A match saved: its new games have new keys, and a result is recorded only for a game that gets it. -/
structure Saves (db : Db) (m m' : Match) (db' : Db) : Prop where
  battles : db'.battles = db.battles.put m'
  tournaments : db'.tournaments = db.tournaments
  nextId : db.nextId ≤ db'.nextId
  fresh : ∀ g ∈ m'.games.rows, m.games.get? g.id = none → db.nextId ≤ g.id ∧ g.id < db'.nextId
  finishes : ∀ id, db'.recorded .finish id ≤
    db.recorded .finish id + if m'.gameIn id .finished ∧ ¬ m.gameIn id .finished then 1 else 0
  ties : ∀ id, db'.recorded .tie id ≤
    db.recorded .tie id + if m'.gameIn id .tie ∧ ¬ m.gameIn id .tie then 1 else 0

/-- A player arrives at a slot of a match not yet played; nobody arrives, or there is nowhere to go. -/
inductive Placed (seed : Option ℕ) (db : Db) : Option (MatchId × Slot) → Option ProfileId → Db → Prop
  | nobody (target : Option (MatchId × Slot)) : Placed seed db target none db
  | nowhere (p : Option ProfileId) : Placed seed db none p db
  | placed {id : MatchId} {n : Match} (slot : Slot) (p : ProfileId) (here : db.match? id = some n)
      (unplayed : n.started = false) :
      Placed seed db (some (id, slot)) (some p) (db.putMatch (n.receive slot (some p) seed))

/-- A running tournament is finished if its last matches are over. -/
inductive Checked (id : TournamentId) (db : Db) : Db → Prop
  | finished {t t' : Tournament} {db' : Db} (here : db.tournament? id = some t) (status : t.status = .running)
      (done : db.bracketDone id = true) (after : t'.status = .finished) (sameId : t'.id = t.id)
      (players : t'.participants = t.participants) (battles : db'.battles = db.battles)
      (tournaments : db'.tournaments = db.tournaments.put t') (logs : Logs db db') : Checked id db db'
  | same (going : ∀ t, db.tournament? id = some t → t.status = .running → db.bracketDone id = false) :
      Checked id db db

/-- The players of a decided match on their way. -/
inductive Advanced (m : Match) (db : Db) : Db → Prop
  | quick (h : m.tournament = none) : Advanced m db db
  | onward {t : TournamentId} {w : Slot} {db1 db2 db3 : Db} (here : m.tournament = some t)
      (won : m.winnerSlot = some w) (seated : (m.players.get w).isSome)
      (next : Placed (m.seeds.get w) db m.nextMatch (m.players.get w) db1)
      (loser : Placed (m.seeds.get w.other) db1 m.loserNextMatch (m.players.get w.other) db2)
      (checked : Checked t db2 db3) : Advanced m db db3

/-- Seeds from one, one participant each. -/
def Tournament.Seeded (t : Tournament) : Prop :=
  ∀ i, 1 ≤ i → i ≤ t.participants.length → (t.participants.find? (·.seed = i)).isSome

/-- A bracket as `_build_bracket` plans it. -/
structure BracketPlan.Fits (d : BracketPlan) : Prop where
  count : 2 ≤ d.tournament.participants.length
  rounds : d.rounds = roundCount d.tournament.participants.length
  size : d.size = bracketSize d.tournament.participants.length
  third : d.third = true → 2 ≤ d.rounds
  seeded : d.tournament.Seeded

/-- One change of the tables. An organizer may do more than the game by itself; `scope` holds the matches the
    change is asked for, the others only receive players. -/
inductive Change (organizer : Bool) (scope : MatchId → Prop) (db : Db) : Db → Prop
  | row {m m' : Match} {db' : Db} (here : db.match? m.id = some m) (own : scope m.id)
      (step : RowStep organizer m m') (saves : Saves db m m' db') : Change organizer scope db db'
  | decide {m m' : Match} {db1 db' : Db} (here : db.match? m.id = some m) (own : scope m.id)
      (step : Decides organizer m m') (saves : Saves db m m' db1) (advanced : Advanced m' db1 db') :
      Change organizer scope db db'
  | duel {m : Match} {db' : Db} (quick : m.tournament = none) (next : m.nextMatch = none)
      (loser : m.loserNextMatch = none) (games : m.games = .empty) (wins : m.wins = .both 0)
      (going : m.isOver = false) (fresh : db.nextId ≤ m.id) (below : m.id < db'.nextId)
      (battles : db'.battles = db.battles.add m) (tournaments : db'.tournaments = db.tournaments)
      (logs : Logs db db') : Change organizer scope db db'
  | bracket {d : BracketPlan} {t : Tournament} {db' : Db} (fits : d.Fits)
      (here : db.tournament? d.tournament.id = some t) (draft : t.status = .draft)
      (base : d.base = db.nextId)
      (unplayed : ∀ m ∈ db.battles.rows, m.tournament = some d.tournament.id → m.started = false)
      (battles : db'.battles =
        d.allMatches.foldl Table.add (db.battles.filter fun m => m.tournament ≠ some d.tournament.id))
      (tournaments : db'.tournaments = db.tournaments)
      (nextId : db'.nextId = db.nextId + d.allMatches.length) (logs : Logs db db') :
      Change organizer scope db db'
  | tournament {t t' : Tournament} {db' : Db} (here : db.tournament? t.id = some t) (id : t'.id = t.id)
      (status : t'.status = t.status ∨ (t.status = .finished ∧ t'.status = .archived))
      (seeded : t.Seeded → t'.Seeded) (battles : db'.battles = db.battles)
      (tournaments : db'.tournaments = db.tournaments.put t') (logs : Logs db db') :
      Change organizer scope db db'
  | newTournament {t : Tournament} {db' : Db} (status : t.status = .draft) (seeded : t.Seeded)
      (fresh : db.nextId ≤ t.id) (below : t.id < db'.nextId) (battles : db'.battles = db.battles)
      (tournaments : db'.tournaments = db.tournaments.add t) (logs : Logs db db') :
      Change organizer scope db db'
  | other {db' : Db} (battles : db'.battles = db.battles) (tournaments : db'.tournaments = db.tournaments)
      (logs : Logs db db') : Change organizer scope db db'

/-- A sequence of changes. -/
abbrev Path (organizer : Bool) (scope : MatchId → Prop) : Db → Db → Prop :=
  Relation.ReflTransGen (Change organizer scope)

/-! ## The four special requests -/

/-- `set_round`: the undecided matches of the round get the length, whatever their score. A round some of whose
    games were started only gets the length it already has. -/
structure SetsLength (id : TournamentId) (number bestOf : ℕ) (db db' : Db) : Prop where
  round : ∃ row round, db.tournament? id = some row ∧ row.round? number = some round ∧
    (bestOf ≠ round.bestOf → ∀ m ∈ db.battles.rows, m.tournament = some id → m.round = some number →
      m.started = false)
  battles : db'.battles = db.battles.modify (inRound id number) ({ · with bestOf }) fun _ => rfl
  tournaments : db'.tournaments = db.tournaments
  logs : Logs db db'

/-- `replace_player`: another player takes a slot. -/
structure Replaces (id : MatchId) (slot : Slot) (profile : ProfileId) (m : Match) (db db' : Db) : Prop where
  here : db.match? id = some m
  going : m.isOver = false
  unplayed : m.started = false
  battles : ∃ display, db'.battles = db.battles.put (m.replace slot profile display)
  tournaments : db'.tournaments = db.tournaments
  logs : Logs db db'

/-- A finished tournament goes on while a winner is corrected. -/
inductive Reopened (id : TournamentId) (db : Db) : Db → Prop
  | reopened {t t' : Tournament} {db' : Db} (here : db.tournament? id = some t) (status : t.status = .finished)
      (after : t'.status = .running) (sameId : t'.id = t.id) (players : t'.participants = t.participants)
      (battles : db'.battles = db.battles) (tournaments : db'.tournaments = db.tournaments.put t')
      (logs : Logs db db') : Reopened id db db'
  | same (going : ∀ t, db.tournament? id = some t → t.status ≠ .finished) : Reopened id db db

/-- `set_winner`: the other player of a decided match goes on instead. -/
structure Corrects (id : MatchId) (slot : Slot) (m : Match) (db db' : Db) : Prop where
  here : db.match? id = some m
  decided : m.status = .decided
  seated : (m.players.get slot).isSome
  moved : ∃ t db1 now, m.tournament = some t ∧ Reopened t (db.putMatch (m.correct slot now)) db1 ∧
    Advanced (m.correct slot now) db1 db'

/-- `start_tournament`. -/
structure Begins (id : TournamentId) (t : Tournament) (db db' : Db) : Prop where
  here : db.tournament? id = some t
  draft : t.status = .draft
  battles : db'.battles = db.battles
  tournaments : ∃ t', db'.tournaments = db.tournaments.put t' ∧ t'.id = t.id ∧ t'.status = .running ∧
    t'.participants = t.participants
  logs : Logs db db'

/-- The part of an operation that is not made of changes. -/
def Op.special (op : Op) (db db' : Db) : Prop :=
  match op with
  | .organize _ (.onTournament id _ (.round number (some bestOf) _ _ _)) => SetsLength id number bestOf db db'
  | .organize _ (.onMatch id _ (.replace slot (some profile) _)) => ∃ m, Replaces id slot profile m db db'
  | .organize _ (.onMatch id _ (.setWinner slot)) => ∃ m, Corrects id slot m db db'
  | .organize _ (.onTournament id _ .start) => ∃ t, Begins id t db db'
  | _ => db' = db

end Arena
end CpcJudge
