import CpcJudge.Arena.Secrets

/-!
# `Arena.History` — the public page of a tournament

`page` of `judge/arena/history.py`: who played whom, how each battle and each game ended, the podium and the standings,
for anybody who looks. It never shows what was sent to a game, nor the problems of a game that has not ended; those of
a game that did are named once the tournament is over, and only to who may open them on the site.
`history_keeps_secrets` says so: two states of the tables that differ in nothing else give the same page, and the same
bracket next to it.
-/

namespace CpcJudge
open Ranking (sortBy sortBy_map)

namespace Arena
namespace History

open Scoring (Reason SummaryRow round3 totalSeconds)

/-! ## What the page reads besides the tables -/

/-- What the page reads besides the tables. `accessible` is `is_accessible_by` of who looks, and `code` what the address
    of a problem is made of. -/
structure Viewed where
  now : Time
  site : Site
  gravatar : ProfileId → ℕ → String := fun _ _ => ""
  code : ProblemId → String := fun _ => ""
  accessible : ProblemId → Bool := fun _ => true

/-- `UPCOMING_GRACE`. -/
def upcomingGrace : Time := minutes (12 * 60)

/-- `STARTED`. -/
def started : TournamentStatus → Bool
  | .running | .finished | .archived => true
  | .draft => false

/-- `OVER`. -/
def isOver : TournamentStatus → Bool
  | .finished | .archived => true
  | _ => false

/-- `AVATAR`. -/
def avatar : ℕ := 64

/-! ## How a game and a battle ended -/

/-- `%02d`. -/
def twoDigits (n : ℤ) : String := if n < 10 then "0" ++ toString n else toString n

/-- `_clock`. -/
def clock : Option ℚ → String
  | none => ""
  | some seconds =>
    let seconds := Decimal.truncate seconds
    let hours := seconds / 3600
    let rest := seconds % 3600
    if hours ≠ 0 then toString hours ++ ":" ++ twoDigits (rest / 60) ++ ":" ++ twoDigits (rest % 60)
    else toString (rest / 60) ++ ":" ++ twoDigits (rest % 60)

/-- `game_reason`. -/
def gameReason (g : Game) (winner loser : String) : String :=
  if g.status = .tie then "Tie: another game was played to break it."
  else if g.status = .cancelled then "Voided by the organizer: it did not count."
  else if g.status.active then "Being played now."
  else match g.reason with
    | some .allSolved => winner ++ " solved every problem first."
    | some .unreachable => loser ++ " could no longer catch up with " ++ winner ++ "."
    | some .morePoints => winner ++ " had more points when time ran out."
    | some .earlier => "Same points, but " ++ winner ++ " got there first."
    | some .organizer => "The organizer gave this game to " ++ winner ++ "."
    | none => winner ++ " won."

/-- `match_reason`. -/
def matchReason (m : Match) (winner loser : String) : String :=
  if m.status = .cancelled then "Cancelled by the organizer."
  else if m.status ≠ .decided then ""
  else if m.decidedReason = some .bye then
    winner ++ " went straight to the next round: there was nobody to play against."
  else if m.decidedReason = some .walkover then
    winner ++ " won without playing on: " ++ loser ++ " did not show up or withdrew."
  else if m.decidedReason = some .organizer then
    "The organizer decided this battle in favor of " ++ winner ++ "."
  else if 1 < m.bestOf then
    winner ++ " won the series " ++ toString (max m.wins.a m.wins.b) ++ " to " ++ toString (min m.wins.a m.wins.b) ++ "."
  else ""

/-! ## Problems -/

/-- What one player did on one problem, as `_cell` shows it: the points as a number, which the page writes with `%g`. -/
inductive Cell where
  | blank
  | full (text : String) (attempts : ℕ)
  | scored (points : ℚ) (text : String) (attempts : ℕ)
  | failed (attempts : ℕ)
  deriving DecidableEq, Repr

/-- `_cell`. -/
def cell : Option SummaryRow → Cell
  | none => .blank
  | some row =>
    if row.full then .full (clock row.solvedAt) row.attempts
    else if 0 < row.best then .scored (round3 row.best) (clock row.bestAt) row.attempts
    else if row.attempts ≠ 0 then .failed row.attempts
    else .blank

/-- A problem of a game that ended. -/
structure ProblemLine where
  label : String
  name : String
  url : String
  points : ℕ
  cells : Pair Cell
  deriving DecidableEq, Repr

/-- The result saved with a game, of a player on a problem. -/
def resultCell (g : Game) (slot : Slot) (order : ℕ) : Cell :=
  cell (g.result.bind fun result => (result.get slot).problems.lookup order)

/-- A row of `_problem_rows`. -/
def problemLine (viewed : Viewed) (reveal : Bool) (g : Game) (gp : GameProblem) : ProblemLine :=
  let named : Bool := reveal && viewed.accessible gp.problem
  { label := Serialize.label gp.order
    name := if named then viewed.site.problemName gp.problem else ""
    url := if named then "/problem/" ++ viewed.code gp.problem else ""
    points := gp.points
    cells := ⟨resultCell g .a gp.order, resultCell g .b gp.order⟩ }

/-- `_problem_rows`. The problems of the games that ended come by order. -/
def problemLines (viewed : Viewed) (reveal : Bool) (g : Game) : List ProblemLine :=
  (sortBy GameProblem.order g.problems).map (problemLine viewed reveal g)

/-! ## Games -/

/-- A game of the page. -/
structure GameView where
  number : ℕ
  status : GameStatus
  live : Bool
  winner : Option Slot
  reason : String
  length : String
  score : Option (Pair ℚ)
  problems : List ProblemLine
  deriving DecidableEq, Repr

/-- How long a game lasted. -/
def gameLength (g : Game) : Option ℚ :=
  match g.startedAt, g.closedAt <|> g.finishedAt with
  | some start, some stop => if Serialize.done g.status then some (max (totalSeconds (stop - start)) 0) else none
  | _, _ => none

/-- `_game_view`. -/
def gameView (viewed : Viewed) (reveal : Bool) (m : Match) (g : Game) : GameView where
  number := g.number
  status := g.status
  live := g.status.active
  winner := g.winnerSlot
  reason := gameReason g ((g.winnerSlot.map (shownName viewed.site m)).getD "")
    ((g.winnerSlot.map fun w => shownName viewed.site m w.other).getD "")
  length := clock (gameLength g)
  score := if g.status = .finished ∨ g.status = .tie then
      g.result.map fun result => ⟨round3 result.a.score, round3 result.b.score⟩
    else none
  problems := if Serialize.done g.status ∧ g.status ≠ .cancelled then problemLines viewed reveal g else []

/-! ## Battles -/

/-- `_player`. -/
structure Player extends PlayerView where
  avatar : String
  deriving DecidableEq, Repr

def player (viewed : Viewed) (m : Match) (slot : Slot) : Option Player :=
  (playerView viewed.site m slot).map fun view => { view with avatar := viewed.gravatar view.profile avatar }

/-- A battle of the page. -/
structure BattleView where
  id : MatchId
  anchor : String
  round : String
  group : ℕ × Bool
  bye : Bool
  status : MatchStatus
  live : Bool
  bestOf : ℕ
  players : Pair (Option Player)
  wins : Pair ℕ
  winner : Option Slot
  reason : String
  games : List GameView
  deriving DecidableEq, Repr

/-- The games that are read: never those prepared. -/
def gamesRead (m : Match) : List Game := sortBy Game.number (m.games.rows.filter (·.status ≠ .prepared))

def battleView (viewed : Viewed) (reveal : Bool) (t : Tournament) (m : Match) : BattleView where
  id := m.id
  anchor := "batalla-" ++ toString m.id
  round := roundShown t m
  group := (m.round.getD 0, m.isThirdPlace)
  bye := m.decidedReason = some .bye
  status := m.status
  live := (gamesRead m).any (·.status.active)
  bestOf := m.bestOf
  players := ⟨player viewed m .a, player viewed m .b⟩
  wins := m.wins
  winner := m.winnerSlot
  reason := matchReason m ((m.winnerSlot.map (shownName viewed.site m)).getD "")
    ((m.winnerSlot.map fun w => shownName viewed.site m w.other).getD "")
  games := (gamesRead m).map (gameView viewed reveal m)

/-- `_matches`, as the page shows them. -/
def battleViews (viewed : Viewed) (db : Db) (t : Tournament) : List BattleView :=
  (sortBy Match.shownOrder (battlesOf db t.id)).map (battleView viewed (isOver t.status) t)

/-! ## The page -/

/-- What the page of a tournament that started shows besides. -/
structure Results where
  format : List (String × ℕ)
  rounds : List (String × List BattleView)
  podium : Option Podium
  standings : Option (List Standing)
  deriving DecidableEq

structure Page where
  tournament : Tournament
  started : Bool
  isOver : Bool
  live : Bool
  participants : ℕ
  upcoming : Bool
  results : Option Results
  deriving DecidableEq

/-- The battles by round, and the match for third place by itself. -/
def grouped (rounds : List Round) (views : List BattleView) : List (String × List BattleView) :=
  let groups := rounds.map (fun r => (r.number, false)) ++ [(rounds.length, true)]
  groups.filterMap fun group =>
    let inside := views.filter (·.group = group)
    inside.head?.map fun first => (first.round, inside)

def results (viewed : Viewed) (db : Db) (t : Tournament) : Results :=
  let rounds := sortBy Round.number t.rounds
  let views := matchViews viewed.site db t
  { format := rounds.map fun r => (roundName r rounds.length, r.bestOf)
    rounds := grouped rounds (battleViews viewed db t)
    podium := podium views
    standings := if isOver t.status ∧ (podium views).isSome then some (standings viewed.site t views) else none }

/-- `page`. -/
def page (viewed : Viewed) (db : Db) (t : Tournament) : Page where
  tournament := t
  started := started t.status
  isOver := isOver t.status
  live := t.status = .running
  participants := t.participants.length
  upcoming := !started t.status && t.plannedAt.any (viewed.now - upcomingGrace ≤ ·)
  results := if started t.status then some (results viewed db t) else none

/-! ## What may not be told -/

/-- A game whose problems the page lists. -/
def listed (g : Game) : Bool := g.status = .finished || g.status = .tie

/-- The same problem, or two problems that are not named, in the same place and for the same points. -/
structure Veiled (named : ProblemId → Bool) (gp gp' : GameProblem) : Prop where
  order : gp'.order = gp.order
  points : gp'.points = gp.points
  problem : gp'.problem ≠ gp.problem → named gp.problem = false ∧ named gp'.problem = false

/-- The same game for who looks at the page, whatever was sent to it: if its problems are listed, those that are not
    named may be others, and if not all of them may. -/
structure Whispered (named : ProblemId → Bool) (g g' : Game) : Prop where
  same : g' = { g with problems := g'.problems, contest := g'.contest }
  problems : listed g = true → List.Forall₂ (Veiled named) g.problems g'.problems

/-- Whether the page of a tournament names a problem. -/
def named (viewed : Viewed) (t : Tournament) (problem : ProblemId) : Bool :=
  isOver t.status && viewed.accessible problem

/-- A problem that is not named, if there are any. -/
noncomputable def nameless (named : ProblemId → Bool) : ProblemId := Classical.epsilon fun problem => named problem = false

/-- A problem, or another one in its place if it is not named. -/
noncomputable def hideName (named : ProblemId → Bool) (gp : GameProblem) : GameProblem :=
  { gp with problem := if named gp.problem then gp.problem else nameless named }

/-- What is left of a game for who looks at the page. -/
noncomputable def glimpse (named : ProblemId → Bool) (g : Game) : Glimpse where
  problems := if listed g then g.problems.map (hideName named) else []
  contest := none

section
variable {names : ProblemId → Bool} {gp gp' : GameProblem} {g g' : Game} {m : Match} {db : Db} {t : Tournament}
  {viewed : Viewed} {hide : Game → Glimpse} {slot : Slot}

theorem named_nameless {problem : ProblemId} (h : names problem = false) : names (nameless names) = false :=
  Classical.epsilon_spec (p := fun problem => names problem = false) ⟨problem, h⟩

theorem Veiled.hideName_eq (h : Veiled names gp gp') : hideName names gp' = hideName names gp := by
  obtain ⟨problem, order, points⟩ := gp
  obtain ⟨problem', order', points'⟩ := gp'
  obtain ⟨rfl, rfl, hproblem⟩ := h
  by_cases heq : problem' = problem
  · rw [heq]
  · obtain ⟨hhidden, hhidden'⟩ := hproblem heq
    show GameProblem.mk (if names problem' then _ else _) _ _ = .mk (if names problem then _ else _) _ _
    rw [if_neg (by simp [hhidden']), if_neg (by simp [hhidden])]

theorem map_hideName_eq {problems problems' : List GameProblem} (h : List.Forall₂ (Veiled names) problems problems') :
    problems'.map (hideName names) = problems.map (hideName names) := by
  induction h with
  | nil => rfl
  | cons hgp _ ih => exact congrArg₂ List.cons hgp.hideName_eq ih

theorem Whispered.veil_eq (h : Whispered names g g') : g'.veil (glimpse names) = g.veil (glimpse names) := by
  have hlisted : listed g' = listed g := by rw [h.same]; rfl
  have hglimpse : glimpse names g' = glimpse names g := by
    rw [glimpse, glimpse, hlisted]
    split
    · next hended => rw [map_hideName_eq (h.problems hended)]
    · rfl
  rw [Game.veil, hglimpse, h.same]
  rfl

/-! ## The page behind the veil -/

theorem gamesRead_veil : gamesRead (m.veil hide) = (gamesRead m).map (Game.veil hide) := by
  unfold gamesRead
  rw [games_veil, List.filter_map, sortBy_map Game.number _ fun _ => rfl]
  rfl

theorem problemLine_veil : problemLine viewed (isOver t.status) (g.veil hide) (hideName (named viewed t) gp) =
    problemLine viewed (isOver t.status) g gp := by
  unfold problemLine hideName
  by_cases hnamed : named viewed t gp.problem = true
  · rw [if_pos hnamed]
    rfl
  · rw [if_neg hnamed]
    have hhidden : (isOver t.status && viewed.accessible gp.problem) = false := Bool.eq_false_iff.mpr hnamed
    have hnameless : (isOver t.status && viewed.accessible (nameless (named viewed t))) = false :=
      @named_nameless (named viewed t) _ hhidden
    simp only [hhidden, hnameless]
    rfl

theorem problemLines_veil (h : listed g = true) :
    problemLines viewed (isOver t.status) (g.veil (glimpse (named viewed t))) =
      problemLines viewed (isOver t.status) g := by
  have hproblems : (g.veil (glimpse (named viewed t))).problems = g.problems.map (hideName (named viewed t)) := by
    show (if listed g then _ else _) = _
    rw [if_pos h]
  rw [problemLines, hproblems, sortBy_map GameProblem.order _ fun _ => rfl, List.map_map]
  exact List.map_congr_left fun gp _ => problemLine_veil

theorem gameView_veil : gameView viewed (isOver t.status) (m.veil hide) (g.veil (glimpse (named viewed t))) =
    gameView viewed (isOver t.status) m g := by
  have hproblems : (if Serialize.done g.status ∧ g.status ≠ .cancelled then
        problemLines viewed (isOver t.status) (g.veil (glimpse (named viewed t))) else []) =
      if Serialize.done g.status ∧ g.status ≠ .cancelled then problemLines viewed (isOver t.status) g else [] := by
    split
    · next hdone => 
      have hlisted : listed g = true := by
        obtain ⟨hdone, hcancelled⟩ := hdone
        unfold listed
        cases hstatus : g.status <;> simp_all [Serialize.done]
      rw [problemLines_veil hlisted]
    · rfl
  show GameView.mk _ _ _ _ _ _ _ (if Serialize.done g.status ∧ g.status ≠ .cancelled then _ else _) = _
  rw [hproblems]
  rfl

theorem battleView_veil : battleView viewed (isOver t.status) t (m.veil (glimpse (named viewed t))) =
    battleView viewed (isOver t.status) t m := by
  have hgames : (gamesRead (m.veil (glimpse (named viewed t)))).map
      (gameView viewed (isOver t.status) (m.veil (glimpse (named viewed t)))) =
        (gamesRead m).map (gameView viewed (isOver t.status) m) := by
    rw [gamesRead_veil, List.map_map]
    exact List.map_congr_left fun g _ => gameView_veil
  have hlive : (gamesRead (m.veil (glimpse (named viewed t)))).any (·.status.active) =
      (gamesRead m).any (·.status.active) := by
    rw [gamesRead_veil, List.any_map]
    rfl
  unfold battleView
  rw [hgames, hlive]
  rfl

theorem battleViews_veil : battleViews viewed (db.veil (glimpse (named viewed t))) t = battleViews viewed db t := by
  rw [battleViews, battlesOf_veil, sortBy_map Match.shownOrder _ fun _ => rfl, List.map_map]
  exact List.map_congr_left fun m _ => battleView_veil

theorem page_veil : page viewed (db.veil (glimpse (named viewed t))) t = page viewed db t := by
  have hresults : results viewed (db.veil (glimpse (named viewed t))) t = results viewed db t := by
    simp only [results, battleViews_veil, matchViews_veil, podium_veil, standings_veil]
  unfold page
  rw [hresults]

end

/-- Nobody who looks at the page of a tournament, or at the bracket next to it, tells apart two states of the tables
    that differ in what was sent to the games, in the problems of those that are not listed, and in which problems
    are the ones that are not named. -/
theorem history_keeps_secrets {viewed : Viewed} {db db' : Db} {t : Tournament} {shown : Serialize.Page}
    (h : db.Resembles (Whispered (named viewed t)) db') :
    page viewed db' t = page viewed db t ∧ Serialize.bracketView shown db' t = Serialize.bracketView shown db t := by
  have hveil := h.veil_eq fun _ _ hg => hg.veil_eq
  constructor
  · rw [← page_veil, hveil, page_veil]
  · rw [← Serialize.bracketView_veil, hveil, Serialize.bracketView_veil]

/-! A tournament being played: the first battle has ended, and the game after it is prepared. -/

def reading : Viewed where
  now := 100
  site := { now := 100 }

def semifinals : Tournament where
  id := 1
  name := "Duels"
  status := .running
  participants := [⟨1, 1⟩, ⟨2, 2⟩]
  rounds := [{ number := 1 }]

def toldGame (problem : ProblemId) (contest : Contest) : Game where
  id := 3
  number := 1
  status := .finished
  problems := [⟨problem, 0, 100⟩]
  contest := some contest
  startedAt := some 0
  winnerSlot := some .a

def untoldGame (problems : List GameProblem) : Game where
  id := 4
  number := 2
  problems := problems

def toldMatch (problem : ProblemId) (contest : Contest) (problems : List GameProblem) : Match where
  id := 2
  tournament := some 1
  round := some 1
  players := ⟨some 1, some 2⟩
  status := .playing
  bestOf := 3
  games := ⟨[toldGame problem contest, untoldGame problems], by simp [Keyed.key, toldGame, untoldGame]⟩

def toldDb (problem : ProblemId) (contest : Contest) (problems : List GameProblem) : Db where
  tournaments := ⟨[semifinals], List.nodup_singleton _⟩
  battles := ⟨[toldMatch problem contest problems], List.nodup_singleton _⟩
  nextId := 5

theorem toldDb_resembles {problem problem' : ProblemId} {contest contest' : Contest}
    {problems problems' : List GameProblem} :
    (toldDb problem contest problems).Resembles (Whispered (named reading semifinals))
      (toldDb problem' contest' problems') where
  same := rfl
  battles := by
    refine ⟨fun _ => toldMatch problem' contest' problems', rfl, ?_⟩
    intro m hm
    obtain rfl := List.mem_singleton.mp hm
    refine ⟨rfl, rfl, ⟨fun g => if g.id = 3 then toldGame problem' contest' else untoldGame problems', rfl, ?_⟩⟩
    intro g hg
    rcases List.mem_cons.mp hg with rfl | hg
    · exact ⟨rfl, rfl, fun _ => .cons ⟨rfl, rfl, fun _ => ⟨rfl, rfl⟩⟩ .nil⟩
    · obtain rfl := List.mem_singleton.mp hg
      exact ⟨rfl, rfl, fun hlisted => by cases hlisted⟩

theorem history_keeps_secrets_running :
    page reading (toldDb 8 ⟨500, .both []⟩ [⟨9, 0, 50⟩]) semifinals =
        page reading (toldDb 7 ⟨400, .both []⟩ []) semifinals ∧
      Serialize.bracketView Serialize.hiddenPage (toldDb 8 ⟨500, .both []⟩ [⟨9, 0, 50⟩]) semifinals =
        Serialize.bracketView Serialize.hiddenPage (toldDb 7 ⟨400, .both []⟩ []) semifinals :=
  history_keeps_secrets toldDb_resembles

end History
end Arena
end CpcJudge
