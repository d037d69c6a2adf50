import CpcJudge.Arena.Serialize
import CpcJudge.Arena.Veil

/-!
# `Arena.Secrets` — the problems of a game not started stay secret

Two states of the tables that differ only in the problems of the games not started give the players and the screens
the same pages: a page reads of those problems only whether there are any.
-/

namespace CpcJudge
open Ranking (sortBy sortBy_map)

namespace Arena

/-! ## Games not started -/

/-- A game not started: prepared, in its countdown, or voided before its start. -/
def Game.secret (now : Time) (g : Game) : Bool :=
  g.status = .prepared || (g.status = .countdown && g.startedAt.all (now < ·)) || g.unseen

/-- The same game, maybe with other problems if it has not started: some before and some after. -/
structure Game.Disguised (now : Time) (g g' : Game) : Prop where
  same : g' = { g with problems := g'.problems }
  secret : g'.problems ≠ g.problems → g.secret now = true ∧ g.problems ≠ [] ∧ g'.problems ≠ []

/-- What is left of the problems of a game: a mark if there are any. -/
def marked (problems : List GameProblem) : List GameProblem := if problems = [] then [] else [⟨0, 0, 0⟩]

/-- What the players may read of a game. -/
def unhidden (now : Time) (g : Game) : Glimpse where
  problems := if g.secret now then marked g.problems else g.problems
  contest := g.contest

theorem marked_isEmpty (problems : List GameProblem) : (marked problems).isEmpty = problems.isEmpty := by
  unfold marked
  split
  · next h => rw [h]
  · next h => rw [Bool.eq_iff_iff, List.isEmpty_iff, List.isEmpty_iff]; simp [h]

theorem marked_eq {problems problems' : List GameProblem} (h : problems ≠ []) (h' : problems' ≠ []) :
    marked problems' = marked problems := by
  rw [marked, marked, if_neg h, if_neg h']

theorem Game.Disguised.veil_eq {now : Time} {g g' : Game} (h : g.Disguised now g') :
    g'.veil (unhidden now) = g.veil (unhidden now) := by
  have hsecret : g'.secret now = g.secret now := by rw [h.same]; rfl
  have hcontest : g'.contest = g.contest := by rw [h.same]
  have hglimpse : unhidden now g' = unhidden now g := by
    rw [unhidden, unhidden, hsecret, hcontest]
    by_cases hsame : g'.problems = g.problems
    · rw [hsame]
    · obtain ⟨hhidden, hsome, hsome'⟩ := h.secret hsame
      rw [if_pos hhidden, if_pos hhidden, marked_eq hsome hsome']
  rw [Game.veil, hglimpse, h.same]
  rfl

namespace Serialize

/-- What the page may read of a game. -/
abbrev Page.hide (page : Page) : Game → Glimpse := unhidden page.told

variable {page : Page} {db : Db} {m : Match} {g : Game} {now : Time} {slot : Slot} {profile : ProfileId}
  {hide : Game → Glimpse}

/-! ## Games behind the veil -/

theorem not_secret_of_started (h : started g now = true) : g.secret now = false := by
  simp only [started, Bool.and_eq_true, Option.any_eq_true, decide_eq_true_eq, Bool.not_eq_true'] at h
  obtain ⟨⟨⟨moment, hmoment, hle⟩, hprepared⟩, hseen⟩ := h
  have hcountdown : g.startedAt.all (now < ·) = false := by
    rw [hmoment, Option.all_some, decide_eq_false_iff_not]
    exact not_lt.mpr hle
  simp [Game.secret, hprepared, hseen, hcountdown]

theorem veil_of_started (h : started g now = true) : g.veil (unhidden now) = g := by
  rw [Game.veil, unhidden, not_secret_of_started h]
  rfl

theorem veil_problems_isEmpty : (g.veil (unhidden now)).problems.isEmpty = g.problems.isEmpty := by
  simp only [Game.veil, unhidden]
  split
  · exact marked_isEmpty _
  · rfl

theorem gamesOf_veil : gamesOf (m.veil hide) = (gamesOf m).map (Game.veil hide) :=
  sortBy_map Game.number _ (fun _ => rfl) _

theorem currentGames_veil : currentGames (m.veil hide) =
    { games := (currentGames m).games.map (Game.veil hide)
      active := (currentGames m).active.map (Game.veil hide)
      lastDone := (currentGames m).lastDone.map (Game.veil hide)
      prepared := (currentGames m).prepared.map (Game.veil hide) } := by
  unfold currentGames
  rw [gamesOf_veil, List.find?_map, List.filter_map, List.getLast?_map, List.find?_map]
  rfl

theorem shown_veil : (currentGames (m.veil hide)).shown = (currentGames m).shown.map (Game.veil hide) := by
  rw [currentGames_veil]
  simp only [CurrentGames.shown]
  cases (currentGames m).active
  · rfl
  · rfl

theorem phase_veil : phase (m.veil hide) = phase m := by
  unfold phase
  rw [currentGames_veil]
  cases (currentGames m).active
  · cases (currentGames m).lastDone
    · rfl
    · rfl
  · rfl

theorem lockUntil_veil {settings : Settings} {games : List Game} :
    lockUntil settings (m.veil hide) (games.map (Game.veil hide)) = lockUntil settings m games := by
  rw [lockUntil, lockUntil, List.flatMap_map]
  rfl

theorem series_veil {α : Type} {who : Slot → α} {games : List Game} :
    series who (m.veil (unhidden now)) (games.map (Game.veil (unhidden now))) = series who m games := by
  simp only [series, List.filter_map, List.map_map, Function.comp_def, veil_problems_isEmpty]
  rfl

/-! ## The page of a player -/

theorem gameRules_veil : gameRules (db.veil hide) (m.veil hide) g = gameRules db m g := by
  rw [gameRules, matchRules_veil, gameRules]

theorem gameHead_veil :
    gameHead page (db.veil hide) (m.veil hide) (g.veil hide) slot = gameHead page db m g slot := by
  have hrules : gameRules db m (g.veil hide) = gameRules db m g := rfl
  rw [gameHead, gameRules_veil, hrules]
  rfl

theorem gameBody_veil : gameBody page (db.veil hide) (m.veil hide) g slot = gameBody page db m g slot := by
  simp only [gameBody, verdicts, gameRules_veil]

theorem playerGame_veil :
    playerGame page (db.veil page.hide) (m.veil page.hide) (g.veil page.hide) slot = playerGame page db m g slot := by
  have hstarted : started (g.veil page.hide) page.told = started g page.told := rfl
  unfold playerGame
  rw [hstarted]
  split
  · next h => rw [veil_of_started h, gameBody_veil, gameHead, gameRules_veil, gameHead]
  · rw [gameHead_veil]

theorem shownGame_veil :
    shownGame page (db.veil page.hide) (m.veil page.hide) slot = shownGame page db m slot := by
  unfold shownGame
  rw [shown_veil, currentGames_veil]
  cases (currentGames m).shown with
  | some g => exact congrArg (Except.map some) playerGame_veil
  | none =>
      cases (currentGames m).prepared
      · rfl
      · rfl

theorem playerCard_veil {size : ℕ} : playerCard page (m.veil hide) slot size = playerCard page m slot size := rfl

theorem roundLabel_veil : roundLabel (db.veil hide) (m.veil hide) = roundLabel db m := rfl

theorem battleSummary_veil :
    battleSummary page (db.veil hide) (m.veil hide) profile = battleSummary page db m profile := rfl

theorem playerPage_veil :
    playerPage page (db.veil page.hide) (m.veil page.hide) profile slot = playerPage page db m profile slot := by
  simp only [playerPage, shownGame_veil, phase_veil, lockUntil_veil, gamesOf_veil, series_veil, playerCard_veil,
    roundLabel_veil, tournamentOf_veil, battleSummary_veil, ownAccount]
  rfl

/-- Rows rewritten under the same keys have the same latest one. -/
theorem latest_map {α κ : Type} [LinearOrder κ] (f : α → α) (key : α → κ) (h : ∀ x, key (f x) = key x)
    (rows : List α) : latest key (rows.map f) = (latest key rows).map f := by
  have hkey : ∀ x, OrderDual.toDual (key (f x)) = OrderDual.toDual (key x) := fun x => by rw [h]
  have hsort : sortBy (fun row => OrderDual.toDual (key row)) (rows.map f) =
      (sortBy (fun row => OrderDual.toDual (key row)) rows).map f := sortBy_map _ f hkey rows
  rw [latest, hsort, List.head?_map, latest]

/-- The latest of the rows of the table that satisfy `p`, neither of which depends on the problems. -/
theorem latest_veil {κ : Type} [LinearOrder κ] {key : Match → κ} {p : Match → Bool}
    (hkey : ∀ m : Match, key (m.veil hide) = key m) (hp : ∀ m : Match, p (m.veil hide) = p m) :
    latest key ((db.veil hide).battles.rows.filter p) =
      (latest key (db.battles.rows.filter p)).map (Match.veil hide) := by
  rw [rows_veil, List.filter_map, show p ∘ Match.veil hide = p from funext hp, latest_map _ _ hkey]

theorem playerMatch_veil {asked : Time} :
    playerMatch (db.veil hide) profile asked = (playerMatch db profile asked).map (Match.veil hide) := by
  unfold playerMatch activeMatchFor
  rw [latest_veil (fun _ => rfl) fun _ => rfl, latest_veil (fun _ => rfl) fun _ => rfl]
  cases latest (fun m => toLex (sorted m.calledAt, m.id))
      (db.battles.rows.filter fun m => m.status.locking && plays profile m)
  · rfl
  · rfl

/-! ## The page of a screen -/

theorem bracketMatch_veil : bracketMatch page (m.veil hide) = bracketMatch page m := by
  rw [bracketMatch, inPlay_veil]
  rfl

theorem bracketMatches_veil {t : Tournament} :
    bracketMatches (db.veil hide) t = (bracketMatches db t).map (Match.veil hide) := by
  have hsort : sortBy Match.shownOrder ((battlesOf db t.id).map (Match.veil hide)) =
      (sortBy Match.shownOrder (battlesOf db t.id)).map (Match.veil hide) := sortBy_map _ _ (fun _ => rfl) _
  rw [bracketMatches, battlesOf_veil, hsort, bracketMatches]

theorem bracketFinal_veil {t : Tournament} :
    bracketFinal (db.veil hide) t = (bracketFinal db t).map (Match.veil hide) := by
  rw [bracketFinal, bracketMatches_veil, List.find?_map]
  rfl

theorem bracketView_veil {t : Tournament} : bracketView page (db.veil hide) t = bracketView page db t := by
  unfold bracketView
  rw [bracketFinal_veil, bracketMatches_veil]
  simp only [List.filter_map, List.map_map, Function.comp_def, bracketMatch_veil]
  congr 1
  cases bracketFinal db t
  · rfl
  · rfl

theorem profileContends_veil {t : Tournament} :
    profileContends (db.veil hide) profile t = profileContends db profile t := by
  rw [profileContends, battlesOf_veil, List.any_map]
  rfl

theorem heldByAPlayer_veil {screen : Screen} :
    heldByAPlayer page (db.veil hide) screen (m.veil hide) = heldByAPlayer page db screen m := by
  have hrules : ((currentGames m).shown.map (Game.veil hide)).map (gameRules (db.veil hide) (m.veil hide)) =
      (currentGames m).shown.map (gameRules db m) := by
    rw [Option.map_map]
    exact congrArg (Option.map · _) (funext fun _ => gameRules_veil)
  rw [heldByAPlayer, shown_veil, hrules]
  rfl

theorem held_veil {screen : Screen} : held page (db.veil hide) screen (m.veil hide) = held page db screen m := by
  rw [held, tournamentOf_veil, heldByAPlayer_veil, held]
  cases screen.createdBy with
  | none => rfl
  | some creator =>
      cases tournamentOf db m with
      | none => rfl
      | some t => exact congrArg (· || _) profileContends_veil

theorem liveMatch_veil {t : TournamentId} :
    liveMatch (db.veil hide) t = (liveMatch db t).map (Match.veil hide) := by
  have hrows : ((battlesOf db t).map (Match.veil hide)).flatMap
        (fun m => (m.games.rows.filter (·.status.active)).map fun g => (m, g)) =
      ((battlesOf db t).flatMap fun m => (m.games.rows.filter (·.status.active)).map fun g => (m, g)).map
        (Prod.map (Match.veil hide) (Game.veil hide)) := by
    rw [List.flatMap_map, List.map_flatMap]
    refine List.flatMap_congr fun m _ => ?_
    rw [games_veil, List.filter_map, List.map_map, List.map_map]
    rfl
  have hlatest := latest_map (Prod.map (Match.veil hide) (Game.veil hide))
    (fun row : Match × Game => sorted row.2.startedAt) fun _ => rfl
  rw [liveMatch, battlesOf_veil, hrows, hlatest, Option.map_map, liveMatch, Option.map_map]
  rfl

/-- The same target, its battle veiled. -/
def Target.veil (hide : Game → Glimpse) (target : Target) : Target :=
  { target with battle := target.battle.map (Match.veil hide) }

theorem matchTarget_veil {screen : Screen} :
    matchTarget page (db.veil hide) screen (m.veil hide) = (matchTarget page db screen m).veil hide := by
  unfold matchTarget
  rw [held_veil, tournamentOf_veil]
  split
  · rfl
  · cases tournamentOf db m
    · rfl
    · rfl

theorem bracketTarget_veil {screen : Screen} {t : Tournament} :
    bracketTarget page (db.veil hide) screen t = (bracketTarget page db screen t).veil hide := by
  unfold bracketTarget
  rw [liveMatch_veil]
  cases screen.followLive with
  | false => rfl
  | true =>
      cases liveMatch db t.id with
      | none => rfl
      | some m =>
          simp only [if_pos, Option.map_some, held_veil]
          split
          · rfl
          · rfl

theorem screenTarget_veil {screen : Screen} :
    screenTarget page (db.veil hide) screen = (screenTarget page db screen).veil hide := by
  have hmatch : screen.match.bind (db.veil hide).match? = (screen.match.bind db.match?).map (Match.veil hide) := by
    cases screen.match
    · rfl
    · exact match?_veil
  have htournament : screen.tournament.bind (db.veil hide).tournament? = screen.tournament.bind db.tournament? := rfl
  unfold screenTarget
  rw [hmatch, htournament]
  cases screen.mode with
  | idle => rfl
  | message => rfl
  | battle =>
      cases screen.match.bind db.match? with
      | none => rfl
      | some m => exact matchTarget_veil
  | bracket =>
      cases screen.tournament.bind db.tournament? with
      | none => rfl
      | some t => exact bracketTarget_veil

theorem screenBody_veil : screenBody page (db.veil hide) (m.veil hide) g = screenBody page db m g := by
  simp only [screenBody, verdicts, gameRules_veil]

theorem screenGame_veil :
    screenGame page (db.veil page.hide) (m.veil page.hide) (g.veil page.hide) = screenGame page db m g := by
  have hstarted : started (g.veil page.hide) page.told = started g page.told := rfl
  have hrules : gameRules db m (g.veil page.hide) = gameRules db m g := rfl
  unfold screenGame
  rw [hstarted, gameRules_veil, hrules]
  split
  · next h => rw [veil_of_started h, screenBody_veil]
  · rfl

theorem screenMatch_veil : screenMatch page (db.veil page.hide) (m.veil page.hide) = screenMatch page db m := by
  have hgame : ((currentGames m).shown.map (Game.veil page.hide)).map
      (screenGame page (db.veil page.hide) (m.veil page.hide)) = (currentGames m).shown.map (screenGame page db m) := by
    rw [Option.map_map]
    exact congrArg (Option.map · _) (funext fun _ => screenGame_veil)
  unfold screenMatch
  rw [shown_veil, hgame, currentGames_veil, gamesOf_veil, series_veil, playerCard_veil, playerCard_veil, roundLabel_veil]
  cases (currentGames m).active
  · cases (currentGames m).prepared
    · rfl
    · rfl
  · rfl

/-! ## Both pages -/

/-- The game being played is up to date: asking for its state changes nothing. -/
def Quiet (site : Site) (db : Db) (m : Match) : Prop := ∃ m', tickActive site db m = .ok (db, m')

/-- The match is a row of the tables. -/
theorem Quiet.eq {site : Site} (h : Quiet site db m) (hm : m ∈ db.battles.rows) :
    tickActive site db m = .ok (db, m) := by
  obtain ⟨m', h⟩ := h
  have hrow : db.match? m.id = some m := Table.get?_of_mem hm
  rw [h]
  unfold tickActive at h
  split at h
  · cases h
    rfl
  · split at h
    · cases h
      rw [hrow]
      rfl
    · cases h

theorem mem_latest {α κ : Type} [LinearOrder κ] {key : α → κ} {rows : List α} {row : α}
    (h : latest key rows = some row) : row ∈ rows :=
  (List.mem_insertionSort _).mp (List.mem_of_head? h)

theorem mem_playerMatch {asked : Time} (h : playerMatch db profile asked = some m) : m ∈ db.battles.rows := by
  unfold playerMatch activeMatchFor at h
  simp only [Option.orElse_eq_orElse, Option.orElse_eq_or, Option.or_eq_some_iff] at h
  rcases h with h | ⟨-, h⟩
  · exact List.mem_of_mem_filter (mem_latest h)
  · exact List.mem_of_mem_filter (mem_latest h)

theorem mem_screenTarget {screen : Screen} (h : (screenTarget page db screen).battle = some m) :
    m ∈ db.battles.rows := by
  unfold screenTarget at h
  split at h
  · next hmatch =>
      unfold matchTarget at h
      split at h
      · cases h
        obtain ⟨id, -, hget⟩ := Option.bind_eq_some_iff.mp hmatch
        exact Table.mem_of_get? hget
      · split at h
        · cases h
        · cases h
  · next t _ _ =>
      unfold bracketTarget at h
      split at h
      · next n hlive =>
          split at h
          · cases h
          · cases h
            split at hlive
            · obtain ⟨row, hrow, rfl⟩ := Option.map_eq_some_iff.mp hlive
              obtain ⟨n, hn, hpair⟩ := List.mem_flatMap.mp (mem_latest hrow)
              obtain ⟨g, -, rfl⟩ := List.mem_map.mp hpair
              exact List.mem_of_mem_filter hn
            · cases hlive
      · cases h
  · cases h
  · cases h

/-- The answer to a player whose battle is up to date. -/
def playerAnswer (page : Page) (db : Db) (profile : ProfileId) : Option Match → Except Failure PlayerState
  | none => .ok (.idle (stamp page.asked) pollSlow)
  | some m => (playerPage page db m profile ((m.slotOf profile).getD .a)).map .playing

theorem playerAnswer_veil {found : Option Match} :
    playerAnswer page (db.veil page.hide) profile (found.map (Match.veil page.hide)) =
      playerAnswer page db profile found := by
  cases found with
  | none => rfl
  | some m => exact congrArg (Except.map PlayerState.playing) playerPage_veil

theorem playerAnswer_eq {db' : Db} (h : db'.veil page.hide = db.veil page.hide) :
    playerAnswer page db' profile (playerMatch db' profile page.asked) =
      playerAnswer page db profile (playerMatch db profile page.asked) := by
  have hveil (d : Db) : playerAnswer page (d.veil page.hide) profile (playerMatch (d.veil page.hide) profile page.asked) =
      playerAnswer page d profile (playerMatch d profile page.asked) := by
    rw [playerMatch_veil, playerAnswer_veil]
  rw [← hveil db', h, hveil db]

theorem playerState_quiet
    (hquiet : ∀ m, playerMatch db profile page.asked = some m → Quiet page.site db m) :
    playerState page db profile = playerAnswer page db profile (playerMatch db profile page.asked) := by
  unfold playerState
  cases hmatch : playerMatch db profile page.asked with
  | none => rfl
  | some m =>
      have htick := (hquiet m hmatch).eq (mem_playerMatch hmatch)
      simp only [htick]
      rfl

/-- The answer to a screen whose battle is up to date. -/
def screenAnswer (page : Page) (db : Db) (screen : Screen) (target : Target) : ScreenPage :=
  screenPage page db screen target (if target.battle.isSome then page.answered else page.asked)
    (target.battle.map (screenMatch page db))

theorem screenAnswer_veil {screen : Screen} {target : Target} :
    screenAnswer page (db.veil page.hide) screen (target.veil page.hide) = screenAnswer page db screen target := by
  have hbattle : (target.battle.map (Match.veil page.hide)).map (screenMatch page (db.veil page.hide)) =
      target.battle.map (screenMatch page db) := by
    rw [Option.map_map]
    exact congrArg (Option.map · _) (funext fun _ => screenMatch_veil)
  have hbracket : target.tournament.map (bracketView page (db.veil page.hide)) =
      target.tournament.map (bracketView page db) := congrArg (Option.map · _) (funext fun _ => bracketView_veil)
  simp only [screenAnswer, screenPage, Target.veil, Option.isSome_map, hbattle, hbracket]
  rfl

theorem screenAnswer_eq {db' : Db} (h : db'.veil page.hide = db.veil page.hide) {screen : Screen} :
    screenAnswer page db' screen (screenTarget page db' screen) =
      screenAnswer page db screen (screenTarget page db screen) := by
  have hveil (d : Db) : screenAnswer page (d.veil page.hide) screen (screenTarget page (d.veil page.hide) screen) =
      screenAnswer page d screen (screenTarget page d screen) := by
    rw [screenTarget_veil, screenAnswer_veil]
  rw [← hveil db', h, hveil db]

theorem screenState_quiet {screen : Screen}
    (hquiet : ∀ m, (screenTarget page db screen).battle = some m → Quiet page.site db m) :
    screenState page db screen = .ok (screenAnswer page db screen (screenTarget page db screen)) := by
  unfold screenState screenAnswer
  cases hbattle : (screenTarget page db screen).battle with
  | none => simp only [hbattle]; rfl
  | some m =>
      have htick := (hquiet m hbattle).eq (mem_screenTarget hbattle)
      simp only [hbattle, htick]
      rfl

/-- No page of a player and no screen tells apart two states of the tables that differ only in the problems of games
    not started, while nothing moves a game forward. -/
theorem pages_keep_secrets {db' : Db} (h : db.Resembles (Game.Disguised page.told) db') :
    (∀ profile, (∀ m, playerMatch db profile page.asked = some m → Quiet page.site db m) →
      (∀ m, playerMatch db' profile page.asked = some m → Quiet page.site db' m) →
      playerState page db' profile = playerState page db profile) ∧
    ∀ screen, (∀ m, (screenTarget page db screen).battle = some m → Quiet page.site db m) →
      (∀ m, (screenTarget page db' screen).battle = some m → Quiet page.site db' m) →
      screenState page db' screen = screenState page db screen := by
  have hveil := h.veil_eq fun _ _ hg => hg.veil_eq
  constructor
  · intro profile hquiet hquiet'
    rw [playerState_quiet hquiet, playerState_quiet hquiet']
    exact playerAnswer_eq hveil
  · intro screen hquiet hquiet'
    rw [screenState_quiet hquiet, screenState_quiet hquiet']
    exact congrArg Except.ok (screenAnswer_eq hveil)

/-! A battle in the countdown of its first game, with the second one prepared. -/

def hiddenCountdown (problems : List GameProblem) : Game where
  id := 2
  number := 1
  status := .countdown
  problems := problems
  contest := some { endTime := seconds 80, attempts := .both [] }
  startedAt := some (seconds 20)
  endsAt := some (seconds 80)

def hiddenPrepared (problems : List GameProblem) : Game where
  id := 3
  number := 2
  problems := problems

def hiddenMatch (first second : List GameProblem) : Match where
  id := 1
  players := ⟨some 1, some 2⟩
  status := .playing
  calledAt := some 0
  games := ⟨[hiddenCountdown first, hiddenPrepared second], by simp [Keyed.key, hiddenCountdown, hiddenPrepared]⟩

def hiddenDb (first second : List GameProblem) : Db where
  battles := ⟨[hiddenMatch first second], List.nodup_singleton _⟩
  nextId := 4

def hiddenPage : Page where
  site := { now := seconds 10 }
  asked := seconds 10
  told := seconds 10
  answered := seconds 10

theorem hiddenMatch_resembles {first second first' second' : List GameProblem} (h : first ≠ []) (h' : first' ≠ [])
    (hsecond : second ≠ []) (hsecond' : second' ≠ []) :
    (hiddenMatch first second).Resembles (Game.Disguised (seconds 10)) (hiddenMatch first' second') where
  same := rfl
  games := by
    refine ⟨fun g => { g with problems := if g.id = 2 then first' else second' }, rfl, ?_⟩
    intro g hg
    refine ⟨rfl, rfl, fun _ => ?_⟩
    rcases List.mem_cons.mp hg with rfl | hg
    · exact ⟨rfl, h, h'⟩
    · obtain rfl := List.mem_singleton.mp hg
      exact ⟨rfl, hsecond, hsecond'⟩

theorem hiddenDb_resembles {first second first' second' : List GameProblem} (h : first ≠ []) (h' : first' ≠ [])
    (hsecond : second ≠ []) (hsecond' : second' ≠ []) :
    (hiddenDb first second).Resembles (Game.Disguised (seconds 10)) (hiddenDb first' second') where
  same := rfl
  battles := by
    refine ⟨fun _ => hiddenMatch first' second', rfl, ?_⟩
    intro m hm
    obtain rfl := List.mem_singleton.mp hm
    exact ⟨rfl, hiddenMatch_resembles h h' hsecond hsecond'⟩

theorem hidden_quiet {first second : List GameProblem} (h : m ∈ (hiddenDb first second).battles.rows) :
    Quiet hiddenPage.site (hiddenDb first second) m := by
  obtain rfl := List.mem_singleton.mp h
  exact ⟨_, rfl⟩

theorem pages_keep_secrets_countdown :
    playerState hiddenPage (hiddenDb [⟨8, 0, 50⟩] [⟨6, 0, 10⟩, ⟨5, 1, 20⟩]) 1 =
        playerState hiddenPage (hiddenDb [⟨7, 0, 100⟩] [⟨9, 0, 100⟩]) 1 ∧
      screenState hiddenPage (hiddenDb [⟨8, 0, 50⟩] [⟨6, 0, 10⟩, ⟨5, 1, 20⟩])
          { id := 5, name := "", mode := .battle, «match» := some 1 } =
        screenState hiddenPage (hiddenDb [⟨7, 0, 100⟩] [⟨9, 0, 100⟩])
          { id := 5, name := "", mode := .battle, «match» := some 1 } := by
  have h := @pages_keep_secrets hiddenPage (hiddenDb [⟨7, 0, 100⟩] [⟨9, 0, 100⟩])
    (hiddenDb [⟨8, 0, 50⟩] [⟨6, 0, 10⟩, ⟨5, 1, 20⟩])
    (hiddenDb_resembles (by decide) (by decide) (by decide) (by decide))
  exact ⟨h.1 1 (fun _ hm => hidden_quiet (mem_playerMatch hm)) fun _ hm => hidden_quiet (mem_playerMatch hm),
    h.2 _ (fun _ hm => hidden_quiet (mem_screenTarget hm)) fun _ hm => hidden_quiet (mem_screenTarget hm)⟩

end Serialize
end Arena
end CpcJudge
