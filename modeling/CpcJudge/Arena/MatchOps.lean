import CpcJudge.Arena.Steps

/-!
# `Arena.MatchOps` — what the operations on one match change

Every operation of `judge/arena/engine.py`, as a sequence of changes of the abstract arena. An operation of an
organizer also moves the version of its match, or leaves alone the data that organizers control (`Moved`).
-/

namespace CpcJudge
namespace Arena

open Scoring (Attempt Decision Outcome Reason Summary)
open CpcJudge.Txn (bind_ok map_ok pure_ok throw_ok)

/-- What organizers control in a match. -/
def Match.data (m : Match) :
    Pair (Option ProfileId) × ℕ × Rules × String × Pair String × Table Game × MatchStatus :=
  (m.players, m.bestOf, m.rules, m.title, m.displayNames, m.games, m.status)

/-- The match has a later version, or the same data. -/
def Moved (id : MatchId) (db db' : Db) : Prop :=
  ∀ m m', db.match? id = some m → db'.match? id = some m' → m.version < m'.version ∨ m'.data = m.data

section
variable {organizer : Bool} {scope : MatchId → Prop} {s t : Txn} {u : Unit} {db db' : Db} {m m' : Match}
  {a : ProfileId} {id : MatchId} {site : Site} {actor : Option ProfileId} {version : Option ℤ}

theorem Bumped.moved (h : Bumped db' m) (here : db.match? id = some m) : Moved id db db' := by
  intro x x' hx hx'
  obtain rfl : x = m := Option.some.inj (hx.symm.trans here)
  have hid : x.id = id := Table.key_of_get? here
  exact .inl (h x' (by rwa [hid]))

/-- A saved row whose version moved, and changes after it. -/
theorem Path.bumped (here : db.match? m.id = some m) (hid : m'.id = m.id) (hlt : m.version < m'.version)
    {db1 : Db} (battles : db1.battles = db.battles.put m') (hdb1 : WellFormed db1)
    (h : Path organizer scope db1 db') : Bumped db' m := by
  refine Bumped.follows _ hid ?_ hlt (h.follows (Match.Evolves.covers organizer scope) hdb1)
  show db1.battles.get? m'.id = some m'
  rw [battles]
  exact Table.get?_put_self (b := m) (by rw [show Keyed.key m' = m.id from hid]; exact here)

/-- What an operation on the match `id` does to the tables; it is `loud` if it moves the version of the match, or
    leaves its data alone. -/
structure Organized (organizer : Bool) (scope : MatchId → Prop) (loud : Prop) (id : MatchId) (db db' : Db) :
    Prop where
  path : Path organizer scope db db'
  moved : loud → Moved id db db'

theorem Organized.same (loud : Prop) (db : Db) (id : MatchId) : Organized organizer scope loud id db db := by
  refine ⟨.refl, fun _ x x' hx hx' => .inr ?_⟩
  rw [Option.some.inj (hx.symm.trans hx')]

theorem Organized.record {loud : Prop} (h : Organized organizer scope loud id db db') {a : Action}
    (hfinish : a.action ≠ .finish) (htie : a.action ≠ .tie) :
    Organized organizer scope loud id db (db'.record a) :=
  ⟨h.path.record hfinish htie, fun hloud => h.moved hloud⟩

/-- An operation takes the lock of its match first. -/
theorem of_lockMatch {α : Type} {f : Match → ArenaM α} {a : α} {loud : Prop}
    (h : (do let m ← lockMatch id; f m) s = .ok a t) (hdb : WellFormed s.db) (own : scope id)
    (hf : ∀ {m : Match} {s1 : Txn}, s1.db = s.db → WellFormed s1.db → s1.db.match? m.id = some m → scope m.id →
      m.id = id → f m s1 = .ok a t → Organized organizer scope loud m.id s1.db t.db) :
    Organized organizer scope loud id s.db t.db := by
  obtain ⟨m, s1, hlock, h⟩ := bind_ok.mp h
  obtain ⟨here, rfl⟩ := lockMatch_ok.mp hlock
  have hid : m.id = id := Table.key_of_get? here
  have hs := s.holdingMatch_db m
  have := hf hs (hs ▸ hdb) (by rw [hs, hid]; exact here) (hid ▸ own) hid h
  rwa [hs, hid] at this

/-- Two changes of a row, saved once. -/
theorem Path.rows {m1 : Match} (here : db.match? m.id = some m) (own : scope m.id) (step : RowStep organizer m m1)
    (old : m.NoNewGames m1) (step' : RowStep organizer m1 m') (old' : m1.NoNewGames m') :
    Path organizer scope db (db.putMatch m') := by
  have hid := Match.id_of_static step.static
  have hhere : (db.putMatch m1).match? m1.id = some m1 := by
    rw [hid]
    exact Db.match?_putMatch here hid
  have h : Path organizer scope (db.putMatch m1) ((db.putMatch m1).putMatch m') :=
    .row hhere (hid ▸ own) step' old'
  rw [Db.putMatch_putMatch db (Match.id_of_static step'.static)] at h
  exact (Path.row here own step old).trans h

/-- A row saved with a later version, and changes after it. -/
theorem Organized.saved {loud : Prop} (hdb : WellFormed db) (here : db.match? m.id = some m) (hid : m'.id = m.id)
    (hlt : m.version < m'.version) (hsave : Path organizer scope db (db.putMatch m'))
    (h : Path organizer scope (db.putMatch m') db') : Organized organizer scope loud m.id db db' :=
  ⟨hsave.trans h, fun _ => Bumped.moved (Path.bumped here hid hlt rfl (hdb.path hsave) h) here⟩

/-- One change of a row, saved with a later version, and changes after it. -/
theorem Organized.row {loud : Prop} (hdb : WellFormed db) (here : db.match? m.id = some m) (own : scope m.id)
    (step : RowStep organizer m m') (old : m.NoNewGames m') (hlt : m.version < m'.version)
    (h : Path organizer scope (db.putMatch m') db') : Organized organizer scope loud m.id db db' :=
  .saved hdb here (Match.id_of_static step.static) hlt (.row here own step old) h

/-- The games of a match changed, and then its row saved with a later version. -/
theorem Organized.after {loud : Prop} {db1 : Db} {m1 : Match} (hdb : WellFormed db)
    (here : db.match? m.id = some m) (own : scope m.id) (h : Continues organizer scope db db1 m m1)
    (step : RowStep organizer m1 m') (old : m1.NoNewGames m') (hlt : m1.version < m'.version)
    (h' : Path organizer scope (db1.putMatch m') db') : Organized organizer scope loud m.id db db' := by
  have hhere : db1.match? m1.id = some m1 := h.id ▸ h.here
  have hpath : Path organizer scope db1 (db1.putMatch m') := .row hhere (h.id ▸ own) step old
  refine ⟨h.path.trans (hpath.trans h'), fun _ => Bumped.moved (m := m) (fun x hx => ?_) here⟩
  rw [← h.version]
  refine Path.bumped hhere (Match.id_of_static step.static) hlt rfl ((hdb.path h.path).path hpath) h' x ?_
  rwa [h.id]

/-! ## Calling a match and choosing its problems -/

theorem callMatch_path (h : callMatch site actor id version s = .ok u t) (hdb : WellFormed s.db) (own : scope id) :
    Organized organizer scope True id s.db t.db := by
  refine of_lockMatch h hdb own fun {m s} _ hdb here own _ h => ?_
  simp only [checkVersion_bind] at h
  rcases Txn.ite_ok.mp h.2 with ⟨_, h⟩ | ⟨_, h⟩
  · obtain ⟨_, rfl⟩ := pure_ok.mp h
    exact .same _ _ _
  · generalize hm1 : Match.bump _ = m1 at h
    simp [requireRunningTournament, refuseBusy] at h
    obtain ⟨⟨hready, _⟩, _, _, _, m2, u2, hnext, rfl⟩ := h
    have hstep : RowStep organizer m m1 := hm1 ▸ .call (some site.now) (m.version + 1) hready (Nat.le_succ _)
    have hold : m.NoNewGames m1 := .of_same (by rw [← hm1]; rfl)
    have hid := Match.id_of_static hstep.static
    have hcontinues := nextGameFromBank_continues organizer
      (hdb.path (.row here own hstep hold)) hnext (by rw [hid]; exact Db.match?_putMatch here hid) (hid ▸ own)
    have hmoved : Organized organizer scope True m.id s.db u2.db :=
      .row hdb here own hstep hold (hm1 ▸ Nat.lt_succ_self _) hcontinues.path
    exact hmoved.record (by simp) (by simp)

theorem newGames_continues : ∀ {count : ℕ} {m m' : Match} {s t : Txn}, newGames m count s = .ok m' t →
    WellFormed s.db → s.db.match? m.id = some m → scope m.id → Continues organizer scope s.db t.db m m'
  | 0, m, m', s, t, h, _, here, _ => by
    obtain ⟨rfl, rfl⟩ := pure_ok.mp h
    exact .refl here
  | count + 1, m, m', s, t, h, hdb, here, own => by
    obtain ⟨r, s1, hnew, h⟩ := bind_ok.mp h
    obtain ⟨hcontinues, _⟩ := newGame_continues organizer hnew hdb here own
    exact hcontinues.trans (newGames_continues h (hdb.path hcontinues.path) (hcontinues.id ▸ hcontinues.here)
      (hcontinues.id ▸ own))

variable (organizer) in
theorem gameNumber_continues {number : ℕ} {r : Match × Game} (h : gameNumber m number s = .ok r t)
    (hdb : WellFormed s.db) (here : s.db.match? m.id = some m) (own : scope m.id) :
    Continues organizer scope s.db t.db m r.1 ∧ r.1.games.get? r.2.id = some r.2 := by
  simp only [gameNumber, refuseIf_bind] at h
  replace h := h.2
  cases hfind : m.games.rows.find? (·.number = number) with
  | some game =>
      simp only [hfind, pure_ok] at h
      obtain ⟨rfl, rfl⟩ := h
      exact ⟨.refl here, Table.get?_of_mem (List.mem_of_find?_eq_some hfind)⟩
  | none =>
      simp only [hfind, bind_ok, orRefuse_ok, pure_ok] at h
      obtain ⟨m1, _, hnew, game, _, ⟨hgame, rfl⟩, rfl, rfl⟩ := h
      exact ⟨newGames_continues hnew hdb here own, Table.get?_of_mem (List.mem_of_find?_eq_some hgame)⟩

theorem setGameProblems_path {gameId : Option GameId} {entries : List Entry} {number : Option ℕ}
    (h : setGameProblems site actor id gameId entries version number s = .ok u t) (hdb : WellFormed s.db)
    (own : scope id) : Organized organizer scope True id s.db t.db := by
  refine of_lockMatch h hdb own fun {m s} _ hdb here own _ h => ?_
  simp only [checkVersion_bind, refuseIf_bind] at h
  replace h := h.2.2
  -- the game asked for, found or created, and then its problems
  have hrest : ∀ {r : Match × Game} {s1 : Txn}, Continues organizer scope s.db s1.db m r.1 →
      r.1.games.get? r.2.id = some r.2 →
      (do
        refuseIf (r.2.status ≠ .prepared) ⟨"The problems of a game cannot change once it has started.", 400⟩
        let problems ← cleaned (cleanProblemList site actor entries (problemsUsedInMatch r.1 (some r.2.id))
          (r.2.problems.map fun gp => gp.problem))
        saveMatch ((r.1.setGame { r.2 with problems }).bump)
        logMatch .problems actor ((r.1.setGame { r.2 with problems }).bump) r.2.id : ArenaM Unit) s1 = .ok u t →
      Organized organizer scope True m.id s.db t.db := by
    intro r s1 hcontinues hgame h
    simp only [refuseIf_bind, cleaned_bind, saveMatch_bind, logMatch_ok] at h
    obtain ⟨_, problems, _, rfl⟩ := h
    exact .after hdb here own hcontinues (.game (r.1.version + 1) hgame (.problems problems) (Nat.le_succ _))
      (.setGame hgame rfl) (Nat.lt_succ_self _) (.record .refl (by simp) (by simp))
  cases gameId with
  | some gameId =>
      simp only [gameOf_bind, pure_bind'] at h
      obtain ⟨game, hgame, h⟩ := h
      have hid : game.id = gameId := Table.key_of_get? hgame
      exact hrest (.refl here) (r := (m, game)) (by rwa [hid]) h
  | none =>
      cases number with
      | some number =>
          obtain ⟨r, s1, hnumber, h⟩ := bind_ok.mp h
          obtain ⟨hcontinues, hgame⟩ := gameNumber_continues organizer hnumber hdb here own
          exact hrest hcontinues hgame h
      | none =>
          obtain ⟨r, s1, hensure, h⟩ := bind_ok.mp h
          obtain ⟨hcontinues, hgame, _⟩ := ensureNextGame_continues organizer hensure hdb here own
          exact hrest hcontinues hgame h

theorem addGame_path (h : addGame id version s = .ok u t) (hdb : WellFormed s.db) (own : scope id) :
    Organized organizer scope True id s.db t.db := by
  refine of_lockMatch h hdb own fun {m s} _ hdb here own _ h => ?_
  simp only [checkVersion_bind, refuseIf_bind] at h
  obtain ⟨r, s1, hensure, h⟩ := bind_ok.mp h.2.2
  obtain rfl := saveMatch_ok.mp h
  obtain ⟨hcontinues, _⟩ := ensureNextGame_continues organizer hensure hdb here own
  exact .after hdb here own hcontinues
    (.edit r.1.title r.1.displayNames r.1.rules r.1.ranking (r.1.version + 1) (Nat.le_succ _)) (.of_same rfl)
    (Nat.lt_succ_self _) .refl

/-! ## Starting and changing games -/

theorem Match.NoNewGames.congr {m1 m2 : Match} (h : m.NoNewGames m1) (hgames : m2.games = m1.games) :
    m.NoNewGames m2 := fun g hg => h g (hgames ▸ hg)

theorem startable_mem {gameId : Option GameId} {game : Game} (h : m.startable gameId = some game) :
    m.games.get? game.id = some game ∧ game.status = .prepared := by
  cases gameId with
  | none => exact preparedGame_mem h
  | some gameId =>
      obtain ⟨hget, hstatus⟩ := Option.filter_eq_some_iff.mp h
      exact ⟨Table.get?_of_mem (Table.mem_of_get? hget), of_decide_eq_true hstatus⟩

/-- The bank gives a game its problems, and then a warning stops it. -/
def StartStopped (site : Site) (db : Db) (actor : Option ProfileId) (m : Match) (gameId : Option GameId)
    (force : Bool) : Prop :=
  force = false ∧ ∃ game problems, m.startable gameId = some game ∧
    bankOffer site db actor false m game = some (.ok problems) ∧
    startWarnings site m { game with problems } ≠ []

theorem startGame_path {gameId : Option GameId} {force : Bool} {warnings : List Warning}
    (h : startGame site actor id gameId force version s = .ok warnings t) (hdb : WellFormed s.db) (own : scope id) :
    Organized organizer scope (∀ m, s.db.match? id = some m → ¬ StartStopped site s.db actor m gameId force) id
      s.db t.db := by
  refine of_lockMatch h hdb own fun {m s1} hs hdb here own hid h => ?_
  simp only [checkVersion_bind, refuseIf_bind, requireRunningTournament_bind, orRefuse_bind, refuseBusy_bind] at h
  obtain ⟨_, hstatus, hready, _, hidle, game, hgame, _, _, h⟩ := h
  rw [not_not] at hready
  obtain ⟨hget, hprepared⟩ := startable_mem hgame
  obtain ⟨r, s2, hfill, h⟩ := bind_ok.mp h
  obtain ⟨hcontinues, hcase⟩ := fillFromBank_continues organizer hfill here own hget
  simp only [gameOf_bind, refuseIf_bind, tables_bind] at h
  obtain ⟨game', hget', _, _, h⟩ := h
  have hprepared' : game'.id = game.id ∧ game'.status = .prepared := by
    rcases hcase with ⟨rfl, _⟩ | ⟨problems, _, rfl⟩
    · obtain rfl : game' = game := Option.some.inj (hget'.symm.trans hget)
      exact ⟨rfl, hprepared⟩
    · obtain rfl := Option.some.inj (hget'.symm.trans (get?_setGame hget rfl))
      exact ⟨rfl, hprepared⟩
  rcases Txn.ite_ok.mp h with ⟨⟨hforce, hwarnings⟩, h⟩ | ⟨_, h⟩
  · -- a warning stopped the game
    obtain ⟨_, rfl⟩ := pure_ok.mp h
    refine ⟨hcontinues.path, fun hloud x x' hx hx' => .inr ?_⟩
    obtain rfl : x = m := Option.some.inj (hx.symm.trans here)
    obtain rfl : x' = r.1 := Option.some.inj (hx'.symm.trans hcontinues.here)
    rcases hcase with ⟨rfl, _⟩ | ⟨problems, hoffer, rfl⟩
    · rfl
    · obtain rfl := Option.some.inj (hget'.symm.trans (get?_setGame hget rfl))
      refine absurd ⟨by simpa using hforce, game, problems, hgame, hs ▸ hoffer, hwarnings⟩ (hloud x ?_)
      rw [← hs, ← hid]
      exact here
  · simp only [saveMatch_bind, logMatch_bind, refreshLockOnCommit_bind, pure_ok] at h
    obtain ⟨_, rfl⟩ := h
    obtain ⟨games, hr⟩ := hcontinues.row
    have hhere' : r.1.games.get? game'.id = some game' := hprepared'.1 ▸ hget'
    generalize hm2 : Match.bump _ = m2
    have hlaunched : ∃ moment, m2 = { r.1.setGame (game'.launch (matchRules s2.db r.1) site.now) with
        status := .playing, calledAt := moment, version := r.1.version + 1 } := by
      rw [← hm2]
      by_cases hplaying : r.1.status = .playing
      · rw [if_pos (show Match.status (r.1.setGame _) = .playing from hplaying)]
        exact ⟨r.1.calledAt, by rw [← hplaying]; rfl⟩
      · rw [if_neg (show ¬ Match.status (r.1.setGame _) = .playing from hplaying)]
        exact ⟨_, rfl⟩
    obtain ⟨moment, hm2⟩ := hlaunched
    have hgoing : r.1.isOver = false := by
      rw [hr, Match.isOver]
      simp only [not_and_or, not_not] at hstatus
      rcases hstatus with h | h | h <;> rw [h] <;> rfl
    have hnone : m.gamesActive = 0 := Match.inPlay_eq_false_iff.mp (Bool.eq_false_iff.mpr hidle)
    have hidle' : r.1.inPlay = false := by
      rcases hcase with ⟨rfl, _⟩ | ⟨problems, _, rfl⟩
      · exact Match.inPlay_eq_false_iff.mpr hnone
      · have hcount : (m.setGame { game with problems }).gamesActive + _ = m.gamesActive + _ :=
          Match.gamesActive_setGame hget rfl
        exact Match.inPlay_eq_false_iff.mpr ((Nat.add_right_cancel hcount).trans hnone)
    refine .after hdb here own hcontinues (?_ : RowStep _ _ m2) ?_ ?_ (.record .refl (by simp) (by simp))
    · rw [hm2]
      exact .start moment _ hhere' hprepared'.2 hgoing (by rw [hr]; exact hready) hidle' rfl rfl rfl
        (fun slot => Game.launch_submissions _ _ _ slot) (Nat.le_succ _)
    · rw [hm2]
      have hold : r.1.NoNewGames (r.1.setGame (game'.launch (matchRules s2.db r.1) site.now)) :=
        .setGame hhere' rfl
      exact hold.congr rfl
    · rw [hm2]
      exact Nat.lt_succ_self _

theorem extendGame_path {gameId : GameId} {more : ℤ}
    (h : extendGame actor id gameId more version s = .ok u t) (hdb : WellFormed s.db) (own : scope id) :
    Organized organizer scope True id s.db t.db := by
  refine of_lockMatch h hdb own fun {m s} _ hdb here own _ h => ?_
  simp only [checkVersion_bind, refuseIf_bind, gameOf_bind, saveMatch_bind, logMatch_bind,
    refreshLockOnCommit_ok] at h
  obtain ⟨_, _, game, hget, _, _, _, rfl⟩ := h
  have hid : game.id = gameId := Table.key_of_get? hget
  rw [← hid] at hget
  generalize hg' : ({ game with endsAt := _, contest := _ } : Game) = game'
  have hstep : GameStep organizer game game' := by
    rw [← hg']
    refine ⟨rfl, Option.isSome_map, fun _ => ?_, fun h hclosed => hclosed h, .inl ⟨rfl, rfl⟩⟩
    exact Game.submissions_map rfl fun _ => rfl
  have hold : m.NoNewGames (m.setGame game') := .setGame hget hstep.id
  have hrow : RowStep organizer m (m.setGame game').bump := .game _ hget hstep (Nat.le_succ _)
  exact .row hdb here own hrow (hold.congr rfl) (Nat.lt_succ_self _) (.record .refl (by simp) (by simp))

/-- A game voided by an organizer. -/
theorem GameStep.void {g : Game} (now : Time) (decidedBy : Option ProfileId)
    (h : g.status.active = true ∨ g.status = .tie) :
    GameStep true g { g.void now with decidedBy } where
  id := rfl
  contest := Game.closeContest_contest _ _
  submissions _ := Game.closeContest_submissions _ _
  closed h := by cases h
  status := by
    refine .inr ⟨h, (by decide : GameStatus.cancelled ≠ .finished), .inr ⟨?_, fun _ => rfl⟩⟩
    show g.status.rank < GameStatus.rank .cancelled
    revert h
    cases g.status <;> simp [GameStatus.active, GameStatus.rank]

theorem cancelGame_path {gameId : GameId} (h : cancelGame site actor id gameId version s = .ok u t)
    (hdb : WellFormed s.db) (own : scope id) : Organized true scope True id s.db t.db := by
  refine of_lockMatch h hdb own fun {m s} _ hdb here own _ h => ?_
  simp only [checkVersion_bind, refuseIf_bind, gameOf_bind, refuseWhileAnotherRuns, saveMatch_bind,
    logMatch_bind] at h
  obtain ⟨_, _, game, hget, hstarted, _, h⟩ := h
  have hid : game.id = gameId := Table.key_of_get? hget
  rw [← hid] at hget
  rw [not_not] at hstarted
  have hstep : GameStep true game { game.void site.now with decidedBy := actor } := .void site.now actor hstarted
  generalize ({ game.void site.now with decidedBy := actor } : Game) = game' at h hstep
  have hold : m.NoNewGames (m.setGame game') := .setGame hget hstep.id
  generalize hm1 : (m.setGame game').bump = m1 at h
  have hrow : RowStep true m m1 := hm1 ▸ .game _ hget hstep (Nat.le_succ _)
  have hold : m.NoNewGames m1 := hold.congr (by rw [← hm1]; rfl)
  have hlt : m.version < m1.version := hm1 ▸ Nat.lt_succ_self _
  have hid1 := Match.id_of_static hrow.static
  rcases Txn.ite_ok.mp h with ⟨_, h⟩ | ⟨_, h⟩
  · obtain ⟨m2, s2, hnext, h⟩ := bind_ok.mp h
    obtain rfl := refreshLockOnCommit_ok.mp h
    have hpath : Path true scope s.db (s.db.putMatch m1) := .row here own hrow hold
    refine .row hdb here own hrow hold hlt ?_
    let logged : Action :=
      { action := .cancelGame, actor, «match» := some m1.id, game := some game.id, tournament := m1.tournament }
    have hlogged : Path true scope (s.db.putMatch m1) ((s.db.putMatch m1).record logged) :=
      .record .refl (by simp [logged]) (by simp [logged])
    exact hlogged.trans (nextGameFromBank_continues _ ((hdb.path hpath).path hlogged) hnext
      (by rw [hid1]; exact Db.match?_putMatch here hid1) (hid1 ▸ own)).path
  · obtain rfl := refreshLockOnCommit_ok.mp h
    exact .row hdb here own hrow hold hlt (.record .refl (by simp) (by simp))

/-- A tied game is decided only while none is being played. -/
theorem alone_of_refuse {g : Game} (hg : m.games.get? g.id = some g)
    (hrefuse : ¬ (g.status = .tie ∧ m.games.rows.any fun x => x.status.active && x.id ≠ g.id))
    (hstarted : g.status.active = true ∨ g.status = .tie) : g.status.active = true ∨ m.inPlay = false := by
  rcases hstarted with hactive | htie
  · exact .inl hactive
  · refine .inr (Bool.eq_false_iff.mpr fun hplay => hrefuse ⟨htie, ?_⟩)
    obtain ⟨x, hx, hactive⟩ := List.any_eq_true.mp hplay
    refine List.any_eq_true.mpr ⟨x, hx, ?_⟩
    have hne : x.id ≠ g.id := fun heq => by
      obtain rfl := Table.eq_of_key hx (Table.mem_of_get? hg) heq
      rw [htie] at hactive
      cases hactive
    simp [hactive, hne]

theorem declareWinner_path {gameId : GameId} {slot : Slot}
    (h : declareWinner site (some a) id gameId slot version s = .ok u t) (hdb : WellFormed s.db) (own : scope id) :
    Organized true scope True id s.db t.db := by
  refine of_lockMatch h hdb own fun {m s} _ hdb here own _ h => ?_
  simp only [checkVersion_bind, refuseIf_bind, gameOf_bind, refuseWhileAnotherRuns] at h
  obtain ⟨_, game, hget, hstarted, hplaying, halone, h⟩ := h
  have hid : game.id = gameId := Table.key_of_get? hget
  rw [← hid] at hget
  rw [not_not] at hstarted hplaying
  obtain ⟨m', s', hfinish, h⟩ := bind_ok.mp h
  obtain ⟨_, rfl⟩ := pure_ok.mp h
  obtain ⟨hticks, hbumped⟩ := finish_path true (g := game) hfinish hdb here own hget
    (by split_ifs <;> rfl) (by split_ifs <;> rfl) (hstarted.imp (fun h => h) fun h => ⟨h, rfl⟩)
    (alone_of_refuse hget halone hstarted) (by rw [Match.isOver, hplaying]; rfl)
  exact ⟨hticks.path, fun _ => (hbumped rfl).moved here⟩

theorem finalizeVerification_path {gameId : GameId}
    (h : finalizeVerification site (some a) id gameId version s = .ok u t) (hdb : WellFormed s.db) (own : scope id) :
    Organized true scope True id s.db t.db := by
  refine of_lockMatch h hdb own fun {m s} _ hdb here own _ h => ?_
  simp only [checkVersion_bind, refuseIf_bind, gameOf_bind] at h
  obtain ⟨_, hgoing, game, hget, hverifying, h⟩ := h
  have hid : game.id = gameId := Table.key_of_get? hget
  rw [← hid] at hget
  rw [not_not] at hverifying
  have hactive : game.status.active = true := by rw [hverifying]; rfl
  have hsettled : ∀ {m' : Match} {s' : Txn}, Ticks true scope s.db s'.db m m' game.id ∧
        ((some a).isSome = true → Bumped s'.db m) → logMatch .finalize (some a) m' gameId s' = .ok u t →
      Organized true scope True m.id s.db t.db := by
    rintro m' s' ⟨hticks, hbumped⟩ hlog
    obtain rfl := logMatch_ok.mp hlog
    have horganized : Organized true scope True m.id s.db _ :=
      ⟨hticks.path, fun _ => (hbumped rfl).moved here⟩
    exact horganized.record (by simp) (by simp)
  generalize Decision.outcome _ = outcome, Decision.winner _ = winner, Decision.reason _ = reason at h
  split at h
  · obtain ⟨m', s', hfinish, h⟩ := bind_ok.mp h
    exact hsettled (finish_path _ hfinish hdb here own hget rfl rfl (.inl hactive) (.inl hactive)
      (Bool.eq_false_iff.mpr hgoing)) h
  · obtain ⟨m', s', htie, h⟩ := bind_ok.mp h
    exact hsettled (tieGame_path htie hdb here own hget hactive) h

/-! ## Giving a match away -/

/-- The games still going voided and the unplayed ones thrown away. -/
theorem voided_continues (now : Time) (decidedBy : Game → Option ProfileId) (here : db.match? m.id = some m)
    (own : scope m.id) : Continues true scope db (db.putMatch (m.voidGames now decidedBy).dropUnplayed) m
      (m.voidGames now decidedBy).dropUnplayed :=
  ⟨.rows here own (.voidGames now decidedBy rfl) (.voidGames now decidedBy) .dropUnplayed .dropUnplayed,
    Db.match?_putMatch here rfl, _, rfl⟩

theorem voided_inPlay (now : Time) (decidedBy : Game → Option ProfileId) :
    (m.voidGames now decidedBy).dropUnplayed.inPlay = false := by
  rw [Match.inPlay_eq_false_iff, Match.gamesActive_dropUnplayed, ← Match.inPlay_eq_false_iff]
  exact Match.voidGames_inPlay _ _

theorem walkover_path {slot : Slot} (h : walkover site (some a) id slot version s = .ok u t)
    (hdb : WellFormed s.db) (own : scope id) : Organized true scope True id s.db t.db := by
  refine of_lockMatch h hdb own fun {m s} _ hdb here own _ h => ?_
  simp only [checkVersion_bind, refuseIf_bind] at h
  obtain ⟨_, hgoing, hseated, h⟩ := h
  obtain ⟨m', s', hdecide, h⟩ := bind_ok.mp h
  obtain ⟨_, rfl⟩ := pure_ok.mp h
  have hseated : (m.players.get slot).isSome = true := by
    rwa [Option.isNone_iff_eq_none, ← Ne, ← Option.isSome_iff_ne_none] at hseated
  have hcontinues : Continues true scope s.db _ m _ := voided_continues site.now (fun _ => some a) here own
  have hidle := voided_inPlay (m := m) site.now fun _ => some a
  -- the match is given once its games are out of the way
  obtain ⟨hm', db1, hbattles, htournaments, hlogs, hadvanced⟩ := decideMatch_saved hdecide hseated
  generalize hm1 : (m.voidGames site.now fun _ => some a).dropUnplayed = m1 at hcontinues hidle
  have hgiven : Decides true m1 m' := by
    rw [hm', ← hm1] at *
    exact .given (m := (m.voidGames site.now fun _ => some a).dropUnplayed) .walkover site.now _ hseated hidle
      (Bool.eq_false_iff.mpr hgoing) (Nat.le_succ _)
  have hid' : m'.id = m1.id := Match.id_of_static hgiven.static
  have hsaves : Saves (s.db.putMatch m1) m1 m' db1 := by
    refine .of_logs ?_ htournaments ⟨hlogs.nextId, hlogs.finishes, hlogs.ties⟩ (.of_same ?_)
    · rw [hbattles]
      exact (Table.put_put hid'.symm).symm
    · rw [hm', ← hm1]
      rfl
  have hhere1 : (s.db.putMatch m1).match? m1.id = some m1 := hcontinues.id ▸ hcontinues.here
  have hpath : Path true scope s.db t.db :=
    hcontinues.path.tail (.decide hhere1 (hcontinues.id ▸ own) hgiven hsaves hadvanced)
  refine ⟨hpath, fun _ => Bumped.moved (m := m) ?_ here⟩
  refine Bumped.follows true (hid'.trans hcontinues.id : m'.id = m.id) ?_ ?_ hadvanced.follows
  · rw [Db.match?, hbattles]
    refine Table.get?_put_self (b := m) ?_
    rw [show Keyed.key m' = m.id from hid'.trans hcontinues.id]
    exact here
  · rw [hm']
    exact Nat.lt_succ_self _

theorem cancelMatch_path (h : cancelMatch site actor id version s = .ok u t) (hdb : WellFormed s.db)
    (own : scope id) : Organized true scope True id s.db t.db := by
  refine of_lockMatch h hdb own fun {m s} _ hdb here own _ h => ?_
  simp only [checkVersion_bind, refuseIf_bind] at h
  obtain ⟨_, hquick, hgoing, h⟩ := h
  obtain ⟨m2, s2, hdrop, h⟩ := bind_ok.mp h
  obtain ⟨rfl, rfl⟩ := dropUnplayed_ok.mp hdrop
  simp only [saveMatch_bind, logMatch_bind, refreshLockOnCommit_ok] at h
  subst h
  let m1 := m.voidGames site.now fun g => g.decidedBy
  have hpath0 : Path true scope s.db (s.db.forgetUnplayed m1) :=
    .other rfl rfl ((Logs.refl s.db).forgetUnplayed m1)
  have hcontinues : Continues true scope (s.db.forgetUnplayed m1) _ m m1.dropUnplayed :=
    voided_continues site.now (fun g => g.decidedBy) here own
  have hcancel : RowStep true m1.dropUnplayed { m1.dropUnplayed with
      status := .cancelled, decidedAt := some site.now, version := m1.version + 1 } :=
    .cancel (m := m1.dropUnplayed) site.now _ (show m.tournament = none by simpa using hquick)
      (Bool.eq_false_iff.mpr hgoing)
      (voided_inPlay _ _) (Nat.le_succ _)
  have horganized : Organized true scope True m.id s.db _ :=
    .after hdb here own ⟨hpath0.trans hcontinues.path, hcontinues.here, hcontinues.row⟩ hcancel (.of_same rfl)
      (Nat.lt_succ_self _) .refl
  exact horganized.record (by simp) (by simp)

/-! ## Editing a match -/

theorem updateMatch_path {bestOf : Option ℕ} {rules : Option Rules} {title : Option String}
    {display : Pair (Option String)}
    (h : updateMatch actor id version bestOf rules title display s = .ok u t) (hdb : WellFormed s.db)
    (own : scope id) : Organized organizer scope True id s.db t.db := by
  refine of_lockMatch h hdb own fun {m s} _ hdb here own _ h => ?_
  simp only [checkVersion_bind, refuseIf_bind] at h
  obtain ⟨_, hgoing, h⟩ := h
  -- the length, if it was given, and then the rest of the form
  have hsave : ∀ {m1 : Match} {rules : Rules} {title : String} {names : Pair String},
      (m1 = m ∨ ∃ bestOf, m.mostWins < bestOf / 2 + 1 ∧ m1 = { m with bestOf }) →
      t = (s.wrote (·.putMatch ({ m1 with rules, title, displayNames := names }.bump))).wrote (·.record
        { action := .update, actor, «match» := some m1.id, tournament := m1.tournament }) →
      Organized organizer scope True m.id s.db t.db := by
    intro m1 rules title names hm1 ht
    subst ht
    let m' := Match.bump { m1 with rules, title, displayNames := names }
    have hedit : RowStep organizer m1 m' := .edit title names rules m1.ranking (m1.version + 1) (Nat.le_succ _)
    have hsaved : Organized organizer scope True m.id s.db (s.db.putMatch m') := by
      rcases hm1 with rfl | ⟨bestOf, hshort, rfl⟩
      · exact .row hdb here own hedit (.of_same rfl) (Nat.lt_succ_self _) .refl
      · exact .saved hdb here (rfl : m'.id = m.id) (Nat.lt_succ_self _) (.rows here own
          (.length bestOf (Bool.eq_false_iff.mpr hgoing) hshort) (.of_same rfl) hedit (.of_same rfl)) .refl
    exact hsaved.record (by simp) (by simp)
  cases bestOf with
  | none =>
      cases rules with
      | none =>
          simp only [cleaned_bind, saveMatch_bind, logMatch_ok, pure_bind'] at h
          obtain ⟨_, _, _, _, ht⟩ := h
          exact hsave (.inl rfl) ht
      | some rules =>
          simp only [cleaned_bind, saveMatch_bind, logMatch_ok, pure_bind'] at h
          obtain ⟨_, _, _, _, _, _, ht⟩ := h
          exact hsave (.inl rfl) ht
  | some bestOf =>
      cases rules with
      | none =>
          simp only [cleaned_bind, refuseIf_bind, saveMatch_bind, logMatch_ok, pure_bind'] at h
          obtain ⟨bestOf, _, hshort, _, _, _, _, ht⟩ := h
          exact hsave (.inr ⟨bestOf, not_le.mp hshort, rfl⟩) ht
      | some rules =>
          simp only [cleaned_bind, refuseIf_bind, saveMatch_bind, logMatch_ok, pure_bind'] at h
          obtain ⟨bestOf, _, hshort, _, _, _, _, _, _, ht⟩ := h
          exact hsave (.inr ⟨bestOf, not_le.mp hshort, rfl⟩) ht

theorem setMatchRanking_path {value : Ranking} (h : setMatchRanking actor id value s = .ok u t)
    (hdb : WellFormed s.db) (own : scope id) : Organized organizer scope True id s.db t.db := by
  refine of_lockMatch h hdb own fun {m s} _ hdb here own _ h => ?_
  simp only [refuseIf_bind] at h
  rcases Txn.ite_ok.mp h.2 with ⟨_, h⟩ | ⟨_, h⟩
  · simp only [saveMatch_bind, logMatch_bind, onCommit_ok] at h
    subst h
    have horganized : Organized organizer scope True m.id s.db (s.db.putMatch { m with ranking := value }) := by
      refine ⟨.row here own (.edit m.title m.displayNames m.rules value m.version (le_refl _)) (.of_same rfl),
        fun _ x x' hx hx' => .inr ?_⟩
      obtain rfl := Option.some.inj (hx.symm.trans here)
      obtain rfl := Option.some.inj (hx'.symm.trans (Db.match?_putMatch here rfl))
      rfl
    exact horganized.record (by simp) (by simp)
  · obtain ⟨_, rfl⟩ := pure_ok.mp h
    exact .same _ _ _

/-- The tables with the next game of a match created, and the match and the game. -/
def Db.withNewGame (db : Db) (m : Match) : Db × Match × Game :=
  let game : Game := { id := db.nextId, number := m.lastNumber + 1 }
  let m := { m with games := m.games.add game }
  (({ db with nextId := db.nextId + 1 } : Db).putMatch m, m, game)

/-- A match without a prepared game gets one, and the bank does not give it problems. -/
def FillsEmpty (site : Site) (db : Db) (actor : Option ProfileId) (m : Match) : Prop :=
  m.inPlay = false ∧ m.preparedGame = none ∧
    ∀ problems, bankOffer site (db.withNewGame m).1 actor true (db.withNewGame m).2.1 (db.withNewGame m).2.2 ≠
      some (.ok problems)

theorem fillMatch_path {filled : Bool} (h : fillMatch site actor id s = .ok filled t) (hdb : WellFormed s.db)
    (own : scope id) :
    Organized organizer scope (∀ m, s.db.match? id = some m → ¬ FillsEmpty site s.db actor m) id s.db t.db := by
  refine of_lockMatch h hdb own fun {m s1} hs hdb here own hid h => ?_
  rcases Txn.ite_ok.mp h with ⟨_, h⟩ | ⟨hidle, h⟩
  · obtain ⟨_, rfl⟩ := pure_ok.mp h
    exact .same _ _ _
  · obtain ⟨r, s2, hensure, h⟩ := bind_ok.mp h
    obtain ⟨r', s3, hfill, h⟩ := bind_ok.mp h
    obtain ⟨hcontinues, hget, _⟩ := ensureNextGame_continues organizer hensure hdb here own
    obtain ⟨hfilled, hcase⟩ := fillFromBank_continues organizer hfill
      (hcontinues.id ▸ hcontinues.here) (hcontinues.id ▸ own) hget
    rcases Txn.ite_ok.mp h with ⟨_, h⟩ | ⟨hno, h⟩
    · simp only [saveMatch_bind, pure_ok] at h
      obtain ⟨_, rfl⟩ := h
      have hedit : RowStep organizer r'.1 r'.1.bump :=
        .edit r'.1.title r'.1.displayNames r'.1.rules r'.1.ranking (r'.1.version + 1) (Nat.le_succ _)
      exact .after hdb here own (hcontinues.trans hfilled) hedit (.of_same rfl) (Nat.lt_succ_self _) .refl
    · obtain ⟨_, rfl⟩ := pure_ok.mp h
      refine ⟨(hcontinues.trans hfilled).path, fun hloud x x' hx hx' => .inr ?_⟩
      obtain rfl : x = m := Option.some.inj (hx.symm.trans here)
      obtain rfl : x' = r'.1 := Option.some.inj (hx'.symm.trans (hcontinues.trans hfilled).here)
      rcases hcase with ⟨rfl, hoffer⟩ | ⟨problems, _, rfl⟩
      · unfold ensureNextGame at hensure
        cases hprepared : x.preparedGame with
        | some game =>
            simp only [hprepared, pure_ok] at hensure
            rw [hensure.1]
        | none =>
            simp only [hprepared] at hensure
            obtain ⟨hgame, hmatch, rfl⟩ := newGame_ok.mp hensure
            obtain ⟨m1, game⟩ := r
            dsimp only at hgame hmatch
            subst hgame hmatch
            exact absurd (hs ▸ ⟨Bool.eq_false_iff.mpr hidle, hprepared, hoffer⟩) (hloud x (hs ▸ hid ▸ here))
      · exact absurd rfl hno

/-! ## Other players and other winners -/

theorem replacePlayer_special {slot : Slot} {profile : Option ProfileId} {display : String}
    (h : replacePlayer site actor id slot profile display version s = .ok u t) :
    ∃ p m, profile = some p ∧ Replaces id slot p m s.db t.db ∧ Moved id s.db t.db := by
  simp only [replacePlayer, orRefuse_bind] at h
  obtain ⟨p, hp, h⟩ := h
  obtain ⟨m, s1, hlock, hrest⟩ := bind_ok.mp h
  obtain ⟨here, rfl⟩ := lockMatch_ok.mp hlock
  obtain rfl : m.id = id := Table.key_of_get? here
  clear h
  simp only [checkVersion_bind, refuseIf_bind, refuseSelf, tables_bind, cleaned_bind, saveMatch_bind, logMatch_bind,
    refreshLockOnCommit_ok] at hrest
  obtain ⟨_, hgoing, hunplayed, _, _, _, display, _, rfl⟩ := hrest
  simp only [Txn.scheduling_db, Txn.wrote_db, Txn.holdingMatch_db]
  obtain ⟨status, heq, _⟩ := m.replace_eq slot p display
  have hid : (m.replace slot p display).id = m.id := by rw [heq]
  refine ⟨p, m, hp, ⟨here, Bool.eq_false_iff.mpr hgoing, Bool.eq_false_iff.mpr hunplayed, ⟨display, rfl⟩, rfl,
    ((Logs.refl s.db).putMatch _).record (by simp) (by simp)⟩, fun x x' hx hx' => .inl ?_⟩
  obtain rfl := Option.some.inj (hx.symm.trans here)
  obtain rfl := Option.some.inj (hx'.symm.trans (Db.match?_putMatch here hid))
  rw [heq]
  exact Nat.lt_succ_self _

theorem reopen_reopened {id : TournamentId} (h : reopen id s = .ok u t) : Reopened id s.db t.db := by
  simp only [reopen, lock_bind, tables_bind, Txn.holding_db] at h
  cases hrow : s.db.tournament? id with
  | none =>
      simp only [hrow, pure_ok] at h
      rw [h.2, Txn.holding_db]
      refine .same fun row here => ?_
      rw [hrow] at here
      cases here
  | some row =>
      simp only [hrow] at h
      rcases Txn.ite_ok.mp h with ⟨hfinished, h⟩ | ⟨hgoing, h⟩
      · obtain rfl := saveTournament_ok.mp h
        rw [Txn.wrote_db, Txn.holding_db]
        let row' : Tournament := { row with status := .running, finishedAt := none }
        exact .reopened hrow hfinished (rfl : row'.status = .running) rfl rfl rfl rfl
          ((Logs.refl s.db).putTournament row')
      · rw [(pure_ok.mp h).2, Txn.holding_db]
        refine .same fun row' here => ?_
        obtain rfl := Option.some.inj (here.symm.trans hrow)
        exact hgoing

theorem Reopened.battles {id : TournamentId} (h : Reopened id db db') : db'.battles = db.battles := by
  cases h with
  | reopened _ _ _ _ _ battles => exact battles
  | same => rfl

theorem setWinner_special {slot : Slot} (h : setWinner site actor id slot version s = .ok u t) :
    ∃ m db1, Corrects id slot m s.db db1 ∧ Path organizer scope db1 t.db ∧ Moved id s.db t.db := by
  obtain ⟨m, s1, hlock, hrest⟩ := bind_ok.mp h
  obtain ⟨here, rfl⟩ := lockMatch_ok.mp hlock
  obtain rfl : m.id = id := Table.key_of_get? here
  simp only [checkVersion_bind, orRefuse_bind, refuseIf_bind, tables_bind, saveMatch_bind] at hrest
  obtain ⟨_, row, htournament, hdecided, hseated, _, _, hrest⟩ := hrest
  rw [not_or, not_not] at hdecided
  have hseated : (m.players.get slot).isSome = true := by
    rwa [Option.isNone_iff_eq_none, ← Ne, ← Option.isSome_iff_ne_none] at hseated
  obtain ⟨_, s2, hreopen, hrest⟩ := bind_ok.mp hrest
  obtain ⟨_, s3, hadvance, hrest⟩ := bind_ok.mp hrest
  simp only [logMatch_bind] at hrest
  obtain ⟨_, s4, hafter, hrest⟩ := bind_ok.mp hrest
  obtain rfl := refreshLockOnCommit_ok.mp hrest
  have hreopened := reopen_reopened hreopen
  rw [Txn.wrote_db, Txn.holdingMatch_db] at hreopened
  have hadvanced := advance_advanced (w := slot) hadvance rfl hseated
  have hcorrects : Corrects m.id slot m s.db s3.db :=
    ⟨here, hdecided.1, hseated, row, s2.db, site.now, htournament, hreopened, hadvanced⟩
  have hbattles : s2.db.match? m.id = some (m.correct slot site.now) := by
    rw [Db.match?, hreopened.battles]
    exact Db.match?_putMatch here rfl
  have hbumped : Bumped s3.db m :=
    .follows true (rfl : (m.correct slot site.now).id = m.id) hbattles (Nat.lt_succ_self _) hadvanced.follows
  rw [Txn.scheduling_db, afterDecided_db hafter, Txn.wrote_db]
  exact ⟨m, s3.db, hcorrects, .record .refl (by simp) (by simp), hbumped.moved here⟩

/-- Only another winner is a correction. -/
theorem setWinner_other {slot : Slot} (h : setWinner site actor id slot version s = .ok u t) :
    ∃ m, s.db.match? id = some m ∧ m.winnerSlot ≠ some slot := by
  obtain ⟨m, s1, hlock, hrest⟩ := bind_ok.mp h
  simp only [checkVersion_bind, orRefuse_bind, refuseIf_bind] at hrest
  obtain ⟨_, _, _, hdecided, _⟩ := hrest
  exact ⟨m, (lockMatch_ok.mp hlock).1, fun heq => hdecided (.inr heq)⟩

/-! ## Quick battles -/

variable (organizer) in
theorem addGames_continues : ∀ {problems : List (List GameProblem)} {number : ℕ} {m m' : Match} {s t : Txn},
    addGames m number problems s = .ok m' t → WellFormed s.db → s.db.match? m.id = some m → scope m.id →
    Continues organizer scope s.db t.db m m'
  | [], number, m, m', s, t, h, _, here, _ => by
    obtain ⟨rfl, rfl⟩ := pure_ok.mp h
    exact .refl here
  | problems :: rest, number, m, m', s, t, h, hdb, here, own => by
    simp only [addGames, freshId_bind, saveMatch_bind] at h
    obtain ⟨hcontinues, _⟩ := addGame_continues organizer
      (g := { id := s.db.nextId, number, problems }) hdb here own rfl rfl rfl
    exact hcontinues.trans (addGames_continues h (hdb.path hcontinues.path) (hcontinues.id ▸ hcontinues.here)
      (hcontinues.id ▸ own))

theorem ensureDefaultScreen_path (h : ensureDefaultScreen site actor s = .ok u t) :
    Path organizer scope s.db t.db := by
  simp only [ensureDefaultScreen, tables_bind] at h
  rcases Txn.ite_ok.mp h with ⟨_, h⟩ | ⟨_, h⟩
  · rw [(pure_ok.mp h).2]
  · simp only [freshId_bind, write_ok] at h
    subst h
    exact .other rfl rfl (.of_actions rfl (Nat.le_succ _))

theorem lockScreens_db : ∀ {ids : List ScreenId} {s t : Txn}, lockScreens ids s = .ok u t → t.db = s.db
  | [], s, t, h => by rw [(pure_ok.mp h).2]
  | _ :: _, s, t, h => by
    simp only [lockScreens, lock_bind] at h
    rw [lockScreens_db h, Txn.holding_db]

theorem freeScreen_db {screen : Option Screen} (h : freeScreen site actor s = .ok screen t) : t.db = s.db := by
  simp only [freeScreen, tables_bind] at h
  obtain ⟨_, s1, hlock, h⟩ := bind_ok.mp h
  rw [(pure_ok.mp h).2]
  exact lockScreens_db hlock

theorem createDuel_path {players : Pair (Option ProfileId)} {games : List (List Entry)} {bestOf : ℕ} {rules : Rules}
    {display : Pair String} {title : String} {call : Bool} {ranking : Ranking} {newId : MatchId}
    (h : createDuel site actor players games bestOf rules display title call ranking s = .ok newId t)
    (hdb : WellFormed s.db) (own : scope s.db.nextId) : Path organizer scope s.db t.db := by
  simp only [createDuel, orRefuse_bind, refuseIf_bind, refuseSelf, cleaned_bind, tables_bind, freshId_bind,
    write_bind] at h
  obtain ⟨p, _, q, _, _, _, bestOf, _, rules, _, nameA, _, nameB, _, _, _, _, _, problems, _, _, h⟩ := h
  generalize hm : ({ id := s.db.nextId, players := _, displayNames := _, title := _, bestOf := _, rules := _
                     status := _, calledAt := _, createdBy := _, createdAt := _, ranking := _ } : Match) = m at h
  obtain ⟨m1, s1, hgames, h⟩ := bind_ok.mp h
  obtain ⟨_, s2, hlog, h⟩ := bind_ok.mp h
  obtain ⟨_, s3, hscreen, h⟩ := bind_ok.mp h
  obtain ⟨screen, s4, hfree, h⟩ := bind_ok.mp h
  let db1 : Db := { s.db with nextId := s.db.nextId + 1, battles := s.db.battles.add m }
  have hid : m.id = s.db.nextId := by rw [← hm]
  have hduel : Path organizer scope s.db db1 := by
    refine .single (.duel (m := m) ?_ ?_ ?_ ?_ ?_ ?_ (hid ▸ le_refl _) (hid ▸ Nat.lt_succ_self _) rfl rfl
      (.of_actions rfl (Nat.le_succ _))) <;> rw [← hm]
    cases call <;> rfl
  have hhere : db1.match? m.id = some m := by
    refine Table.get?_add_self (Table.get?_eq_none_iff.mpr fun x hx heq => ?_)
    exact absurd (hdb.below x hx) (not_lt.mpr (hid ▸ le_of_eq heq.symm))
  have hadded := (addGames_continues organizer hgames (hdb.path hduel) hhere (hid ▸ own)).path
  have hlogged : Path organizer scope s1.db s2.db := by
    obtain rfl := logMatch_ok.mp hlog
    exact .record .refl (by simp) (by simp)
  have hshown := (hduel.trans hadded).trans (hlogged.trans (ensureDefaultScreen_path hscreen))
  rw [← freeScreen_db hfree] at hshown
  cases screen with
  | none =>
      simp only [refreshLockOnCommit_bind, pure_ok] at h
      rw [h.2]
      exact hshown
  | some screen =>
      simp only [write_bind, logMatch_bind, refreshLockOnCommit_bind, pure_ok] at h
      rw [h.2, Txn.scheduling_db, Txn.wrote_db]
      refine .record (hshown.tail ?_) (by simp) (by simp)
      exact .other rfl rfl (.of_actions rfl (le_refl _))

/-! ## The game by itself, its players and its judges -/

theorem tick_path {game : Game} {now : Time} (h : tick site id game now s = .ok u t) (hdb : WellFormed s.db)
    (own : scope id) : Path organizer scope s.db t.db := by
  rcases Txn.ite_ok.mp h with ⟨_, h⟩ | ⟨_, h⟩
  · rw [(pure_ok.mp h).2]
  rcases Txn.ite_ok.mp h with ⟨_, h⟩ | ⟨_, h⟩
  · rw [(pure_ok.mp h).2]
  suffices hmoved : Organized organizer scope False id s.db t.db from hmoved.path
  refine of_lockMatch h hdb own fun {m s} _ hdb here own _ h => ?_
  simp only [gameOf_bind] at h
  obtain ⟨g, hget, h⟩ := h
  obtain ⟨m', s', htick, h⟩ := bind_ok.mp h
  obtain ⟨_, rfl⟩ := pure_ok.mp h
  have hid : g.id = game.id := Table.key_of_get? hget
  exact ⟨(tickLocked_path _ htick hdb here own (hid ▸ hget)).path, False.elim⟩

/-- The submissions of a game change. -/
theorem GameStep.attempts {g g' : Game} {contest : Option Contest} (h : g' = { g with contest })
    (hcontest : contest.isSome = g.contest.isSome) (hsent : organizer = true → g'.submissions = g.submissions) :
    GameStep organizer g g' := by
  subst h
  exact ⟨rfl, hcontest, hsent, fun h hclosed => hclosed h, .inl ⟨rfl, rfl⟩⟩

/-- A game with one more submission. -/
def Game.submitted (g : Game) (c : Contest) (slot : Slot) (attempt : Attempt) : Game :=
  { g with contest := some { c with attempts := c.attempts.set slot (c.attempts.get slot ++ [attempt]) } }

/-- The last submission of a player was accepted: the game is being played, and the player had an attempt left. -/
structure Game.Accepts (g : Game) (slot : Slot) (attempt : Attempt) : Prop where
  opened : g.status.opened = true
  going : g.closedAt = none
  since : ∃ start, g.startedAt = some start ∧ start ≤ attempt.date
  before : ∃ finish, g.endsAt = some finish ∧ attempt.date < finish
  left : g.rules.maxAttempts.getD 0 ≠ 0 →
    (g.attempts slot).countP (fun x => x.problem = attempt.problem && x.counts) ≤ g.rules.maxAttempts.getD 0

/-- A submission done: the game, brought up to date in the tables `db1`, gets it. -/
structure Submits (site : Site) (profile : ProfileId) (id : MatchId) (gameId : GameId) (slot : Slot)
    (attempt : Attempt) (db db1 db' : Db) : Prop where
  player : ∃ m, db.match? id = some m ∧ m.slotOf profile = some slot
  date : attempt.date = site.now
  saved : ∃ m g c, db1.match? id = some m ∧ m.games.get? gameId = some g ∧ g.contest = some c ∧
    (g.submitted c slot attempt).Accepts slot attempt ∧
    db' = ({ db1 with nextId := db1.nextId + 1 } : Db).putMatch (m.setGame (g.submitted c slot attempt))

variable (organizer scope) in
theorem submit_submits {profile : ProfileId} {superuser : Bool} {gameId : GameId} {order : ℕ}
    {language source : String} (h : submit site profile superuser id gameId order language source s = .ok u t)
    (hdb : WellFormed s.db) (own : scope id) :
    ∃ slot attempt db1, Path organizer scope s.db db1 ∧
      Submits site profile id gameId slot attempt s.db db1 t.db := by
  simp only [submit, refuseIf_bind] at h
  obtain ⟨m, s1, hlock, h⟩ := bind_ok.mp h.2.2
  obtain ⟨here, rfl⟩ := lockMatch_ok.mp hlock
  have hmid : m.id = id := Table.key_of_get? here
  simp only [gameOf_bind, orRefuse_bind] at h
  obtain ⟨game, hget, slot, hslot, h⟩ := h
  have hid : game.id = gameId := Table.key_of_get? hget
  obtain ⟨m', s', htick, h⟩ := bind_ok.mp h
  have hdb1 := s.holdingMatch_db m
  have own' : scope m.id := hmid ▸ own
  have hticks := tickLocked_path organizer htick (by rwa [hdb1]) (by rwa [hdb1, hmid]) own' (hid ▸ hget)
  rw [hdb1] at hticks
  simp only [gameOf_bind, refuseIf_bind, orRefuse_bind, freshId_bind, saveMatch_ok] at h
  obtain ⟨game', hget', hgate, hends, _, _, _, _, c, hc, hleft, _, rfl⟩ := h
  -- a game that accepts submissions is the one in the tables
  have hhere : s'.db.match? m.id = some m' := by
    rcases hticks.here with hhere | hclosed
    · exact hhere
    · rw [hclosed game' (hid ▸ hget')] at hgate
      simp at hgate
  simp only [not_or, Bool.not_eq_true', Bool.not_eq_false, not_not, Option.not_isSome_iff_eq_none] at hgate
  rw [not_not] at hends
  obtain ⟨hopened, hgoing, start, hstart, hsince⟩ := hgate
  obtain ⟨finish, hfinish, hbefore⟩ := hends
  refine ⟨slot, _, s'.db, hticks.path, ⟨m, here, hslot⟩, rfl, m', game', c, hmid ▸ hhere, hget', hc,
    ⟨hopened, hgoing, ⟨start, hstart, hsince⟩, ⟨finish, hfinish, hbefore⟩, fun hlimit => ?_⟩, rfl⟩
  -- the attempts before this one were fewer than the limit
  have hused := lt_of_not_ge fun hge => hleft ⟨hlimit, hge⟩
  simp only [Game.submitted, Game.attempts, Option.elim_some, Pair.get_set_self, List.countP_append,
    List.countP_singleton]
  split
  · exact hused
  · exact le_of_lt hused

theorem submit_path {profile : ProfileId} {superuser : Bool} {gameId : GameId} {order : ℕ} {language source : String}
    (h : submit site profile superuser id gameId order language source s = .ok u t) (hdb : WellFormed s.db)
    (own : scope id) : Path false scope s.db t.db := by
  obtain ⟨slot, attempt, db1, hpath, hsubmits⟩ := submit_submits false scope h hdb own
  obtain ⟨m, g, c, hhere, hget, hc, _, hsaved⟩ := hsubmits.saved
  have hmid : m.id = id := Table.key_of_get? hhere
  have hid : g.id = gameId := Table.key_of_get? hget
  have hnext : Path false scope db1 { db1 with nextId := db1.nextId + 1 } :=
    .other rfl rfl (.of_actions rfl (Nat.le_succ _))
  have hhere' : ({ db1 with nextId := db1.nextId + 1 } : Db).match? m.id = some m := hmid ▸ hhere
  have hstep : GameStep false g (g.submitted c slot attempt) := .attempts rfl (by rw [hc]; rfl) fun h => by cases h
  rw [hsaved]
  exact (hpath.trans hnext).trans (setGame_continues false hhere' (hmid ▸ own) (hid ▸ hget) hstep).path

theorem judge_path {gameId : GameId} {attempts : Pair (List Attempt)}
    (h : judge id gameId attempts s = .ok u t) (own : scope id) : Path organizer scope s.db t.db := by
  simp only [judge, tables_bind, orRefuse_bind, gameOf_bind, refuseIf_bind, saveMatch_ok] at h
  obtain ⟨m, here, game, hget, hsame, rfl⟩ := h
  have hid : game.id = gameId := Table.key_of_get? hget
  have hid' : m.id = id := Table.key_of_get? here
  rw [← hid] at hget
  rw [← hid'] at here own
  refine (setGame_continues _ here own hget (.attempts rfl Option.isSome_map fun _ => ?_)).path
  -- the verdicts are for the submissions that are there
  simp only [not_exists, not_and, not_not] at hsame
  funext slot
  have hslot : (attempts.get slot).map (·.submission) = game.submissions slot := hsame slot (by cases slot <;> simp)
  cases hc : game.contest with
  | none => simp [Game.submissions, Game.attempts, hc]
  | some c =>
      rw [← hslot]
      simp [Game.submissions, Game.attempts]

end

end Arena
end CpcJudge
