import CpcJudge.Arena.Inversion
import CpcJudge.Arena.Evolve

/-!
# `Arena.Steps` — what the helpers of the engine change

The functions the operations share (`_ensure_next_game`, `fill_from_bank`, `advance`, `_decide_match`, `_finish`,
`_tie`, `_apply`), each as a sequence of changes of the abstract arena. `Continues` is the common case: the games
of one match change, and the caller goes on with its row.
-/

namespace CpcJudge
namespace Arena

open Scoring (Decision Outcome Reason Summary)
open CpcJudge.Txn (bind_ok map_ok pure_ok throw_ok)

/-! ## Recording -/

theorem Logs.refl (db : Db) : Logs db db := ⟨le_refl _, fun _ => le_refl _, fun _ => le_refl _⟩

theorem Logs.trans {db db1 db2 : Db} (h : Logs db db1) (h' : Logs db1 db2) : Logs db db2 :=
  ⟨h.nextId.trans h'.nextId, fun id => (h'.finishes id).trans (h.finishes id),
    fun id => (h'.ties id).trans (h.ties id)⟩

/-- The same actions, and a later primary key. -/
theorem Logs.of_actions {db db' : Db} (hactions : db'.actions = db.actions) (hnext : db.nextId ≤ db'.nextId) :
    Logs db db' := by
  refine ⟨hnext, fun id => ?_, fun id => ?_⟩ <;> rw [Db.recorded, hactions] <;> exact le_refl _

theorem Db.recorded_record (db : Db) (a : Action) (name : ActionName) (id : GameId) :
    (db.record a).recorded name id =
      db.recorded name id + if a.action = name ∧ a.game = some id then 1 else 0 := by
  rw [Db.recorded, Db.record, List.countP_append, List.countP_singleton]
  simp [Db.recorded]

/-- An action that is no result. -/
theorem Logs.record {db db' : Db} (h : Logs db db') {a : Action} (hfinish : a.action ≠ .finish)
    (htie : a.action ≠ .tie) : Logs db (db'.record a) := by
  refine ⟨h.nextId, fun id => ?_, fun id => ?_⟩
  · rw [Db.recorded_record, if_neg fun h => hfinish h.1]
    exact h.finishes id
  · rw [Db.recorded_record, if_neg fun h => htie h.1]
    exact h.ties id

theorem Logs.forgetUnplayed {db db' : Db} (h : Logs db db') (m : Match) : Logs db (db'.forgetUnplayed m) :=
  h.trans ⟨le_refl _, fun _ => (List.filter_sublist).countP_le, fun _ => (List.filter_sublist).countP_le⟩

theorem Logs.putMatch {db db' : Db} (h : Logs db db') (m : Match) : Logs db (db'.putMatch m) :=
  h.trans (.of_actions rfl (le_refl _))

theorem Logs.putTournament {db db' : Db} (h : Logs db db') (t : Tournament) : Logs db (db'.putTournament t) :=
  h.trans (.of_actions rfl (le_refl _))

@[simp] theorem Db.record_battles (db : Db) (a : Action) : (db.record a).battles = db.battles := rfl
@[simp] theorem Db.record_tournaments (db : Db) (a : Action) : (db.record a).tournaments = db.tournaments := rfl
@[simp] theorem Db.record_nextId (db : Db) (a : Action) : (db.record a).nextId = db.nextId := rfl
@[simp] theorem Db.putMatch_battles (db : Db) (m : Match) : (db.putMatch m).battles = db.battles.put m := rfl
@[simp] theorem Db.putMatch_tournaments (db : Db) (m : Match) :
    (db.putMatch m).tournaments = db.tournaments := rfl
@[simp] theorem Db.putMatch_nextId (db : Db) (m : Match) : (db.putMatch m).nextId = db.nextId := rfl
@[simp] theorem Db.putMatch_actions (db : Db) (m : Match) : (db.putMatch m).actions = db.actions := rfl
@[simp] theorem Db.forgetUnplayed_battles (db : Db) (m : Match) :
    (db.forgetUnplayed m).battles = db.battles := rfl
@[simp] theorem Db.forgetUnplayed_tournaments (db : Db) (m : Match) :
    (db.forgetUnplayed m).tournaments = db.tournaments := rfl

/-! ## Saving a match -/

namespace Match
variable {m m' m'' : Match}

/-- The match `m'` has no game that `m` does not have. -/
def NoNewGames (m m' : Match) : Prop := ∀ g ∈ m'.games.rows, m.games.get? g.id ≠ none

theorem NoNewGames.of_same (h : m'.games = m.games) : NoNewGames m m' := fun g hg => by
  rw [h] at hg
  rw [show m.games.get? g.id = some g from Table.get?_of_mem hg]
  simp

theorem NoNewGames.setGame {g g' : Game} (h : m.games.get? g.id = some g) (hid : g'.id = g.id) :
    NoNewGames m (m.setGame g') := fun x hx => by
  rcases mem_setGame hx with rfl | ⟨hx, _⟩
  · rw [hid, h]
    simp
  · rw [show m.games.get? x.id = some x from Table.get?_of_mem hx]
    simp

theorem NoNewGames.dropUnplayed : NoNewGames m m.dropUnplayed := fun g hg => by
  rw [show m.games.get? g.id = some g from Table.get?_of_mem (mem_dropUnplayed.mp hg).1]
  simp

theorem NoNewGames.voidGames (now : Time) (decidedBy : Game → Option ProfileId) :
    NoNewGames m (m.voidGames now decidedBy) := fun x hx => by
  rcases mem_voidGames hx with ⟨g, hg, _, hid, _⟩ | ⟨hx, _⟩
  · rw [hid, show m.games.get? g.id = some g from Table.get?_of_mem hg]
    simp
  · rw [show m.games.get? x.id = some x from Table.get?_of_mem hx]
    simp

end Match

section
variable {db db' : Db} {m m' : Match} {organizer : Bool} {scope : MatchId → Prop}

/-- A match saved with nothing recorded. -/
theorem Saves.of_logs (battles : db'.battles = db.battles.put m') (tournaments : db'.tournaments = db.tournaments)
    (logs : Logs db db') (old : m.NoNewGames m') : Saves db m m' db' where
  battles := battles
  tournaments := tournaments
  nextId := logs.nextId
  fresh g hg hnone := absurd hnone (old g hg)
  finishes id := (logs.finishes id).trans (Nat.le_add_right _ _)
  ties id := (logs.ties id).trans (Nat.le_add_right _ _)

/-- What no match or tournament depends on. -/
theorem Path.other (battles : db'.battles = db.battles) (tournaments : db'.tournaments = db.tournaments)
    (logs : Logs db db') : Path organizer scope db db' := .single (.other battles tournaments logs)

/-- An action recorded after a sequence of changes. -/
theorem Path.record (h : Path organizer scope db db') {a : Action} (hfinish : a.action ≠ .finish)
    (htie : a.action ≠ .tie) : Path organizer scope db (db'.record a) :=
  h.tail (.other rfl rfl ((Logs.refl db').record hfinish htie))

/-- A change of one row, saved. -/
theorem Path.row (here : db.match? m.id = some m) (own : scope m.id) (step : RowStep organizer m m')
    (old : m.NoNewGames m') : Path organizer scope db (db.putMatch m') :=
  .single (.row here own step (.of_logs rfl rfl (.of_actions rfl (le_refl _)) old))

theorem Db.match?_putMatch (here : db.match? m.id = some m) (hid : m'.id = m.id) :
    (db.putMatch m').match? m.id = some m' := by
  rw [← hid]
  exact Table.get?_put_self (b := m) (by rw [show Keyed.key m' = m.id from hid]; exact here)

theorem Db.putMatch_putMatch (db : Db) (hid : m'.id = m.id) : (db.putMatch m).putMatch m' = db.putMatch m' := by
  have h : (db.battles.put m).put m' = db.battles.put m' := Table.put_put hid.symm
  simp only [Db.putMatch, h]

/-! ## The next game -/

theorem start_le_foldl_max : ∀ (l : List ℕ) (start : ℕ), start ≤ l.foldl max start
  | [], _ => le_refl _
  | x :: l, start => (le_max_left start x).trans (start_le_foldl_max l (max start x))

theorem le_foldl_max : ∀ {l : List ℕ} {start n : ℕ}, n ∈ l → n ≤ l.foldl max start
  | [], _, _, h => absurd h List.not_mem_nil
  | x :: l, start, n, h => by
    rcases List.mem_cons.mp h with rfl | h
    · exact (le_max_right start n).trans (start_le_foldl_max l _)
    · exact le_foldl_max (l := l) h

/-- No game has a higher number than the last. -/
theorem Match.le_lastNumber {g : Game} (hg : g ∈ m.games.rows) : g.number ≤ m.lastNumber :=
  le_foldl_max (List.mem_map_of_mem hg)

/-- The tables go from `db` to `db'` changing the games of one match, whose row goes from `m` to `m'`. -/
structure Continues (organizer : Bool) (scope : MatchId → Prop) (db db' : Db) (m m' : Match) : Prop where
  path : Path organizer scope db db'
  here : db'.match? m.id = some m'
  row : ∃ games, m' = { m with games }

theorem Continues.refl (here : db.match? m.id = some m) : Continues organizer scope db db m m :=
  ⟨.refl, here, _, rfl⟩

theorem Continues.trans {db'' : Db} {m'' : Match} (h : Continues organizer scope db db' m m')
    (h' : Continues organizer scope db' db'' m' m'') : Continues organizer scope db db'' m m'' := by
  obtain ⟨games, rfl⟩ := h.row
  obtain ⟨games', rfl⟩ := h'.row
  exact ⟨h.path.trans h'.path, h'.here, _, rfl⟩

theorem Continues.id (h : Continues organizer scope db db' m m') : m'.id = m.id := by
  obtain ⟨_, rfl⟩ := h.row
  rfl

theorem Continues.version (h : Continues organizer scope db db' m m') : m'.version = m.version := by
  obtain ⟨_, rfl⟩ := h.row
  rfl

theorem Continues.record (h : Continues organizer scope db db' m m') {a : Action} (hfinish : a.action ≠ .finish)
    (htie : a.action ≠ .tie) : Continues organizer scope db (db'.record a) m m' :=
  ⟨h.path.record hfinish htie, h.here, h.row⟩

variable {s t : Txn}

variable (organizer) in
/-- A prepared game created under the next key. -/
theorem addGame_continues {g : Game} (hdb : WellFormed db) (here : db.match? m.id = some m) (own : scope m.id)
    (hid : g.id = db.nextId) (hstatus : g.status = .prepared) (hcontest : g.contest = none) :
    Continues organizer scope db
        (({ db with nextId := db.nextId + 1 } : Db).putMatch { m with games := m.games.add g }) m
        { m with games := m.games.add g } ∧
      (m.games.add g).get? g.id = some g := by
  have hfresh : m.games.get? g.id = none := by
    rw [Table.get?_eq_none_iff]
    exact fun x hx heq => absurd (hdb.games m (Table.mem_of_get? here) x hx) (not_lt.mpr (hid ▸ le_of_eq heq.symm))
  refine ⟨⟨.single (.row here own (.addGame g hstatus hcontest hfresh) ?_), ?_, _, rfl⟩,
    Table.get?_add_self hfresh⟩
  · refine ⟨rfl, rfl, Nat.le_succ _, fun x hx hnone => ?_, fun id => ?_, fun id => ?_⟩
    · rcases Table.mem_add hx with rfl | hx
      · rw [hid]
        exact ⟨le_refl _, Nat.lt_succ_self _⟩
      · rw [show m.games.get? x.id = some x from Table.get?_of_mem hx] at hnone
        cases hnone
    · exact Nat.le_add_right _ _
    · exact Nat.le_add_right _ _
  · exact Db.match?_putMatch (show ({ db with nextId := db.nextId + 1 } : Db).match? m.id = some m from here) rfl

variable (organizer) in
theorem newGame_continues {r : Match × Game} (h : newGame m s = .ok r t) (hdb : WellFormed s.db)
    (here : s.db.match? m.id = some m) (own : scope m.id) :
    Continues organizer scope s.db t.db m r.1 ∧ r.1.games.get? r.2.id = some r.2 ∧ r.2.status = .prepared := by
  obtain ⟨m', g⟩ := r
  obtain ⟨hg, hm, rfl⟩ := newGame_ok.mp h
  dsimp only at hg hm
  subst hg hm
  obtain ⟨hcontinues, hget⟩ := addGame_continues organizer
    (g := { id := s.db.nextId, number := m.lastNumber + 1 }) hdb here own rfl rfl rfl
  exact ⟨hcontinues, hget, rfl⟩

theorem preparedGame_mem {game : Game} (h : m.preparedGame = some game) :
    m.games.get? game.id = some game ∧ game.status = .prepared := by
  have hmem := List.mem_filter.mp (List.mem_of_find?_eq_some h)
  exact ⟨Table.get?_of_mem hmem.1, by simpa using hmem.2⟩

variable (organizer) in
theorem ensureNextGame_continues {r : Match × Game} (h : ensureNextGame m s = .ok r t) (hdb : WellFormed s.db)
    (here : s.db.match? m.id = some m) (own : scope m.id) :
    Continues organizer scope s.db t.db m r.1 ∧ r.1.games.get? r.2.id = some r.2 ∧ r.2.status = .prepared := by
  unfold ensureNextGame at h
  cases hprepared : m.preparedGame with
  | some game =>
      simp only [hprepared, pure_ok] at h
      obtain ⟨rfl, rfl⟩ := h
      exact ⟨.refl here, preparedGame_mem hprepared⟩
  | none =>
      simp only [hprepared] at h
      exact newGame_continues _ h hdb here own

/-- A prepared game gets other problems. -/
theorem GameStep.problems {g : Game} (problems : List GameProblem) : GameStep organizer g { g with problems } :=
  ⟨rfl, rfl, fun _ => rfl, fun h hclosed => hclosed h, .inl ⟨rfl, rfl⟩⟩

variable (organizer) in
theorem setGame_continues {g g' : Game} (here : db.match? m.id = some m) (own : scope m.id)
    (hg : m.games.get? g.id = some g) (hstep : GameStep organizer g g') :
    Continues organizer scope db (db.putMatch (m.setGame g')) m (m.setGame g') :=
  ⟨.row here own (.game m.version hg hstep (le_refl _)) (.setGame hg hstep.id), Db.match?_putMatch here rfl, _, rfl⟩

variable (organizer) in
theorem fillFromBank_continues {site : Site} {actor : Option ProfileId} {force : Bool} {game : Game}
    {r : Match × Bool} (h : fillFromBank site actor force m game s = .ok r t)
    (here : s.db.match? m.id = some m) (own : scope m.id) (hgame : m.games.get? game.id = some game) :
    Continues organizer scope s.db t.db m r.1 ∧
      ((r = (m, false) ∧ ∀ problems, bankOffer site s.db actor force m game ≠ some (.ok problems)) ∨
        ∃ problems, bankOffer site s.db actor force m game = some (.ok problems) ∧
          r = (m.setGame { game with problems }, true)) := by
  simp [fillFromBank] at h
  cases hoffer : bankOffer site s.db actor force m game with
  | none =>
      simp only [hoffer, pure_ok] at h
      obtain ⟨rfl, rfl⟩ := h
      exact ⟨.refl here, .inl ⟨rfl, fun _ h => by cases h⟩⟩
  | some offer =>
      cases offer with
      | error e =>
          simp [hoffer] at h
          obtain ⟨rfl, rfl⟩ := h
          exact ⟨(Continues.refl here).record (by simp) (by simp), .inl ⟨rfl, fun _ h => by cases h⟩⟩
      | ok problems =>
          simp [hoffer] at h
          obtain ⟨rfl, rfl⟩ := h
          exact ⟨(setGame_continues _ here own hgame (.problems problems)).record (by simp) (by simp),
            .inr ⟨problems, rfl, rfl⟩⟩

variable (organizer) in
theorem nextGameFromBank_continues {site : Site} {actor : Option ProfileId} (hdb : WellFormed s.db)
    (h : nextGameFromBank site actor m s = .ok m' t) (here : s.db.match? m.id = some m) (own : scope m.id) :
    Continues organizer scope s.db t.db m m' := by
  simp only [nextGameFromBank, fromBank, bind_ok, pure_ok] at h
  obtain ⟨r, u, hensure, r', u', hfill, rfl, rfl⟩ := h
  obtain ⟨hcontinues, hgame, _⟩ := ensureNextGame_continues organizer hensure hdb here own
  have hhere : u.db.match? r.1.id = some r.1 := by
    rw [hcontinues.id]
    exact hcontinues.here
  exact hcontinues.trans (fillFromBank_continues _ hfill hhere (by rwa [hcontinues.id]) hgame).1

/-! ## Moving players forward -/

variable {u : Unit} {now : Time} {site : Site} {actor : Option ProfileId}

theorem place_placed {id : MatchId} {slot : Slot} {p : ProfileId} {seed : Option ℕ}
    (h : place id slot (some p) seed s = .ok u t) : Placed seed s.db (some (id, slot)) (some p) t.db := by
  obtain ⟨n, here, hunplayed, rfl⟩ := place_ok.mp h
  simpa using Placed.placed slot p here hunplayed

theorem checkFinished_checked {id : TournamentId} (h : checkFinished now id s = .ok u t) :
    Checked id s.db t.db := by
  obtain ⟨row, here, ⟨hrunning, hdone, rfl⟩ | ⟨hgoing, rfl⟩⟩ := checkFinished_ok.mp h
  · let row' : Tournament :=
      { row with status := .finished, finishedAt := some now, version := row.version + 1 }
    rw [Txn.wrote_db, Txn.wrote_db, Txn.holding_db]
    exact @Checked.finished id s.db row row' _ here hrunning hdone rfl rfl rfl rfl rfl
      (((Logs.refl s.db).putTournament row').record (by simp) (by simp))
  · rw [Txn.holding_db]
    refine .same fun row' here' => ?_
    obtain rfl : row' = row := Option.some.inj (here'.symm.trans here)
    exact hgoing

/-- The second half of `advance`: whoever lost, then the tournament. -/
theorem loser_placed {id : TournamentId} {w : Slot}
    (h : (match m.loserNextMatch with
      | none => checkFinished now id
      | some (next, slot) =>
        if (m.players.get w.other).isSome = true then do
          place next slot (m.players.get w.other) (m.seeds.get w.other)
          checkFinished now id
        else checkFinished now id) s = .ok u t) :
    ∃ db2, Placed (m.seeds.get w.other) s.db m.loserNextMatch (m.players.get w.other) db2 ∧ Checked id db2 t.db := by
  cases htarget : m.loserNextMatch with
  | none =>
      simp only [htarget] at h
      exact ⟨s.db, .nowhere _, checkFinished_checked h⟩
  | some target =>
      cases hq : m.players.get w.other with
      | none =>
          simp only [htarget, hq] at h
          exact ⟨s.db, .nobody _, checkFinished_checked h⟩
      | some q =>
          simp only [htarget, hq, Option.isSome_some, if_true, bind_ok] at h
          obtain ⟨_, v, hplace, hcheck⟩ := h
          exact ⟨v.db, place_placed hplace, checkFinished_checked hcheck⟩

theorem advance_advanced {w : Slot} (h : advance now m s = .ok u t) (hw : m.winnerSlot = some w)
    (hseated : (m.players.get w).isSome = true) : Advanced m s.db t.db := by
  unfold advance at h
  cases htournament : m.tournament with
  | none =>
      simp only [htournament, pure_ok] at h
      rw [h.2]
      exact .quick htournament
  | some id =>
      simp only [htournament, hw] at h
      obtain ⟨p, hp⟩ := Option.isSome_iff_exists.mp hseated
      cases hnext : m.nextMatch with
      | none =>
          simp only [hnext] at h
          obtain ⟨db2, hplaced, hchecked⟩ := loser_placed h
          exact .onward htournament hw hseated (hnext ▸ .nowhere _) hplaced hchecked
      | some target =>
          simp only [hnext, bind_ok] at h
          obtain ⟨_, v, hplace, h⟩ := h
          obtain ⟨db2, hplaced, hchecked⟩ := loser_placed h
          refine .onward htournament hw hseated ?_ hplaced hchecked
          rw [hp] at hplace ⊢
          rw [hnext]
          exact place_placed hplace

theorem afterDecided_db (h : afterDecided m s = .ok u t) : t.db = s.db := by
  simp [afterDecided] at h
  rcases h with ⟨_, rfl⟩ | ⟨_, rfl⟩ <;> rfl

/-! ## Deciding a match -/

@[simp] theorem dropUnplayed_ok : dropUnplayed m s = .ok m' t ↔
    m' = m.dropUnplayed ∧ t = (s.wrote (·.forgetUnplayed m)).wrote (·.putMatch m.dropUnplayed) := by
  simp only [dropUnplayed, bind_ok, write_ok, saveMatch_ok, pure_ok]
  constructor
  · rintro ⟨_, _, rfl, _, _, rfl, rfl, rfl⟩
    exact ⟨rfl, rfl⟩
  · rintro ⟨rfl, rfl⟩
    exact ⟨⟨⟩, _, rfl, ⟨⟩, _, rfl, rfl, rfl⟩

theorem le_bump_version (m : Match) (system : Bool) : m.version ≤ (m.bump system).version := by
  cases system
  · exact Nat.le_succ _
  · exact le_refl _

theorem bump_eq (m : Match) (system : Bool) : m.bump system = { m with version := (m.bump system).version } := by
  cases system <;> rfl

/-- The row a decided match is left with, and where it is saved before its players move on. -/
theorem decideMatch_saved {slot : Slot} {reason : DecidedReason} (h : decideMatch now actor m slot reason s = .ok m' t)
    (hseated : (m.players.get slot).isSome = true) :
    m' = (m.award slot reason now (m.bump actor.isNone).version).dropUnplayed ∧
      ∃ db1, db1.battles = s.db.battles.put m' ∧ db1.tournaments = s.db.tournaments ∧ Logs s.db db1 ∧
        Advanced m' db1 t.db := by
  have hbump : Match.bump { m with status := .decided, winnerSlot := some slot, decidedReason := some reason,
                                   decidedAt := some now } actor.isNone =
      m.award slot reason now (m.bump actor.isNone).version := by cases actor <;> rfl
  simp only [decideMatch, hbump, bind_ok, saveMatch_ok, dropUnplayed_ok, logMatch_ok, refreshLockOnCommit_ok,
    pure_ok] at h
  obtain ⟨_, _, rfl, _, _, ⟨rfl, rfl⟩, _, _, rfl, _, u1, hadvance, _, u2, hafter, _, _, rfl, rfl, rfl⟩ := h
  have hadvanced := advance_advanced (w := slot) hadvance rfl hseated
  rw [← afterDecided_db hafter] at hadvanced
  refine ⟨rfl, _, ?_, ?_, ?_, hadvanced⟩
  · exact Table.put_put rfl
  · rfl
  · simp only [Txn.wrote_db]
    exact ((((Logs.refl s.db).putMatch _).forgetUnplayed _).putMatch _).record (by simp) (by simp)

/-- A match saved with the result of one of its games recorded. -/
theorem Saves.recorded {a : Action} {g g' : Game} (battles : db'.battles = db.battles.put m')
    (tournaments : db'.tournaments = db.tournaments) (logs : Logs (db.record a) db') (old : m.NoNewGames m')
    (here : m.games.get? g.id = some g) (after : m'.games.get? g.id = some g') (about : a.game = some g.id)
    (finish : a.action = .finish → g'.status = .finished ∧ g.status ≠ .finished)
    (tie : a.action = .tie → g'.status = .tie ∧ g.status ≠ .tie) : Saves db m m' db' where
  battles := battles
  tournaments := tournaments
  nextId := logs.nextId
  fresh x hx hnone := absurd hnone (old x hx)
  finishes id := by
    refine (logs.finishes id).trans ?_
    rw [Db.recorded_record]
    refine Nat.add_le_add_left ?_ _
    by_cases h : a.action = .finish ∧ a.game = some id
    · obtain rfl : g.id = id := Option.some.inj (about.symm.trans h.2)
      obtain ⟨hafter, hbefore⟩ := finish h.1
      rw [if_pos h, if_pos ⟨by simp [Match.gameIn, after, hafter], by simp [Match.gameIn, here, hbefore]⟩]
    · rw [if_neg h]
      exact Nat.zero_le _
  ties id := by
    refine (logs.ties id).trans ?_
    rw [Db.recorded_record]
    refine Nat.add_le_add_left ?_ _
    by_cases h : a.action = .tie ∧ a.game = some id
    · obtain rfl : g.id = id := Option.some.inj (about.symm.trans h.2)
      obtain ⟨hafter, hbefore⟩ := tie h.1
      rw [if_pos h, if_pos ⟨by simp [Match.gameIn, after, hafter], by simp [Match.gameIn, here, hbefore]⟩]
    · rw [if_neg h]
      exact Nat.zero_le _

/-- The row of `m` has a later version. -/
def Bumped (db : Db) (m : Match) : Prop := ∀ m', db.match? m.id = some m' → m.version < m'.version

variable (organizer) in
theorem Bumped.follows (hid : m'.id = m.id) (here : db.match? m'.id = some m') (hlt : m.version < m'.version)
    (h : Follows (Match.Evolves organizer) db db') : Bumped db' m := by
  intro x hx
  rw [← hid] at hx
  exact lt_of_lt_of_le hlt (h.rel here hx).version

/-- The tables go from `db` to `db'` as the game `id` of a match moves on. The caller goes on with the row `m'`, which
    is the saved one as long as the game accepts submissions. -/
structure Ticks (organizer : Bool) (scope : MatchId → Prop) (db db' : Db) (m m' : Match) (id : GameId) : Prop where
  path : Path organizer scope db db'
  static : m'.static = m.static
  here : db'.match? m.id = some m' ∨ ∀ x, m'.games.get? id = some x → x.status.opened = false

theorem Continues.ticks (h : Continues organizer scope db db' m m') (id : GameId) :
    Ticks organizer scope db db' m m' id := by
  refine ⟨h.path, ?_, .inl h.here⟩
  obtain ⟨_, rfl⟩ := h.row
  rfl

theorem Advanced.follows (h : Advanced m db db') : Follows (Match.Evolves organizer) db db' :=
  .of_maps h.nextId (h.maps (Match.Evolves.covers organizer fun _ => True))

theorem lt_bump_version (m : Match) (hactor : actor.isSome = true) :
    m.version < (m.bump actor.isNone).version := by
  cases actor with
  | none => cases hactor
  | some a => exact Nat.lt_succ_self _

/-- Both players of a match some of whose games was played. -/
theorem seated_of_played {g : Game} (hm : m.Sound) (hg : m.games.get? g.id = some g)
    (hplayed : g.status ≠ .prepared) (slot : Slot) : (m.players.get slot).isSome = true := by
  have hready := hm.seated (Match.started_iff.mpr
    ⟨g, Table.mem_of_get? hg, (hm.played g (Table.mem_of_get? hg)).mpr hplayed⟩)
  rw [Match.ready, Bool.and_eq_true] at hready
  cases slot
  · exact hready.1
  · exact hready.2

theorem Game.closeContest_contest (g : Game) (moment : Time) :
    (g.closeContest moment).contest.isSome = g.contest.isSome := by
  simp [Game.closeContest]

/-- What the players sent depends on the contest alone, and in it only on their submissions. -/
theorem Game.submissions_map {g g' : Game} {f : Contest → Contest} (h : g'.contest = g.contest.map f)
    (hf : ∀ c, (f c).attempts = c.attempts) : g'.submissions = g.submissions := by
  funext slot
  rw [Game.submissions, Game.submissions, Game.attempts, Game.attempts, h]
  cases g.contest with
  | none => rfl
  | some c => simp only [Option.map_some, Option.elim_some, hf]

theorem Game.submissions_congr {g g' : Game} (h : g'.contest = g.contest) : g'.submissions = g.submissions :=
  Game.submissions_map (f := fun c => c) (by rw [h, Option.map_id']) fun _ => rfl

theorem Game.closeContest_submissions (g : Game) (moment : Time) :
    (g.closeContest moment).submissions = g.submissions := by
  refine Game.submissions_map rfl fun c => ?_
  split <;> rfl

theorem Game.launch_submissions (g : Game) (rules : Rules) (now : Time) (slot : Slot) :
    (g.launch rules now).submissions slot = [] := by
  cases slot <;> rfl

theorem get?_setGame {g g' : Game} (hg : m.games.get? g.id = some g) (hid : g'.id = g.id) :
    (m.setGame g').games.get? g.id = some g' := by
  rw [← hid]
  exact Table.get?_put_self (b := g) (by rw [show Keyed.key g' = g.id from hid]; exact hg)

variable (organizer) in
/-- `_finish`, of a game being played or of a tied one, in a match that goes on. -/
theorem finish_path {slot : Slot} {reason : Reason} {result : Pair Summary} {g game : Game}
    (h : finish site actor m game slot reason result now s = .ok m' t) (hdb : WellFormed s.db)
    (here : s.db.match? m.id = some m) (own : scope m.id) (hg : m.games.get? g.id = some g)
    (hid : game.id = g.id) (hcontest : game.contest = g.contest)
    (before : g.status.active = true ∨ (g.status = .tie ∧ organizer = true))
    (alone : g.status.active = true ∨ m.inPlay = false) (going : m.isOver = false) :
    Ticks organizer scope s.db t.db m m' g.id ∧ (actor.isSome = true → Bumped t.db m) := by
  let g' := game.finish slot reason result now actor
  let m1 := ((m.setGame g').win slot).bump actor.isNone
  have hwon : GameWon organizer slot g g' :=
    ⟨hid, (Game.closeContest_contest _ _).trans (congrArg _ hcontest), (Game.closeContest_submissions _ _).trans
      (Game.submissions_congr hcontest), before, rfl, rfl⟩
  have hnew : (m.setGame g').games.get? g.id = some g' := get?_setGame hg hid
  have hm1 : m1 = { (m.setGame g').win slot with version := m1.version } := bump_eq _ _
  have hversion : m.version ≤ m1.version := le_bump_version ((m.setGame g').win slot) actor.isNone
  let a : Action := { action := .finish, actor, «match» := some m1.id, game := some g'.id, tournament := m1.tournament }
  have habout : a.game = some g.id := congrArg some hid
  have hnot : (m.setGame g').isOver = false := going
  have hstatic : m1.static = m.static := by rw [hm1]; rfl
  have hgames : m1.games = (m.setGame g').games := by rw [hm1]; rfl
  have hold : m.NoNewGames m1 := by
    have hset : m.NoNewGames (m.setGame g') := .setGame hg hid
    intro x hx
    rw [hgames] at hx
    exact hset x hx
  have haward : ∀ v, m1.award slot .games now v = ((m.setGame g').win slot).award slot .games now v := fun v => by
    rw [hm1]
    rfl
  let u1 := (s.wrote (·.putMatch m1)).wrote (·.record a)
  have hlogs : Logs (s.db.record a) u1.db := .of_actions rfl (le_refl _)
  have hbattles : u1.db.battles = s.db.battles.put m1 := rfl
  -- the win recorded, then either the match or its next game
  have hrest : (if m1.winsNeeded ≤ m1.mostWins then decideMatch now actor m1 slot .games else do
      let m ← nextGameFromBank site actor m1
      refreshLockOnCommit
      return m) u1 = .ok m' t := by
    simp only [finish] at h
    rw [if_neg (by rw [hnot]; simp)] at h
    simp only [bind_ok, saveMatch_ok, logMatch_ok] at h
    obtain ⟨_, _, rfl, _, _, rfl, h⟩ := h
    exact h
  by_cases hover : m1.winsNeeded ≤ m1.mostWins
  · rw [if_pos hover] at hrest
    have hseated : (m1.players.get slot).isSome = true := by
      rw [show m1.players = m.players by rw [hm1]; rfl]
      exact seated_of_played (hdb.sound m (Table.mem_of_get? here)) hg hwon.not_prepared slot
    obtain ⟨hm', db2, hbattles2, htournaments2, hlogs2, hadvanced⟩ := decideMatch_saved hrest hseated
    have hdecides : Decides organizer m m' := by
      rw [hm', haward]
      exact .game .games now _ hg hwon alone going (hversion.trans (le_bump_version m1 actor.isNone))
    have hgame : m'.games.get? g.id = some g' := by
      rw [hm']
      exact Table.get?_filter_of_pos (hgames ▸ hnew) rfl
    have hbattles2' : db2.battles = s.db.battles.put m' := by
      rw [hbattles2, hbattles]
      exact Table.put_put ((Match.id_of_static hstatic).trans (Match.id_of_static hdecides.static).symm)
    have hsaves : Saves s.db m m' db2 := by
      refine .recorded (a := a) hbattles2' htournaments2 (hlogs.trans hlogs2) (fun x hx => ?_) hg hgame habout
        (fun _ => ⟨rfl, hwon.not_finished⟩) (fun h => by cases h)
      rw [hm'] at hx
      exact hold x (Match.mem_dropUnplayed.mp hx).1
    refine ⟨⟨.single (.decide here own hdecides hsaves hadvanced), hdecides.static, .inr ?_⟩, fun hactor => ?_⟩
    · intro x hx
      rw [hgame] at hx
      cases hx
      rfl
    · refine Bumped.follows organizer (Match.id_of_static hdecides.static : m'.id = m.id) ?_ ?_ hadvanced.follows
      · rw [Db.match?, hbattles2']
        refine Table.get?_put_self (b := m) ?_
        rw [show Keyed.key m' = m.id from Match.id_of_static hdecides.static]
        exact here
      · rw [hm']
        exact lt_of_le_of_lt hversion (lt_bump_version m1 hactor)
  · rw [if_neg hover] at hrest
    simp only [bind_ok, refreshLockOnCommit_ok, pure_ok] at hrest
    obtain ⟨m2, u2, hnext, _, _, rfl, rfl, rfl⟩ := hrest
    have hstep : RowStep organizer m m1 := by
      rw [hm1]
      refine .win m1.version hg hwon going ?_ hversion
      have : ((m.setGame g').win slot).mostWins < ((m.setGame g').win slot).winsNeeded := by
        rw [hm1] at hover
        exact not_le.mp hover
      exact this
    have hsaves : Saves s.db m m1 u1.db :=
      .recorded (a := a) hbattles rfl hlogs hold hg (hgames ▸ hnew) habout (fun _ => ⟨rfl, hwon.not_finished⟩)
        (fun h => by cases h)
    have hpath : Path organizer scope s.db u1.db := .single (.row here own hstep hsaves)
    have hhere1 : u1.db.match? m1.id = some m1 := by
      rw [Match.id_of_static hstatic]
      exact Db.match?_putMatch here (Match.id_of_static hstatic)
    have hown1 : scope m1.id := by rwa [Match.id_of_static hstatic]
    have hcontinues := nextGameFromBank_continues organizer (hdb.path hpath) hnext hhere1 hown1
    refine ⟨⟨hpath.trans hcontinues.path, (hcontinues.ticks g.id).static.trans hstatic, .inl ?_⟩, fun hactor => ?_⟩
    · rw [← Match.id_of_static hstatic]
      exact hcontinues.here
    · exact Bumped.follows _ (Match.id_of_static hstatic) hhere1 (lt_bump_version ((m.setGame g').win slot) hactor)
        (hcontinues.path.follows (Match.Evolves.covers organizer scope) (hdb.path hpath))

theorem GameStatus.Onward.of_active {x y : GameStatus} (hx : x.active = true) (hy : 3 < y.rank) :
    x.Onward organizer y := by
  refine .inr ⟨?_, ?_⟩
  · refine lt_of_le_of_lt ?_ hy
    revert hx
    cases x <;> simp [GameStatus.active, GameStatus.rank]
  · rintro rfl
    cases hx

/-- A live game, after its countdown. -/
theorem GameStep.live {g : Game} (h : g.status = .countdown) : GameStep organizer g { g with status := .live } where
  id := rfl
  contest := rfl
  submissions _ := rfl
  closed h := by cases h
  status := by
    refine .inr ⟨.inl (by rw [h]; rfl), (by decide : GameStatus.live ≠ .finished), ?_⟩
    rw [h]
    exact .inr ⟨(by decide : GameStatus.rank .countdown < GameStatus.rank .live), by simp⟩

/-- A game being played, waiting for verdicts from now on. -/
theorem GameStep.verify {g : Game} (now : Time) (active : g.status.active = true) (h : g.status ≠ .verifying) :
    GameStep organizer g (g.verify now) where
  id := rfl
  contest := Game.closeContest_contest _ _
  submissions _ := Game.closeContest_submissions _ _
  closed _ _ := rfl
  status := by
    refine .inr ⟨.inl active, (by decide : GameStatus.verifying ≠ .finished), ?_⟩
    show g.status.Onward organizer .verifying
    revert active h
    cases g.status <;> simp [GameStatus.active, GameStatus.Onward, GameStatus.rank]

/-- A game being played, tied. -/
theorem GameStep.tie {g : Game} (result : Pair Summary) (now : Time) (active : g.status.active = true) :
    GameStep organizer g (g.settle .tie result now) where
  id := rfl
  contest := Game.closeContest_contest _ _
  submissions _ := Game.closeContest_submissions _ _
  closed h := by cases h
  status := .inr ⟨.inl active, (by decide : GameStatus.tie ≠ .finished),
    .of_active active (by decide : 3 < GameStatus.rank .tie)⟩

/-- `_tie`, of a game being played. -/
theorem tieGame_path {result : Pair Summary} {g : Game} (h : tieGame site actor m g result now s = .ok m' t)
    (hdb : WellFormed s.db) (here : s.db.match? m.id = some m) (own : scope m.id)
    (hg : m.games.get? g.id = some g) (active : g.status.active = true) :
    Ticks organizer scope s.db t.db m m' g.id ∧ (actor.isSome = true → Bumped t.db m) := by
  let g' := g.settle .tie result now
  let m1 := (m.setGame g').bump actor.isNone
  have hstep : GameStep organizer g g' := .tie result now active
  have hnew : (m.setGame g').games.get? g.id = some g' := get?_setGame hg rfl
  have hm1 : m1 = { m.setGame g' with version := m1.version } := bump_eq _ _
  have hversion : m.version ≤ m1.version := le_bump_version (m.setGame g') actor.isNone
  have hgames : m1.games = (m.setGame g').games := by rw [hm1]
  have hstatic : m1.static = m.static := by rw [hm1]; rfl
  let a : Action := { action := .tie, actor, «match» := some m1.id, game := some g'.id, tournament := m1.tournament }
  let u1 := (s.wrote (·.putMatch m1)).wrote (·.record a)
  have hold : m.NoNewGames m1 := by
    have hset : m.NoNewGames (m.setGame g') := .setGame hg rfl
    intro x hx
    rw [hgames] at hx
    exact hset x hx
  have hsaves : Saves s.db m m1 u1.db := by
    have hlogs : Logs (s.db.record a) u1.db := .of_actions rfl (le_refl _)
    refine .recorded (a := a) rfl rfl hlogs hold hg (hgames ▸ hnew) rfl (fun h => by cases h) fun _ => ⟨rfl, ?_⟩
    intro heq
    rw [heq] at active
    cases active
  have hrow : RowStep organizer m m1 := by
    rw [hm1]
    exact .game m1.version hg hstep hversion
  have hpath : Path organizer scope s.db u1.db := .single (.row here own hrow hsaves)
  have hhere1 : u1.db.match? m1.id = some m1 := by
    rw [Match.id_of_static hstatic]
    exact Db.match?_putMatch here (Match.id_of_static hstatic)
  have hover : m1.isOver = false := by
    rw [hm1]
    exact (hdb.sound m (Table.mem_of_get? here)).going_of_active hg active
  have hrest : (do
      let m ← nextGameFromBank site actor m1
      refreshLockOnCommit
      return m) u1 = .ok m' t := by
    simp only [tieGame, bind_ok, saveMatch_ok, logMatch_ok] at h
    obtain ⟨_, _, rfl, _, _, rfl, h⟩ := h
    rw [if_neg (by rw [show Match.isOver _ = false from hover]; simp)] at h
    exact h
  simp only [bind_ok, refreshLockOnCommit_ok, pure_ok] at hrest
  obtain ⟨m2, u2, hnext, _, _, rfl, rfl, rfl⟩ := hrest
  have hown1 : scope m1.id := by rwa [Match.id_of_static hstatic]
  have hcontinues := nextGameFromBank_continues organizer (hdb.path hpath) hnext hhere1 hown1
  refine ⟨⟨hpath.trans hcontinues.path, (hcontinues.ticks g.id).static.trans hstatic, .inl ?_⟩, fun hactor => ?_⟩
  · rw [← Match.id_of_static hstatic]
    exact hcontinues.here
  · exact Bumped.follows _ (Match.id_of_static hstatic) hhere1 (lt_bump_version (m.setGame g') hactor)
      (hcontinues.path.follows (Match.Evolves.covers organizer scope) (hdb.path hpath))

/-! ## The game by itself -/

/-- A game whose submissions are closed is not live. -/
theorem decide_closed_ne_live (attempts : Pair (List Scoring.Attempt)) (problems : List (ℕ × ℕ)) (rules : Rules)
    (startedAt endsAt now : Time) :
    (Scoring.decide attempts problems rules startedAt endsAt now true).outcome ≠ .live := by
  unfold Scoring.decide
  simp only [Bool.not_true, Bool.false_and, Bool.false_eq_true, if_false]
  split_ifs <;> simp

theorem evaluate_active {g : Game} {decision : Decision} (h : evaluate g now = some decision) :
    g.status.active = true := by
  unfold evaluate at h
  cases hactive : g.status.active with
  | true => rfl
  | false => simp [hactive] at h

/-- A game waiting for verdicts does not go back to live. -/
theorem evaluate_live {g : Game} {decision : Decision} (h : evaluate g now = some decision)
    (hlive : decision.outcome = .live) (hclosed : g.status = .verifying → g.closedAt.isSome = true) :
    g.status = .countdown ∨ g.status = .live := by
  have hactive := evaluate_active h
  cases hstatus : g.status with
  | countdown => exact .inl rfl
  | live => exact .inr rfl
  | verifying =>
      unfold evaluate at h
      rw [hactive] at h
      rcases hs : g.startedAt with _ | startedAt <;> rcases he : g.endsAt with _ | endsAt <;>
        simp only [hs, he, Bool.not_true, Bool.false_eq_true, if_false] at h
      · cases h
      · cases h
      · cases h
      · rw [hclosed hstatus] at h
        cases h
        exact absurd hlive (decide_closed_ne_live _ _ _ _ _ _)
  | _ =>
      rw [hstatus] at hactive
      cases hactive

variable (organizer) in
/-- `_tick_locked`. -/
theorem tickLocked_path {g : Game} (h : tickLocked site m g now s = .ok m' t) (hdb : WellFormed s.db)
    (here : s.db.match? m.id = some m) (own : scope m.id) (hg : m.games.get? g.id = some g) :
    Ticks organizer scope s.db t.db m m' g.id := by
  have hm := hdb.sound m (Table.mem_of_get? here)
  have hsame : m' = m ∧ t = s → Ticks organizer scope s.db t.db m m' g.id := by
    rintro ⟨rfl, rfl⟩
    exact (Continues.refl here).ticks _
  unfold tickLocked at h
  cases hdecision : evaluate g now with
  | none =>
      simp only [hdecision, pure_ok] at h
      exact hsame h
  | some decision =>
      have hactive := evaluate_active hdecision
      simp only [hdecision] at h
      by_cases hexpected : expected decision = some g.status
      · rw [if_pos hexpected, pure_ok] at h
        exact hsame h
      · rw [if_neg hexpected] at h
        unfold applyDecision at h
        cases houtcome : decision.outcome with
        | countdown =>
            simp only [houtcome, pure_ok] at h
            exact hsame h
        | live =>
            simp only [houtcome] at h
            rcases evaluate_live hdecision houtcome (hm.closed g (Table.mem_of_get? hg)) with hstatus | hstatus
            · rw [if_neg (by rw [hstatus]; decide)] at h
              simp only [bind_ok, saveMatch_ok, pure_ok] at h
              obtain ⟨_, _, rfl, rfl, rfl⟩ := h
              exact (setGame_continues _ here own hg (.live hstatus)).ticks _
            · rw [if_pos hstatus, pure_ok] at h
              exact hsame h
        | verifying =>
            simp only [houtcome] at h
            by_cases hverifying : g.status = .verifying
            · rw [if_pos hverifying, pure_ok] at h
              exact hsame h
            · rw [if_neg hverifying] at h
              simp only [bind_ok, saveMatch_ok, logMatch_ok, pure_ok] at h
              obtain ⟨_, _, rfl, _, _, rfl, rfl, rfl⟩ := h
              have hcontinues :=
                setGame_continues organizer here own hg (.verify now hactive hverifying)
              simp only [Txn.wrote_db]
              exact (hcontinues.record (by simp) (by simp)).ticks _
        | finish =>
            cases hwinner : decision.winner with
            | none =>
                simp only [houtcome, hwinner, pure_ok] at h
                exact hsame h
            | some winner =>
                cases hreason : decision.reason with
                | none =>
                    simp only [houtcome, hwinner, hreason, pure_ok] at h
                    exact hsame h
                | some reason =>
                    simp only [houtcome, hwinner, hreason] at h
                    exact (finish_path _ h hdb here own hg rfl rfl (.inl hactive) (.inl hactive)
                      (hm.going_of_active hg hactive)).1
        | tie =>
            simp only [houtcome] at h
            exact (tieGame_path h hdb here own hg hactive).1

end

end Arena
end CpcJudge
