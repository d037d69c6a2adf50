import CpcJudge.Arena.Turns
import CpcJudge.Arena.Refine

/-!
# `Arena.TurnOps` — every operation, turn by turn

The operations of `judge/arena/engine.py` and `judge/arena/tournament.py` as sequences of turns (`Op.turns`).
-/

namespace CpcJudge
namespace Arena

open Scoring (Attempt Decision)
open CpcJudge.Txn (bind_ok pure_ok)

section
variable {fair : Prop} {clear : Db → Match → Slot → Prop} {s t : Txn} {u : Unit} {db db' : Db} {m m' : Match}
  {id : MatchId} {site : Site} {actor : Option ProfileId} {version : Option ℤ}

/-- An operation takes the lock of its match first. -/
theorem turns_of_lockMatch {α : Type} {f : Match → ArenaM α} {a : α}
    (h : (do let m ← lockMatch id; f m) s = .ok a t) (hdb : WellFormed s.db)
    (hf : ∀ {m : Match} {s1 : Txn}, s1.db = s.db → s1.db.match? m.id = some m → m.Sound → m.Below s1.db →
      m.id = id → f m s1 = .ok a t → Turns fair clear s1.db t.db) : Turns fair clear s.db t.db := by
  obtain ⟨m, s1, hlock, h⟩ := bind_ok.mp h
  obtain ⟨here, rfl⟩ := lockMatch_ok.mp hlock
  have hid : m.id = id := Table.key_of_get? here
  have hmem := Table.mem_of_get? here
  have hs := s.holdingMatch_db m
  have := hf hs (by rw [hs, hid]; exact here) (hdb.sound m hmem) (hs ▸ hdb.games m hmem) hid h
  rwa [hs] at this

/-! ## Calling and starting -/

theorem busyElsewhere_put {p : ProfileId} (hid : m'.id = m.id) (hbattles : db'.battles = db.battles.put m') :
    busyElsewhere db' p (some m.id) = busyElsewhere db p (some m.id) := by
  have hrows : db'.battles.rows = db.battles.rows.map fun r => if r.id = m.id then m' else r := by
    rw [hbattles, ← hid]
    rfl
  rw [busyElsewhere, busyElsewhere, hrows, List.any_map]
  refine List.any_congr rfl fun r => ?_
  by_cases hr : r.id = m.id
  · simp [hr, hid]
  · simp [hr]

theorem callMatch_turns (h : callMatch site actor id version s = .ok u t) (hdb : WellFormed s.db)
    (hfair : fair → site.Draws) : Turns fair clear s.db t.db := by
  refine turns_of_lockMatch h hdb fun {m s} _ here _ below _ h => ?_
  simp only [checkVersion_bind] at h
  rcases Txn.ite_ok.mp h.2 with ⟨_, h⟩ | ⟨_, h⟩
  · rw [(pure_ok.mp h).2]
  · generalize hm1 : Match.bump _ = m1 at h
    simp only [refuseIf_bind, requireRunningTournament_bind, refuseBusy_bind, saveMatch_bind] at h
    obtain ⟨hready, _, hfreeA, hfreeB, h⟩ := h
    obtain ⟨m2, s2, hnext, h⟩ := bind_ok.mp h
    simp only [logMatch_bind, refreshLockOnCommit_ok] at h
    rw [not_or, not_not] at hready
    have hstays : m.Remains m1 := by
      rw [← hm1]
      refine .of_games rfl rfl rfl (fun hdecided => ?_) rfl
      rw [hready.1] at hdecided
      cases hdecided
    have hfree : m.Free s.db := fun slot => by
      cases slot
      · exact hfreeA
      · exact hfreeB
    have hid := Match.id_of_static hstays.static
    have hlock : Turns fair clear s.db (s.db.putMatch m1) :=
      .single (.lock here hstays hfree rfl (.of_eq rfl))
    have hhere1 : (s.db.putMatch m1).match? m1.id = some m1 := by
      rw [hid]
      exact Db.match?_putMatch here hid
    have hcarries : Carries fair clear (s.db.putMatch m1) s2.db m1 m2 :=
      nextGameFromBank_carries hnext hhere1 (fun x hx => below x (by rw [← hm1] at hx; exact hx)) hfair
    rw [h]
    exact Turns.then (hlock.trans hcarries.turns) rfl rfl

theorem startGame_turns {gameId : Option GameId} {force : Bool} {warnings : List Warning}
    (h : startGame site actor id gameId force version s = .ok warnings t) (hdb : WellFormed s.db)
    (hfair : fair → site.Draws) : Turns fair clear s.db t.db := by
  refine turns_of_lockMatch h hdb fun {m s} _ here _ below _ h => ?_
  simp only [checkVersion_bind, refuseIf_bind, requireRunningTournament_bind, orRefuse_bind, refuseBusy_bind] at h
  obtain ⟨_, hstatus, _, _, _, game, hgame, hfreeA, hfreeB, h⟩ := h
  obtain ⟨hget, hprepared⟩ := startable_mem hgame
  obtain ⟨r, s2, hfill, h⟩ := bind_ok.mp h
  have hfilled : Carries fair clear _ _ m r.1 ∧ _ := fillFromBank_carries hfill here below hget hfair
  obtain ⟨hcarries, hcase⟩ := hfilled
  simp only [gameOf_bind, refuseIf_bind, tables_bind] at h
  obtain ⟨game', hget', _, _, h⟩ := h
  rcases Txn.ite_ok.mp h with ⟨_, h⟩ | ⟨_, h⟩
  · rw [(pure_ok.mp h).2]
    exact hcarries.turns
  · simp only [saveMatch_bind, logMatch_bind, refreshLockOnCommit_bind, pure_ok] at h
    obtain ⟨_, rfl⟩ := h
    have hid : r.1.id = m.id := hcarries.id
    have hplayers : r.1.players = m.players ∧ r.1.status = m.status := by
      obtain ⟨games, hr⟩ := hcarries.row
      rw [hr]
      exact ⟨rfl, rfl⟩
    -- the players are as free as they were before the problems came
    have hsame : ∀ p, busyElsewhere s2.db p (some r.1.id) = busyElsewhere s.db p (some m.id) := fun p => by
      rw [hid]
      rcases hcase with ⟨_, hbattles⟩ | ⟨_, _, hbattles⟩
      · rw [busyElsewhere, hbattles]
        rfl
      · exact busyElsewhere_put hid hbattles
    have hfree : r.1.Free s2.db := fun slot p hp => by
      rw [hsame]
      rw [hplayers.1] at hp
      cases slot
      · exact hfreeA p hp
      · exact hfreeB p hp
    have hgoing : game'.status ≠ .cancelled := by
      have : game'.status = .prepared := by
        rcases hcase with ⟨hr, _⟩ | ⟨problems, hr, _⟩
        · rw [hr] at hget'
          obtain rfl := Option.some.inj (hget'.symm.trans hget)
          exact hprepared
        · rw [hr] at hget'
          obtain rfl := Option.some.inj (hget'.symm.trans (get?_setGame hget rfl))
          exact hprepared
      rw [this]
      simp
    have hgid : game'.id = game.id := Table.key_of_get? hget'
    have hset : r.1.Remains (r.1.setGame (game'.launch (matchRules s2.db r.1) site.now)) :=
      .setGame (hgid ▸ hget') (.of_going hgoing rfl rfl rfl)
    generalize hm2 : Match.bump _ = m2
    have hstays : r.1.Remains m2 := by
      rw [← hm2]
      refine .bump (hset.trans ?_)
      split_ifs
      · exact .refl _
      · refine .of_games rfl rfl rfl (fun hdecided => ?_) rfl
        rw [show Match.status (r.1.setGame _) = m.status from hplayers.2] at hdecided
        exact absurd ⟨by simp [hdecided], by simp [hdecided], by simp [hdecided]⟩ hstatus
    have hlock : Turns fair clear s2.db (s2.db.putMatch m2) :=
      .single (.lock hcarries.here' hstays hfree rfl (.of_eq rfl))
    exact hcarries.turns.trans (Turns.then hlock rfl rfl)

/-! ## Problems chosen by hand -/

/-- A check that passed. -/
theorem unless_ok {ε α β : Type} {c : Prop} [Decidable c] {e : ε} {x : Except ε β} {f : α → Except ε β} {b : β}
    (h : (if c then throw e >>= f else x) = .ok b) : ¬ c ∧ x = .ok b := by
  split_ifs at h with hc
  · cases h
  · exact ⟨hc, h⟩

/-- A first step that passed. -/
theorem bind_eq_ok {ε α β : Type} {x : Except ε α} {f : α → Except ε β} {b : β} (h : (x >>= f) = .ok b) :
    ∃ a, x = .ok a ∧ f a = .ok b := by
  cases x with
  | error e => cases h
  | ok a => exact ⟨a, rfl, h⟩

/-- The problems chosen by hand are in no other game. -/
theorem cleanProblemList_apart {entries : List Entry} {used kept : List ProblemId} {problems : List GameProblem}
    (h : cleanProblemList site actor entries used kept = .ok problems) : ∀ gp ∈ problems, gp.problem ∉ used := by
  unfold cleanProblemList at h
  obtain ⟨_, _, h⟩ := bind_eq_ok (unless_ok h).2
  obtain ⟨hused, h⟩ := unless_ok (unless_ok h).2
  obtain rfl := Except.ok.inj (unless_ok h).2
  intro gp hgp hmem
  obtain ⟨⟨entry, order⟩, hentry, rfl⟩ := List.mem_map.mp hgp
  have hentry : entry ∈ entries := List.mem_iff_getElem?.mpr ⟨order, List.mem_zipIdx_iff_getElem?.mp hentry⟩
  exact hused (List.any_eq_true.mpr ⟨entry.id, List.mem_map_of_mem hentry, by simpa using hmem⟩)

/-- A match changed, and then its version. -/
theorem Match.Rests.bump {m1 : Match} {system : Bool} (h : m.Rests m1) : m.Rests (m1.bump system) := by
  refine ⟨h.toRemains.bump, fun hl => h.locking ?_⟩
  rwa [bump_eq] at hl

theorem Match.Rests.of_games (hstatic : m'.static = m.static) (hposition : m'.position = m.position)
    (hplayers : m'.players = m.players) (hstatus : m'.status = m.status) (hgames : m'.games = m.games) :
    m.Rests m' :=
  ⟨.of_games hstatic hposition hplayers (fun h => hstatus.trans h) hgames, fun h => hstatus ▸ h⟩

/-- The row a caller goes on with, saved. -/
theorem Carries.then_saved (h : Carries fair clear db db' m m') {m1 : Match} (hrests : m'.Rests m1)
    {db1 : Db} (hbattles : db1.battles = db'.battles.put m1) (htournaments : db1.tournaments = db'.tournaments) :
    Turns fair clear db db1 := h.turns.trans (Turns.saved h.here' hrests hbattles htournaments)

theorem setGameProblems_turns {gameId : Option GameId} {entries : List Entry} {number : Option ℕ}
    (h : setGameProblems site actor id gameId entries version number s = .ok u t) (hdb : WellFormed s.db) :
    Turns fair clear s.db t.db := by
  refine turns_of_lockMatch h hdb fun {m s} _ here _ below _ h => ?_
  simp only [checkVersion_bind, refuseIf_bind] at h
  replace h := h.2.2
  -- the game asked for, found or created, and then its problems
  have hrest : ∀ {r : Match × Game} {s1 : Txn}, Carries fair clear s.db s1.db m r.1 →
      r.1.games.get? r.2.id = some r.2 →
      (do
        refuseIf (r.2.status ≠ .prepared) ⟨"The problems of a game cannot change once it has started.", 400⟩
        let problems ← cleaned (cleanProblemList site actor entries (problemsUsedInMatch r.1 (some r.2.id))
          (r.2.problems.map fun gp => gp.problem))
        saveMatch ((r.1.setGame { r.2 with problems }).bump)
        logMatch .problems actor ((r.1.setGame { r.2 with problems }).bump) r.2.id : ArenaM Unit) s1 = .ok u t →
      Turns fair clear s.db t.db := by
    intro r s1 hcarries hgame h
    simp only [refuseIf_bind, cleaned_bind, saveMatch_bind, logMatch_ok] at h
    obtain ⟨_, problems, hclean, rfl⟩ := h
    have hturn : Turn fair clear s1.db (s1.db.putMatch ((r.1.setGame { r.2 with problems }).bump)) :=
      .problems (r.1.version + 1) hcarries.here' hgame (fun _ => cleanProblemList_apart hclean) rfl (.of_eq rfl)
    exact Turns.then (hcarries.turns.tail hturn) rfl rfl
  cases gameId with
  | some gameId =>
      simp only [gameOf_bind, pure_bind'] at h
      obtain ⟨game, hgame, h⟩ := h
      have hid : game.id = gameId := Table.key_of_get? hgame
      exact hrest (.refl here below) (r := (m, game)) (by rwa [hid]) h
  | none =>
      cases number with
      | some number =>
          obtain ⟨r, s1, hnumber, h⟩ := bind_ok.mp h
          obtain ⟨hcarries, hgame⟩ := gameNumber_carries hnumber here below
          exact hrest hcarries hgame h
      | none =>
          obtain ⟨r, s1, hensure, h⟩ := bind_ok.mp h
          obtain ⟨hcarries, hgame⟩ := ensureNextGame_carries hensure here below
          exact hrest hcarries hgame h

theorem addGame_turns (h : addGame id version s = .ok u t) (hdb : WellFormed s.db) : Turns fair clear s.db t.db := by
  refine turns_of_lockMatch h hdb fun {m s} _ here _ below _ h => ?_
  simp only [checkVersion_bind, refuseIf_bind] at h
  obtain ⟨r, s1, hensure, h⟩ := bind_ok.mp h.2.2
  obtain rfl := saveMatch_ok.mp h
  have hcarries : Carries fair clear s.db s1.db m r.1 := (ensureNextGame_carries hensure here below).1
  exact hcarries.then_saved (.bump (.refl _)) rfl rfl

theorem fillMatch_turns {filled : Bool} (h : fillMatch site actor id s = .ok filled t) (hdb : WellFormed s.db)
    (hfair : fair → site.Draws) : Turns fair clear s.db t.db := by
  refine turns_of_lockMatch h hdb fun {m s} _ here _ below _ h => ?_
  rcases Txn.ite_ok.mp h with ⟨_, h⟩ | ⟨_, h⟩
  · rw [(pure_ok.mp h).2]
  · obtain ⟨r, s2, hensure, h⟩ := bind_ok.mp h
    obtain ⟨r', s3, hfill, h⟩ := bind_ok.mp h
    have hnext : Carries fair clear _ _ m r.1 ∧ _ := ensureNextGame_carries hensure here below
    obtain ⟨hcarries, hget⟩ := hnext
    have hfilled := hcarries.trans (fillFromBank_carries hfill hcarries.here' hcarries.below hget hfair).1
    rcases Txn.ite_ok.mp h with ⟨_, h⟩ | ⟨_, h⟩
    · simp only [saveMatch_bind, pure_ok] at h
      obtain ⟨_, rfl⟩ := h
      exact hfilled.then_saved (.bump (.refl _)) rfl rfl
    · rw [(pure_ok.mp h).2]
      exact hfilled.turns

/-! ## During play -/

/-- One game of a match changed, and then its version. -/
theorem Match.Rests.setGame {g g' : Game} {system : Bool} (hg : m.games.get? g.id = some g) (hstays : g.Stays g') :
    m.Rests ((m.setGame g').bump system) := .bump ⟨.setGame hg hstays, fun h => h⟩

theorem extendGame_turns {gameId : GameId} {more : ℤ} (h : extendGame actor id gameId more version s = .ok u t)
    (hdb : WellFormed s.db) : Turns fair clear s.db t.db := by
  refine turns_of_lockMatch h hdb fun {m s} _ here _ _ _ h => ?_
  simp only [checkVersion_bind, refuseIf_bind, gameOf_bind, saveMatch_bind, logMatch_bind,
    refreshLockOnCommit_ok] at h
  obtain ⟨_, _, game, hget, hopened, _, _, rfl⟩ := h
  have hid : game.id = gameId := Table.key_of_get? hget
  have hgoing : game.status ≠ .cancelled := fun heq => by simp [heq, GameStatus.opened] at hopened
  refine .saved here (.setGame (g := game) (by rwa [hid]) (.of_going hgoing ?_ ?_ ?_)) rfl rfl <;> rfl

theorem GameStatus.ne_of_going {status : GameStatus} (h : status.active = true ∨ status = .tie) :
    status ≠ .cancelled ∧ status ≠ .prepared := by
  constructor <;>
  · rintro rfl
    simp [GameStatus.active] at h

theorem cancelGame_turns {gameId : GameId} (h : cancelGame site actor id gameId version s = .ok u t)
    (hdb : WellFormed s.db) (hfair : fair → site.Draws) : Turns fair clear s.db t.db := by
  refine turns_of_lockMatch h hdb fun {m s} _ here _ below _ h => ?_
  simp only [checkVersion_bind, refuseIf_bind, gameOf_bind, refuseWhileAnotherRuns, saveMatch_bind,
    logMatch_bind] at h
  obtain ⟨_, _, game, hget, hstarted, _, h⟩ := h
  have hid : game.id = gameId := Table.key_of_get? hget
  rw [not_not] at hstarted
  have hrests : m.Rests ((m.setGame { game.void site.now with decidedBy := actor }).bump) :=
    .setGame (g := game) (by rwa [hid]) (.of_going (GameStatus.ne_of_going hstarted).1 rfl rfl rfl)
  rcases Txn.ite_ok.mp h with ⟨_, h⟩ | ⟨_, h⟩
  · obtain ⟨m2, s2, hnext, h⟩ := bind_ok.mp h
    obtain rfl := refreshLockOnCommit_ok.mp h
    exact (nextGame_plays hnext here below hrests hfair game.id).turns
  · obtain rfl := refreshLockOnCommit_ok.mp h
    exact .saved here hrests rfl rfl

theorem declareWinner_turns {gameId : GameId} {slot : Slot}
    (h : declareWinner site actor id gameId slot version s = .ok u t) (hdb : WellFormed s.db)
    (hclear : ∀ m, s.db.match? id = some m → m.OnPoint slot → clear s.db m slot) (hfair : fair → site.Draws) :
    Turns fair clear s.db t.db := by
  refine turns_of_lockMatch h hdb fun {m s1} hs here sound below hmid h => ?_
  simp only [checkVersion_bind, refuseIf_bind, gameOf_bind, refuseWhileAnotherRuns] at h
  obtain ⟨_, game, hget, hstarted, hplaying, _, h⟩ := h
  have hid : game.id = gameId := Table.key_of_get? hget
  rw [not_not] at hstarted hplaying
  obtain ⟨hcancelled, hprepared⟩ := GameStatus.ne_of_going hstarted
  obtain ⟨m', s', hfinish, h⟩ := bind_ok.mp h
  obtain ⟨_, rfl⟩ := pure_ok.mp h
  refine (finish_turns (g := game) hfinish here sound below (by rwa [hid]) (.of_going hcancelled ?_ ?_ ?_) hprepared
    (by rw [Match.isOver, hplaying]; rfl) ?_ hfair).turns
  · split_ifs <;> rfl
  · split_ifs <;> rfl
  · split_ifs <;> rfl
  · rw [hs]
    exact hclear m (by rw [← hs, ← hmid]; exact here)

/-- What `finalize_verification` decides of a game. -/
def Game.finalDecision (game : Game) (now : Time) : Decision :=
  Scoring.decideIgnoringPending (loadAttempts game) (problemPoints game) game.rules (game.startedAt.getD 0)
    (game.endsAt.getD 0) now

theorem finalizeVerification_turns {gameId : GameId}
    (h : finalizeVerification site actor id gameId version s = .ok u t) (hdb : WellFormed s.db)
    (hclear : ∀ m game slot, s.db.match? id = some m → m.games.get? gameId = some game →
      m.GivenBy (game.finalDecision site.now) slot → clear s.db m slot)
    (hfair : fair → site.Draws) : Turns fair clear s.db t.db := by
  refine turns_of_lockMatch h hdb fun {m s1} hs here sound below hmid h => ?_
  simp only [checkVersion_bind, refuseIf_bind, gameOf_bind] at h
  obtain ⟨_, hgoing, game, hget, hverifying, h⟩ := h
  have hid : game.id = gameId := Table.key_of_get? hget
  rw [← hid] at hget
  rw [not_not] at hverifying
  have hactive : game.status.active = true := by rw [hverifying]; rfl
  have hcancelled : game.status ≠ .cancelled := by rw [hverifying]; simp
  have hgoing : m.isOver = false := Bool.eq_false_iff.mpr hgoing
  have hready : ∀ slot, m.GivenBy (game.finalDecision site.now) slot → clear s1.db m slot := fun slot hgiven => by
    rw [hs]
    exact hclear m game slot (by rw [← hs, ← hmid]; exact here) (hid ▸ hget) hgiven
  rw [← Game.finalDecision] at h
  generalize Game.finalDecision game site.now = decision at h hready
  generalize houtcome : decision.outcome = outcome, hwinner : decision.winner = winner?, decision.reason = reason at h
  split at h
  · rename_i winner _
    obtain ⟨m', s', hfinish, h⟩ := bind_ok.mp h
    obtain rfl := logMatch_ok.mp h
    exact Turns.then (finish_turns hfinish here sound below hget (.of_going hcancelled rfl rfl rfl)
      (by rw [hverifying]; simp) hgoing (fun hpoint => hready winner ⟨houtcome, hwinner, hpoint⟩) hfair).turns rfl rfl
  · obtain ⟨m', s', htie, h⟩ := bind_ok.mp h
    obtain rfl := logMatch_ok.mp h
    exact Turns.then (tieGame_turns htie here below hget hcancelled hgoing hfair).turns rfl rfl

/-! ## Giving a match away -/

theorem walkover_turns {slot : Slot} (h : walkover site actor id slot version s = .ok u t) (hdb : WellFormed s.db)
    (hclear : ∀ m, s.db.match? id = some m → clear s.db m slot) :
    Turns fair clear s.db t.db := by
  refine turns_of_lockMatch h hdb fun {m s1} hs here _ _ hmid h => ?_
  simp only [checkVersion_bind, refuseIf_bind] at h
  obtain ⟨_, hgoing, hseated, h⟩ := h
  obtain ⟨m', s', hdecide, h⟩ := bind_ok.mp h
  obtain ⟨_, rfl⟩ := pure_ok.mp h
  have hseated : (m.players.get slot).isSome = true := by
    rwa [Option.isNone_iff_eq_none, ← Ne, ← Option.isSome_iff_ne_none] at hseated
  refine (decideMatch_turn hdecide here rfl rfl (.voidGames m site.now fun _ => actor) hseated ?_).1
  rw [hs]
  exact hclear m (by rw [← hs, ← hmid]; exact here)

theorem cancelMatch_turns (h : cancelMatch site actor id version s = .ok u t) (hdb : WellFormed s.db) :
    Turns fair clear s.db t.db := by
  refine turns_of_lockMatch h hdb fun {m s} _ here _ _ _ h => ?_
  simp only [checkVersion_bind, refuseIf_bind] at h
  obtain ⟨_, _, hgoing, h⟩ := h
  obtain ⟨m2, s2, hdrop, h⟩ := bind_ok.mp h
  obtain ⟨rfl, rfl⟩ := dropUnplayed_ok.mp hdrop
  simp only [saveMatch_bind, logMatch_bind, refreshLockOnCommit_ok] at h
  subst h
  let m1 := (m.voidGames site.now fun g => g.decidedBy).dropUnplayed
  have hstays : m.Remains m1 := .trans (.voidGames m site.now fun g => g.decidedBy) (.dropUnplayed _)
  have hrests : m.Rests { m1 with status := .cancelled, decidedAt := some site.now, version := m1.version + 1 } := by
    refine ⟨⟨hstays.static, hstays.position, hstays.players, fun hdecided => ?_, hstays.games⟩, fun h => by cases h⟩
    rw [Match.isOver, hdecided] at hgoing
    simp at hgoing
  refine .saved here hrests ?_ rfl
  exact Table.put_put rfl

theorem updateMatch_turns {bestOf : Option ℕ} {rules : Option Rules} {title : Option String}
    {display : Pair (Option String)} (h : updateMatch actor id version bestOf rules title display s = .ok u t)
    (hdb : WellFormed s.db) : Turns fair clear s.db t.db := by
  refine turns_of_lockMatch h hdb fun {m s} _ here _ _ _ h => ?_
  simp only [checkVersion_bind, refuseIf_bind] at h
  obtain ⟨_, _, h⟩ := h
  have hsave : ∀ (best : ℕ) (rules : Rules) {title : String} {names : Pair String} {a : Action},
      t = (s.wrote (·.putMatch ({ m with bestOf := best, rules, title, displayNames := names }.bump))).wrote
        (·.record a) → Turns fair clear s.db t.db := by
    rintro best rules title names a rfl
    have hrests : m.Rests { m with bestOf := best, rules, title, displayNames := names } :=
      .of_games rfl rfl rfl rfl rfl
    exact .saved here hrests.bump rfl rfl
  cases bestOf with
  | none =>
      cases rules with
      | none =>
          simp only [cleaned_bind, saveMatch_bind, logMatch_ok, pure_bind'] at h
          obtain ⟨_, _, _, _, ht⟩ := h
          exact hsave m.bestOf m.rules ht
      | some rules =>
          simp only [cleaned_bind, saveMatch_bind, logMatch_ok, pure_bind'] at h
          obtain ⟨rules, _, _, _, _, _, ht⟩ := h
          exact hsave m.bestOf rules ht
  | some bestOf =>
      cases rules with
      | none =>
          simp only [cleaned_bind, refuseIf_bind, saveMatch_bind, logMatch_ok, pure_bind'] at h
          obtain ⟨bestOf, _, _, _, _, _, _, ht⟩ := h
          exact hsave bestOf m.rules ht
      | some rules =>
          simp only [cleaned_bind, refuseIf_bind, saveMatch_bind, logMatch_ok, pure_bind'] at h
          obtain ⟨bestOf, _, _, rules, _, _, _, _, _, ht⟩ := h
          exact hsave bestOf rules ht

theorem setMatchRanking_turns {value : Ranking} (h : setMatchRanking actor id value s = .ok u t)
    (hdb : WellFormed s.db) : Turns fair clear s.db t.db := by
  refine turns_of_lockMatch h hdb fun {m s} _ here _ _ _ h => ?_
  simp only [refuseIf_bind] at h
  rcases Txn.ite_ok.mp h.2 with ⟨_, h⟩ | ⟨_, h⟩
  · simp only [saveMatch_bind, logMatch_bind, onCommit_ok] at h
    subst h
    have hrests : m.Rests { m with ranking := value } := .of_games rfl rfl rfl rfl rfl
    exact .saved here hrests rfl rfl
  · rw [(pure_ok.mp h).2]

/-! ## Other players and other winners -/

theorem replacePlayer_turns {slot : Slot} {profile : Option ProfileId} {display : String}
    (h : replacePlayer site actor id slot profile display version s = .ok u t) (hdb : WellFormed s.db) :
    Turns fair clear s.db t.db := by
  simp only [replacePlayer, orRefuse_bind] at h
  obtain ⟨p, _, h⟩ := h
  refine turns_of_lockMatch h hdb fun {m s} _ here _ _ _ h => ?_
  simp only [checkVersion_bind, refuseIf_bind, refuseSelf, tables_bind, cleaned_bind, saveMatch_bind, logMatch_bind,
    refreshLockOnCommit_ok] at h
  obtain ⟨_, _, _, _, _, hfree, display, _, rfl⟩ := h
  have hturn : Turn fair clear s.db (s.db.putMatch (m.replace slot p display)) :=
    .replace here (Bool.eq_false_iff.mpr hfree) rfl (.of_eq rfl)
  exact Turns.then (.single hturn) rfl rfl

theorem Reopened.drafts {tid : TournamentId} (h : Reopened tid db db') : DraftsStay db db' := by
  cases h with
  | @reopened row row' _ here status after sameId _ _ tournaments _ =>
      refine .put (by rwa [id_of_tournament? here]) (fun hdraft => ?_) tournaments
      rw [after] at hdraft
      cases hdraft
  | same => exact .of_eq rfl

theorem setWinner_turns {slot : Slot} (h : setWinner site actor id slot version s = .ok u t)
    (hclear : ∀ m, s.db.match? id = some m → clear s.db m slot) :
    Turns fair clear s.db t.db := by
  obtain ⟨m, s1, hlock, hrest⟩ := bind_ok.mp h
  obtain ⟨here, rfl⟩ := lockMatch_ok.mp hlock
  obtain rfl : m.id = id := Table.key_of_get? here
  simp only [checkVersion_bind, orRefuse_bind, refuseIf_bind, tables_bind, saveMatch_bind] at hrest
  obtain ⟨_, row, htournament, hdecided, hseated, _, _, hrest⟩ := hrest
  rw [not_or, not_not] at hdecided
  have hseated : (m.players.get slot).isSome = true := by
    rwa [Option.isNone_iff_eq_none, ← Ne, ← Option.isSome_iff_ne_none] at hseated
  obtain ⟨_, s2, hreopen, hrest⟩ := bind_ok.mp hrest
  obtain ⟨_, s3, hadvance, hrest⟩ := bind_ok.mp hrest
  simp only [logMatch_bind] at hrest
  obtain ⟨_, s4, hafter, hrest⟩ := bind_ok.mp hrest
  obtain rfl := refreshLockOnCommit_ok.mp hrest
  have hreopened := reopen_reopened hreopen
  rw [Txn.wrote_db, Txn.holdingMatch_db] at hreopened
  have hadvanced := advance_advanced (w := slot) hadvance rfl hseated
  have hsaved : DraftsStay s.db (s.db.putMatch (m.correct slot site.now)) := .of_eq rfl
  have hdrafts : DraftsStay s.db s2.db := hsaved.trans hreopened.drafts
  have hstays : m.Remains (m.correct slot site.now) := .of_games rfl rfl rfl (fun h => h) rfl
  have hturn : Turn fair clear s.db s3.db :=
    .decide here hstays hdecided.1 rfl (hclear m here) hreopened.battles hdrafts hadvanced
  have hdb := afterDecided_db hafter
  rw [Txn.wrote_db] at hdb
  rw [Txn.scheduling_db, hdb]
  exact Turns.then (.single hturn) rfl rfl

/-! ## Quick battles -/

/-- The problems of a game created are in none of the games to come. -/
theorem problemsUsed_add {g : Game} {except : Option GameId} {p : ProblemId}
    (h : p ∈ problemsUsedInMatch { m with games := m.games.add g } except) :
    p ∈ problemsUsedInMatch m except ∨ ∃ gp ∈ g.problems, gp.problem = p := by
  obtain ⟨x, hx, hunseen, hne, hproblem⟩ := mem_usedIn.mp h
  rcases Table.mem_add hx with rfl | hx
  · exact .inr hproblem
  · exact .inl (mem_usedIn.mpr ⟨x, hx, hunseen, hne, hproblem⟩)

/-- Lists of problems, none of them in another. -/
def NoneShared (games : List (List GameProblem)) : Prop :=
  games.Pairwise fun ps qs => ∀ p ∈ ps, ∀ q ∈ qs, q.problem ≠ p.problem

theorem addGames_carries : ∀ {problems : List (List GameProblem)} {number : ℕ} {m m' : Match} {s t : Txn},
    addGames m number problems s = .ok m' t → s.db.match? m.id = some m → m.Below s.db →
    (∀ x ∈ m.games.rows, x.number < number) → 1 ≤ number →
    (∀ ps ∈ problems, ∀ gp ∈ ps, gp.problem ∉ problemsUsedInMatch m none) → NoneShared problems →
    Carries fair clear s.db t.db m m'
  | [], number, m, m', s, t, h, here, below, _, _, _, _ => by
    obtain ⟨rfl, rfl⟩ := pure_ok.mp h
    exact .refl here below
  | problems :: rest, number, m, m', s, t, h, here, below, hlater, hpositive, hunused, hapart => by
    simp only [addGames, freshId_bind, saveMatch_bind] at h
    obtain ⟨hfirst, hrest⟩ := List.pairwise_cons.mp hapart
    let g : Game := { id := s.db.nextId, number, problems }
    have hadded : Carries fair clear _ _ m { m with games := m.games.add g } ∧ _ :=
      addGame_carries here below rfl hlater hpositive (hunused problems List.mem_cons_self)
    have hcarries := hadded.1
    refine hcarries.trans (addGames_carries h hcarries.here' hcarries.below (fun x hx => ?_) (by omega)
      (fun ps hps gp hgp hused => ?_) hrest)
    · rcases Table.mem_add hx with rfl | hx
      · exact Nat.lt_succ_self _
      · exact (hlater x hx).trans (Nat.lt_succ_self _)
    · rcases problemsUsed_add hused with hused | ⟨p, hp, heq⟩
      · exact hunused ps (List.mem_cons_of_mem _ hps) gp hgp hused
      · exact hfirst ps hps p hp gp hgp heq.symm

theorem cleanGames_apart : ∀ {games : List (List Entry)} {used : List ProblemId}
    {problems : List (List GameProblem)}, cleanGames site actor games used = .ok problems →
    (∀ ps ∈ problems, ∀ gp ∈ ps, gp.problem ∉ used) ∧ NoneShared problems
  | [], used, problems, h => by
    obtain rfl := Except.ok.inj h
    exact ⟨fun ps hps => absurd hps List.not_mem_nil, .nil⟩
  | entries :: games, used, problems, h => by
    unfold cleanGames at h
    obtain ⟨first, hfirst, h⟩ := bind_eq_ok h
    obtain ⟨rest, hrest, h⟩ := bind_eq_ok h
    obtain rfl := Except.ok.inj h
    obtain ⟨hunused, hapart⟩ := cleanGames_apart hrest
    have hclean := cleanProblemList_apart hfirst
    refine ⟨fun ps hps gp hgp hused => ?_, List.pairwise_cons.mpr ⟨fun qs hqs p hp q hq heq => ?_, hapart⟩⟩
    · rcases List.mem_cons.mp hps with rfl | hps
      · exact hclean gp hgp hused
      · exact hunused ps hps gp hgp (List.mem_append_left _ hused)
    · exact hunused qs hqs q hq (List.mem_append_right _ (heq ▸ List.mem_map_of_mem hp))

theorem ensureDefaultScreen_same (h : ensureDefaultScreen site actor s = .ok u t) :
    t.db.battles = s.db.battles ∧ t.db.tournaments = s.db.tournaments := by
  simp only [ensureDefaultScreen, tables_bind] at h
  rcases Txn.ite_ok.mp h with ⟨_, h⟩ | ⟨_, h⟩
  · rw [(pure_ok.mp h).2]
    exact ⟨rfl, rfl⟩
  · simp only [freshId_bind, write_ok] at h
    subst h
    exact ⟨rfl, rfl⟩

theorem createDuel_turns {players : Pair (Option ProfileId)} {games : List (List Entry)} {bestOf : ℕ} {rules : Rules}
    {display : Pair String} {title : String} {call : Bool} {ranking : Ranking} {newId : MatchId}
    (h : createDuel site actor players games bestOf rules display title call ranking s = .ok newId t)
    (hdb : WellFormed s.db) : Turns fair clear s.db t.db := by
  simp only [createDuel, orRefuse_bind, refuseIf_bind, refuseSelf, cleaned_bind, tables_bind, freshId_bind,
    write_bind] at h
  obtain ⟨p, _, q, _, _, _, bestOf, _, rules, _, nameA, _, nameB, _, hbusyA, hbusyB, _, _, problems, hproblems, _, h⟩
    := h
  generalize hm : ({ id := s.db.nextId, players := _, displayNames := _, title := _, bestOf := _, rules := _
                     status := _, calledAt := _, createdBy := _, createdAt := _, ranking := _ } : Match) = m at h
  obtain ⟨m1, s1, hgames, h⟩ := bind_ok.mp h
  simp only [logMatch_bind] at h
  obtain ⟨_, s3, hscreen, h⟩ := bind_ok.mp h
  obtain ⟨screen, s4, hfree, h⟩ := bind_ok.mp h
  let db1 : Db := { s.db with nextId := s.db.nextId + 1, battles := s.db.battles.add m }
  have hid : m.id = s.db.nextId := by rw [← hm]
  have hempty : m.games = .empty := by rw [← hm]
  have hfresh : s.db.match? m.id = none := Table.get?_eq_none_iff.mpr fun x hx heq =>
    absurd (hdb.below x hx) (not_lt.mpr (hid ▸ le_of_eq heq.symm))
  -- nobody has the key of the new match, so nobody is left out of the search for battles
  have hbusy : ∀ p, busyElsewhere s.db p none = false → busyElsewhere s.db p (some m.id) = false := by
    intro p hp
    simp only [busyElsewhere, List.any_eq_false, Bool.and_eq_true, not_and] at hp ⊢
    intro x hx hlocking _
    exact hp x hx hlocking (by simp)
  have hduel : Turn fair clear s.db db1 := by
    refine .duel (m := m) (by rw [← hm]) hempty (fun slot x hx => hbusy x ?_) hfresh rfl (.of_eq rfl)
    rw [← hm] at hx
    cases slot
    · obtain rfl := Option.some.inj hx
      exact Bool.eq_false_iff.mpr hbusyA
    · obtain rfl := Option.some.inj hx
      exact Bool.eq_false_iff.mpr hbusyB
  obtain ⟨_, hapart⟩ := cleanGames_apart hproblems
  have hnone : ∀ x, x ∉ m.games.rows := fun x hx => by rw [hempty] at hx; cases hx
  have hcarries : Carries fair clear db1 s1.db m m1 := by
    refine addGames_carries hgames (Table.get?_add_self hfresh) (fun x hx => absurd hx (hnone x))
      (fun x hx => absurd hx (hnone x)) (le_refl 1) (fun _ _ gp _ hused => ?_) hapart
    obtain ⟨x, hx, _⟩ := mem_usedIn.mp hused
    exact hnone x hx
  obtain ⟨hbattles, htournaments⟩ := ensureDefaultScreen_same hscreen
  have hturns : Turns fair clear s.db s4.db := by
    rw [freeScreen_db hfree]
    exact Turns.then (hcarries.turns.head hduel) hbattles htournaments
  cases screen with
  | none =>
      simp only [refreshLockOnCommit_bind, pure_ok] at h
      rw [h.2]
      exact hturns
  | some screen =>
      simp only [write_bind, logMatch_bind, refreshLockOnCommit_bind, pure_ok] at h
      rw [h.2]
      exact Turns.then hturns rfl rfl

/-! ## The game by itself, its players and its judges -/

theorem tick_turns {game : Game} {now : Time} (h : tick site id game now s = .ok u t) (hdb : WellFormed s.db)
    (hclear : ∀ m g decision slot, s.db.match? id = some m → m.games.get? game.id = some g →
      evaluate g now = some decision → m.GivenBy decision slot → clear s.db m slot)
    (hfair : fair → site.Draws) : Turns fair clear s.db t.db := by
  rcases Txn.ite_ok.mp h with ⟨_, h⟩ | ⟨_, h⟩
  · rw [(pure_ok.mp h).2]
  rcases Txn.ite_ok.mp h with ⟨_, h⟩ | ⟨_, h⟩
  · rw [(pure_ok.mp h).2]
  refine turns_of_lockMatch h hdb fun {m s1} hs here sound below hmid h => ?_
  simp only [gameOf_bind] at h
  obtain ⟨g, hget, h⟩ := h
  obtain ⟨m', s', htick, h⟩ := bind_ok.mp h
  obtain ⟨_, rfl⟩ := pure_ok.mp h
  have hid : g.id = game.id := Table.key_of_get? hget
  refine (tickLocked_turns htick here sound below (hid ▸ hget) (fun decision slot => ?_) hfair).turns
  rw [hs]
  exact hclear m g decision slot (by rw [← hs, ← hmid]; exact here) hget

theorem submit_turns {profile : ProfileId} {superuser : Bool} {gameId : GameId} {order : ℕ} {language source : String}
    (h : submit site profile superuser id gameId order language source s = .ok u t) (hdb : WellFormed s.db)
    (hclear : ∀ m game decision slot, s.db.match? id = some m → m.games.get? gameId = some game →
      evaluate game site.now = some decision → m.GivenBy decision slot → clear s.db m slot)
    (hfair : fair → site.Draws) : Turns fair clear s.db t.db := by
  simp only [submit, refuseIf_bind] at h
  refine turns_of_lockMatch h.2.2 hdb fun {m s1} hs here sound below hmid h => ?_
  simp only [gameOf_bind, orRefuse_bind] at h
  obtain ⟨game, hget, slot, _, h⟩ := h
  have hid : game.id = gameId := Table.key_of_get? hget
  obtain ⟨m', s', htick, h⟩ := bind_ok.mp h
  have hplays : Plays fair clear s1.db s'.db m m' game.id := by
    refine tickLocked_turns htick here sound below (hid ▸ hget) (fun decision slot => ?_) hfair
    rw [hs]
    exact hclear m game decision slot (by rw [← hs, ← hmid]; exact here) hget
  simp only [gameOf_bind, refuseIf_bind, orRefuse_bind, freshId_bind, saveMatch_ok] at h
  obtain ⟨game', hget', hgate, _, _, _, _, _, c, _, _, _, rfl⟩ := h
  have hid' : game'.id = gameId := Table.key_of_get? hget'
  have hmid' : m'.id = m.id := Match.id_of_static hplays.static
  -- a game that accepts submissions is the one in the tables
  have hhere : s'.db.match? m'.id = some m' := by
    rw [hmid']
    rcases hplays.here with hhere | hclosed
    · exact hhere
    · rw [hclosed game' (hid ▸ hget')] at hgate
      simp at hgate
  have hgoing : game'.status ≠ .cancelled := fun heq => by
    rw [heq] at hgate
    simp [GameStatus.opened] at hgate
  refine hplays.turns.trans (Turns.saved hhere ⟨.setGame (g := game') (by rwa [hid']) (.of_going hgoing ?_ ?_ ?_),
    fun h => h⟩ rfl rfl) <;> rfl

theorem judge_turns {gameId : GameId} {attempts : Pair (List Attempt)}
    (h : judge id gameId attempts s = .ok u t) : Turns fair clear s.db t.db := by
  simp only [judge, tables_bind, orRefuse_bind, gameOf_bind, refuseIf_bind, saveMatch_ok] at h
  obtain ⟨m, here, game, hget, _, rfl⟩ := h
  have hid : game.id = gameId := Table.key_of_get? hget
  have hid' : m.id = id := Table.key_of_get? here
  generalize hgame' : ({ game with contest := _ } : Game) = game'
  have hstays : game.Stays game' := by
    rw [← hgame']
    exact ⟨rfl, rfl, rfl, fun h => h⟩
  exact .saved (hid' ▸ here) ⟨.setGame (hid ▸ hget) hstays, fun h => h⟩ rfl rfl

/-! ## Tournaments -/

section
variable {tid : TournamentId} {row row' : Tournament}

/-- A tournament saved, that stays the draft it is. -/
theorem Turns.tournament (here : db.tournament? tid = some row) (hsame : row'.status = .draft → row.Same row')
    (hbattles : db'.battles = db.battles) (htournaments : db'.tournaments = db.tournaments.put row') :
    Turns fair clear db db' := by
  rw [← id_of_tournament? here] at here
  exact .rest (hbattles ▸ .refl Match.Rests.refl _) (.put here hsame htournaments)

/-- A draft saved and its bracket drawn again. -/
theorem redrawn_turns {name : ActionName} (h : (do
      saveTournament row'
      let _ ← buildBracket site actor row'
      logTournament name actor tid : ArenaM Unit) (s.holding (.tournament tid)) = .ok u t) (hdb : WellFormed s.db)
    (here : s.db.tournament? tid = some row) (hid : row'.id = row.id) (hstatus : row'.status = row.status)
    (hseeded : row.Seeded → row'.Seeded) (hdraft : row.status = .draft) : Turns fair clear s.db t.db := by
  simp only [saveTournament_bind] at h
  obtain ⟨_, s1, hbuild, h⟩ := bind_ok.mp h
  rw [← id_of_tournament? here] at here
  have hdb1 : ((s.holding (.tournament tid)).wrote (·.putTournament row')).db = s.db.putTournament row' := by simp
  have hpath : Path true (fun _ => True) s.db (s.db.putTournament row') :=
    .tournament here hid (.inl hstatus) hseeded
  have hturn : Turn fair clear s.db s1.db := by
    refine .redraw ?_ (hdb1 ▸ hdb.path hpath) (hdb1 ▸ Db.tournament?_putTournament here hid) (hstatus.trans hdraft)
      (fun x hx hne hdraft => ?_) hbuild
    · rw [hdb1]
      rfl
    · rw [hdb1] at hx
      rcases Table.mem_put hx with rfl | ⟨hx, _⟩
      · exact absurd rfl hne
      · exact ⟨x, hx, rfl, hdraft, rfl, rfl⟩
  rw [logTournament_ok.mp h]
  exact Turns.then (.single hturn) rfl rfl

theorem createTournament_turns {name : String} {profiles : List (Option ProfileId)} {seeding : Seeding}
    {thirdPlace : Bool} {rules : Rules} {description : String} {bank : Option BankId} {showInHistory : Bool}
    {plannedAt : Option Time} {ranking : Ranking}
    (h : createTournament site actor name profiles seeding thirdPlace rules description bank showInHistory plannedAt
      ranking s = .ok tid t) (hdb : WellFormed s.db) : Turns fair clear s.db t.db := by
  simp only [createTournament, refuseIf_bind, cleaned_bind, refuseParticipant, freshId_bind, write_bind] at h
  obtain ⟨_, rules, _, plannedAt, _, profiles, _, _, h⟩ := h
  generalize hrow : Tournament.syncRounds _ _ = row at h
  have hid : row.id = s.db.nextId := by rw [← hrow]; rfl
  have hdraft : row.status = .draft := by rw [← hrow]; rfl
  have hplayers : row.Seeded :=
    seeded_seeded (orderedBySeeding site profiles seeding) (by rw [← hrow]; rfl)
  let db1 : Db := { s.db with nextId := s.db.nextId + 1, tournaments := s.db.tournaments.add row }
  have hcreated : Path true (fun _ => True) s.db db1 :=
    .single (.newTournament hdraft hplayers (hid ▸ le_refl _) (hid ▸ Nat.lt_succ_self _) rfl rfl
      (.of_actions rfl (Nat.le_succ _)))
  have hhere : db1.tournament? row.id = some row := by
    refine Table.get?_add_self (Table.get?_eq_none_iff.mpr fun x hx heq => ?_)
    exact absurd (hdb.tournaments x hx) (not_lt.mpr (hid ▸ le_of_eq heq.symm))
  obtain ⟨_, s1, hbuild, h⟩ := bind_ok.mp h
  simp only [logTournament_bind] at h
  obtain ⟨_, s2, hscreen, h⟩ := bind_ok.mp h
  obtain ⟨_, rfl⟩ := pure_ok.mp h
  have hturn : Turn fair clear s.db s1.db := by
    refine .redraw ?_ ?_ ?_ hdraft (fun x hx hne hdraft => ?_) hbuild
    · rfl
    · exact hdb.path hcreated
    · exact hhere
    · rcases Table.mem_add hx with rfl | hx
      · exact absurd rfl hne
      · exact ⟨x, hx, rfl, hdraft, rfl, rfl⟩
  obtain ⟨hbattles, htournaments⟩ := ensureDefaultScreen_same hscreen
  exact Turns.then (.single hturn) hbattles htournaments

theorem updateTournament_turns {name description : Option String} {rules : Option Rules}
    {bank : Option (Option BankId)} {thirdPlace : Option Bool} {draw : Option Rules.Draw}
    {showInHistory : Option Bool} {plannedAt : Option (Option Time)}
    (h : updateTournament site actor tid version name description rules bank thirdPlace draw showInHistory plannedAt s =
      .ok u t) (hdb : WellFormed s.db) : Turns fair clear s.db t.db := by
  simp only [updateTournament, lockTournament_bind, checkVersion_bind] at h
  obtain ⟨row, here, _, h⟩ := h
  -- the form checked, then the row saved, and then perhaps another bracket
  have hsave : ∀ {row1 : Tournament} {rebuild : Bool}, (do
        saveTournament row1
        if rebuild then do
          let _ ← buildBracket site actor row1
          logTournament .tournamentUpdate actor tid
        else logTournament .tournamentUpdate actor tid : ArenaM Unit) (s.holding (.tournament tid)) = .ok u t →
      row1.id = row.id → row1.status = row.status → row1.participants = row.participants →
      (rebuild = false → row1.thirdPlaceMatch = row.thirdPlaceMatch) → ¬ (rebuild = true ∧ row.status ≠ .draft) →
      Turns fair clear s.db t.db := by
    intro row1 rebuild h hid hstatus hplayers hthird hdraft
    cases rebuild with
    | true =>
        exact redrawn_turns h hdb here hid hstatus (fun hs => hs.congr hplayers)
          (not_not.mp fun hne => hdraft ⟨rfl, hne⟩)
    | false =>
        simp only [Bool.false_eq_true, if_false, saveTournament_bind] at h
        rw [logTournament_ok.mp h]
        refine .tournament here (fun hd => ⟨hid, hstatus ▸ hd, congrArg _ hplayers, hthird rfl⟩) ?_ ?_ <;>
          simp [Db.putTournament]
  have hthird : (thirdPlace.any fun b => b ≠ row.thirdPlaceMatch) = false →
      thirdPlace.getD row.thirdPlaceMatch = row.thirdPlaceMatch := by
    cases thirdPlace <;> simp
  cases plannedAt with
  | none =>
      simp only [pure_bind', refuseIf_bind, cleaned_bind] at h
      obtain ⟨_, rules, _, draw, _, hdraft, h⟩ := h
      exact hsave h rfl rfl rfl hthird hdraft
  | some moment =>
      rcases Txn.ite_ok.mp h with ⟨_, h⟩ | ⟨_, h⟩ <;> simp only [pure_bind', refuseIf_bind, cleaned_bind] at h
      · obtain ⟨_, rules, _, draw, _, hdraft, h⟩ := h
        exact hsave h rfl rfl rfl hthird hdraft
      · obtain ⟨_, _, _, rules, _, draw, _, hdraft, h⟩ := h
        exact hsave h rfl rfl rfl hthird hdraft

/-- A tournament saved under its lock, and the action recorded. -/
theorem savedTournament_turns {name : ActionName}
    (h : t = ((s.holding (.tournament tid)).wrote (·.putTournament row')).wrote
      (·.record { action := name, actor, tournament := some tid }))
    (here : s.db.tournament? tid = some row) (hsame : row'.status = .draft → row.Same row') :
    Turns fair clear s.db t.db := by
  refine .tournament here hsame ?_ ?_ <;> simp [h, Db.putTournament]

theorem setShowInHistory_turns {shown : Bool} (h : setShowInHistory actor tid shown s = .ok u t) :
    Turns fair clear s.db t.db := by
  simp only [setShowInHistory, lockTournament_bind] at h
  obtain ⟨row, here, h⟩ := h
  rcases Txn.ite_ok.mp h with ⟨_, h⟩ | ⟨_, h⟩
  · simp only [saveTournament_bind, logTournament_ok] at h
    exact savedTournament_turns h here fun hdraft => ⟨rfl, hdraft, rfl, rfl⟩
  · rw [(pure_ok.mp h).2, Txn.holding_db]

theorem setParticipants_turns {profiles : List (Option ProfileId)} {seeding : Option Seeding}
    (h : setParticipants site actor tid profiles seeding version s = .ok u t) (hdb : WellFormed s.db) :
    Turns fair clear s.db t.db := by
  simp only [setParticipants, lockTournament_bind, checkVersion_bind, refuseIf_bind, cleaned_bind,
    refuseParticipant] at h
  obtain ⟨row, here, _, hdraft, profiles, _, _, h⟩ := h
  exact redrawn_turns h hdb here rfl rfl (fun _ => seeded_seeded _ rfl) (not_not.mp hdraft)

theorem generateBracket_turns (h : generateBracket site actor tid version s = .ok u t) (hdb : WellFormed s.db) :
    Turns fair clear s.db t.db := by
  simp only [generateBracket, lockTournament_bind, checkVersion_bind, refuseIf_bind] at h
  obtain ⟨row, here, _, hdraft, h⟩ := h
  obtain ⟨_, s1, hbuild, h⟩ := bind_ok.mp h
  rw [(pure_ok.mp h).2]
  rw [← id_of_tournament? here] at here
  have hdb1 := s.holding_db (.tournament tid)
  refine .single (.redraw (congrArg _ hdb1) (hdb1 ▸ hdb) (hdb1 ▸ here) (not_not.mp hdraft)
    (fun x hx _ hdraft => ⟨x, hdb1 ▸ hx, rfl, hdraft, rfl, rfl⟩) hbuild)

theorem setRound_turns {number : ℕ} {bestOf : Option ℕ} {rules : Option Rules} {name : Option String}
    {draw : Option Rules.Draw} (h : setRound actor tid number bestOf rules name version draw s = .ok u t) :
    Turns fair clear s.db t.db := by
  simp only [setRound, lockTournament_bind, checkVersion_bind, orRefuse_bind] at h
  obtain ⟨row, here, _, round, _, h⟩ := h
  cases bestOf with
  | none =>
      simp only [pure_bind', cleaned_bind, saveTournament_bind] at h
      obtain ⟨rules, _, draw, _, h⟩ := h
      exact savedTournament_turns (logTournament_ok.mp h) here fun hdraft => ⟨rfl, hdraft, rfl, rfl⟩
  | some bestOf =>
      simp only [cleaned_bind, tables_bind, refuseIf_bind] at h
      obtain ⟨best, _, _, h⟩ := h
      obtain ⟨_, s1, hlocks, h⟩ := bind_ok.mp h
      simp only [write_bind, pure_bind', cleaned_bind, saveTournament_bind] at h
      obtain ⟨rules, _, draw, _, h⟩ := h
      have hdb1 : s1.db = s.db := (lockAll_db hlocks).trans (s.holding_db _)
      rw [← id_of_tournament? here] at here
      generalize hrow' : ({ row with rounds := _, version := _ } : Tournament) = row' at h
      have hmaps : Table.Maps Match.Rests s.db.battles
          (s.db.battles.modify (inRound tid number) ({ · with bestOf := best }) fun _ => rfl) :=
        .modify Match.Rests.refl fun m _ _ => .of_games rfl rfl rfl rfl rfl
      have hsame : row'.status = .draft → row.Same row' := by
        rw [← hrow']
        exact fun hdraft => ⟨rfl, hdraft, rfl, rfl⟩
      rw [logTournament_ok.mp h]
      simp only [Txn.wrote_db, hdb1]
      exact .rest hmaps (.put here hsame rfl)

theorem startTournament_turns (h : startTournament site actor tid version s = .ok u t) :
    Turns fair clear s.db t.db := by
  simp only [startTournament, lockTournament_bind, checkVersion_bind, refuseIf_bind, tables_bind, saveTournament_bind,
    logTournament_ok] at h
  obtain ⟨row, here, _, _, _, h⟩ := h
  exact savedTournament_turns h here fun hdraft => by cases hdraft

theorem archiveTournament_turns (h : archiveTournament actor tid version s = .ok u t) :
    Turns fair clear s.db t.db := by
  simp only [archiveTournament, lockTournament_bind, checkVersion_bind, refuseIf_bind, tables_bind,
    saveTournament_bind] at h
  obtain ⟨row, here, _, _, _, h⟩ := h
  exact savedTournament_turns (logTournament_ok.mp h) here fun hdraft => by cases hdraft

theorem setTournamentRanking_turns {value : Ranking} (h : setTournamentRanking actor tid value s = .ok u t) :
    Turns fair clear s.db t.db := by
  simp only [setTournamentRanking, lockTournament_bind] at h
  obtain ⟨row, here, h⟩ := h
  rcases Txn.ite_ok.mp h with ⟨_, h⟩ | ⟨_, h⟩
  · simp only [saveTournament_bind, logTournament_bind, onCommit_ok] at h
    rw [h, Txn.scheduling_db]
    exact savedTournament_turns rfl here fun hdraft => ⟨rfl, hdraft, rfl, rfl⟩
  · rw [(pure_ok.mp h).2, Txn.holding_db]

end

/-! ## Screens -/

/-- An operation on a screen locks it, and saves nothing else. -/
theorem lockScreen_turns {screenId : ScreenId} {f : Screen → ArenaM Unit}
    (h : (do let screen ← lockScreen screenId; f screen) s = .ok u t)
    (hf : ∀ screen s1, f screen s1 = .ok u t → Turns fair clear s1.db t.db) : Turns fair clear s.db t.db := by
  obtain ⟨screen, s1, hlock, h⟩ := bind_ok.mp h
  simp only [lockScreen, tables_bind, orRefuse_bind, lock_bind, pure_ok] at hlock
  obtain ⟨_, _, rfl, rfl⟩ := hlock
  have := hf _ _ h
  rwa [Txn.holding_db] at this

theorem saveScreen_turns {screen : Screen} (h : saveScreen screen s = .ok u t) : Turns fair clear s.db t.db := by
  rw [write_ok.mp h]
  exact .other rfl rfl

/-! ## Every operation -/

/-- The operation, if it is done, gives the match to `slot`, and then its players move on. -/
def Op.Gives (site : Site) (op : Op) (m : Match) (slot : Slot) : Prop :=
  match op with
  | .organize _ (.onMatch id _ (.walkover winner)) => m.id = id ∧ slot = winner
  | .organize _ (.onMatch id _ (.setWinner winner)) => m.id = id ∧ slot = winner
  | .organize _ (.onMatch id _ (.declare _ winner)) => m.id = id ∧ slot = winner ∧ m.OnPoint slot
  | .organize _ (.onMatch id _ (.finalize gameId)) => m.id = id ∧
      ∃ game, m.games.get? gameId = some game ∧ m.GivenBy (game.finalDecision site.now) slot
  | .tick id game now => m.id = id ∧ ∃ g decision, m.games.get? game.id = some g ∧
      evaluate g now = some decision ∧ m.GivenBy decision slot
  | .submit _ _ id gameId _ _ _ => m.id = id ∧ ∃ game decision, m.games.get? gameId = some game ∧
      evaluate game site.now = some decision ∧ m.GivenBy decision slot
  | _ => False

/-- Every match the operation gives to a player is `clear`. -/
def Op.Clears (clear : Db → Match → Slot → Prop) (site : Site) (op : Op) (db : Db) : Prop :=
  op.succeeds site db = true → ∀ m slot, db.match? m.id = some m → op.Gives site m slot → clear db m slot

theorem MatchAction.turns {actor : ProfileId} {action : MatchAction}
    (h : action.run site actor id version { db } = .ok u t) (hdb : WellFormed db) (hfair : fair → site.Draws)
    (hclears : ∀ m slot, db.match? m.id = some m →
      Op.Gives site (.organize actor (.onMatch id version action)) m slot → clear db m slot) :
    Turns fair clear db t.db := by
  have hkey : ∀ {m : Match}, db.match? id = some m → m.id = id := fun here => Table.key_of_get? here
  have hready : ∀ {m : Match} {slot : Slot}, db.match? id = some m →
      Op.Gives site (.organize actor (.onMatch id version action)) m slot → clear db m slot := fun here hgive =>
    hclears _ _ (by rwa [hkey here]) hgive
  cases action with
  | call => exact callMatch_turns h hdb hfair
  | start game force =>
      obtain ⟨_, h⟩ := discard_ok.mp h
      exact startGame_turns h hdb hfair
  | extend game minutes => exact extendGame_turns h hdb
  | cancelGame game => exact cancelGame_turns h hdb hfair
  | declare game slot => exact declareWinner_turns h hdb (fun m here hpoint => hready here ⟨hkey here, rfl, hpoint⟩) hfair
  | finalize game =>
      exact finalizeVerification_turns h hdb
        (fun m g slot here hg hgiven => hready here ⟨hkey here, g, hg, hgiven⟩) hfair
  | walkover slot => exact walkover_turns h hdb fun m here => hready here ⟨hkey here, rfl⟩
  | setWinner slot => exact setWinner_turns h fun m here => hready here ⟨hkey here, rfl⟩
  | cancel => exact cancelMatch_turns h hdb
  | problems game entries number => exact setGameProblems_turns h hdb
  | addGame => exact addGame_turns h hdb
  | update bestOf rules title display => exact updateMatch_turns h hdb
  | replace slot profile display => exact replacePlayer_turns h hdb

theorem TournamentAction.turns {actor : ProfileId} {tid : TournamentId} {action : TournamentAction}
    (h : action.run site actor tid version { db } = .ok u t) (hdb : WellFormed db) : Turns fair clear db t.db := by
  cases action with
  | update => exact updateTournament_turns h hdb
  | participants => exact setParticipants_turns h hdb
  | round => exact setRound_turns h
  | generate => exact generateBracket_turns h hdb
  | start => exact startTournament_turns h
  | archive => exact archiveTournament_turns h

theorem Request.turns {actor : ProfileId} {request : Request} (h : request.run site actor { db } = .ok u t)
    (hdb : WellFormed db) (hfair : fair → site.Draws) (hclears : ∀ m slot, db.match? m.id = some m →
      Op.Gives site (.organize actor request) m slot → clear db m slot) :
    Turns fair clear db t.db := by
  cases request with
  | createDuel =>
      obtain ⟨_, h⟩ := discard_ok.mp h
      exact createDuel_turns h hdb
  | onMatch => exact MatchAction.turns h hdb hfair hclears
  | createTournament =>
      obtain ⟨_, h⟩ := discard_ok.mp h
      exact createTournament_turns h hdb
  | onTournament => exact TournamentAction.turns h hdb
  | setShowInHistory => exact setShowInHistory_turns h
  | fill =>
      obtain ⟨_, h⟩ := discard_ok.mp h
      exact fillMatch_turns h hdb hfair
  | setTournamentRanking => exact setTournamentRanking_turns h
  | setMatchRanking => exact setMatchRanking_turns h hdb
  | createScreen =>
      simp only [Request.run, Arena.createScreen, freshId_bind, write_ok] at h
      subst h
      exact .other rfl rfl
  | showOnScreen => exact lockScreen_turns h fun _ _ h => saveScreen_turns (checkVersion_bind.mp h).2
  | renameScreen => exact lockScreen_turns h fun _ _ h => saveScreen_turns h
  | regenerateScreenToken => exact lockScreen_turns h fun _ _ h => saveScreen_turns h

/-- **Every operation is a sequence of turns.** -/
theorem Op.turns {op : Op} (hdb : WellFormed db) (hfair : fair → site.Draws) (hclears : op.Clears clear site db) :
    Turns fair clear db (op.after site db) := by
  cases hrun : op.result site db with
  | error e t =>
      rw [show op.after site db = db by rw [Op.after, hrun]]
  | ok u t =>
      rw [show op.after site db = t.db by rw [Op.after, hrun]]
      have hkey : ∀ {id : MatchId} {m : Match}, db.match? id = some m → m.id = id := fun here => Table.key_of_get? here
      have hready := hclears (by rw [Op.succeeds, hrun])
      have hready' : ∀ {id : MatchId} {m : Match} {slot : Slot}, db.match? id = some m → op.Gives site m slot →
          clear db m slot := fun here hgive => hready _ _ (by rwa [hkey here]) hgive
      cases op with
      | organize actor request => exact Request.turns hrun hdb hfair hready
      | tick =>
          exact tick_turns hrun hdb
            (fun m g decision slot here hg hd hgiven => hready' here ⟨hkey here, g, decision, hg, hd, hgiven⟩) hfair
      | submit =>
          exact submit_turns hrun hdb
            (fun m g decision slot here hg hd hgiven => hready' here ⟨hkey here, g, decision, hg, hd, hgiven⟩) hfair
      | judge => exact judge_turns hrun

end

end Arena
end CpcJudge
