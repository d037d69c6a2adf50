import CpcJudge.Arena.Held
import CpcJudge.Arena.Recompute
import CpcJudge.Arena.Drawn

/-!
# `Arena.Refreshed` — when the players kept inside the arena are looked up again

A transaction either keeps nobody in the arena that the tables did not keep there, and nobody for longer, or it has
scheduled `refresh_lock` by its end. The state of one under way is `Left I`, with the hook in the place that
`recompute` has in `Told`: once it is scheduled, nothing else matters.
-/

namespace CpcJudge
namespace Arena

open CpcJudge.Txn (bind_ok pure_ok)
open Scoring (Attempt Decision Reason Summary)

/-! ## What keeps the players of a battle -/

/-- `n` keeps the players of `m` in the arena, and for as long as `m` does. -/
structure Match.Foretells (n m : Match) : Prop where
  locking : n.status.locking = true
  players : n.players = m.players
  called : n.calledAt.getD n.createdAt = m.calledAt.getD m.createdAt
  moments : ∀ g ∈ m.games.rows, ∀ moment ∈ g.lockMoments, ∃ g' ∈ n.games.rows, moment ∈ g'.lockMoments

/-- Whoever `m` keeps in the arena is kept there by the tables `ref`. -/
def Seen (ref : Db) (m : Match) : Prop := m.status.locking = true → ∃ n ∈ ref.battles.rows, n.Foretells m

/-- Whoever the tables keep in the arena was kept there by the tables `ref`; and `C` holds. -/
abbrev NobodyNew (ref : Db) (C : Prop) (db : Db) : Prop := (∀ m ∈ db.battles.rows, Seen ref m) ∧ C

/-- The tables satisfy `I`, or the players kept in the arena are going to be looked up again. -/
def Left (I : Db → Prop) (s : Txn) : Prop := I s.db ∨ .refreshLock ∈ s.hooks

section
variable {α β : Type} {P : Txn → Prop} {Q : α → Txn → Prop} {I J : Db → Prop} {ref db : Db} {m m' : Match} {g g' : Game}
  {C : Prop}

theorem Seen.mine (h : m ∈ ref.battles.rows) : Seen ref m := fun hlocking =>
  ⟨m, h, hlocking, rfl, rfl, fun g hg _ hmoment => ⟨g, hg, hmoment⟩⟩

theorem Seen.idle (h : m.status.locking = false) : Seen ref m := fun hlocking => by
  rw [h] at hlocking
  cases hlocking

/-- A match changed, but for what keeps its players. -/
theorem Seen.to (h : Seen ref m) (hlocking : m'.status.locking = true → m.status.locking = true)
    (hplayers : m'.players = m.players) (hcalled : m'.calledAt.getD m'.createdAt = m.calledAt.getD m.createdAt)
    (hmoments : ∀ g' ∈ m'.games.rows, ∀ moment ∈ g'.lockMoments, ∃ g ∈ m.games.rows, moment ∈ g.lockMoments) :
    Seen ref m' := by
  intro hlocked
  obtain ⟨n, hn, hholds⟩ := h (hlocking hlocked)
  refine ⟨n, hn, hholds.locking, hholds.players.trans hplayers.symm, hholds.called.trans hcalled.symm, ?_⟩
  intro g' hg' moment hmoment
  obtain ⟨g, hg, hin⟩ := hmoments g' hg' moment hmoment
  exact hholds.moments g hg moment hin

/-- The same games, and nothing else that keeps the players changed. -/
theorem Seen.of_games (h : Seen ref m) (hstatus : m'.status = m.status) (hplayers : m'.players = m.players)
    (hcalled : m'.calledAt = m.calledAt) (hcreated : m'.createdAt = m.createdAt) (hgames : m'.games = m.games) :
    Seen ref m' :=
  h.to (fun hlocking => hstatus ▸ hlocking) hplayers (by rw [hcalled, hcreated]) fun g hg _ hmoment =>
    ⟨g, hgames ▸ hg, hmoment⟩

theorem Seen.bump (h : Seen ref m) (system : Bool := false) : Seen ref (m.bump system) := by
  rw [bump_eq]
  exact h.of_games rfl rfl rfl rfl rfl

/-- One game changed, none of its moments. -/
theorem Seen.setGame (h : Seen ref m) (hg : g ∈ m.games.rows) (hmoments : g'.lockMoments = g.lockMoments) :
    Seen ref (m.setGame g') := by
  refine h.to id rfl rfl fun x hx moment hmoment => ?_
  rcases Match.mem_setGame hx with rfl | ⟨hx, _⟩
  · exact ⟨g, hg, hmoments ▸ hmoment⟩
  · exact ⟨x, hx, hmoment⟩

/-- A game that has not been prepared for any time yet. -/
theorem Seen.add (h : Seen ref m) (hg : g.lockMoments = []) : Seen ref { m with games := m.games.add g } := by
  refine h.to id rfl rfl fun x hx moment hmoment => ?_
  rcases Table.mem_add hx with rfl | hx
  · rw [hg] at hmoment
    cases hmoment
  · exact ⟨x, hx, hmoment⟩

/-! ## The steps of a transaction -/

theorem Left.mono {s : Txn} (h : ∀ db, I db → J db) (hs : Left I s) : Left J s := hs.imp_left (h s.db)

/-- Nothing is asked of what comes before the hook. -/
theorem Ends.any {x : ArenaM α} : Ends P x fun _ _ => True := ⟨fun _ _ _ _ _ => trivial⟩

namespace Left

theorem from_ {K : α → Db → Prop} {x : ArenaM α} (h : Ends (Left J) x fun a => Left (K a)) (hI : ∀ db, I db → J db) :
    Ends (Left I) x fun a => Left (K a) := h.of_pre fun _ => Left.mono hI

theorem ret {K : α → Db → Prop} (a : α) (h : ∀ db, I db → K a db) : Ends (Left I) (pure a) fun a => Left (K a) :=
  Ends.done a fun _ => Left.mono h

theorem write {f : Db → Db} (h : ∀ db, I db → J (f db)) : Ends (Left I) (Arena.write f) fun _ => Left J :=
  Ends.modified fun s hs => hs.imp_left (h s.db)

theorem tables : Ends (Left I) Arena.tables fun db => Left fun db' => I db' ∧ db' = db := by
  refine ⟨fun s db t hs hrun => ?_⟩
  obtain ⟨rfl, rfl⟩ := tables_ok.mp hrun
  exact hs.imp_left fun h => ⟨h, rfl⟩

theorem lock (l : Lock) : Ends (Left I) (Arena.lock l) fun _ => Left I := by
  refine ⟨fun s _ t hs hrun => ?_⟩
  obtain rfl := lock_ok.mp hrun
  unfold Txn.holding
  split
  · exact hs
  · exact hs

theorem onCommit (hook : Hook) : Ends (Left I) (Arena.onCommit hook) fun _ => Left I := by
  refine ⟨fun s _ t hs hrun => ?_⟩
  obtain rfl := onCommit_ok.mp hrun
  exact hs.imp_right fun h => List.mem_append_left _ h

/-- From here on nothing has to be kept. -/
theorem refresh : Ends P refreshLockOnCommit fun _ => Left J := by
  refine ⟨fun s _ t _ hrun => ?_⟩
  obtain rfl := refreshLockOnCommit_ok.mp hrun
  exact .inr (List.mem_append_right _ List.mem_cons_self)

/-- The last step, after the hook. -/
theorem refreshed {f : Unit → ArenaM α} (h : ∀ u, Ends (Left fun _ => False) (f u) Q) :
    Ends P (refreshLockOnCommit >>= f) Q := refresh.bind h

theorem return_ (a : α) {K : α → Db → Prop} : Ends (Left fun _ => False) (pure a) fun a => Left (K a) :=
  ret a fun _ h => h.elim

end Left

theorem saveMatch_left (h : C → Seen ref m) : Ends (Left (NobodyNew ref C)) (saveMatch m) fun _ =>
    Left (NobodyNew ref C) := by
  refine Left.write fun db hs => ⟨fun x hx => ?_, hs.2⟩
  rcases Table.mem_put hx with rfl | ⟨hx, _⟩
  · exact h hs.2
  · exact hs.1 x hx

/-- Other tables written. -/
theorem write_left {f : Db → Db} (hbattles : ∀ db, (f db).battles = db.battles) :
    Ends (Left (NobodyNew ref C)) (Arena.write f) fun _ => Left (NobodyNew ref C) := by
  refine Left.write fun db hs => ⟨fun x hx => ?_, hs.2⟩
  rw [hbattles] at hx
  exact hs.1 x hx

theorem logMatch_left (action : ActionName) (actor : Option ProfileId) (m : Match) (game : Option GameId := none) :
    Ends (Left (NobodyNew ref C)) (logMatch action actor m game) fun _ => Left (NobodyNew ref C) :=
  write_left fun _ => rfl

theorem logTournament_left (action : ActionName) (actor : Option ProfileId) (id : TournamentId) :
    Ends (Left (NobodyNew ref C)) (logTournament action actor id) fun _ => Left (NobodyNew ref C) :=
  write_left fun _ => rfl

theorem saveTournament_left (t : Tournament) :
    Ends (Left (NobodyNew ref C)) (saveTournament t) fun _ => Left (NobodyNew ref C) := write_left fun _ => rfl

theorem freshId_left : Ends (Left (NobodyNew ref C)) freshId fun _ => Left (NobodyNew ref C) := by
  refine Left.tables.bind fun db => Left.from_ (J := NobodyNew ref C) ?_ fun _ hs => hs.1
  exact Ends.bind (write_left fun _ => rfl) fun _ => Left.ret _ fun _ h => h

theorem ret_left (a : α) {D : α → Prop} (h : C → D a) :
    Ends (Left (NobodyNew ref C)) (pure a) fun a => Left (NobodyNew ref (D a)) :=
  Left.ret a fun _ hs => ⟨hs.1, h hs.2⟩

/-- Other facts to start from. -/
theorem Left.given {D : Prop} {x : ArenaM α} (h : Ends (Left (NobodyNew ref D)) x Q) (hC : C → D) :
    Ends (Left (NobodyNew ref C)) x Q := h.of_pre fun _ => Left.mono fun _ hs => ⟨hs.1, hC hs.2⟩

/-- What is known of a row is forgotten at the end. -/
theorem forget_left {x : ArenaM α} {D : α → Prop} (h : Ends P x fun a => Left (NobodyNew ref (D a))) :
    Ends P x fun _ => Left (NobodyNew ref True) :=
  h.weaken fun _ _ => Left.mono fun _ hs => ⟨hs.1, trivial⟩

end

/-! ## The games of a match -/

/-- A match seen in the tables before, and a game that keeps nobody for longer than the match does. -/
structure Picked (ref : Db) (m : Match) (g : Game) : Prop where
  seen : Seen ref m
  moments : ∀ moment ∈ g.lockMoments, ∃ g' ∈ m.games.rows, moment ∈ g'.lockMoments

section
variable {α : Type} {P : Txn → Prop} {Q : α → Txn → Prop} {I : Db → Prop} {ref : Db} {m m' : Match} {site : Site}
  {actor : Option ProfileId} {now : Time} {C : Prop} {id : MatchId} {version : Option ℤ} {game g' : Game}

theorem Picked.of_mem (h : Seen ref m) (hgame : game ∈ m.games.rows) : Picked ref m game :=
  ⟨h, fun _ hmoment => ⟨game, hgame, hmoment⟩⟩

theorem Picked.setGame (h : Picked ref m game) (hmoments : g'.lockMoments ⊆ game.lockMoments) :
    Seen ref (m.setGame g') := by
  refine h.seen.to id rfl rfl fun x hx moment hmoment => ?_
  rcases Match.mem_setGame hx with rfl | ⟨hx, _⟩
  · exact h.moments moment (hmoments hmoment)
  · exact ⟨x, hx, hmoment⟩

theorem newGame_left : Ends (Left (NobodyNew ref (Seen ref m))) (newGame m) fun r =>
    Left (NobodyNew ref (Picked ref r.1 r.2)) := by
  refine freshId_left.bind fun id => ?_
  have hadd : Seen ref m → Seen ref { m with games := m.games.add { id, number := m.lastNumber + 1 } } := fun h =>
    h.add rfl
  refine (saveMatch_left hadd).bind fun _ => ret_left _ fun h => ⟨hadd h, fun moment hmoment => ?_⟩
  cases hmoment

theorem ensureNextGame_left : Ends (Left (NobodyNew ref (Seen ref m))) (ensureNextGame m) fun r =>
    Left (NobodyNew ref (Picked ref r.1 r.2)) := by
  unfold ensureNextGame
  split
  · rename_i game hgame
    exact ret_left _ fun h => .of_mem h (Table.mem_of_get? (preparedGame_mem hgame).1)
  · exact newGame_left

theorem newGames_left : ∀ {count : ℕ} {m : Match}, Ends (Left (NobodyNew ref (Seen ref m))) (newGames m count) fun m' =>
    Left (NobodyNew ref (Seen ref m'))
  | 0, _ => ret_left _ fun h => h
  | _ + 1, _ => newGame_left.bind fun _ => Left.given newGames_left fun h => h.seen

theorem gameNumber_left {number : ℕ} : Ends (Left (NobodyNew ref (Seen ref m))) (gameNumber m number) fun r =>
    Left (NobodyNew ref (Picked ref r.1 r.2)) := by
  refine Ends.refuseIf fun _ => ?_
  cases hfind : m.games.rows.find? (·.number = number) with
  | some game => exact ret_left _ fun h => .of_mem h (List.mem_of_find?_eq_some hfind)
  | none =>
      exact newGames_left.bind fun m' => Ends.orRefuse fun game hgame =>
        ret_left _ fun h => .of_mem h (List.mem_of_find?_eq_some hgame)

theorem fillFromBank_left (force : Bool) :
    Ends (Left (NobodyNew ref (Picked ref m game))) (fillFromBank site actor force m game) fun r =>
      Left (NobodyNew ref (Seen ref r.1)) := by
  refine Left.tables.bind fun db => Left.from_ (J := NobodyNew ref (Picked ref m game)) ?_ fun _ hs => hs.1
  cases bankOffer site db actor force m game with
  | none => exact ret_left _ fun h => h.seen
  | some offer =>
      cases offer with
      | error e => exact (logMatch_left _ _ _ _).bind fun _ => ret_left _ fun h => h.seen
      | ok problems =>
          have hset : Picked ref m game → Seen ref (m.setGame { game with problems }) := fun h => h.setGame fun _ hin => hin
          exact (saveMatch_left hset).bind fun _ => (logMatch_left _ _ _ _).bind fun _ => ret_left _ hset

/-! ## The end of a game -/

theorem decideMatch_left {K : Match → Db → Prop} {slot : Slot} {reason : DecidedReason} :
    Ends P (decideMatch now actor m slot reason) fun m' => Left (K m') := by
  unfold decideMatch
  exact Ends.any.bind fun _ => Ends.any.bind fun _ => Ends.any.bind fun _ => Ends.any.bind fun _ => Ends.any.bind fun _ =>
    Left.refreshed fun _ => Left.return_ _

theorem finish_left {K : Match → Db → Prop} {slot : Slot} {reason : Reason} {result : Pair Summary}
    (hgoing : m.isOver = false) :
    Ends P (finish site actor m game slot reason result now) fun m' => Left (K m') := by
  simp only [finish]
  rw [if_neg (by rw [show Match.isOver (m.setGame _) = m.isOver from rfl, hgoing]; simp)]
  refine Ends.any.bind fun _ => Ends.any.bind fun _ => Ends.ite (fun _ => decideMatch_left) fun _ => ?_
  exact Ends.any.bind fun _ => Left.refreshed fun _ => Left.return_ _

theorem tieGame_left {K : Match → Db → Prop} {result : Pair Summary} :
    Ends P (tieGame site actor m game result now) fun m' => Left (K m') := by
  refine Ends.any.bind fun _ => Ends.any.bind fun _ => Ends.ite (fun _ => ?_) fun _ => ?_
  · exact Left.refreshed fun _ => Left.return_ _
  · exact Ends.any.bind fun _ => Left.refreshed fun _ => Left.return_ _

/-- A game that is played on keeps its moments. -/
theorem lockMoments_active (h : game.status.active = true) (h' : g'.status.active = true)
    (hstarted : g'.startedAt = game.startedAt) (hfinished : g'.finishedAt = game.finishedAt)
    (hends : g'.endsAt = game.endsAt) : g'.lockMoments ⊆ game.lockMoments := by
  rw [Game.lockMoments, Game.lockMoments, h, h', hstarted, hfinished, hends]
  exact List.Subset.refl _

theorem tickLocked_left (hgoing : game.status.active = true → m.isOver = false) :
    Ends (Left (NobodyNew ref (Picked ref m game))) (tickLocked site m game now) fun m' =>
      Left (NobodyNew ref (Seen ref m')) := by
  unfold tickLocked
  cases hdecision : evaluate game now with
  | none => exact ret_left _ fun h => h.seen
  | some decision =>
      have hactive := evaluate_active hdecision
      refine Ends.ite (fun _ => ret_left _ fun h => h.seen) fun _ => ?_
      unfold applyDecision
      split
      · exact ret_left _ fun h => h.seen
      · refine Ends.ite (fun _ => ret_left _ fun h => h.seen) fun _ => ?_
        have hset : Picked ref m game → Seen ref (m.setGame { game with status := .live }) := fun h =>
          h.setGame (lockMoments_active hactive rfl rfl rfl rfl)
        exact (saveMatch_left hset).bind fun _ => ret_left _ hset
      · refine Ends.ite (fun _ => ret_left _ fun h => h.seen) fun _ => ?_
        have hset : Picked ref m game → Seen ref (m.setGame (game.verify now)) := fun h =>
          h.setGame (lockMoments_active hactive rfl rfl rfl rfl)
        exact (saveMatch_left hset).bind fun _ => (logMatch_left _ _ _ _).bind fun _ => ret_left _ hset
      · split
        · exact finish_left (hgoing hactive)
        · exact ret_left _ fun h => h.seen
      · exact tieGame_left

/-! ## Operations on one match -/

/-- The first locks of an operation write nothing. -/
theorem lockMatch_at {f : Match → ArenaM α} (h : ∀ m, ref.match? m.id = some m → Ends (·.db = ref) (f m) Q) :
    Ends (·.db = ref) (lockMatch id >>= f) Q := by
  have hlock : Ends (·.db = ref) (lockMatch id) fun m s => ref.match? m.id = some m ∧ s.db = ref := by
    refine ⟨fun s m t hs hrun => ?_⟩
    obtain ⟨here, rfl⟩ := lockMatch_ok.mp hrun
    rw [show s.db = ref from hs] at here
    have hid : m.id = id := Table.key_of_get? here
    exact ⟨hid ▸ here, by rw [Txn.holdingMatch_db]; exact hs⟩
  exact hlock.bind fun m => Ends.assume fun hm => h m hm

/-- From the tables of before, whatever is true. -/
theorem start_left {x : ArenaM α} (h : Ends (Left (NobodyNew ref C)) x Q) (hC : C) : Ends (·.db = ref) x Q := by
  refine h.of_pre fun s hs => .inl ⟨fun m hm => .mine ?_, hC⟩
  rwa [show s.db = ref from hs] at hm

theorem unchanged_left (a : α) : Ends (·.db = ref) (pure a) fun _ => Left (NobodyNew ref True) :=
  start_left (C := True) (ret_left _ fun h => h) trivial

theorem Seen.of_match? (h : ref.match? m.id = some m) : Seen ref m := .mine (Table.mem_of_get? h)

theorem callMatch_left : Ends (·.db = ref) (callMatch site actor id version) fun _ => Left (NobodyNew ref True) := by
  refine lockMatch_at fun m _ => Ends.checkVersion (Ends.ite (fun _ => unchanged_left _) fun _ => Ends.refuseIf fun _ => ?_)
  exact Ends.any.bind fun _ => Ends.any.bind fun _ => Ends.any.bind fun _ => Ends.any.bind fun _ => Ends.any.bind fun _ =>
    Ends.any.bind fun _ => Left.refresh

theorem setGameProblems_left {gameId : Option GameId} {entries : List Entry} {number : Option ℕ} :
    Ends (·.db = ref) (setGameProblems site actor id gameId entries version number) fun _ =>
      Left (NobodyNew ref True) := by
  refine lockMatch_at fun m here => Ends.checkVersion (Ends.refuseIf fun _ => ?_)
  have hrest : ∀ r : Match × Game, Ends (Left (NobodyNew ref (Picked ref r.1 r.2))) (do
        refuseIf (r.2.status ≠ .prepared) ⟨"The problems of a game cannot change once it has started.", 400⟩
        let problems ← cleaned (cleanProblemList site actor entries (problemsUsedInMatch r.1 (some r.2.id))
          (r.2.problems.map fun gp => gp.problem))
        saveMatch ((r.1.setGame { r.2 with problems }).bump)
        logMatch .problems actor ((r.1.setGame { r.2 with problems }).bump) r.2.id : ArenaM Unit) fun _ =>
      Left (NobodyNew ref True) := fun r => by
    refine Ends.refuseIf fun _ => Ends.cleaned fun problems => ?_
    have hset : Picked ref r.1 r.2 → Seen ref (r.1.setGame { r.2 with problems }).bump := fun h => by
      have hsame : Game.lockMoments { r.2 with problems } ⊆ r.2.lockMoments := fun _ hin => hin
      exact Seen.bump (h.setGame hsame)
    exact (saveMatch_left hset).bind fun _ => forget_left (D := fun _ => Picked ref r.1 r.2) (logMatch_left _ _ _ _)
  have hseen := Seen.of_match? here
  cases gameId with
  | some gameId =>
      exact Ends.orRefuse fun game hgame => start_left (hrest (m, game)) (.of_mem hseen (Table.mem_of_get? hgame))
  | none =>
      cases number with
      | some number => exact start_left (gameNumber_left.bind hrest) hseen
      | none => exact start_left (ensureNextGame_left.bind hrest) hseen

theorem addGame_left : Ends (·.db = ref) (addGame id version) fun _ => Left (NobodyNew ref True) := by
  refine lockMatch_at fun m here => Ends.checkVersion (Ends.refuseIf fun _ => ?_)
  refine start_left (ensureNextGame_left.bind fun r => ?_) (.of_match? here)
  exact forget_left (D := fun _ => Picked ref r.1 r.2) (saveMatch_left fun h => h.seen.bump)

theorem requireRunning_at {f : Unit → ArenaM α} (h : Ends (·.db = ref) (f ()) Q) :
    Ends (·.db = ref) (requireRunningTournament m >>= f) Q := by
  unfold requireRunningTournament
  rw [bind_assoc]
  exact tables_first (Ends.refuseIf fun _ => h)

theorem refuseBusy_at {slot : Slot} {f : Unit → ArenaM α} (h : Ends (·.db = ref) (f ()) Q) :
    Ends (·.db = ref) (refuseBusy site m slot >>= f) Q := by
  unfold refuseBusy
  rw [bind_assoc]
  exact tables_first (Ends.refuseIf fun _ => h)

theorem startGame_left {gameId : Option GameId} {force : Bool} :
    Ends (·.db = ref) (startGame site actor id gameId force version) fun _ => Left (NobodyNew ref True) := by
  refine lockMatch_at fun m here => Ends.checkVersion (Ends.refuseIf fun _ => Ends.refuseIf fun _ => ?_)
  refine requireRunning_at (Ends.refuseIf fun _ => Ends.orRefuse fun game hgame => refuseBusy_at (refuseBusy_at ?_))
  have hpicked : Picked ref m game := by
    refine .of_mem (.of_match? here) ?_
    cases gameId with
    | none => exact Table.mem_of_get? (preparedGame_mem hgame).1
    | some gameId => exact Table.mem_of_get? (Option.filter_eq_some_iff.mp hgame).1
  refine start_left ((fillFromBank_left false).bind fun r => Ends.orRefuse fun game _ => Ends.refuseIf fun _ => ?_) hpicked
  refine Left.tables.bind fun db => Ends.refuseIf fun _ => Ends.ite (fun _ => ?_) fun _ => ?_
  · exact Left.ret _ fun _ hs => ⟨hs.1.1, trivial⟩
  · exact Ends.any.bind fun _ => Ends.any.bind fun _ => Left.refreshed fun _ => Left.return_ _

/-- An operation that saves the match once and looks up the players again. -/
theorem saved_left {action : ActionName} {gameId : Option GameId} :
    Ends P (do saveMatch m; logMatch action actor m gameId; refreshLockOnCommit) fun _ => Left I :=
  Ends.any.bind fun _ => Ends.any.bind fun _ => Left.refresh

theorem extendGame_left {gameId : GameId} {more : ℤ} :
    Ends (·.db = ref) (extendGame actor id gameId more version) fun _ => Left (NobodyNew ref True) :=
  lockMatch_at fun _ _ => Ends.checkVersion (Ends.refuseIf fun _ => gameOf_ends fun _ _ => Ends.refuseIf fun _ =>
    Ends.refuseIf fun _ => Ends.refuseIf fun _ => saved_left)

theorem cancelGame_left {gameId : GameId} :
    Ends (·.db = ref) (cancelGame site actor id gameId version) fun _ => Left (NobodyNew ref True) := by
  refine lockMatch_at fun m _ => Ends.checkVersion (Ends.refuseIf fun _ => gameOf_ends fun game _ => Ends.refuseIf fun _ => ?_)
  unfold refuseWhileAnotherRuns
  refine Ends.refuseIf fun _ => Ends.any.bind fun _ => Ends.any.bind fun _ => Ends.ite (fun _ => ?_) fun _ => Left.refresh
  exact Ends.any.bind fun _ => Left.refresh

theorem declareWinner_left {gameId : GameId} {slot : Slot} :
    Ends (·.db = ref) (declareWinner site actor id gameId slot version) fun _ => Left (NobodyNew ref True) := by
  refine lockMatch_at fun m _ => Ends.checkVersion (gameOf_ends fun game _ => Ends.refuseIf fun _ => Ends.refuseIf fun hplaying => ?_)
  unfold refuseWhileAnotherRuns
  rw [not_not] at hplaying
  refine Ends.refuseIf fun _ => (finish_left (K := fun _ _ => False) ?_).bind fun _ => Left.return_ _
  simp [Match.isOver, hplaying]

theorem finalizeVerification_left {gameId : GameId} :
    Ends (·.db = ref) (finalizeVerification site actor id gameId version) fun _ => Left (NobodyNew ref True) := by
  refine lockMatch_at fun m _ => Ends.checkVersion (Ends.refuseIf fun hover => gameOf_ends fun game _ => Ends.refuseIf fun _ => ?_)
  have hgoing : m.isOver = false := Bool.eq_false_iff.mpr hover
  dsimp only
  split
  · exact (finish_left hgoing).bind fun _ => forget_left (D := fun _ => False) (logMatch_left _ _ _ _)
  · exact tieGame_left.bind fun _ => forget_left (D := fun _ => False) (logMatch_left _ _ _ _)

theorem walkover_left {slot : Slot} :
    Ends (·.db = ref) (walkover site actor id slot version) fun _ => Left (NobodyNew ref True) :=
  lockMatch_at fun _ _ => Ends.checkVersion (Ends.refuseIf fun _ => Ends.refuseIf fun _ =>
    (decideMatch_left (K := fun _ _ => False)).bind fun _ => Left.return_ _)

theorem cancelMatch_left : Ends (·.db = ref) (cancelMatch site actor id version) fun _ => Left (NobodyNew ref True) :=
  lockMatch_at fun _ _ => Ends.checkVersion (Ends.refuseIf fun _ => Ends.refuseIf fun _ => Ends.any.bind fun _ => saved_left)

theorem updateMatch_left {bestOf : Option ℕ} {rules : Option Rules} {title : Option String}
    {display : Pair (Option String)} :
    Ends (·.db = ref) (updateMatch actor id version bestOf rules title display) fun _ => Left (NobodyNew ref True) := by
  refine lockMatch_at fun m here => Ends.checkVersion (Ends.refuseIf fun _ => start_left (C := True) ?_ trivial)
  have hseen := Seen.of_match? here
  have hsave : ∀ m' : Match, Seen ref m' → Ends (Left (NobodyNew ref True)) (do
      let m := { m' with title := (title.map fun t => cut 100 (strip t)).getD m'.title }
      let displayA ← cleaned ((display.a.map fun v => cleanDisplay v m.tournament.isNone).getD (.ok m.displayNames.a))
      let displayB ← cleaned ((display.b.map fun v => cleanDisplay v m.tournament.isNone).getD (.ok m.displayNames.b))
      let m := { m with displayNames := ⟨displayA, displayB⟩ }.bump
      saveMatch m
      logMatch .update actor m : ArenaM Unit) fun _ => Left (NobodyNew ref True) := by
    intro m' h
    refine Ends.cleaned fun displayA => Ends.cleaned fun displayB => ?_
    refine (saveMatch_left fun _ => Seen.bump ?_).bind fun _ => logMatch_left _ _ _ _
    exact h.of_games rfl rfl rfl rfl rfl
  -- the row with another length, and then with other rules
  cases bestOf with
  | none =>
      cases rules with
      | none => exact hsave m hseen
      | some rules => exact Ends.cleaned fun rules => hsave _ (hseen.of_games rfl rfl rfl rfl rfl)
  | some bestOf =>
      refine Ends.cleaned fun bestOf => Ends.refuseIf fun _ => ?_
      cases rules with
      | none => exact hsave _ (hseen.of_games rfl rfl rfl rfl rfl)
      | some rules => exact Ends.cleaned fun rules => hsave _ (hseen.of_games rfl rfl rfl rfl rfl)

theorem replacePlayer_left {slot : Slot} {profile : Option ProfileId} {display : String} :
    Ends (·.db = ref) (replacePlayer site actor id slot profile display version) fun _ => Left (NobodyNew ref True) := by
  refine Ends.orRefuse fun profile _ => lockMatch_at fun m _ => Ends.checkVersion (Ends.refuseIf fun _ => ?_)
  refine Ends.refuseIf fun _ => Ends.refuseIf fun _ => Ends.refuseIf fun _ => tables_first (Ends.refuseIf fun _ => ?_)
  exact Ends.cleaned fun display => saved_left

theorem setWinner_left {slot : Slot} :
    Ends (·.db = ref) (setWinner site actor id slot version) fun _ => Left (NobodyNew ref True) := by
  refine lockMatch_at fun m _ => Ends.checkVersion (Ends.orRefuse fun t _ => Ends.refuseIf fun _ => Ends.refuseIf fun _ => ?_)
  refine tables_first (Ends.refuseIf fun _ => Ends.refuseIf fun _ => ?_)
  exact Ends.any.bind fun _ => Ends.any.bind fun _ => Ends.any.bind fun _ => Ends.any.bind fun _ => Ends.any.bind fun _ =>
    Left.refresh

theorem fillMatch_left : Ends (·.db = ref) (fillMatch site actor id) fun _ => Left (NobodyNew ref True) := by
  refine lockMatch_at fun m here => Ends.ite (fun _ => unchanged_left _) fun _ => ?_
  refine start_left (ensureNextGame_left.bind fun r => (fillFromBank_left true).bind fun r' => ?_) (.of_match? here)
  refine Ends.ite (fun _ => ?_) fun _ => ret_left _ fun _ => trivial
  exact (saveMatch_left fun h => h.bump).bind fun _ => ret_left _ fun _ => trivial

theorem setMatchRanking_left {value : Ranking} :
    Ends (·.db = ref) (setMatchRanking actor id value) fun _ => Left (NobodyNew ref True) := by
  refine lockMatch_at fun m here => Ends.refuseIf fun _ => Ends.ite (fun _ => ?_) fun _ => unchanged_left _
  refine start_left (C := True) ?_ trivial
  have hseen : Seen ref { m with ranking := value } := (Seen.of_match? here).of_games rfl rfl rfl rfl rfl
  exact (saveMatch_left fun _ => hseen).bind fun _ => (logMatch_left _ _ _ _).bind fun _ => Left.onCommit _

/-! ## Submissions, verdicts and new battles -/

theorem tick_left (hdb : WellFormed ref) : Ends (·.db = ref) (tick site id game now) fun _ =>
    Left (NobodyNew ref True) := by
  refine Ends.ite (fun _ => unchanged_left _) fun _ => Ends.ite (fun _ => unchanged_left _) fun _ => ?_
  refine lockMatch_at fun m here => gameOf_ends fun game hgame => ?_
  have hsound := hdb.sound m (Table.mem_of_get? here)
  refine start_left ((tickLocked_left (hsound.going_of_active hgame)).bind fun _ => ret_left _ fun _ => trivial) ?_
  exact .of_mem (.of_match? here) (Table.mem_of_get? hgame)

theorem submit_left (hdb : WellFormed ref) {profile : ProfileId} {superuser : Bool} {gameId : GameId} {order : ℕ}
    {language source : String} :
    Ends (·.db = ref) (submit site profile superuser id gameId order language source) fun _ =>
      Left (NobodyNew ref True) := by
  refine Ends.refuseIf fun _ => Ends.refuseIf fun _ => lockMatch_at fun m here => gameOf_ends fun game hgame => ?_
  have hsound := hdb.sound m (Table.mem_of_get? here)
  refine Ends.orRefuse fun slot _ => start_left ((tickLocked_left (hsound.going_of_active hgame)).bind fun m' => ?_)
    (.of_mem (.of_match? here) (Table.mem_of_get? hgame))
  refine gameOf_ends fun game' hgame' => Ends.refuseIf fun _ => Ends.refuseIf fun _ => Ends.orRefuse fun gp _ => ?_
  refine Ends.refuseIf fun _ => Ends.refuseIf fun _ => Ends.orRefuse fun contest _ => Ends.refuseIf fun _ => ?_
  refine Ends.refuseIf fun _ => freshId_left.bind fun attempt => forget_left (D := fun _ => Seen ref m') (saveMatch_left fun h => ?_)
  exact h.setGame (Table.mem_of_get? hgame') rfl

theorem judge_left {gameId : GameId} {attempts : Pair (List Attempt)} :
    Ends (·.db = ref) (judge id gameId attempts) fun _ => Left (NobodyNew ref True) := by
  refine tables_first (Ends.orRefuse fun m here => gameOf_ends fun game hgame => Ends.refuseIf fun _ => ?_)
  refine start_left (C := True) (saveMatch_left fun _ => ?_) trivial
  exact Seen.setGame (.mine (Table.mem_of_get? here)) (Table.mem_of_get? hgame) rfl

theorem createDuel_left {players : Pair (Option ProfileId)} {games : List (List Entry)} {bestOf : ℕ} {rules : Rules}
    {display : Pair String} {title : String} {call : Bool} {ranking : Ranking} :
    Ends (·.db = ref) (createDuel site actor players games bestOf rules display title call ranking) fun _ =>
      Left (NobodyNew ref True) := by
  refine Ends.orRefuse fun a _ => Ends.orRefuse fun b _ => Ends.refuseIf fun _ => Ends.refuseIf fun _ => ?_
  refine Ends.cleaned fun bestOf => Ends.cleaned fun rules => Ends.cleaned fun displayA => ?_
  refine Ends.cleaned fun displayB => tables_first (Ends.refuseIf fun _ => Ends.refuseIf fun _ => ?_)
  refine Ends.refuseIf fun _ => Ends.refuseIf fun _ => Ends.cleaned fun problems => Ends.refuseIf fun _ => ?_
  refine Ends.any.bind fun id => Ends.any.bind fun _ => Ends.any.bind fun m => Ends.any.bind fun _ => Ends.any.bind fun _ => ?_
  refine Ends.any.bind fun screen => ?_
  cases screen with
  | none => exact Left.refreshed fun _ => Left.return_ _
  | some screen => exact Ends.any.bind fun _ => Ends.any.bind fun _ => Left.refreshed fun _ => Left.return_ _

end

/-! ## Operations on a tournament -/

section
variable {α : Type} {P : Txn → Prop} {Q : α → Txn → Prop} {ref db : Db} {m : Match} {site : Site}
  {actor : Option ProfileId} {C : Prop} {id : TournamentId} {version : Option ℤ} {row row' : Tournament}

theorem lockTournament_at {f : Tournament → ArenaM α}
    (h : ∀ t, ref.tournament? id = some t → Ends (·.db = ref) (f t) Q) :
    Ends (·.db = ref) (lockTournament id >>= f) Q := by
  have hlock : Ends (·.db = ref) (lockTournament id) fun t s => ref.tournament? id = some t ∧ s.db = ref := by
    refine ⟨fun s t u hs hrun => ?_⟩
    obtain ⟨here, rfl⟩ := lockTournament_ok.mp hrun
    rw [show s.db = ref from hs] at here
    exact ⟨here, by rw [Txn.holding_db]; exact hs⟩
  exact hlock.bind fun t => Ends.assume fun ht => h t ht

/-- Nobody plays a match of a bracket that was just drawn. -/
theorem buildBracket_left (hdb : WellFormed db) (here : db.tournament? row.id = some row)
    (hbattles : db.battles = ref.battles) :
    Ends (·.db = db) (buildBracket site actor row) fun _ => Left (NobodyNew ref True) := by
  refine ⟨fun s row' u hs hrun => .inl ⟨fun m hm => ?_, trivial⟩⟩
  obtain rfl : s.db = db := hs
  obtain ⟨_, _, _, _, hbuilds⟩ := buildBracket_builds hrun (hdb.seeded _ (Table.mem_of_get? here))
  rcases hbuilds.cases hdb.below hm with ⟨_, _, hbuilt⟩ | ⟨hm, _⟩
  · exact .idle hbuilt.idle
  · exact .mine (hbattles ▸ hm)

/-- A draft saved and its bracket drawn again. -/
theorem redrawn_left {name : ActionName} (hdb : WellFormed ref) (here : ref.tournament? id = some row)
    (hid : row'.id = row.id) (hstatus : row'.status = row.status) (hseeded : row.Seeded → row'.Seeded) :
    Ends (·.db = ref) (do
      saveTournament row'
      let _ ← buildBracket site actor row'
      logTournament name actor id : ArenaM Unit) fun _ => Left (NobodyNew ref True) := by
  rw [← id_of_tournament? here] at here
  have hpath : Path true (fun _ => True) ref (ref.putTournament row') := .tournament here hid (.inl hstatus) hseeded
  have hsave : Ends (·.db = ref) (saveTournament row') fun _ s => s.db = ref.putTournament row' := by
    refine Ends.modified fun s hs => ?_
    rw [Txn.wrote_db, show s.db = ref from hs]
  refine hsave.bind fun _ => (buildBracket_left (hdb.path hpath) ?_ rfl).bind fun _ => logTournament_left _ _ _
  exact Db.tournament?_putTournament here hid

theorem updateTournament_left (hdb : WellFormed ref) {name description : Option String} {rules : Option Rules}
    {bank : Option (Option BankId)} {thirdPlace : Option Bool} {draw : Option Rules.Draw}
    {showInHistory : Option Bool} {plannedAt : Option (Option Time)} :
    Ends (·.db = ref) (updateTournament site actor id version name description rules bank thirdPlace draw
      showInHistory plannedAt) fun _ => Left (NobodyNew ref True) := by
  refine lockTournament_at fun t here => Ends.checkVersion ?_
  have hrest : ∀ planned : Option Time, Ends (·.db = ref) (do
      let t := { t with showInHistory := showInHistory.getD t.showInHistory }
      let t := { t with plannedAt := planned }
      refuseIf (name.any fun n => cut 100 (strip n) = "") ⟨"Give the tournament a name.", 400⟩
      let t := { t with name := (name.map fun n => cut 100 (strip n)).getD t.name
                        description := (description.map fun d => cut 2000 (strip d)).getD t.description }
      let rules ← cleaned ((rules.map fun r => (Rules.clean r).map some).getD (.ok none))
      let draw ← cleaned (Rules.cleanDraw (draw.getD {}))
      let t : Tournament := { t with rules := Rules.withDraw t.rules rules draw, bank := bank.getD t.bank }
      let rebuild : Bool := thirdPlace.any (· ≠ t.thirdPlaceMatch)
      refuseIf (rebuild ∧ t.status ≠ .draft)
        ⟨"The bracket is already set; this can only change in a draft.", 400⟩
      let t := { t with thirdPlaceMatch := thirdPlace.getD t.thirdPlaceMatch, version := t.version + 1 }
      saveTournament t
      if rebuild then do
        let _ ← buildBracket site actor t
        logTournament .tournamentUpdate actor id
      else logTournament .tournamentUpdate actor id : ArenaM Unit) fun _ => Left (NobodyNew ref True) := by
    intro planned
    refine Ends.refuseIf fun _ => Ends.cleaned fun rules => Ends.cleaned fun draw => Ends.refuseIf fun _ => ?_
    dsimp only
    split
    · refine redrawn_left hdb here ?_ ?_ fun hseeded => hseeded.congr ?_
      · rfl
      · rfl
      · rfl
    · exact start_left (C := True) ((saveTournament_left _).bind fun _ => logTournament_left _ _ _) trivial
  cases plannedAt with
  | none => exact hrest _
  | some moment =>
      dsimp only
      split
      · exact hrest _
      · exact Ends.cleaned hrest

theorem setShowInHistory_left {shown : Bool} :
    Ends (·.db = ref) (setShowInHistory actor id shown) fun _ => Left (NobodyNew ref True) := by
  refine lockTournament_at fun t _ => Ends.ite (fun _ => ?_) fun _ => unchanged_left _
  exact start_left (C := True) ((saveTournament_left _).bind fun _ => logTournament_left _ _ _) trivial

theorem setParticipants_left (hdb : WellFormed ref) {profiles : List (Option ProfileId)} {seeding : Option Seeding} :
    Ends (·.db = ref) (setParticipants site actor id profiles seeding version) fun _ => Left (NobodyNew ref True) := by
  refine lockTournament_at fun t here => Ends.checkVersion (Ends.refuseIf fun _ => Ends.cleaned fun profiles => ?_)
  refine Ends.refuseIf fun _ => redrawn_left hdb here ?_ ?_ fun _ => ?_
  · rfl
  · rfl
  · exact seeded_seeded _ rfl

theorem lockAll_left : ∀ {ls : List Lock}, Ends (Left (NobodyNew ref C)) (lockAll ls) fun _ => Left (NobodyNew ref C)
  | [] => ret_left _ fun h => h
  | _ :: _ => (Left.lock _).bind fun _ => lockAll_left

theorem setRound_left {number : ℕ} {bestOf : Option ℕ} {rules : Option Rules} {name : Option String}
    {draw : Option Rules.Draw} :
    Ends (·.db = ref) (setRound actor id number bestOf rules name version draw) fun _ => Left (NobodyNew ref True) := by
  refine lockTournament_at fun t _ => Ends.checkVersion (Ends.orRefuse fun round _ => start_left (C := True) ?_ trivial)
  have hrest : ∀ round : Round, Ends (Left (NobodyNew ref True)) (do
      let rules ← cleaned ((rules.map fun r => (Rules.clean r).map some).getD (.ok none))
      let draw ← cleaned (Rules.cleanDraw (draw.getD {}))
      let round := { round with rules := Rules.withDraw round.rules rules { draw with autoDraw := none }
                                name := (name.map fun n => cut 60 (strip n)).getD round.name }
      saveTournament { t with rounds := t.rounds.map (fun r => if r.number = number then round else r)
                              version := t.version + 1 }
      logTournament .round actor id : ArenaM Unit) fun _ => Left (NobodyNew ref True) := by
    intro round
    exact Ends.cleaned fun rules => Ends.cleaned fun draw => (saveTournament_left _).bind fun _ => logTournament_left _ _ _
  cases bestOf with
  | none => exact hrest round
  | some bestOf =>
      refine Ends.cleaned fun bestOf => Left.tables.bind fun db => Ends.refuseIf fun _ => ?_
      refine Left.from_ (J := NobodyNew ref True) (lockAll_left.bind fun _ => ?_) fun _ hs => hs.1
      have hlength : Ends (Left (NobodyNew ref True)) (write fun db =>
          { db with battles := db.battles.modify (inRound id number) ({ · with bestOf }) fun _ => rfl }) fun _ =>
            Left (NobodyNew ref True) := by
        refine Left.write fun db hs => ⟨fun x hx => ?_, trivial⟩
        obtain ⟨m, hm, rfl⟩ := List.mem_map.mp hx
        split
        · exact (hs.1 m hm).of_games rfl rfl rfl rfl rfl
        · exact hs.1 m hm
      exact hlength.bind fun _ => hrest _

theorem generateBracket_left (hdb : WellFormed ref) :
    Ends (·.db = ref) (generateBracket site actor id version) fun _ => Left (NobodyNew ref True) := by
  refine lockTournament_at fun t here => Ends.checkVersion (Ends.refuseIf fun _ => ?_)
  rw [← id_of_tournament? here] at here
  exact (buildBracket_left hdb here rfl).bind fun _ => ret_left _ fun h => h

theorem startTournament_left :
    Ends (·.db = ref) (startTournament site actor id version) fun _ => Left (NobodyNew ref True) := by
  refine lockTournament_at fun t _ => Ends.checkVersion (Ends.refuseIf fun _ => tables_first (Ends.refuseIf fun _ => ?_))
  exact start_left (C := True) ((saveTournament_left _).bind fun _ => logTournament_left _ _ _) trivial

theorem archiveTournament_left :
    Ends (·.db = ref) (archiveTournament actor id version) fun _ => Left (NobodyNew ref True) := by
  refine lockTournament_at fun t _ => Ends.checkVersion (Ends.refuseIf fun _ => tables_first (Ends.refuseIf fun _ => ?_))
  exact start_left (C := True) ((saveTournament_left _).bind fun _ => logTournament_left _ _ _) trivial

theorem ensureDefaultScreen_left : Ends (Left (NobodyNew ref C)) (ensureDefaultScreen site actor) fun _ =>
    Left (NobodyNew ref C) := by
  refine Left.tables.bind fun db => Left.from_ (J := NobodyNew ref C) ?_ fun _ hs => hs.1
  refine Ends.ite (fun _ => ret_left _ fun h => h) fun _ => freshId_left.bind fun _ => write_left fun _ => rfl

theorem createTournament_left (hdb : WellFormed ref) {name : String} {profiles : List (Option ProfileId)}
    {seeding : Seeding} {thirdPlace : Bool} {rules : Rules} {description : String} {bank : Option BankId}
    {showInHistory : Bool} {plannedAt : Option Time} {ranking : Ranking} :
    Ends (·.db = ref) (createTournament site actor name profiles seeding thirdPlace rules description bank
      showInHistory plannedAt ranking) fun _ => Left (NobodyNew ref True) := by
  unfold createTournament refuseParticipant
  refine Ends.refuseIf fun _ => Ends.cleaned fun rules => Ends.cleaned fun plannedAt => Ends.cleaned fun profiles => ?_
  refine Ends.refuseIf fun _ => freshId_first.bind fun id => Ends.assume fun hid => ?_
  have hplayers : ∀ t : Tournament, t.participants = seeded (orderedBySeeding site profiles seeding) → t.Seeded :=
    fun t ht => seeded_seeded _ ht
  dsimp only
  generalize hrow : Tournament.syncRounds _ _ = row
  have hrowId : row.id = ref.nextId := by rw [← hrow]; exact hid
  have hdraft : row.status = .draft := by rw [← hrow]; rfl
  have hseeded : row.Seeded := hplayers row (by rw [← hrow]; rfl)
  let db1 : Db := { ref with nextId := ref.nextId + 1, tournaments := ref.tournaments.add row }
  have hcreated : Path true (fun _ => True) ref db1 :=
    .single (.newTournament hdraft hseeded (hrowId ▸ le_refl _) (hrowId ▸ Nat.lt_succ_self _) rfl rfl
      (.of_actions rfl (Nat.le_succ _)))
  have hhere : db1.tournament? row.id = some row := by
    refine Table.get?_add_self (Table.get?_eq_none_iff.mpr fun x hx heq => ?_)
    exact absurd (hdb.tournaments x hx) (not_lt.mpr (hrowId ▸ le_of_eq heq.symm))
  have hadd : Ends (·.db = { ref with nextId := ref.nextId + 1 })
      (write fun db => { db with tournaments := db.tournaments.add row }) fun _ s => s.db = db1 := by
    refine Ends.modified fun s hs => ?_
    rw [Txn.wrote_db, show s.db = _ from hs]
  refine hadd.bind fun _ => (buildBracket_left (hdb.path hcreated) hhere rfl).bind fun _ => ?_
  exact (logTournament_left _ _ _).bind fun _ => ensureDefaultScreen_left.bind fun _ => ret_left _ fun h => h

theorem setTournamentRanking_left {value : Ranking} :
    Ends (·.db = ref) (setTournamentRanking actor id value) fun _ => Left (NobodyNew ref True) := by
  refine lockTournament_at fun t _ => Ends.ite (fun _ => ?_) fun _ => unchanged_left _
  refine start_left (C := True) ((saveTournament_left _).bind fun _ => ?_) trivial
  exact (logTournament_left _ _ _).bind fun _ => Left.onCommit _

/-! ## Screens -/

theorem lockScreen_left {f : Screen → ArenaM α} {id : ScreenId}
    (h : ∀ s, Ends (Left (NobodyNew ref C)) (f s) Q) : Ends (Left (NobodyNew ref C)) (lockScreen id >>= f) Q := by
  have hlock : Ends (Left (NobodyNew ref C)) (lockScreen id) fun _ => Left (NobodyNew ref C) := by
    refine Left.tables.bind fun db => Left.from_ (J := NobodyNew ref C) ?_ fun _ hs => hs.1
    exact Ends.orRefuse fun s _ => (Left.lock _).bind fun _ => ret_left _ fun h => h
  exact hlock.bind h

theorem saveScreen_left {s : Screen} : Ends (Left (NobodyNew ref C)) (saveScreen s) fun _ => Left (NobodyNew ref C) :=
  write_left fun _ => rfl

/-! ## Every operation -/

theorem MatchAction.left {actor : ProfileId} {id : MatchId} : ∀ action : MatchAction,
    Ends (·.db = ref) (action.run site actor id version) fun _ => Left (NobodyNew ref True)
  | .call => callMatch_left
  | .start _ _ => startGame_left.discard
  | .extend _ _ => extendGame_left
  | .cancelGame _ => cancelGame_left
  | .declare _ _ => declareWinner_left
  | .finalize _ => finalizeVerification_left
  | .walkover _ => walkover_left
  | .setWinner _ => setWinner_left
  | .cancel => cancelMatch_left
  | .problems _ _ _ => setGameProblems_left
  | .addGame => addGame_left
  | .update _ _ _ _ => updateMatch_left
  | .replace _ _ _ => replacePlayer_left

theorem TournamentAction.left (hdb : WellFormed ref) {actor : ProfileId} : ∀ action : TournamentAction,
    Ends (·.db = ref) (action.run site actor id version) fun _ => Left (NobodyNew ref True)
  | .update _ _ _ _ _ _ _ _ => updateTournament_left hdb
  | .participants _ _ => setParticipants_left hdb
  | .round _ _ _ _ _ => setRound_left
  | .generate => generateBracket_left hdb
  | .start => startTournament_left
  | .archive => archiveTournament_left

theorem Request.left (hdb : WellFormed ref) {actor : ProfileId} (request : Request) :
    Ends (·.db = ref) (request.run site actor) fun _ => Left (NobodyNew ref True) := by
  cases request with
  | createDuel => exact createDuel_left.discard
  | onMatch _ _ action => exact action.left
  | createTournament => exact (createTournament_left hdb).discard
  | onTournament _ _ action => exact action.left hdb
  | setShowInHistory => exact setShowInHistory_left
  | fill => exact fillMatch_left.discard
  | setTournamentRanking => exact setTournamentRanking_left
  | setMatchRanking => exact setMatchRanking_left
  | createScreen => exact start_left (C := True) (freshId_left.bind fun _ => write_left fun _ => rfl) trivial
  | showOnScreen => exact start_left (C := True) (lockScreen_left fun _ => Ends.checkVersion saveScreen_left) trivial
  | renameScreen => exact start_left (C := True) (lockScreen_left fun _ => saveScreen_left) trivial
  | regenerateScreenToken => exact start_left (C := True) (lockScreen_left fun _ => saveScreen_left) trivial

theorem Op.left (hdb : WellFormed ref) : ∀ op : Op,
    Ends (·.db = ref) (op.run site) fun _ => Left (NobodyNew ref True)
  | .organize _ request => request.left hdb
  | .tick _ _ _ => tick_left hdb
  | .submit _ _ _ _ _ _ _ => submit_left hdb
  | .judge _ _ _ => judge_left

/-- An operation that keeps somebody in the arena, or for longer, has the players looked up again. -/
theorem Op.refreshes (hdb : WellFormed db) {op : Op}
    (h : ∃ m ∈ (op.after site db).battles.rows, ¬ Seen db m) : .refreshLock ∈ op.hooks site db := by
  obtain ⟨m, hm, hnew⟩ := h
  unfold Op.after at hm
  unfold Op.hooks
  cases hresult : op.result site db with
  | ok a s =>
      simp only [hresult] at hm
      exact ((op.left hdb).ok _ a s rfl hresult).resolve_left fun hkept => hnew (hkept.1 m hm)
  | error e s =>
      simp only [hresult] at hm
      exact absurd (.mine hm) hnew

end

end Arena
end CpcJudge
