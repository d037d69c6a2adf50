import CpcJudge.Arena.System

/-!
# `Arena.Inversion` — what a successful operation did

One `_ok` lemma for every helper of `Arena.Session` and `Arena.Advance`: the transaction succeeds exactly when
the stated conditions hold, and it leaves the stated one. Together with `Txn.bind_ok` they turn the success of
an operation into the list of what it found, what it checked and what it wrote.
-/

namespace CpcJudge
namespace Arena

/-! ## The transactions a helper leaves -/

namespace Txn

/-- The transaction after writing the tables. -/
def wrote (s : Txn) (f : Db → Db) : Txn := { s with db := f s.db }

/-- The transaction holding one more lock. -/
def holding (s : Txn) (l : Lock) : Txn := if l ∈ s.locks then s else { s with locks := s.locks ++ [l] }

/-- The transaction with one more hook for after the commit. -/
def scheduling (s : Txn) (hook : Hook) : Txn := { s with hooks := s.hooks ++ [hook] }

/-- The transaction holding the locks of a match. -/
def holdingMatch (s : Txn) (m : Match) : Txn :=
  match m.tournament with
  | none => s.holding (.match none m.id)
  | some t => (s.holding (.tournament t)).holding (.match (some t) m.id)

@[simp] theorem wrote_db (s : Txn) (f : Db → Db) : (s.wrote f).db = f s.db := rfl

@[simp] theorem wrote_locks (s : Txn) (f : Db → Db) : (s.wrote f).locks = s.locks := rfl

@[simp] theorem holding_db (s : Txn) (l : Lock) : (s.holding l).db = s.db := by
  unfold holding
  split <;> rfl

@[simp] theorem scheduling_db (s : Txn) (hook : Hook) : (s.scheduling hook).db = s.db := rfl

@[simp] theorem scheduling_locks (s : Txn) (hook : Hook) : (s.scheduling hook).locks = s.locks := rfl

@[simp] theorem holdingMatch_db (s : Txn) (m : Match) : (s.holdingMatch m).db = s.db := by
  unfold holdingMatch
  split <;> simp

end Txn

open CpcJudge.Txn (bind_ok pure_ok throw_ok get_ok modify_ok ite_ok)

attribute [simp] bind_ok CpcJudge.Txn.map_ok pure_ok throw_ok ite_ok

variable {s t : Txn} {u : Unit} {α : Type}

/-! ## Refusals -/

@[simp] theorem refuseIf_ok {c : Prop} [Decidable c] {e : ArenaError} :
    refuseIf c e s = .ok u t ↔ ¬ c ∧ t = s := by
  unfold refuseIf
  rw [ite_ok, throw_ok, pure_ok]
  constructor
  · rintro (⟨_, h⟩ | ⟨h, _, rfl⟩)
    · exact h.elim
    · exact ⟨h, rfl⟩
  · rintro ⟨h, rfl⟩
    exact .inr ⟨h, rfl, rfl⟩

@[simp] theorem orRefuse_ok {value : Option α} {e : ArenaError} {a : α} :
    orRefuse value e s = .ok a t ↔ value = some a ∧ t = s := by
  cases value with
  | none => simp [orRefuse, throw_ok]
  | some x => simp [orRefuse, pure_ok, eq_comm]

@[simp] theorem cleaned_ok {value : Except ArenaError α} {a : α} :
    cleaned value s = .ok a t ↔ value = .ok a ∧ t = s := by
  cases value with
  | error e => simp [cleaned, throw_ok]
  | ok x => simp [cleaned, pure_ok, eq_comm]

@[simp] theorem checkVersion_ok {current : ℕ} {version : Option ℤ} :
    checkVersion current version s = .ok u t ↔ (∀ v ∈ version, v = current) ∧ t = s := by
  cases version with
  | none => simp [checkVersion, pure_ok, eq_comm]
  | some v => simp [checkVersion, refuseIf_ok]

/-! ## Rows and locks -/

@[simp] theorem write_ok {f : Db → Db} : write f s = .ok u t ↔ t = s.wrote f := modify_ok

@[simp] theorem tables_ok {db : Db} : tables s = .ok db t ↔ db = s.db ∧ t = s := by
  unfold tables
  simp only [bind_ok, get_ok, pure_ok]
  constructor
  · rintro ⟨_, _, ⟨rfl, rfl⟩, rfl, rfl⟩
    exact ⟨rfl, rfl⟩
  · rintro ⟨rfl, rfl⟩
    exact ⟨_, _, ⟨rfl, rfl⟩, rfl, rfl⟩

@[simp] theorem lock_ok {l : Lock} : lock l s = .ok u t ↔ t = s.holding l := modify_ok

@[simp] theorem saveMatch_ok {m : Match} : saveMatch m s = .ok u t ↔ t = s.wrote (·.putMatch m) := write_ok

@[simp] theorem saveTournament_ok {row : Tournament} :
    saveTournament row s = .ok u t ↔ t = s.wrote (·.putTournament row) := write_ok

@[simp] theorem freshId_ok {id : ℕ} :
    freshId s = .ok id t ↔ id = s.db.nextId ∧ t = s.wrote fun db => { db with nextId := db.nextId + 1 } := by
  unfold freshId
  simp only [bind_ok, tables_ok, write_ok, pure_ok]
  constructor
  · rintro ⟨_, _, ⟨rfl, rfl⟩, _, _, rfl, rfl, rfl⟩
    exact ⟨rfl, rfl⟩
  · rintro ⟨rfl, rfl⟩
    exact ⟨_, _, ⟨rfl, rfl⟩, ⟨⟩, _, rfl, rfl, rfl⟩

@[simp] theorem logMatch_ok {action : ActionName} {actor : Option ProfileId} {m : Match} {game : Option GameId} :
    logMatch action actor m game s = .ok u t ↔
      t = s.wrote (·.record { action, actor, «match» := some m.id, game, tournament := m.tournament }) :=
  write_ok

@[simp] theorem logTournament_ok {action : ActionName} {actor : Option ProfileId} {id : TournamentId} :
    logTournament action actor id s = .ok u t ↔
      t = s.wrote (·.record { action, actor, tournament := some id }) := write_ok

@[simp] theorem onCommit_ok {hook : Hook} : onCommit hook s = .ok u t ↔ t = s.scheduling hook := modify_ok

@[simp] theorem refreshLockOnCommit_ok : refreshLockOnCommit s = .ok u t ↔ t = s.scheduling .refreshLock := onCommit_ok

@[simp] theorem lockMatch_ok {id : MatchId} {m : Match} :
    lockMatch id s = .ok m t ↔ s.db.match? id = some m ∧ t = s.holdingMatch m := by
  unfold lockMatch Txn.holdingMatch
  simp only [bind_ok, tables_ok, orRefuse_ok]
  constructor
  · rintro ⟨_, _, ⟨rfl, rfl⟩, m', _, ⟨hm, rfl⟩, h⟩
    have hid : m'.id = id := Table.key_of_get? hm
    cases ht : m'.tournament with
    | none =>
        simp only [ht, bind_ok, lock_ok, pure_ok, exists_eq_left, exists_const] at h
        obtain ⟨rfl, rfl⟩ := h
        simp [hm, ht, hid]
    | some t =>
        simp only [ht, bind_ok, lock_ok, pure_ok, exists_eq_left, exists_const] at h
        obtain ⟨rfl, rfl⟩ := h
        simp [hm, ht, hid]
  · rintro ⟨hm, rfl⟩
    have hid : m.id = id := Table.key_of_get? hm
    refine ⟨_, _, ⟨rfl, rfl⟩, m, _, ⟨hm, rfl⟩, ?_⟩
    cases ht : m.tournament with
    | none => simp only [bind_ok, lock_ok, pure_ok, exists_eq_left, exists_const, hid, and_self]
    | some t => simp only [bind_ok, lock_ok, pure_ok, exists_eq_left, exists_const, hid, and_self]

@[simp] theorem lockTournament_ok {id : TournamentId} {row : Tournament} :
    lockTournament id s = .ok row t ↔ s.db.tournament? id = some row ∧ t = s.holding (.tournament id) := by
  unfold lockTournament
  simp only [bind_ok, tables_ok, orRefuse_ok, lock_ok, pure_ok]
  constructor
  · rintro ⟨_, _, ⟨rfl, rfl⟩, _, _, ⟨hrow, rfl⟩, _, _, rfl, rfl, rfl⟩
    exact ⟨hrow, rfl⟩
  · rintro ⟨hrow, rfl⟩
    exact ⟨_, _, ⟨rfl, rfl⟩, _, _, ⟨hrow, rfl⟩, ⟨⟩, _, rfl, rfl, rfl⟩

@[simp] theorem gameOf_ok {m : Match} {id : GameId} {game : Game} :
    gameOf m id s = .ok game t ↔ m.games.get? id = some game ∧ t = s := orRefuse_ok

/-! ## Moving players forward -/

@[simp] theorem place_ok {id : MatchId} {slot : Slot} {profile : Option ProfileId} {seed : Option ℕ} :
    place id slot profile seed s = .ok u t ↔
      ∃ n, s.db.match? id = some n ∧ n.started = false ∧
        t = (s.holdingMatch n).wrote (·.putMatch (n.receive slot profile seed)) := by
  simp [place, bind_ok, lockMatch_ok, refuseIf_ok, saveMatch_ok]


@[simp] theorem checkFinished_ok {now : Time} {id : TournamentId} :
    checkFinished now id s = .ok u t ↔ ∃ row, s.db.tournament? id = some row ∧
      ((row.status = .running ∧ s.db.bracketDone id = true ∧
          t = ((s.holding (.tournament id)).wrote (·.putTournament
              { row with status := .finished, finishedAt := some now, version := row.version + 1 })).wrote
            (·.record { action := .tournamentFinish, tournament := some id })) ∨
        ((row.status = .running → s.db.bracketDone id = false) ∧ t = s.holding (.tournament id))) := by
  simp [checkFinished, and_assoc]

/-! ## The next game -/

@[simp] theorem newGame_ok {m : Match} {r : Match × Game} :
    newGame m s = .ok r t ↔
      r.2 = { id := s.db.nextId, number := m.lastNumber + 1 } ∧ r.1 = { m with games := m.games.add r.2 } ∧
        t = (s.wrote fun db => { db with nextId := db.nextId + 1 }).wrote (·.putMatch r.1) := by
  obtain ⟨m', g⟩ := r
  simp only [newGame, bind_ok, freshId_ok, saveMatch_ok, pure_ok, Prod.mk.injEq]
  constructor
  · rintro ⟨_, _, ⟨rfl, rfl⟩, _, _, rfl, ⟨rfl, rfl⟩, rfl⟩
    exact ⟨rfl, rfl, rfl⟩
  · rintro ⟨rfl, rfl, rfl⟩
    exact ⟨_, _, ⟨rfl, rfl⟩, ⟨⟩, _, rfl, ⟨rfl, rfl⟩, rfl⟩

/-! ## Steps followed by others

The same facts about a helper that the operation goes on after, with no intermediate transaction to name. -/

section
variable {β : Type} {b : β}

/-- A first step that only succeeds one way. -/
theorem bind_of_ok {x : ArenaM α} {f : α → ArenaM β} {p : α → Prop} {v : α → Txn}
    (hx : ∀ a u, x s = .ok a u ↔ p a ∧ u = v a) : (x >>= f) s = .ok b t ↔ ∃ a, p a ∧ f a (v a) = .ok b t := by
  simp only [bind_ok, hx]
  constructor
  · rintro ⟨a, _, ⟨ha, rfl⟩, h⟩
    exact ⟨a, ha, h⟩
  · rintro ⟨a, ha, h⟩
    exact ⟨a, _, ⟨ha, rfl⟩, h⟩

/-- A first step that returns nothing and cannot fail. -/
theorem bind_of_unit {x : ArenaM Unit} {f : Unit → ArenaM β} {v : Txn} (hx : ∀ u, x s = .ok ⟨⟩ u ↔ u = v) :
    (x >>= f) s = .ok b t ↔ f ⟨⟩ v = .ok b t := by
  simp only [bind_ok]
  constructor
  · rintro ⟨⟨⟩, _, hu, h⟩
    rwa [(hx _).mp hu] at h
  · exact fun h => ⟨⟨⟩, v, (hx v).mpr rfl, h⟩

theorem refuseIf_bind {c : Prop} [Decidable c] {e : ArenaError} {f : Unit → ArenaM β} :
    (refuseIf c e >>= f) s = .ok b t ↔ ¬ c ∧ f ⟨⟩ s = .ok b t := by
  rw [bind_of_ok fun _ _ => refuseIf_ok]
  exact ⟨fun ⟨_, h⟩ => h, fun h => ⟨⟨⟩, h⟩⟩

theorem checkVersion_bind {current : ℕ} {version : Option ℤ} {f : Unit → ArenaM β} :
    (checkVersion current version >>= f) s = .ok b t ↔ (∀ v ∈ version, v = current) ∧ f ⟨⟩ s = .ok b t := by
  rw [bind_of_ok fun _ _ => checkVersion_ok]
  exact ⟨fun ⟨_, h⟩ => h, fun h => ⟨⟨⟩, h⟩⟩

theorem orRefuse_bind {value : Option α} {e : ArenaError} {f : α → ArenaM β} :
    (orRefuse value e >>= f) s = .ok b t ↔ ∃ a, value = some a ∧ f a s = .ok b t :=
  bind_of_ok fun _ _ => orRefuse_ok

theorem cleaned_bind {value : Except ArenaError α} {f : α → ArenaM β} :
    (cleaned value >>= f) s = .ok b t ↔ ∃ a, value = .ok a ∧ f a s = .ok b t :=
  bind_of_ok fun _ _ => cleaned_ok

theorem tables_bind {f : Db → ArenaM β} : (tables >>= f) s = .ok b t ↔ f s.db s = .ok b t := by
  rw [bind_of_ok fun _ _ => tables_ok]
  exact ⟨fun ⟨_, ha, h⟩ => ha ▸ h, fun h => ⟨_, rfl, h⟩⟩

theorem write_bind {g : Db → Db} {f : Unit → ArenaM β} :
    (write g >>= f) s = .ok b t ↔ f ⟨⟩ (s.wrote g) = .ok b t :=
  bind_of_unit fun _ => write_ok

theorem lock_bind {l : Lock} {f : Unit → ArenaM β} :
    (lock l >>= f) s = .ok b t ↔ f ⟨⟩ (s.holding l) = .ok b t :=
  bind_of_unit fun _ => lock_ok

theorem saveMatch_bind {m : Match} {f : Unit → ArenaM β} :
    (saveMatch m >>= f) s = .ok b t ↔ f ⟨⟩ (s.wrote (·.putMatch m)) = .ok b t :=
  bind_of_unit fun _ => saveMatch_ok

theorem saveTournament_bind {row : Tournament} {f : Unit → ArenaM β} :
    (saveTournament row >>= f) s = .ok b t ↔ f ⟨⟩ (s.wrote (·.putTournament row)) = .ok b t :=
  bind_of_unit fun _ => saveTournament_ok

theorem logMatch_bind {action : ActionName} {actor : Option ProfileId} {m : Match} {game : Option GameId}
    {f : Unit → ArenaM β} :
    (logMatch action actor m game >>= f) s = .ok b t ↔ f ⟨⟩ (s.wrote
      (·.record { action, actor, «match» := some m.id, game, tournament := m.tournament })) = .ok b t :=
  bind_of_unit fun _ => logMatch_ok

theorem logTournament_bind {action : ActionName} {actor : Option ProfileId} {id : TournamentId}
    {f : Unit → ArenaM β} :
    (logTournament action actor id >>= f) s = .ok b t ↔
      f ⟨⟩ (s.wrote (·.record { action, actor, tournament := some id })) = .ok b t :=
  bind_of_unit fun _ => logTournament_ok

theorem freshId_bind {f : ℕ → ArenaM β} : (freshId >>= f) s = .ok b t ↔
    f s.db.nextId (s.wrote fun db => { db with nextId := db.nextId + 1 }) = .ok b t := by
  rw [bind_of_ok fun _ _ => freshId_ok]
  exact ⟨fun ⟨_, ha, h⟩ => ha ▸ h, fun h => ⟨_, rfl, h⟩⟩

theorem onCommit_bind {hook : Hook} {f : Unit → ArenaM β} :
    (onCommit hook >>= f) s = .ok b t ↔ f ⟨⟩ (s.scheduling hook) = .ok b t :=
  bind_of_unit fun _ => onCommit_ok

theorem refreshLockOnCommit_bind {f : Unit → ArenaM β} :
    (refreshLockOnCommit >>= f) s = .ok b t ↔ f ⟨⟩ (s.scheduling .refreshLock) = .ok b t :=
  bind_of_unit fun _ => refreshLockOnCommit_ok

theorem gameOf_bind {m : Match} {id : GameId} {f : Game → ArenaM β} :
    (gameOf m id >>= f) s = .ok b t ↔ ∃ game, m.games.get? id = some game ∧ f game s = .ok b t := orRefuse_bind

theorem pure_bind' {f : α → ArenaM β} {a : α} : ((pure a : ArenaM α) >>= f) s = .ok b t ↔ f a s = .ok b t := by
  rw [bind_of_ok fun _ _ => pure_ok]
  exact ⟨fun ⟨_, ha, h⟩ => ha ▸ h, fun h => ⟨_, rfl, h⟩⟩

theorem lockTournament_bind {id : TournamentId} {f : Tournament → ArenaM β} :
    (lockTournament id >>= f) s = .ok b t ↔
      ∃ row, s.db.tournament? id = some row ∧ f row (s.holding (.tournament id)) = .ok b t :=
  bind_of_ok fun _ _ => lockTournament_ok

theorem requireRunningTournament_bind {m : Match} {f : Unit → ArenaM β} :
    (requireRunningTournament m >>= f) s = .ok b t ↔
      (∀ row ∈ tournamentOf s.db m, row.status = .running) ∧ f ⟨⟩ s = .ok b t := by
  have hok : ∀ u v, requireRunningTournament m s = .ok u v ↔
      (∀ row ∈ tournamentOf s.db m, row.status = .running) ∧ v = s := fun u v => by
    simp [requireRunningTournament]
    exact and_comm
  rw [bind_of_ok hok]
  exact ⟨fun ⟨_, h⟩ => h, fun h => ⟨⟨⟩, h⟩⟩

theorem refuseBusy_bind {site : Site} {m : Match} {slot : Slot} {f : Unit → ArenaM β} :
    (refuseBusy site m slot >>= f) s = .ok b t ↔
      (∀ p ∈ m.players.get slot, busyElsewhere s.db p (some m.id) = false) ∧ f ⟨⟩ s = .ok b t := by
  have hok : ∀ u v, refuseBusy site m slot s = .ok u v ↔
      (∀ p ∈ m.players.get slot, busyElsewhere s.db p (some m.id) = false) ∧ v = s := fun u v => by
    simp [refuseBusy]
    exact and_comm
  rw [bind_of_ok hok]
  exact ⟨fun ⟨_, h⟩ => h, fun h => ⟨⟨⟩, h⟩⟩

end

end Arena
end CpcJudge
