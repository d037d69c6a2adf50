import CpcJudge.Arena.TournamentOps

/-!
# `Arena.Refine` — the arena refines the abstract one

Whatever an operation does to the tables is its special part, if it has one, and a sequence of changes
(`Op.refines`). So an invariant of the changes and of the special requests holds of every state that a run reaches.
-/

namespace CpcJudge
namespace Arena

open CpcJudge.Txn (map_ok)

namespace Op
variable {site : Site} {op : Op} {db : Db}

/-- A done operation leaves the tables of its transaction. -/
theorem run_of_succeeds (h : op.succeeds site db = true) :
    ∃ u t, op.run site { db } = .ok u t ∧ op.after site db = t.db := by
  unfold succeeds at h
  unfold after
  cases hresult : op.result site db with
  | ok u t => exact ⟨u, t, hresult, rfl⟩
  | error e t =>
      rw [hresult] at h
      cases h

/-- A refused operation leaves the tables as they were. -/
theorem after_of_refused (h : op.succeeds site db = false) : op.after site db = db := by
  unfold succeeds at h
  unfold after
  cases hresult : op.result site db with
  | ok u t =>
      rw [hresult] at h
      cases h
  | error e t => rfl

/-- The match an operation is about. -/
def target : Op → Option MatchId
  | .organize _ (.onMatch id _ _) => some id
  | .organize _ (.fill id) => some id
  | .organize _ (.setMatchRanking id _) => some id
  | .tick id _ _ => some id
  | .submit _ _ id _ _ _ _ => some id
  | .judge id _ _ => some id
  | _ => none

/-- The matches an operation changes on its own account: the one it is about, or else those it creates. -/
def scope (op : Op) (db : Db) (i : MatchId) : Prop :=
  match op.target with
  | some id => i = id
  | none => db.nextId ≤ i

/-- An organizer's operation that changes what organizers control in a match without moving its version. -/
def Silent (site : Site) (op : Op) (db : Db) : Prop :=
  match op with
  | .organize actor (.onMatch id _ (.start game force)) =>
    ∃ m, db.match? id = some m ∧ StartStopped site db (some actor) m game force
  | .organize actor (.fill id) => ∃ m, db.match? id = some m ∧ FillsEmpty site db (some actor) m
  | .organize _ (.onTournament id _ (.round number (some bestOf) _ _ _)) =>
    ∃ m ∈ db.battles.rows, inRound id number m = true ∧ m.bestOf ≠ bestOf
  | _ => False

end Op

theorem discard_ok {α : Type} {x : ArenaM α} {s t : Txn} {u : Unit} :
    discard x s = .ok u t ↔ ∃ a, x s = .ok a t := by
  show (Function.const α PUnit.unit <$> x) s = _ ↔ _
  rw [map_ok]
  exact ⟨fun ⟨a, h, _⟩ => ⟨a, h⟩, fun ⟨a, h⟩ => ⟨a, h, rfl⟩⟩

section
variable {site : Site} {op : Op} {db db' : Db}

/-- What an operation is made of. -/
structure Op.Refines (site : Site) (op : Op) (db db' : Db) : Prop where
  path : ∃ db1, op.special db db1 ∧ Path op.organizer (op.scope db) db1 db'
  moved : op.organizer = true → ¬ op.Silent site db → ∀ id, op.target = some id → Moved id db db'

theorem Organized.refines {id : MatchId} {loud : Prop} (h : Organized true (op.scope db) loud id db db')
    (horganizer : op.organizer = true) (hspecial : op.special db db) (htarget : op.target = some id)
    (hloud : ¬ op.Silent site db → loud) : op.Refines site db db' := by
  refine ⟨⟨db, hspecial, horganizer ▸ h.path⟩, fun _ hsilent i hi => ?_⟩
  rw [htarget] at hi
  obtain rfl := Option.some.inj hi
  exact h.moved (hloud hsilent)

theorem Path.refines (h : Path op.organizer (op.scope db) db db') (hspecial : op.special db db)
    (htarget : op.organizer = false ∨ op.target = none) : op.Refines site db db' := by
  refine ⟨⟨db, hspecial, h⟩, fun horganizer _ i hi => ?_⟩
  rcases htarget with h | h
  · rw [h] at horganizer
    cases horganizer
  · rw [h] at hi
    cases hi

theorem MatchAction.refines {actor : ProfileId} {id : MatchId} {version : Option ℤ} {action : MatchAction} {u : Unit}
    {t : Txn} (h : action.run site actor id version { db } = .ok u t) (hdb : WellFormed db) :
    Op.Refines site (.organize actor (.onMatch id version action)) db t.db := by
  have own : Op.scope (.organize actor (.onMatch id version action)) db id := rfl
  cases action with
  | call => exact (callMatch_path h hdb own).refines rfl rfl rfl fun _ => trivial
  | start game force =>
      obtain ⟨_, h⟩ := discard_ok.mp h
      exact (startGame_path h hdb own).refines rfl rfl rfl fun hsilent m here hstopped => hsilent ⟨m, here, hstopped⟩
  | extend game minutes => exact (extendGame_path h hdb own).refines rfl rfl rfl fun _ => trivial
  | cancelGame game => exact (cancelGame_path h hdb own).refines rfl rfl rfl fun _ => trivial
  | declare game slot => exact (declareWinner_path h hdb own).refines rfl rfl rfl fun _ => trivial
  | finalize game => exact (finalizeVerification_path h hdb own).refines rfl rfl rfl fun _ => trivial
  | walkover slot => exact (walkover_path h hdb own).refines rfl rfl rfl fun _ => trivial
  | setWinner slot =>
      obtain ⟨m, db1, hcorrects, hpath, hmoved⟩ := setWinner_special h
      refine ⟨⟨db1, ⟨m, hcorrects⟩, hpath⟩, fun _ _ i hi => ?_⟩
      obtain rfl : id = i := Option.some.inj hi
      exact hmoved
  | cancel => exact (cancelMatch_path h hdb own).refines rfl rfl rfl fun _ => trivial
  | problems game entries number => exact (setGameProblems_path h hdb own).refines rfl rfl rfl fun _ => trivial
  | addGame => exact (addGame_path h hdb own).refines rfl rfl rfl fun _ => trivial
  | update bestOf rules title display => exact (updateMatch_path h hdb own).refines rfl rfl rfl fun _ => trivial
  | replace slot profile display =>
      obtain ⟨p, m, rfl, hreplaces, hmoved⟩ := replacePlayer_special h
      refine ⟨⟨t.db, ⟨m, hreplaces⟩, .refl⟩, fun _ _ i hi => ?_⟩
      obtain rfl : id = i := Option.some.inj hi
      exact hmoved

theorem TournamentAction.refines {actor : ProfileId} {id : TournamentId} {version : Option ℤ}
    {action : TournamentAction} {u : Unit} {t : Txn} (h : action.run site actor id version { db } = .ok u t)
    (hdb : WellFormed db) : Op.Refines site (.organize actor (.onTournament id version action)) db t.db := by
  have own : ∀ i, db.nextId ≤ i → Op.scope (.organize actor (.onTournament id version action)) db i :=
    fun _ hi => hi
  cases action with
  | update => exact Path.refines (updateTournament_path h hdb own) rfl (.inr rfl)
  | participants => exact Path.refines (setParticipants_path h hdb own) rfl (.inr rfl)
  | round number bestOf rules name draw =>
      obtain ⟨db1, hspecial, hpath⟩ := setRound_special h
      refine ⟨⟨db1, ?_, hpath⟩, fun _ _ i hi => by cases hi⟩
      cases bestOf with
      | none => exact hspecial
      | some bestOf => exact hspecial
  | generate => exact Path.refines (generateBracket_path h hdb own) rfl (.inr rfl)
  | start =>
      obtain ⟨row, hbegins⟩ := startTournament_special h
      exact ⟨⟨t.db, ⟨row, hbegins⟩, .refl⟩, fun _ _ i hi => by cases hi⟩
  | archive => exact Path.refines (archiveTournament_path h) rfl (.inr rfl)

theorem Request.refines {actor : ProfileId} {request : Request} {u : Unit} {t : Txn}
    (h : request.run site actor { db } = .ok u t) (hdb : WellFormed db) :
    Op.Refines site (.organize actor request) db t.db := by
  cases request with
  | createDuel =>
      obtain ⟨_, h⟩ := discard_ok.mp h
      exact Path.refines (createDuel_path h hdb (le_refl _)) rfl (.inr rfl)
  | onMatch => exact MatchAction.refines h hdb
  | createTournament =>
      obtain ⟨_, h⟩ := discard_ok.mp h
      exact Path.refines (createTournament_path h hdb fun _ hi => hi) rfl (.inr rfl)
  | onTournament => exact TournamentAction.refines h hdb
  | setShowInHistory => exact Path.refines (setShowInHistory_path h) rfl (.inr rfl)
  | fill id =>
      obtain ⟨_, h⟩ := discard_ok.mp h
      have own : Op.scope (.organize actor (.fill id)) db id := rfl
      exact (fillMatch_path h hdb own).refines rfl rfl rfl fun hsilent m here hempty => hsilent ⟨m, here, hempty⟩
  | setTournamentRanking => exact Path.refines (setTournamentRanking_path h) rfl (.inr rfl)
  | setMatchRanking id value =>
      have own : Op.scope (.organize actor (.setMatchRanking id value)) db id := rfl
      exact (setMatchRanking_path h hdb own).refines rfl rfl rfl fun _ => trivial
  | createScreen => exact Path.refines (createScreen_path h) rfl (.inr rfl)
  | showOnScreen => exact Path.refines (showOnScreen_path h) rfl (.inr rfl)
  | renameScreen => exact Path.refines (renameScreen_path h) rfl (.inr rfl)
  | regenerateScreenToken => exact Path.refines (regenerateScreenToken_path h) rfl (.inr rfl)

/-- The arena refines the abstract one. -/
theorem Op.refines (h : op.succeeds site db = true) (hdb : WellFormed db) :
    op.Refines site db (op.after site db) := by
  obtain ⟨u, t, hrun, hafter⟩ := Op.run_of_succeeds h
  rw [hafter]
  cases op with
  | organize actor request => exact Request.refines hrun hdb
  | tick => exact Path.refines (tick_path hrun hdb rfl) rfl (.inl rfl)
  | submit => exact Path.refines (submit_path hrun hdb rfl) rfl (.inl rfl)
  | judge => exact Path.refines (judge_path hrun rfl) rfl (.inl rfl)

end

end Arena
end CpcJudge
