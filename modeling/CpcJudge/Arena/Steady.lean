import CpcJudge.Arena.Change
import CpcJudge.Arena.Inversion

/-!
# `Arena.Steady` — what a transaction keeps step by step

A property of the transaction under way that no step of it breaks (`Steady`): rows written elsewhere than in the lists
of battles and tournaments, a match of the transaction saved, a tournament saved with its participants and as many
rounds, an action for after the commit. The functions that the operations are made of keep every such property, refused
or not; only `advance` takes more locks and writes other matches (`Sending`).
-/

namespace CpcJudge
namespace Arena

open Scoring (Decision Reason Summary)

/-- `I` is kept while the matches of `Own` are saved, and where `I` holds a refusal ends in `E`. A match given as a bye
    is so from the start. -/
structure Steady (Own : Match → Prop) (I : Txn → Prop) (E : ArenaError → Txn → Prop) : Prop where
  own : ∀ {m m' : Match}, Own m → m'.static = m.static →
    (m'.decidedReason = some .bye → m.decidedReason = some .bye) → Own m'
  wrote : ∀ {s : Txn} {f : Db → Db}, I s → (f s.db).battles = s.db.battles →
    (f s.db).tournaments = s.db.tournaments → I (s.wrote f)
  saved : ∀ {s : Txn} {m : Match}, Own m → I s → I (s.wrote (·.putMatch m))
  enrolled : ∀ {s : Txn} {t t' : Tournament}, I s → s.db.tournament? t'.id = some t →
    t'.participants = t.participants → t'.rounds.length = t.rounds.length → I (s.wrote (·.putTournament t'))
  scheduled : ∀ {s : Txn} {hook : Hook}, I s → I (s.scheduling hook)
  refused : ∀ {e : ArenaError} {s : Txn}, e ≠ .nextPlayed → I s → E e s

/-- `x` keeps `I`, ends in `Q` and is refused in `E`. -/
def Steps {α : Type} (I : Txn → Prop) (E : ArenaError → Txn → Prop) (x : ArenaM α) (Q : α → Prop) : Prop :=
  Txn.Triple I x (fun a s => Q a ∧ I s) E

theorem Match.bump_static (m : Match) (system : Bool) : (m.bump system).static = m.static := by
  cases system <;> rfl

theorem Match.bump_decidedReason (m : Match) (system : Bool) : (m.bump system).decidedReason = m.decidedReason := by
  cases system <;> rfl

section
variable {α β : Type} {Own : Match → Prop} {I J : Txn → Prop} {E : ArenaError → Txn → Prop} {m m' : Match}
  {site : Site} {actor : Option ProfileId} {now : Time} {game : Game} {slot : Slot} {x y : ArenaM α} {Q : α → Prop}

/-! ## The steps of a transaction -/

namespace Steps

theorem ret (a : α) (h : Q a) : Steps I E (pure a) Q := Txn.Triple.ret a fun _ hs => ⟨h, hs⟩

/-- The end of a transaction whose result does not matter. -/
theorem done (a : α) : Steps I E (pure a) fun _ => True := ret a trivial

theorem bind {f : β → ArenaM α} {R : β → Prop} {z : ArenaM β} (hz : Steps I E z R)
    (hf : ∀ b, R b → Steps I E (f b) Q) : Steps I E (z >>= f) Q :=
  Txn.Triple.bind hz fun b => Txn.Triple.assume fun hb => hf b hb

/-- Steps before whatever comes next. -/
theorem first {f : β → ArenaM α} {R : β → Prop} {z : ArenaM β} {P : α → Txn → Prop} (hz : Steps I E z R)
    (hf : ∀ b, R b → Txn.Triple I (f b) P E) : Txn.Triple I (z >>= f) P E :=
  Txn.Triple.bind hz fun b => Txn.Triple.assume fun hb => hf b hb

theorem ite {c : Prop} [Decidable c] (hx : c → Steps I E x Q) (hy : ¬ c → Steps I E y Q) :
    Steps I E (if c then x else y) Q := Txn.Triple.ite hx hy

theorem tables : Steps I E Arena.tables fun _ => True :=
  Txn.Triple.bind (Txn.Triple.read (R := fun a s => a = s ∧ I s) fun _ hs => ⟨rfl, hs⟩) fun _ =>
    Txn.Triple.ret _ fun _ hs => ⟨trivial, hs.2⟩

/-- The rest of a transaction knows the tables it read. -/
theorem reading {f : Db → ArenaM α} (h : ∀ db, Txn.Triple (fun s => s.db = db ∧ I s) (f db) (fun a s => Q a ∧ I s) E) :
    Steps I E (Arena.tables >>= f) Q := by
  intro s hs
  rw [Txn.bind_run (tables_ok.mpr ⟨rfl, rfl⟩)]
  exact h s.db s ⟨rfl, hs⟩

end Steps

namespace Steady
variable (k : Steady Own I E)
include k

theorem throw {e : ArenaError} (he : e ≠ .nextPlayed) : Steps I E (throw e : ArenaM α) Q :=
  Txn.Triple.refused e fun _ hs => k.refused he hs

theorem refuseIf {c : Prop} [Decidable c] {e : ArenaError} (he : e ≠ .nextPlayed) :
    Steps I E (Arena.refuseIf c e) fun _ => ¬ c :=
  .ite (fun _ => k.throw he) fun hc => .ret _ hc

theorem orRefuse {v : Option α} {e : ArenaError} (he : e ≠ .nextPlayed) :
    Steps I E (Arena.orRefuse v e) fun a => v = some a := by
  cases v with
  | none => exact k.throw he
  | some a => exact .ret a rfl

theorem checkVersion (current : ℕ) (version : Option ℤ) :
    Steps I E (Arena.checkVersion current version) fun _ => True := by
  cases version with
  | none => exact .done _
  | some v => exact .ite (fun _ => k.throw (by decide)) fun _ => .done _

/-- What is written elsewhere than in the lists of battles and tournaments. -/
theorem write {f : Db → Db} (h : ∀ db, (f db).battles = db.battles) (h' : ∀ db, (f db).tournaments = db.tournaments) :
    Steps I E (Arena.write f) fun _ => True :=
  Txn.Triple.write fun s hs => ⟨trivial, k.wrote hs (h s.db) (h' s.db)⟩

theorem onCommit (hook : Hook) : Steps I E (Arena.onCommit hook) fun _ => True :=
  Txn.Triple.write fun _ hs => ⟨trivial, k.scheduled hs⟩

theorem log (action : ActionName) (actor : Option ProfileId) (m : Match) (game : Option GameId) :
    Steps I E (logMatch action actor m game) fun _ => True := k.write (fun _ => rfl) fun _ => rfl

theorem logTournament (action : ActionName) (actor : Option ProfileId) (id : TournamentId) :
    Steps I E (Arena.logTournament action actor id) fun _ => True := k.write (fun _ => rfl) fun _ => rfl

/-- A tournament saved with the participants it has in the tables that were read. -/
theorem saveTournament {db : Db} {t t' : Tournament} (here : db.tournament? t'.id = some t)
    (hplayers : t'.participants = t.participants) (hrounds : t'.rounds.length = t.rounds.length) :
    Txn.Triple (fun s => s.db = db ∧ I s) (Arena.saveTournament t') (fun _ s => True ∧ I s) E :=
  Txn.Triple.write fun _ hs => ⟨trivial, k.enrolled hs.2 (hs.1 ▸ here) hplayers hrounds⟩

theorem saveMatch (h : Own m) : Steps I E (Arena.saveMatch m) fun _ => True :=
  Txn.Triple.write fun _ hs => ⟨trivial, k.saved h hs⟩

theorem freshId : Steps I E Arena.freshId fun _ => True :=
  Steps.tables.bind fun _ _ =>
    (k.write (f := fun db => { db with nextId := db.nextId + 1 }) (fun _ => rfl) fun _ => rfl).bind fun _ _ => .done _

/-- A match that was decided as it was. -/
theorem edited (h : Own m) (hstatic : m'.static = m.static) (hreason : m'.decidedReason = m.decidedReason) : Own m' :=
  k.own h hstatic fun hr => hreason.symm.trans hr

theorem bump {system : Bool} (h : Own m) : Own (m.bump system) :=
  k.edited h (m.bump_static system) (m.bump_decidedReason system)

/-! ## The games of a match -/

theorem newGame (h : Own m) : Steps I E (Arena.newGame m) fun r => Own r.1 := by
  refine k.freshId.bind fun id _ => ?_
  have hadd : Own { m with games := m.games.add { id, number := m.lastNumber + 1 } } := k.edited h rfl rfl
  exact (k.saveMatch hadd).bind fun _ _ => .ret _ hadd

theorem ensureNextGame (h : Own m) : Steps I E (Arena.ensureNextGame m) fun r => Own r.1 := by
  unfold Arena.ensureNextGame
  split
  · exact .ret _ h
  · exact k.newGame h

theorem fillFromBank {force : Bool} (h : Own m) :
    Steps I E (Arena.fillFromBank site actor force m game) fun r => Own r.1 := by
  refine Steps.tables.bind fun db _ => ?_
  cases bankOffer site db actor force m game with
  | none => exact .ret _ h
  | some offer =>
      cases offer with
      | error => exact (k.log _ _ _ _).bind fun _ _ => .ret _ h
      | ok problems =>
          have hset : Own (m.setGame { game with problems }) := k.edited h rfl rfl
          exact (k.saveMatch hset).bind fun _ _ => (k.log _ _ _ _).bind fun _ _ => .ret _ hset

theorem nextGameFromBank (h : Own m) : Steps I E (Arena.nextGameFromBank site actor m) fun m' => Own m' :=
  (k.ensureNextGame h).bind fun _ hr => (k.fillFromBank hr).bind fun _ hr => .ret _ hr

theorem dropUnplayed (h : Own m) : Steps I E (Arena.dropUnplayed m) fun m' => Own m' :=
  have hdropped : Own m.dropUnplayed := k.edited h rfl rfl
  (k.write (f := (·.forgetUnplayed m)) (fun _ => rfl) fun _ => rfl).bind fun _ _ =>
    (k.saveMatch hdropped).bind fun _ _ => .ret _ hdropped

theorem afterDecided : Steps I E (Arena.afterDecided m) fun _ => True :=
  Steps.tables.bind fun _ _ => .ite (fun _ => k.onCommit _) fun _ => .done _

theorem tieGame {result : Pair Summary} (h : Own m) :
    Steps I E (Arena.tieGame site actor m game result now) fun m' => Own m' := by
  have hset : ∀ g, Own ((m.setGame g).bump actor.isNone) := fun g => k.bump (k.edited h rfl rfl)
  refine (k.saveMatch (hset _)).bind fun _ _ => (k.log _ _ _ _).bind fun _ _ => .ite (fun _ => ?_) fun _ => ?_
  · exact (k.onCommit _).bind fun _ _ => .ret _ (hset _)
  · exact (k.nextGameFromBank (hset _)).bind fun _ hm => (k.onCommit _).bind fun _ _ => .ret _ hm

end Steady

/-! ## Rows under their lock -/

/-- An operation on the row of a match, whether it is there or not. -/
theorem lockMatch_triple {id : MatchId} {f : Match → ArenaM α} {P : Txn → Prop} {R : α → Txn → Prop}
    (hnone : ∀ s, P s → E .noMatch s)
    (h : ∀ s m, P s → s.db.match? id = some m → Txn.Triple (· = s.holdingMatch m) (f m) R E) :
    Txn.Triple P (lockMatch id >>= f) R E := by
  intro s hs
  cases here : s.db.match? id with
  | none =>
      have hrun : lockMatch id s = .error .noMatch s := by
        unfold lockMatch
        rw [Txn.bind_run (tables_ok.mpr ⟨rfl, rfl⟩), here]
        exact Txn.bind_error rfl
      rw [Txn.bind_error hrun]
      exact hnone s hs
  | some m =>
      rw [Txn.bind_run (lockMatch_ok.mpr ⟨here, rfl⟩)]
      exact h s m hs here _ rfl

/-- `_place` refuses a player, or puts them at the row. -/
theorem place_triple {id : MatchId} {p : Option ProfileId} {seed : Option ℕ} (hnone : ∀ s, I s → E .noMatch s)
    (hplayed : ∀ s n, I s → s.db.match? id = some n → n.started = true → E .nextPlayed (s.holdingMatch n))
    (hplaced : ∀ s n, I s → s.db.match? id = some n → n.started = false →
      J ((s.holdingMatch n).wrote (·.putMatch (n.receive slot p seed)))) :
    Txn.Triple I (place id slot p seed) (fun _ => J) E := by
  refine lockMatch_triple hnone fun s n hs here => ?_
  by_cases hstarted : n.started = true
  · have hrefused : Txn.Triple (· = s.holdingMatch n) (Arena.refuseIf (n.started = true) .nextPlayed) (fun _ _ => False) E :=
      Txn.Triple.ite (fun _ => Txn.Triple.refused _ fun _ heq => heq ▸ hplayed s n hs here hstarted) fun hnot =>
        absurd hstarted hnot
    exact hrefused.bind fun _ _ hs => hs.elim
  · have hfree : Txn.Triple (· = s.holdingMatch n) (Arena.refuseIf (n.started = true) .nextPlayed)
        (fun _ t => t = s.holdingMatch n) E :=
      Txn.Triple.ite (fun hyes => absurd hyes hstarted) fun _ => Txn.Triple.ret _ fun _ heq => heq
    refine hfree.bind fun _ => Txn.Triple.write fun _ heq => heq ▸ hplaced s n hs here ?_
    simpa using hstarted

theorem Steady.checkFinished (k : Steady Own I E) {id : TournamentId}
    (hlock : ∀ s, I s → I (s.holding (.tournament id))) : Steps I E (checkFinished now id) fun _ => True := by
  refine Steps.bind (R := fun _ => True) (Txn.Triple.write fun s hs => ⟨trivial, hlock s hs⟩) fun _ _ => ?_
  refine Steps.reading fun db => ?_
  cases here : db.tournament? id with
  | none => exact Txn.Triple.refused _ fun _ hs => k.refused (by decide) hs.2
  | some t =>
      have here' : db.tournament? t.id = some t := by rwa [show t.id = id from Table.key_of_get? here]
      refine Txn.Triple.ite (fun _ => ?_) fun _ => Txn.Triple.ret _ fun _ hs => ⟨trivial, hs.2⟩
      refine Txn.Triple.bind (k.saveTournament (t := t) here' rfl rfl) fun _ => ?_
      exact Txn.Triple.assume fun _ => k.logTournament _ _ _

/-- The winner, the loser, and whether the tournament is over. -/
theorem advance_triple {K : Txn → Prop}
    (hnext : ∀ q p seed, m.nextMatch = some q → Txn.Triple I (place q.1 q.2 p seed) (fun _ => K) E)
    (hnone : ∀ s, I s → K s)
    (hloser : ∀ q p seed, m.loserNextMatch = some q → Txn.Triple K (place q.1 q.2 p seed) (fun _ => J) E)
    (hstays : ∀ s, K s → J s)
    (hchecked : ∀ t, m.tournament = some t → Txn.Triple J (Arena.checkFinished now t) (fun _ => J) E) :
    Txn.Triple I (advance now m) (fun _ => J) E := by
  unfold advance
  split
  · rename_i t winner ht _
    have hover : Txn.Triple K (Arena.checkFinished now t) (fun _ => J) E := (hchecked t ht).of_pre hstays
    have hrest : ∀ q, m.loserNextMatch = some q → Txn.Triple K (if (m.players.get winner.other).isSome = true then do
          place q.1 q.2 (m.players.get winner.other) (m.seeds.get winner.other)
          Arena.checkFinished now t
        else Arena.checkFinished now t) (fun _ => J) E := fun q hq =>
      .ite (fun _ => (hloser q _ _ hq).bind fun _ => hchecked t ht) fun _ => hover
    cases hn : m.nextMatch with
    | none =>
        cases hl : m.loserNextMatch with
        | none => exact hover.of_pre hnone
        | some q => exact (hrest q hl).of_pre hnone
    | some next =>
        refine (hnext next _ _ hn).bind fun _ => ?_
        cases hl : m.loserNextMatch with
        | none => exact hover
        | some q => exact hrest q hl
  · exact Txn.Triple.ret _ fun s hs => hstays s (hnone s hs)

/-! ## Sending players forward -/

/-- `x` takes `I` to `J`, ends in `Q` and is refused in `E`. -/
def Sends {α : Type} (I J : Txn → Prop) (E : ArenaError → Txn → Prop) (x : ArenaM α) (Q : α → Prop) : Prop :=
  Txn.Triple I x (fun a s => Q a ∧ J s) E

/-- `I` is kept until the players of a match are sent forward, and `J` from then on. -/
structure Sending (Own : Match → Prop) (I J : Txn → Prop) (E : ArenaError → Txn → Prop) : Prop where
  before : Steady Own I E
  after : Steady Own J E
  stays : ∀ {s : Txn}, I s → J s
  advance : ∀ {now : Time} {m : Match}, Own m → Txn.Triple I (advance now m) (fun _ => J) E

namespace Sends

/-- Steps once it has been. -/
theorem last {f : β → ArenaM α} {R : β → Prop} {z : ArenaM β} (hz : Sends I J E z R)
    (hf : ∀ b, R b → Steps J E (f b) Q) : Sends I J E (z >>= f) Q :=
  Txn.Triple.bind hz fun b => Txn.Triple.assume fun hb => hf b hb

theorem ite {c : Prop} [Decidable c] (hx : c → Sends I J E x Q) (hy : ¬ c → Sends I J E y Q) :
    Sends I J E (if c then x else y) Q := Txn.Triple.ite hx hy

end Sends

namespace Sending
variable (k : Sending Own I J E)
include k

/-- Nobody is sent forward. -/
theorem still (h : Steps I E x Q) : Sends I J E x Q := h.weaken fun _ _ hs => ⟨hs.1, k.stays hs.2⟩

theorem sends (h : Own m) : Sends I J E (Arena.advance now m) fun _ => True :=
  (k.advance h).weaken fun _ _ hs => ⟨trivial, hs⟩

theorem decideMatch {reason : DecidedReason} (hreason : reason ≠ .bye) (h : Own m) :
    Sends I J E (Arena.decideMatch now actor m slot reason) fun m' => Own m' := by
  unfold Arena.decideMatch
  generalize hm1 : Match.bump _ _ = m1
  have hdecided : Own m1 := by
    refine k.before.own h (hm1 ▸ Match.bump_static _ _) fun hr => absurd ?_ hreason
    rw [← hm1, Match.bump_decidedReason] at hr
    exact Option.some.inj hr
  refine Steps.first (k.before.saveMatch hdecided) fun _ _ => ?_
  refine Steps.first (k.before.dropUnplayed hdecided) fun m' hm' => ?_
  refine Steps.first (k.before.log _ _ _ _) fun _ _ => Sends.last (k.sends hm') fun _ _ => ?_
  exact k.after.afterDecided.bind fun _ _ => (k.after.onCommit _).bind fun _ _ => .ret _ hm'

theorem finish {reason : Reason} {result : Pair Summary} (h : Own m) :
    Sends I J E (Arena.finish site actor m game slot reason result now) fun m' => Own m' := by
  have hset : ∀ g, Own (m.setGame g) := fun g => k.before.edited h rfl rfl
  refine .ite (fun _ => ?_) fun _ => ?_
  · exact k.still ((k.before.saveMatch (hset _)).bind fun _ _ => (k.before.log _ _ _ _).bind fun _ _ => .ret _ (hset _))
  · have hwon : ∀ g, Own (((m.setGame g).win slot).bump actor.isNone) := fun g =>
      k.before.bump (k.before.edited (hset g) rfl rfl)
    refine Steps.first (k.before.saveMatch (hwon _)) fun _ _ => Steps.first (k.before.log _ _ _ _) fun _ _ => ?_
    refine Sends.ite (fun _ => k.decideMatch (by decide) (hwon _)) fun _ => k.still ?_
    exact (k.before.nextGameFromBank (hwon _)).bind fun _ hm => (k.before.onCommit _).bind fun _ _ => .ret _ hm

theorem applyDecision {decision : Decision} (h : Own m) :
    Sends I J E (Arena.applyDecision site actor m game decision now) fun m' => Own m' := by
  have hset : ∀ g, Own (m.setGame g) := fun g => k.before.edited h rfl rfl
  unfold Arena.applyDecision
  split
  · exact k.still (.ret _ h)
  · refine k.still (.ite (fun _ => .ret _ h) fun _ => ?_)
    exact (k.before.saveMatch (hset _)).bind fun _ _ => .ret _ (hset _)
  · refine k.still (.ite (fun _ => .ret _ h) fun _ => ?_)
    exact (k.before.saveMatch (hset _)).bind fun _ _ => (k.before.log _ _ _ _).bind fun _ _ => .ret _ (hset _)
  · split
    · exact k.finish h
    · exact k.still (.ret _ h)
  · exact k.still (k.before.tieGame h)

theorem tickLocked (h : Own m) : Sends I J E (Arena.tickLocked site m game now) fun m' => Own m' := by
  unfold Arena.tickLocked
  split
  · exact k.still (.ret _ h)
  · exact .ite (fun _ => k.still (.ret _ h)) fun _ => k.applyDecision h

end Sending

end
end Arena
end CpcJudge
