import CpcJudge.Arena.Links
import CpcJudge.Arena.Walks

/-!
# `Arena.Locks` — the locks of an operation

Every operation takes the lock of the tournament before those of its matches, and of no other tournament. On a match
it takes the lock of the tournament, then its own, then that of the match its winner goes to, then that of the match
its loser goes to. The locks are those of the whole transaction, refused or not; the row of the round, which
`lock_match` reads with the match and under the lock of the tournament, is left out.
-/

namespace CpcJudge
namespace Arena

open Scoring (Reason Summary)

/-- The locks an operation takes, in order. -/
def Op.locks (site : Site) (op : Op) (db : Db) : List Lock := (Txn.endOf (op.run site) { db }).locks

/-- The locks of a match: its tournament's and its own. -/
def Match.ownLocks (m : Match) : List Lock :=
  match m.tournament with
  | none => [.match none m.id]
  | some t => [.tournament t, .match (some t) m.id]

/-- The locks of the matches its players go to. -/
def Match.nextLocks (m : Match) : List Lock := m.targets.map fun q => .match m.tournament q.1

/-- The locks of the match, and then some of those of the matches it leads to. -/
def Match.Took (m : Match) (locks : List Lock) : Prop := ∃ sent, sent.Sublist m.nextLocks ∧ locks = m.ownLocks ++ sent

/-- The locks an operation on a match takes. -/
def TakesMatch (db : Db) (id : MatchId) (locks : List Lock) : Prop :=
  locks = [] ∨ ∃ m, db.match? id = some m ∧ m.Took locks

/-- The lock of a tournament, and then those of matches of it. -/
def HoldsTournament (t : TournamentId) (locks : List Lock) : Prop :=
  ∃ rest, locks = .tournament t :: rest ∧ ∀ l ∈ rest, ∃ id, l = .match (some t) id

/-- The locks an operation on a tournament takes. -/
def TakesTournament (t : TournamentId) (locks : List Lock) : Prop := locks = [] ∨ HoldsTournament t locks

/-- The locks of some screens, by their keys. -/
def TakesScreens (locks : List Lock) : Prop := ∃ ids : List ScreenId, ids.Pairwise (· < ·) ∧ locks = ids.map .screen

/-- The beginning of a transaction. -/
def Starts (db : Db) (s : Txn) : Prop := s.db = db ∧ s.locks = []

/-- From its beginning, refused or not, `x` takes such locks. -/
structure Takes {α : Type} (db : Db) (x : ArenaM α) (C : List Lock → Prop) : Prop where
  triple : Txn.Triple (Starts db) x (fun _ s => C s.locks) fun _ s => C s.locks

/-- `x` takes no lock. -/
def Still {α : Type} (x : ArenaM α) : Prop :=
  ∀ locks, Txn.Keeps (fun s : Txn => s.locks = locks) x fun _ s => s.locks = locks

section
variable {α β : Type} {db : Db} {m m' : Match} {site : Site} {actor : Option ProfileId} {now : Time} {game : Game}
  {slot : Slot} {id : MatchId} {version : Option ℤ} {x y : ArenaM α} {C : List Lock → Prop} {R : Txn → Prop}

/-! ## No locks -/

namespace Still

theorem bind {z : ArenaM β} {f : β → ArenaM α} (hz : Still z) (hf : ∀ b, Still (f b)) : Still (z >>= f) :=
  fun locks => (hz locks).bind fun b => hf b locks

theorem ret (a : α) : Still (pure a : ArenaM α) := fun _ => Txn.Keeps.ret a

theorem throw (e : ArenaError) : Still (throw e : ArenaM α) := fun _ => Txn.Triple.refused e fun _ h => h

theorem ite {c : Prop} [Decidable c] (hx : Still x) (hy : Still y) : Still (if c then x else y) :=
  fun locks => Txn.Keeps.ite (fun _ => hx locks) fun _ => hy locks

theorem refuseIf {c : Prop} [Decidable c] {e : ArenaError} : Still (Arena.refuseIf c e) := .ite (.throw e) (.ret _)

theorem orRefuse {v : Option α} {e : ArenaError} : Still (Arena.orRefuse v e) := by
  cases v with
  | none => exact .throw e
  | some a => exact .ret a

theorem cleaned {v : Except ArenaError α} : Still (Arena.cleaned v) := by
  cases v with
  | error e => exact .throw e
  | ok a => exact .ret a

theorem checkVersion {current : ℕ} {version : Option ℤ} : Still (Arena.checkVersion current version) := by
  cases version with
  | none => exact .ret _
  | some v => exact .refuseIf

theorem write {f : Db → Db} : Still (Arena.write f) := fun _ => Txn.Keeps.write fun _ h => h

theorem onCommit {hook : Hook} : Still (Arena.onCommit hook) := fun _ => Txn.Keeps.write fun _ h => h

theorem tables : Still Arena.tables := fun _ => Txn.Keeps.bind Txn.Keeps.read fun _ => Txn.Keeps.ret _

theorem freshId : Still Arena.freshId := tables.bind fun _ => write.bind fun _ => .ret _

theorem discard (h : Still x) : Still (discard x) := fun locks => Txn.Triple.discard (h locks)

end Still

/-- The locks taken so far stay as they are. -/
theorem locks_steady (locks : List Lock) :
    Steady (fun _ => True) (fun s => s.locks = locks) fun _ s => s.locks = locks where
  own _ _ _ := trivial
  wrote hs _ _ := hs
  saved _ hs := hs
  enrolled hs _ _ _ := hs
  scheduled hs := hs
  refused _ hs := hs

theorem Still.of_steps {Q : α → Prop} (h : ∀ locks, Steps (fun s => s.locks = locks) (fun _ s => s.locks = locks) x Q) :
    Still x := fun locks => (h locks).weaken fun _ _ hs => hs.2

theorem ensureNextGame_still : Still (ensureNextGame m) :=
  .of_steps fun locks => (locks_steady locks).ensureNextGame trivial

theorem nextGameFromBank_still : Still (nextGameFromBank site actor m) :=
  .of_steps fun locks => (locks_steady locks).nextGameFromBank trivial

theorem fillFromBank_still {force : Bool} : Still (fillFromBank site actor force m game) :=
  .of_steps fun locks => (locks_steady locks).fillFromBank trivial

theorem newGames_still : ∀ {count : ℕ} {m : Match}, Still (newGames m count)
  | 0, _ => .ret _
  | _ + 1, _ => (Still.of_steps fun locks => (locks_steady locks).newGame trivial).bind fun _ => newGames_still

theorem gameNumber_still {number : ℕ} : Still (gameNumber m number) := by
  refine Still.refuseIf.bind fun _ => ?_
  cases m.games.rows.find? (·.number = number) with
  | some game => exact .ret _
  | none => exact newGames_still.bind fun _ => Still.orRefuse.bind fun _ => .ret _

theorem refuseBusy_still : Still (refuseBusy site m slot) := Still.tables.bind fun _ => .refuseIf

theorem requireRunningTournament_still : Still (requireRunningTournament m) := Still.tables.bind fun _ => .refuseIf

theorem addGames_still : ∀ {games : List (List GameProblem)} {m : Match} {number : ℕ}, Still (addGames m number games)
  | [], _, _ => .ret _
  | _ :: _, _, _ => Still.freshId.bind fun _ => Still.write.bind fun _ => addGames_still

theorem afterDecided_still : Still (afterDecided m) := .of_steps fun locks => (locks_steady locks).afterDecided

theorem dropUnplayed_still : Still (dropUnplayed m) := .of_steps fun locks => (locks_steady locks).dropUnplayed trivial

theorem tieGame_still {result : Pair Summary} : Still (tieGame site actor m game result now) :=
  .of_steps fun locks => (locks_steady locks).tieGame trivial

/-! ## Before the first lock -/

/-- What is checked before anything is locked. -/
theorem takes_refuseIf {c : Prop} [Decidable c] {e : ArenaError} {f : Unit → ArenaM α} (hC : C [])
    (h : Takes db (f ()) C) : Takes db (refuseIf c e >>= f) C :=
  ⟨Txn.Triple.bind (Q := fun _ => Starts db) (Txn.Triple.ite
    (fun _ => Txn.Triple.refused _ fun _ hs => show C _ by rw [hs.2]; exact hC) fun _ => Txn.Triple.ret _ fun _ hs => hs)
    fun _ => h.triple⟩

theorem takes_orRefuse {v : Option β} {e : ArenaError} {f : β → ArenaM α} (hC : C []) (h : ∀ b, Takes db (f b) C) :
    Takes db (orRefuse v e >>= f) C := by
  cases v with
  | none => exact ⟨Txn.Triple.refused _ fun _ hs => show C _ by rw [hs.2]; exact hC⟩
  | some b => exact h b

theorem takes_cleaned {v : Except ArenaError β} {f : β → ArenaM α} (hC : C []) (h : ∀ b, Takes db (f b) C) :
    Takes db (cleaned v >>= f) C := by
  cases v with
  | error e => exact ⟨Txn.Triple.refused _ fun _ hs => show C _ by rw [hs.2]; exact hC⟩
  | ok b => exact h b

theorem takes_ite {c : Prop} [Decidable c] (hx : Takes db x C) (hy : Takes db y C) : Takes db (if c then x else y) C :=
  ⟨Txn.Triple.ite (fun _ => hx.triple) fun _ => hy.triple⟩

/-! ## Operations that lock one match -/

theorem Still.ends {P : Txn → Prop} (h : Still x) (hP : ∀ s, P s → C s.locks) :
    Txn.Triple P x (fun _ s => C s.locks) fun _ s => C s.locks := by
  refine Txn.Triple.each fun s hs => ?_
  have hC := hP s hs
  refine (Txn.Triple.weaken (h s.locks) fun _ t ht => ?_).weakenError (fun _ t ht => ?_) |>.of_pre fun t ht => ht ▸ rfl
  · exact ht ▸ hC
  · exact ht ▸ hC

theorem holdingMatch_locks {s : Txn} (hs : s.locks = []) : (s.holdingMatch m).locks = m.ownLocks := by
  unfold Txn.holdingMatch Match.ownLocks
  cases m.tournament with
  | none => simp [Txn.holding, hs]
  | some t => simp [Txn.holding, hs]

theorem Match.Took.own (m : Match) : m.Took m.ownLocks := ⟨[], List.nil_sublist _, (List.append_nil _).symm⟩

/-! ## Operations that send players forward -/

/-- The matches the players of a match go to are of its tournament. -/
def Match.Inside (m : Match) (db : Db) : Prop :=
  ∀ q ∈ m.targets, ∀ n, db.match? q.1 = some n → n.tournament = m.tournament

/-- The locks of the match are taken, and some of those of the matches of `list`. -/
def Match.LockedAlong (m : Match) (list : List (MatchId × Slot)) (s : Txn) : Prop :=
  (∃ sent, sent.Sublist (list.map fun q => Lock.match m.tournament q.1) ∧ s.locks = m.ownLocks ++ sent) ∧ m.Inside s.db

theorem Match.LockedAlong.took {list : List (MatchId × Slot)} {s : Txn} (h : m.LockedAlong list s)
    (hlist : list.Sublist m.targets) :
    m.Took s.locks := by
  obtain ⟨⟨sent, hsent, hlocks⟩, _⟩ := h
  exact ⟨sent, hsent.trans (hlist.map _), hlocks⟩

theorem Match.Inside.put (h : m.Inside db) (hm : ∀ q ∈ m.targets, m'.id = q.1 → m'.tournament = m.tournament) :
    m.Inside (db.putMatch m') := by
  intro q hq n hn
  rcases Table.mem_put (Table.mem_of_get? hn) with rfl | ⟨hold, _⟩
  · exact hm q hq (Table.key_of_get? hn)
  · have hid : n.id = q.1 := Table.key_of_get? hn
    exact h q hq n (hid ▸ Table.get?_of_mem hold)

/-- The lock of a tournament that is held is not taken again. -/
theorem holding_of_mem {s : Txn} {l : Lock} (h : l ∈ s.locks) : s.holding l = s := if_pos h

theorem holding_locks {s : Txn} {l : Lock} : (s.holding l).locks = s.locks ∨ (s.holding l).locks = s.locks ++ [l] := by
  unfold Txn.holding
  split
  · exact .inl rfl
  · exact .inr rfl

theorem mem_ownLocks {t : TournamentId} (h : m.tournament = some t) : .tournament t ∈ m.ownLocks := by
  rw [Match.ownLocks, h]
  exact List.mem_cons_self

theorem Match.LockedAlong.holdingMatch {list : List (MatchId × Slot)} {q : MatchId × Slot} {s : Txn} {n : Match}
    (h : m.LockedAlong list s) (hq : q ∈ m.targets) (here : s.db.match? q.1 = some n) :
    ∃ sent, sent.Sublist ((list ++ [q]).map fun q => Lock.match m.tournament q.1) ∧
      (s.holdingMatch n).locks = m.ownLocks ++ sent := by
  obtain ⟨⟨sent, hsent, hlocks⟩, hinside⟩ := h
  have htournament : n.tournament = m.tournament := hinside q hq n here
  have hid : n.id = q.1 := Table.key_of_get? here
  have hholding : s.holdingMatch n = s.holding (.match m.tournament q.1) := by
    unfold Txn.holdingMatch
    rw [htournament, hid]
    cases ht : m.tournament with
    | none => rfl
    | some t =>
        have hmem : Lock.tournament t ∈ s.locks := hlocks ▸ List.mem_append_left _ (mem_ownLocks ht)
        simp only [holding_of_mem hmem]
  rw [hholding, List.map_append]
  rcases holding_locks (s := s) (l := .match m.tournament q.1) with hsame | hmore
  · exact ⟨sent, hsent.trans (List.sublist_append_left _ _), hsame.trans hlocks⟩
  · refine ⟨sent ++ [.match m.tournament q.1], hsent.append (List.Sublist.refl _), ?_⟩
    rw [hmore, hlocks, List.append_assoc]

theorem place_sent {l : List (MatchId × Slot)} {q : MatchId × Slot} {p : Option ProfileId} {seed : Option ℕ}
    (hlist : (l ++ [q]).Sublist m.targets) : Txn.Triple (m.LockedAlong l) (place q.1 q.2 p seed)
      (fun _ => m.LockedAlong (l ++ [q])) fun _ s => m.Took s.locks := by
  have hq : q ∈ m.targets := hlist.subset (List.mem_append_right _ List.mem_cons_self)
  have htook : ∀ s n, m.LockedAlong l s → s.db.match? q.1 = some n → m.Took (s.holdingMatch n).locks := by
    intro s n hs here
    obtain ⟨sent, hsent, hlocks⟩ := hs.holdingMatch hq here
    exact ⟨sent, hsent.trans (hlist.map _), hlocks⟩
  refine place_triple (fun s hs => hs.took ((List.sublist_append_left _ _).trans hlist))
    (fun s n hs here _ => htook s n hs here) fun s n hs here _ => ⟨hs.holdingMatch hq here, ?_⟩
  rw [Txn.wrote_db, Txn.holdingMatch_db]
  refine hs.2.put fun _ _ _ => ?_
  rw [Match.tournament_of_static (n.receive_static _ _ _)]
  exact hs.2 q hq n here

/-- The locks of a match that was decided. -/
theorem took_steady (hR : ∀ s, m.Took s.locks → R s) :
    Steady (fun m' => m'.static = m.static) (fun s => m.Took s.locks) fun _ => R where
  own hm hs _ := hs.trans hm
  wrote hs _ _ := hs
  saved _ hs := hs
  enrolled hs _ _ _ := hs
  scheduled hs := hs
  refused _ hs := hR _ hs

theorem sent_steady (hR : ∀ s, m.Took s.locks → R s) (hother : ∀ q ∈ m.targets, q.1 ≠ m.id) :
    Steady (fun m' => m'.static = m.static) (m.LockedAlong []) fun _ => R where
  own hm hs _ := hs.trans hm
  wrote hs hf _ := ⟨hs.1, fun q hq n hn => hs.2 q hq n (by rwa [Db.match?, Txn.wrote_db, hf] at hn)⟩
  saved hm hs := ⟨hs.1, hs.2.put fun q hq hid => absurd (hid.symm.trans (Match.id_of_static hm)) (hother q hq)⟩
  enrolled hs _ _ _ := hs
  scheduled hs := hs
  refused _ hs := hR _ (hs.took (List.nil_sublist _))

theorem sent_walk (hR : ∀ s, m.Took s.locks → R s) (hother : ∀ q ∈ m.targets, q.1 ≠ m.id) :
    Walk m (fun m' => m'.static = m.static) (m.LockedAlong []) (fun s => m.Took s.locks) R where
  before := sent_steady hR hother
  after := took_steady hR
  stays hs := hs.took (List.nil_sublist _)
  mine := rfl
  relocked t ht s hs := by
    obtain ⟨⟨sent, hsent, hlocks⟩, hinside⟩ := hs
    have hmem : Lock.tournament t ∈ s.locks := hlocks ▸ List.mem_append_left _ (mem_ownLocks ht)
    rw [holding_of_mem hmem]
    exact ⟨⟨sent, hsent, hlocks⟩, hinside⟩
  ends := hR
  advance {now m'} hm := by
    refine Txn.Triple.weakenError (E := fun _ s => m.Took s.locks) ?_ fun _ => hR
    refine advance_triple (K := m.LockedAlong m.nextMatch.toList) (fun q p seed hq => ?_) (fun s hs => ?_)
      (fun q p seed hq => ?_) (fun s hs => hs.took (List.sublist_append_left _ _)) fun t ht => ?_
    · rw [Match.nextMatch_of_static hm] at hq
      rw [hq]
      exact place_sent (l := []) (by rw [Match.targets, hq]; exact List.sublist_append_left _ _)
    · obtain ⟨⟨sent, hsent, hlocks⟩, hinside⟩ := hs
      exact ⟨⟨sent, hsent.trans (List.nil_sublist _), hlocks⟩, hinside⟩
    · rw [Match.loserNextMatch_of_static hm] at hq
      have htargets : m.targets = m.nextMatch.toList ++ [q] := by rw [Match.targets, hq]; rfl
      refine (place_sent (htargets ▸ List.Sublist.refl _)).weaken fun _ s hs => hs.took (htargets ▸ List.Sublist.refl _)
    · rw [Match.tournament_of_static hm] at ht
      refine Txn.Triple.weaken ((took_steady fun _ hs => hs).checkFinished fun s hs => ?_) fun _ _ hs => hs.2
      obtain ⟨sent, hsent, hlocks⟩ := hs
      have hmem : Lock.tournament t ∈ s.locks := hlocks ▸ List.mem_append_left _ (mem_ownLocks ht)
      rw [holding_of_mem hmem]
      exact ⟨sent, hsent, hlocks⟩

/-- The locks of an operation on a match. -/
theorem takes_opens (hdb : WellFormed db) : Opens (Starts db) id fun s => TakesMatch db id s.locks where
  missing _ hs := .inl hs.2
  locked s m hs here := by
    rw [hs.1] at here
    have hm := Table.mem_of_get? here
    refine ⟨_, _, _, sent_walk (fun t ht => .inr ⟨m, here, ht⟩) fun q hq => hdb.wired.other m hm q hq,
      ⟨[], List.nil_sublist _, ?_⟩, fun q hq n hn => ?_⟩
    · rw [holdingMatch_locks hs.2, List.append_nil]
    · rw [Txn.holdingMatch_db, hs.1] at hn
      exact hdb.wired.inside m hm q hq n (Table.mem_of_get? hn) (Table.key_of_get? hn)

end

end Arena
end CpcJudge
