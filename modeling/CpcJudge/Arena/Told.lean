import CpcJudge.Arena.Counted

/-!
# `Arena.Told` — when the ranking is worked out again

A transaction either leaves the list of battles as it was, or it has scheduled `recompute` by its end. The state of
one under way is `Told I`: the tables satisfy `I`, or the recomputation is already scheduled and nothing else matters.
-/

namespace CpcJudge
namespace Arena

open CpcJudge.Txn (bind_ok pure_ok throw_ok)
open Scoring (Decision Reason Summary)

/-- The tables satisfy `I`, or the ranking is going to be worked out again. -/
def Told (I : Db → Prop) (s : Txn) : Prop := I s.db ∨ .recompute ∈ s.hooks

/-- From a state in `P`, `x` is refused or ends in `Q`. -/
structure Ends {α : Type} (P : Txn → Prop) (x : ArenaM α) (Q : α → Txn → Prop) : Prop where
  ok : ∀ s a t, P s → x s = .ok a t → Q a t

section
variable {α β : Type} {P : Txn → Prop} {Q : α → Txn → Prop} {R : β → Txn → Prop} {I J : Db → Prop}
  {ref db : Db} {m m' : Match} {site : Site} {actor : Option ProfileId} {now : Time} {C : Prop}

/-! ## The steps of a transaction -/

theorem Told.mono {s : Txn} (h : ∀ db, I db → J db) (hs : Told I s) : Told J s := hs.imp_left (h s.db)

namespace Ends

theorem bind {x : ArenaM β} {f : β → ArenaM α} (hx : Ends P x R) (hf : ∀ b, Ends (R b) (f b) Q) :
    Ends P (x >>= f) Q := by
  refine ⟨fun s a t hs h => ?_⟩
  obtain ⟨b, u, hxb, hfb⟩ := bind_ok.mp h
  exact (hf b).ok u a t (hx.ok s b u hs hxb) hfb

theorem of_pre {P' : Txn → Prop} {x : ArenaM α} (h : Ends P x Q) (hP : ∀ s, P' s → P s) : Ends P' x Q :=
  ⟨fun s a t hs => h.ok s a t (hP s hs)⟩

theorem weaken {Q' : α → Txn → Prop} {x : ArenaM α} (h : Ends P x Q) (hQ : ∀ a s, Q a s → Q' a s) : Ends P x Q' :=
  ⟨fun s a t hs hx => hQ a t (h.ok s a t hs hx)⟩

theorem ite {c : Prop} [Decidable c] {x y : ArenaM α} (hx : c → Ends P x Q) (hy : ¬ c → Ends P y Q) :
    Ends P (if c then x else y) Q := by
  split
  · rename_i hc
    exact hx hc
  · rename_i hc
    exact hy hc

/-- A fact that does not speak of the state can be assumed on entry. -/
theorem assume {c : Prop} {x : ArenaM α} (h : c → Ends P x Q) : Ends (fun s => c ∧ P s) x Q :=
  ⟨fun s a t hs => (h hs.1).ok s a t hs.2⟩

theorem done (a : α) (h : ∀ s, P s → Q a s) : Ends P (pure a) Q := by
  refine ⟨fun s b t hs hrun => ?_⟩
  obtain ⟨rfl, rfl⟩ := pure_ok.mp hrun
  exact h _ hs

theorem modified {f : Db → Db} {S : Txn → Prop} (h : ∀ s, P s → S (s.wrote f)) : Ends P (Arena.write f) fun _ => S := by
  refine ⟨fun s _ t hs hrun => ?_⟩
  obtain rfl := write_ok.mp hrun
  exact h s hs

theorem told {K : α → Db → Prop} {x : ArenaM α} (h : Ends (Told J) x fun a => Told (K a))
    (hI : ∀ db, I db → J db) : Ends (Told I) x fun a => Told (K a) := h.of_pre fun _ => Told.mono hI

theorem throw (e : ArenaError) : Ends P (throw e) Q := ⟨fun _ _ _ _ h => (throw_ok.mp h).elim⟩

theorem refuseIf {c : Prop} [Decidable c] {e : ArenaError} {f : Unit → ArenaM α} (h : ¬ c → Ends P (f ()) Q) :
    Ends P (Arena.refuseIf c e >>= f) Q := by
  unfold Arena.refuseIf
  split
  · exact (throw e : Ends P _ fun _ _ => False).bind fun _ => ⟨fun _ _ _ hs => hs.elim⟩
  · rename_i hc
    exact h hc

theorem orRefuse {v : Option β} {e : ArenaError} {f : β → ArenaM α} (h : ∀ b, v = some b → Ends P (f b) Q) :
    Ends P (Arena.orRefuse v e >>= f) Q := by
  cases v with
  | none => exact throw e
  | some b => exact h b rfl

theorem cleaned {v : Except ArenaError β} {f : β → ArenaM α} (h : ∀ b, Ends P (f b) Q) :
    Ends P (Arena.cleaned v >>= f) Q := by
  cases v with
  | error e => exact throw e
  | ok b => exact h b

theorem checkVersion {current : ℕ} {version : Option ℤ} {f : Unit → ArenaM α} (h : Ends P (f ()) Q) :
    Ends P (Arena.checkVersion current version >>= f) Q := by
  cases version with
  | none => exact h
  | some v => exact refuseIf fun _ => h

theorem ret {K : α → Db → Prop} (a : α) (h : ∀ db, I db → K a db) : Ends (Told I) (pure a) fun a => Told (K a) :=
  done a fun _ => Told.mono h

theorem write {f : Db → Db} (h : ∀ db, I db → J (f db)) : Ends (Told I) (Arena.write f) fun _ => Told J :=
  modified fun s hs => hs.imp_left (h s.db)

theorem tables : Ends (Told I) Arena.tables fun db => Told fun db' => I db' ∧ db' = db := by
  refine ⟨fun s db t hs hrun => ?_⟩
  obtain ⟨rfl, rfl⟩ := tables_ok.mp hrun
  exact hs.imp_left fun h => ⟨h, rfl⟩

theorem lock (l : Lock) : Ends (Told I) (Arena.lock l) fun _ => Told I := by
  refine ⟨fun s _ t hs hrun => ?_⟩
  obtain rfl := lock_ok.mp hrun
  unfold Txn.holding
  split
  · exact hs
  · exact hs

theorem onCommit (hook : Hook) : Ends (Told I) (Arena.onCommit hook) fun _ => Told I := by
  refine ⟨fun s _ t hs hrun => ?_⟩
  obtain rfl := onCommit_ok.mp hrun
  exact hs.imp_right fun h => List.mem_append_left _ h

/-- From here on nothing has to be kept. -/
theorem recompute : Ends (Told I) (Arena.onCommit .recompute) fun _ => Told J := by
  refine ⟨fun s _ t _ hrun => ?_⟩
  obtain rfl := onCommit_ok.mp hrun
  exact .inr (List.mem_append_right _ List.mem_cons_self)

theorem refreshLock : Ends (Told I) refreshLockOnCommit fun _ => Told I := onCommit _

theorem lockMatch (id : MatchId) :
    Ends (Told I) (Arena.lockMatch id) fun m => Told fun db => I db ∧ db.match? id = some m := by
  refine Ends.bind tables fun db => orRefuse fun m hm => ?_
  have hread : ∀ db', I db' ∧ db' = db → I db' ∧ db'.match? id = some m := by
    rintro db' ⟨h, rfl⟩
    exact ⟨h, hm⟩
  cases m.tournament with
  | none => exact (lock _).bind fun _ => ret m hread
  | some t => exact (lock _).bind fun _ => (lock _).bind fun _ => ret m hread

theorem lockTournament (id : TournamentId) :
    Ends (Told I) (Arena.lockTournament id) fun t => Told fun db => I db ∧ db.tournament? t.id = some t := by
  refine Ends.bind tables fun db => orRefuse fun t ht => ?_
  refine (lock _).bind fun _ => ret t ?_
  rintro db' ⟨h, rfl⟩
  have hid : t.id = id := Table.key_of_get? ht
  exact ⟨h, hid ▸ ht⟩

/-- The row an operation takes the lock of first. -/
theorem lockMatch_first (hI : I ref) {id : MatchId} {f : Match → ArenaM α}
    (h : ∀ m, ref.match? m.id = some m → Ends (Told I) (f m) Q) :
    Ends (·.db = ref) (Arena.lockMatch id >>= f) Q := by
  have hlock : Ends (·.db = ref) (Arena.lockMatch id) fun m s => ref.match? m.id = some m ∧ Told I s := by
    refine ⟨fun s m t hs hrun => ?_⟩
    obtain ⟨here, rfl⟩ := lockMatch_ok.mp hrun
    have hid : m.id = id := Table.key_of_get? here
    refine ⟨by rw [hid, ← hs]; exact here, .inl ?_⟩
    rw [Txn.holdingMatch_db, show s.db = ref from hs]
    exact hI
  exact hlock.bind fun m => Ends.assume fun hm => h m hm

theorem lockTournament_first (hI : I ref) {id : TournamentId} {f : Tournament → ArenaM α}
    (h : ∀ t, ref.tournament? t.id = some t → Ends (Told I) (f t) Q) :
    Ends (·.db = ref) (Arena.lockTournament id >>= f) Q := by
  have hlock : Ends (·.db = ref) (Arena.lockTournament id) fun t s => ref.tournament? t.id = some t ∧ Told I s := by
    refine ⟨fun s t u hs hrun => ?_⟩
    obtain ⟨here, rfl⟩ := lockTournament_ok.mp hrun
    have hid : t.id = id := Table.key_of_get? here
    refine ⟨by rw [hid, ← hs]; exact here, .inl ?_⟩
    rw [Txn.holding_db, show s.db = ref from hs]
    exact hI
  exact hlock.bind fun t => Ends.assume fun ht => h t ht

end Ends

/-! ## Moving players forward -/

/-- What survives players on their way. -/
structure Forward (I : Db → Prop) : Prop where
  congr : ∀ {db db'}, I db → db'.battles = db.battles → db'.tournaments = db.tournaments → I db'
  receive : ∀ {db m} slot p seed, I db → db.match? m.id = some m → m.started = false →
    I (db.putMatch (m.receive slot p seed))
  tournament : ∀ {db t t'}, I db → db.tournament? t.id = some t → t'.id = t.id → t'.ranking = t.ranking →
    I (db.putTournament t')

namespace Forward
variable (hI : Forward I)
include hI

theorem record (a : Action) : Ends (Told I) (write (·.record a)) fun _ => Told I :=
  .write fun _ h => hI.congr h rfl rfl

theorem logMatch (action : ActionName) (actor : Option ProfileId) (m : Match) (game : Option GameId) :
    Ends (Told I) (Arena.logMatch action actor m game) fun _ => Told I := hI.record _

theorem logTournament (action : ActionName) (actor : Option ProfileId) (id : TournamentId) :
    Ends (Told I) (Arena.logTournament action actor id) fun _ => Told I := hI.record _

theorem freshId : Ends (Told I) Arena.freshId fun _ => Told I := by
  refine Ends.bind Ends.tables fun db => Ends.bind (R := fun _ => Told I) (Ends.write ?_) fun _ => ?_
  · intro db' h
    exact hI.congr h.1 rfl rfl
  · exact Ends.ret _ fun _ h => h

/-- A tournament saved with its ranking. -/
theorem saveTournament {t t' : Tournament} (hid : t'.id = t.id) (hranking : t'.ranking = t.ranking) :
    Ends (Told fun db => I db ∧ db.tournament? t.id = some t) (Arena.saveTournament t') fun _ =>
      Told I := .write fun _ h => hI.tournament h.1 h.2 hid hranking

theorem place (id : MatchId) (slot : Slot) (p : Option ProfileId) (seed : Option ℕ) :
    Ends (Told I) (Arena.place id slot p seed) fun _ => Told I := by
  refine Ends.bind (Ends.lockMatch id) fun target => Ends.refuseIf fun hunplayed => .write ?_
  rintro db ⟨h, here⟩
  have hid : target.id = id := Table.key_of_get? here
  exact hI.receive slot p seed h (hid ▸ here) (Bool.eq_false_iff.mpr hunplayed)

theorem checkFinished (now : Time) (id : TournamentId) :
    Ends (Told I) (Arena.checkFinished now id) fun _ => Told I := by
  refine (Ends.lock _).bind fun _ => Ends.bind Ends.tables fun db => Ends.orRefuse fun t ht => ?_
  have hid : t.id = id := Table.key_of_get? ht
  refine Ends.ite (fun _ => ?_) fun _ => Ends.ret _ fun _ h => h.1
  refine Ends.bind (R := fun _ => Told I) ?_ fun _ => hI.logTournament _ _ _
  refine (hI.saveTournament (t := t) ?_ ?_).told ?_
  · rfl
  · rfl
  · rintro db' ⟨h, rfl⟩
    exact ⟨h, hid ▸ ht⟩

theorem advance (now : Time) (m : Match) : Ends (Told I) (Arena.advance now m) fun _ => Told I := by
  unfold Arena.advance
  split
  · rename_i t winner _ _
    have hloser : ∀ next slot, Ends (Told I) (if (m.players.get winner.other).isSome = true then do
          Arena.place next slot (m.players.get winner.other) (m.seeds.get winner.other)
          Arena.checkFinished now t
        else Arena.checkFinished now t) fun _ => Told I := fun _ _ =>
      .ite (fun _ => (hI.place _ _ _ _).bind fun _ => hI.checkFinished now t) fun _ => hI.checkFinished now t
    cases m.nextMatch with
    | none =>
        cases m.loserNextMatch with
        | none => exact hI.checkFinished now t
        | some target => exact hloser _ _
    | some next =>
        refine (hI.place _ _ _ _).bind fun _ => ?_
        cases m.loserNextMatch with
        | none => exact hI.checkFinished now t
        | some target => exact hloser _ _
  · exact .ret _ fun _ h => h

end Forward

theorem Ranked.forward : Forward (Ranked ref) where
  congr h _ htournaments t := by
    rw [Db.tournament?, htournaments]
    exact h t
  receive _ _ _ h _ _ := h
  tournament h here hid hranking := by
    refine h.putTournament ?_
    rw [hid, hranking, ← h, here]
    rfl

/-- A match nobody has played gets a player. -/
theorem Same.unstarted (h : Same ref m) (hm : m.started = false) (hid : m'.id = m.id) (hgames : m'.games = m.games) :
    Same ref m' := by
  have hplayed : m'.Played := h.played.of_games hgames
  refine ⟨?_, hplayed⟩
  have hunstarted : m'.started = false := by rwa [Match.started, hgames]
  rw [battleOf_unstarted hplayed hunstarted, hid, ← h.battle, battleOf_unstarted h.played hm]

theorem Tallies.forward (C : Prop) : Forward fun db => Tallies ref db ∧ C where
  congr h hbattles htournaments := ⟨h.1.congr hbattles htournaments, h.2⟩
  receive {db m} slot p seed h here hunplayed := by
    obtain ⟨status, heq, _⟩ := m.receive_eq slot p seed
    refine ⟨h.1.putMatch ((h.1.same here).unstarted hunplayed ?_ ?_), h.2⟩ <;> rw [heq]
  tournament h here hid hranking := by
    refine ⟨h.1.putTournament ?_, h.2⟩
    rw [hid, hranking, ← h.1.ranked, here]
    rfl

/-! ## Saving a match -/

/-- The tables give the battles of `ref`, and `C` holds. -/
abbrev Keeping (ref : Db) (C : Prop) (db : Db) : Prop := Tallies ref db ∧ C

theorem saveMatch_ends (h : C → Same ref m) :
    Ends (Told (Keeping ref C)) (saveMatch m) fun _ => Told (Keeping ref C) :=
  .write fun _ hs => ⟨hs.1.putMatch (h hs.2), hs.2⟩

/-- A match that is not decided, with the battle of `ref`: none. -/
structure Going (ref : Db) (m : Match) : Prop where
  same : Same ref m
  undecided : m.status ≠ .decided

theorem Going.to (h : Going ref m) (hid : m'.id = m.id) (hundecided : m'.status ≠ .decided) (hplayed : m'.Played) :
    Going ref m' := by
  refine ⟨⟨?_, hplayed⟩, hundecided⟩
  rw [battleOf_undecided hundecided, hid, ← h.same.battle, battleOf_undecided h.undecided]

/-- The match still going, with other games. -/
theorem Going.games {games : Table Game} (h : Going ref m) (hplayed : ({ m with games } : Match).Played) :
    Going ref { m with games } := h.to rfl h.undecided hplayed

theorem Going.setGame {g : Game} (h : Going ref m) (hg : g.status ≠ .prepared → g.started = true) :
    Going ref (m.setGame g) := h.games (h.same.played.setGame hg)

theorem Going.bump (h : Going ref m) (system : Bool := false) : Going ref (m.bump system) := by
  rw [bump_eq]
  exact h.to rfl h.undecided (h.same.played.of_games rfl)

theorem logMatch_ends (action : ActionName) (actor : Option ProfileId) (m : Match) (game : Option GameId := none) :
    Ends (Told (Keeping ref C)) (logMatch action actor m game) fun _ => Told (Keeping ref C) :=
  (Tallies.forward C).logMatch action actor m game

/-- The last facts of a transaction. -/
theorem ret_ends (a : α) {D : α → Prop} (h : C → D a) :
    Ends (Told (Keeping ref C)) (pure a) fun a => Told (Keeping ref (D a)) :=
  Ends.ret a fun _ hs => ⟨hs.1, h hs.2⟩

/-- Other facts to start from. -/
theorem Ends.given {D : Prop} {x : ArenaM α} (h : Ends (Told (Keeping ref D)) x Q) (hC : C → D) :
    Ends (Told (Keeping ref C)) x Q := h.of_pre fun _ => Told.mono fun _ hs => ⟨hs.1, hC hs.2⟩

/-! ## The next game -/

theorem newGame_ends : Ends (Told (Keeping ref (Going ref m))) (newGame m) fun r =>
    Told (Keeping ref (Going ref r.1 ∧ r.2.status = .prepared)) := by
  refine Ends.bind (Tallies.forward _).freshId fun id => ?_
  have hadd : Going ref m → Going ref { m with games := m.games.add { id, number := m.lastNumber + 1 } } :=
    fun h => h.games (h.same.played.add rfl)
  exact (saveMatch_ends fun h => (hadd h).same).bind fun _ => ret_ends _ fun h => ⟨hadd h, rfl⟩

theorem ensureNextGame_ends : Ends (Told (Keeping ref (Going ref m))) (ensureNextGame m) fun r =>
    Told (Keeping ref (Going ref r.1 ∧ r.2.status = .prepared)) := by
  unfold ensureNextGame
  split
  · rename_i game hgame
    exact ret_ends _ fun h => ⟨h, (preparedGame_mem hgame).2⟩
  · exact newGame_ends

theorem bankOffer_prepared {force : Bool} {game : Game} {offer : Except ArenaError (List GameProblem)}
    (h : bankOffer site db actor force m game = some offer) : game.status = .prepared := by
  simp only [bankOffer] at h
  split at h
  · rename_i hcond
    simp only [Bool.and_eq_true, decide_eq_true_eq] at hcond
    exact hcond.1.1.1.2
  · cases h

theorem fillFromBank_ends (force : Bool) (game : Game) :
    Ends (Told (Keeping ref (Going ref m))) (fillFromBank site actor force m game) fun r =>
      Told (Keeping ref (Going ref r.1)) := by
  refine Ends.bind Ends.tables fun db => Ends.told ?_ fun _ hs => hs.1
  cases hoffer : bankOffer site db actor force m game with
  | none => exact ret_ends _ fun h => h
  | some offer =>
      cases offer with
      | error e => exact (logMatch_ends _ _ _ _).bind fun _ => ret_ends _ fun h => h
      | ok problems =>
          have hset : Going ref m → Going ref (m.setGame { game with problems }) := fun h =>
            h.setGame fun hne => absurd (bankOffer_prepared hoffer) hne
          exact (saveMatch_ends fun h => (hset h).same).bind fun _ =>
            (logMatch_ends _ _ _ _).bind fun _ => ret_ends _ hset

theorem nextGameFromBank_ends : Ends (Told (Keeping ref (Going ref m))) (nextGameFromBank site actor m) fun m' =>
    Told (Keeping ref (Going ref m')) := by
  refine Ends.bind ensureNextGame_ends fun r => ?_
  refine Ends.bind ((fillFromBank_ends false r.2).given fun h => h.1) fun r' => ?_
  exact ret_ends _ fun h => h

/-! ## Deciding a match -/

theorem counted_dropUnplayed : m.dropUnplayed.games.rows.filterMap Game.counted =
    m.games.rows.filterMap Game.counted := by
  show (m.games.rows.filter fun g => !g.unplayed).filterMap Game.counted = _
  rw [List.filterMap_filter]
  refine List.filterMap_congr fun g _ => ?_
  split
  · rfl
  · rename_i hunplayed
    have hstatus : g.status = .prepared := by
      simp only [Game.unplayed, Bool.not_eq_true', Bool.not_eq_false, Bool.and_eq_true, decide_eq_true_eq] at hunplayed
      exact hunplayed.1
    rw [Game.counted_of_ne (by rw [hstatus]; decide)]

/-- A match that counts makes `after_decided` have the ranking worked out again. -/
theorem rankingDecision_of_counts (h : countsQ db m = true) :
    rankingDecision db m = .counts ∧ (!neverCounts m) = true := by
  simp only [countsQ, Bool.and_eq_true, Bool.or_eq_true, decide_eq_true_eq, Bool.not_eq_true', Bool.or_eq_false_iff,
    decide_eq_false_iff_not] at h
  obtain ⟨⟨⟨⟨⟨⟨hranking, hstatus⟩, _⟩, _⟩, ha⟩, hb⟩, hbye, hwalkover⟩ := h
  constructor
  · unfold rankingDecision
    rcases hranking with ⟨hnone, hcounts⟩ | ⟨hcounts, hin⟩
    · rw [tournamentOf, Option.isNone_iff_eq_none.mp hnone]
      exact hcounts
    · cases ht : tournamentOf db m with
      | none => simp [ht] at hcounts
      | some t =>
          simp only [ht, Option.any_some, decide_eq_true_eq] at hcounts
          show (if m.ranking = .excluded then Ranking.excluded else t.ranking) = .counts
          rw [if_neg hin, hcounts]
  · simp [neverCounts, hstatus, ha, hb, hbye, hwalkover]

theorem afterDecided_ends : Ends (Told (Keeping ref C)) (afterDecided m) fun _ => Told (Keeping ref C) := by
  refine Ends.bind Ends.tables fun db => Ends.told ?_ fun _ hs => hs.1
  exact Ends.ite (fun _ => Ends.onCommit _) fun _ => Ends.ret _ fun _ h => h

theorem afterDecided_recompute (h : countsQ ref m = true) :
    Ends (Told (Ranked ref)) (afterDecided m) fun _ => Told J := by
  refine Ends.bind Ends.tables fun db => Ends.ite (fun _ => Ends.recompute) fun hnot => Ends.ret _ ?_
  rintro db' ⟨hranked, rfl⟩
  exact absurd (rankingDecision_of_counts ((countsQ_congr hranked m).trans h)) hnot

/-- Nothing a match does to the tables touches the rankings of the tournaments. -/
theorem Ranked.write {f : Db → Db} (hf : ∀ db, (f db).tournaments = db.tournaments) :
    Ends (Told (Ranked ref)) (Arena.write f) fun _ => Told (Ranked ref) := by
  refine Ends.write fun db h t => ?_
  rw [Db.tournament?, hf db]
  exact h t

theorem Ranked.saveMatch (m : Match) : Ends (Told (Ranked ref)) (Arena.saveMatch m) fun _ => Told (Ranked ref) :=
  Ranked.write fun _ => rfl

theorem decideMatch_ends {slot : Slot} {reason : DecidedReason} :
    Ends (Told (Keeping ref (Going ref m))) (decideMatch now actor m slot reason) fun m' =>
      Told (Keeping ref (Same ref m')) := by
  unfold decideMatch
  generalize hm1 : Match.bump _ _ = m1
  have hid : m1.id = m.id := by rw [← hm1, bump_eq]
  have hgames : m1.games = m.games := by rw [← hm1, bump_eq]
  have hdropped : battleOf ref m1.dropUnplayed = battleOf ref m1 :=
    battleOf_same rfl rfl rfl rfl rfl rfl rfl counted_dropUnplayed
  cases hbattle : battleOf ref m1 with
  | none =>
      -- a match without a battle: nothing changes
      have hsame : Going ref m → Same ref m1 := fun h => by
        refine ⟨?_, h.same.played.of_games hgames⟩
        rw [hbattle, hid, ← h.same.battle, battleOf_undecided h.undecided]
      have hsame' : Going ref m → Same ref m1.dropUnplayed := fun h =>
        ⟨hdropped.trans (hsame h).battle, (hsame h).played.dropUnplayed⟩
      refine (saveMatch_ends hsame).bind fun _ => ?_
      have hdrop : Ends (Told (Keeping ref (Going ref m))) (dropUnplayed m1) fun m2 =>
          Told (Keeping ref (Same ref m2)) := by
        refine (Ends.write (J := Keeping ref (Going ref m)) fun _ hs => ⟨hs.1.congr rfl rfl, hs.2⟩).bind fun _ => ?_
        exact (saveMatch_ends hsame').bind fun _ => ret_ends _ hsame'
      refine hdrop.bind fun m2 => (logMatch_ends _ _ _ _).bind fun _ => ?_
      exact ((Tallies.forward _).advance now m2).bind fun _ => afterDecided_ends.bind fun _ =>
        Ends.refreshLock.bind fun _ => ret_ends _ fun h => h
  | some battle =>
      have hcounts : countsQ ref m1.dropUnplayed = true := by
        by_contra hnot
        rw [battleOf_of_not_counts (Bool.eq_false_iff.mpr hnot), hbattle] at hdropped
        cases hdropped
      refine Ends.told (J := Ranked ref) ?_ fun _ hs => hs.1.ranked
      refine (Ranked.saveMatch m1).bind fun _ => ?_
      have hdrop : Ends (Told (Ranked ref)) (dropUnplayed m1) fun m2 s =>
          m2 = m1.dropUnplayed ∧ Told (Ranked ref) s := by
        refine (Ranked.write (f := (·.forgetUnplayed m1)) fun _ => rfl).bind fun _ => ?_
        exact (Ranked.saveMatch _).bind fun _ => Ends.done _ fun _ hs => ⟨rfl, hs⟩
      refine hdrop.bind fun m2 => Ends.assume fun hm2 => ?_
      subst hm2
      refine (Ranked.forward.logMatch _ _ _ _).bind fun _ => (Ranked.forward.advance now _).bind fun _ => ?_
      exact (afterDecided_recompute (J := fun _ => False) hcounts).bind fun _ => Ends.refreshLock.bind fun _ =>
        Ends.ret _ fun _ h => h.elim

end

end Arena
end CpcJudge
