import CpcJudge.Arena.Steady

/-!
# `Arena.Walks` — what the operations on a match keep

The operations on a match lock it, and keep from there every property that their steps keep (`Steady`, `Sending`), done
or refused. What is left to say of such a property is how it starts under the lock, and what it is good for at the end
(`Opens`).
-/

namespace CpcJudge
namespace Arena

open Scoring (Attempt)

/-- What the steps of an operation on the match `m` keep, and `R` with it. -/
structure Walk (m : Match) (Own : Match → Prop) (I J R : Txn → Prop) : Prop extends Sending Own I J fun _ => R where
  mine : Own m
  relocked : ∀ t, m.tournament = some t → ∀ s, I s → I (s.holding (.tournament t))
  ends : ∀ s, J s → R s

/-- From `P`, such a property holds under the lock of the match `id`. -/
structure Opens (P : Txn → Prop) (id : MatchId) (R : Txn → Prop) : Prop where
  missing : ∀ s, P s → R s
  locked : ∀ s m, P s → s.db.match? id = some m → ∃ (Own : Match → Prop) (I J : Txn → Prop),
    Walk m Own I J R ∧ I (s.holdingMatch m)

section
variable {α β : Type} {Own : Match → Prop} {P I J R : Txn → Prop} {m : Match} {id : MatchId} {site : Site}
  {actor : Option ProfileId} {version : Option ℤ} {slot : Slot} {game : Game} {now : Time}

/-! ## Steps that may be refused -/

namespace Steps
variable (hR : ∀ s, I s → R s)
include hR

theorem throw {e : ArenaError} {Q : α → Prop} : Steps I (fun _ => R) (throw e) Q := Txn.Triple.refused e hR

theorem refuseIf {c : Prop} [Decidable c] {e : ArenaError} :
    Steps I (fun _ => R) (Arena.refuseIf c e) fun _ => True :=
  .ite (fun _ => throw hR) fun _ => .done _

theorem orRefuse {v : Option α} {e : ArenaError} : Steps I (fun _ => R) (Arena.orRefuse v e) fun _ => True := by
  cases v with
  | none => exact throw hR
  | some a => exact .done a

theorem cleaned {v : Except ArenaError α} : Steps I (fun _ => R) (Arena.cleaned v) fun _ => True := by
  cases v with
  | error e => exact throw hR
  | ok a => exact .done a

theorem checkVersion {current : ℕ} : Steps I (fun _ => R) (Arena.checkVersion current version) fun _ => True := by
  cases version with
  | none => exact .done _
  | some v => exact refuseIf hR

theorem refuseBusy : Steps I (fun _ => R) (Arena.refuseBusy site m slot) fun _ => True :=
  tables.bind fun _ _ => refuseIf hR

theorem requireRunningTournament : Steps I (fun _ => R) (Arena.requireRunningTournament m) fun _ => True :=
  tables.bind fun _ _ => refuseIf hR

end Steps

namespace Steady
variable (k : Steady Own I fun _ => R)
include k

theorem newGames : ∀ {count : ℕ} {m : Match}, Own m → Steps I (fun _ => R) (Arena.newGames m count) fun m' => Own m'
  | 0, _, h => .ret _ h
  | _ + 1, _, h => (k.newGame h).bind fun _ hr => newGames hr

theorem addGames : ∀ {problems : List (List GameProblem)} {number : ℕ} {m : Match}, Own m →
    Steps I (fun _ => R) (Arena.addGames m number problems) fun m' => Own m'
  | [], _, _, h => .ret _ h
  | _ :: _, _, m, h => k.freshId.bind fun _ _ => by
    have hadd : ∀ games, Own { m with games } := fun _ => k.edited h rfl rfl
    exact (k.saveMatch (hadd _)).bind fun _ _ => addGames (hadd _)

theorem gameNumber (hR : ∀ s, I s → R s) {number : ℕ} (h : Own m) :
    Steps I (fun _ => R) (Arena.gameNumber m number) fun r => Own r.1 := by
  refine (Steps.refuseIf hR).bind fun _ _ => ?_
  cases m.games.rows.find? (·.number = number) with
  | some game => exact .ret _ h
  | none => exact (k.newGames h).bind fun _ hm => (Steps.orRefuse hR).bind fun _ _ => .ret _ hm

theorem reopen {t : TournamentId} (hlock : ∀ s, I s → I (s.holding (.tournament t))) :
    Steps I (fun _ => R) (Arena.reopen t) fun _ => True := by
  refine Steps.bind (R := fun _ => True) (Txn.Triple.write fun s hs => ⟨trivial, hlock s hs⟩) fun _ _ => ?_
  refine Steps.reading fun db => ?_
  cases here : db.tournament? t with
  | none => exact Txn.Triple.ret _ fun _ hs => ⟨trivial, hs.2⟩
  | some row =>
      have here' : db.tournament? row.id = some row := by rwa [show row.id = t from Table.key_of_get? here]
      refine Txn.Triple.ite (fun _ => ?_) fun _ => Txn.Triple.ret _ fun _ hs => ⟨trivial, hs.2⟩
      exact k.saveTournament here' rfl rfl

/-- The row saved, the action recorded, and the players told. -/
theorem closing {action : ActionName} {gameId : Option GameId} (h : Own m) : Steps I (fun _ => R) (do
      Arena.saveMatch m
      logMatch action actor m gameId
      refreshLockOnCommit) fun _ => True :=
  (k.saveMatch h).bind fun _ _ => (k.log _ _ _ _).bind fun _ _ => k.onCommit _

end Steady

/-! ## Operations that send nobody forward -/

namespace Opens
variable (k : Opens P id R)
include k

/-- An operation on the row of the match. -/
theorem run {f : Match → ArenaM α} (hf : ∀ {Own : Match → Prop} {I J : Txn → Prop} {m : Match},
      Walk m Own I J R → (∀ s, I s → R s) → Sends I J (fun _ => R) (f m) fun _ => True) :
    Txn.Triple P (lockMatch id >>= f) (fun _ => R) fun _ => R := by
  refine lockMatch_triple k.missing fun s m hs here => ?_
  obtain ⟨Own, I, J, hwalk, hstart⟩ := k.locked s m hs here
  refine Txn.Triple.of_pre (P := I) ?_ fun t ht => ht ▸ hstart
  exact (hf hwalk fun t ht => hwalk.ends t (hwalk.stays ht)).weaken fun _ t ht => hwalk.ends t ht.2

/-- An operation that decides no match. -/
theorem still {f : Match → ArenaM α} (hf : ∀ {Own : Match → Prop} {I : Txn → Prop} {m : Match},
      Steady Own I (fun _ => R) → (∀ s, I s → R s) → Own m → Steps I (fun _ => R) (f m) fun _ => True) :
    Txn.Triple P (lockMatch id >>= f) (fun _ => R) fun _ => R :=
  k.run fun hwalk hR => hwalk.toSending.still (hf hwalk.before hR hwalk.mine)

theorem callMatch : Txn.Triple P (callMatch site actor id version) (fun _ => R) fun _ => R := by
  refine k.still fun {Own I m} k hR hm => (Steps.checkVersion hR).bind fun _ _ => .ite (fun _ => .done _) fun _ => ?_
  refine (Steps.refuseIf hR).bind fun _ _ => (Steps.requireRunningTournament hR).bind fun _ _ => ?_
  refine (Steps.refuseBusy hR).bind fun _ _ => (Steps.refuseBusy hR).bind fun _ _ => ?_
  have hcalled : Own ({ m with status := .called, calledAt := some site.now }.bump) := k.bump (k.edited hm rfl rfl)
  refine (k.saveMatch hcalled).bind fun _ _ => (k.nextGameFromBank hcalled).bind fun _ _ => ?_
  exact (k.log _ _ _ _).bind fun _ _ => k.onCommit _

theorem startGame {gameId : Option GameId} {force : Bool} :
    Txn.Triple P (startGame site actor id gameId force version) (fun _ => R) fun _ => R := by
  refine k.still fun k hR hm => (Steps.checkVersion hR).bind fun _ _ => (Steps.refuseIf hR).bind fun _ _ => ?_
  refine (Steps.refuseIf hR).bind fun _ _ => (Steps.requireRunningTournament hR).bind fun _ _ => ?_
  refine (Steps.refuseIf hR).bind fun _ _ => (Steps.orRefuse hR).bind fun _ _ => ?_
  refine (Steps.refuseBusy hR).bind fun _ _ => (Steps.refuseBusy hR).bind fun _ _ => ?_
  refine (k.fillFromBank hm).bind fun r hr => (Steps.orRefuse hR).bind fun _ _ => (Steps.refuseIf hR).bind fun _ _ => ?_
  refine Steps.tables.bind fun _ _ => (Steps.refuseIf hR).bind fun _ _ => .ite (fun _ => .done _) fun _ => ?_
  refine (k.saveMatch (k.bump ?_)).bind fun _ _ => (k.log _ _ _ _).bind fun _ _ => (k.onCommit _).bind fun _ _ => .done _
  split
  · exact k.edited hr rfl rfl
  · exact k.edited hr rfl rfl

theorem extendGame {gameId : GameId} {more : ℤ} :
    Txn.Triple P (extendGame actor id gameId more version) (fun _ => R) fun _ => R := by
  refine k.still fun k hR hm => (Steps.checkVersion hR).bind fun _ _ => (Steps.refuseIf hR).bind fun _ _ => ?_
  refine (Steps.orRefuse hR).bind fun _ _ => (Steps.refuseIf hR).bind fun _ _ => (Steps.refuseIf hR).bind fun _ _ => ?_
  exact (Steps.refuseIf hR).bind fun _ _ => k.closing (k.bump (k.edited hm rfl rfl))

theorem cancelGame {gameId : GameId} :
    Txn.Triple P (cancelGame site actor id gameId version) (fun _ => R) fun _ => R := by
  refine k.still fun {Own I m} k hR hm => (Steps.checkVersion hR).bind fun _ _ => (Steps.refuseIf hR).bind fun _ _ => ?_
  refine (Steps.orRefuse hR).bind fun game _ => (Steps.refuseIf hR).bind fun _ _ => (Steps.refuseIf hR).bind fun _ _ => ?_
  have hvoided : Own ((m.setGame { game.void site.now with decidedBy := actor }).bump) := k.bump (k.edited hm rfl rfl)
  refine (k.saveMatch hvoided).bind fun _ _ => (k.log _ _ _ _).bind fun _ _ => ?_
  exact .ite (fun _ => (k.nextGameFromBank hvoided).bind fun _ _ => k.onCommit _) fun _ => k.onCommit _

theorem cancelMatch : Txn.Triple P (cancelMatch site actor id version) (fun _ => R) fun _ => R := by
  refine k.still fun {Own I m} k hR hm => (Steps.checkVersion hR).bind fun _ _ => (Steps.refuseIf hR).bind fun _ _ => ?_
  refine (Steps.refuseIf hR).bind fun _ _ => ?_
  have hvoided : Own (m.voidGames site.now (·.decidedBy)) := k.edited hm rfl rfl
  exact (k.dropUnplayed hvoided).bind fun _ hm => k.closing (k.bump (k.edited hm rfl rfl))

theorem setGameProblems {gameId : Option GameId} {entries : List Entry} {number : Option ℕ} :
    Txn.Triple P (setGameProblems site actor id gameId entries version number) (fun _ => R) fun _ => R := by
  refine k.still fun {Own I m} k hR hm => (Steps.checkVersion hR).bind fun _ _ => (Steps.refuseIf hR).bind fun _ _ => ?_
  have hrest : ∀ r : Match × Game, Own r.1 → Steps I (fun _ => R) (do
      Arena.refuseIf (r.2.status ≠ .prepared) ⟨"The problems of a game cannot change once it has started.", 400⟩
      let problems ← Arena.cleaned (cleanProblemList site actor entries (problemsUsedInMatch r.1 (some r.2.id))
        (r.2.problems.map (·.problem)))
      Arena.saveMatch ((r.1.setGame { r.2 with problems }).bump)
      logMatch .problems actor ((r.1.setGame { r.2 with problems }).bump) r.2.id : ArenaM Unit) fun _ => True := by
    refine fun r hr => (Steps.refuseIf hR).bind fun _ _ => (Steps.cleaned hR).bind fun problems _ => ?_
    have hset : Own (r.1.setGame { r.2 with problems }).bump := k.bump (k.edited hr rfl rfl)
    exact (k.saveMatch hset).bind fun _ _ => k.log _ _ _ _
  cases gameId with
  | some gameId => exact (Steps.orRefuse hR).bind fun game _ => hrest (m, game) hm
  | none =>
      cases number with
      | some number => exact (k.gameNumber hR hm).bind hrest
      | none => exact (k.ensureNextGame hm).bind hrest

theorem addGame : Txn.Triple P (addGame id version) (fun _ => R) fun _ => R :=
  k.still fun k hR hm => (Steps.checkVersion hR).bind fun _ _ => (Steps.refuseIf hR).bind fun _ _ =>
    (k.ensureNextGame hm).bind fun _ hr => k.saveMatch (k.bump hr)

theorem updateMatch {bestOf : Option ℕ} {rules : Option Rules} {title : Option String} {display : Pair (Option String)} :
    Txn.Triple P (updateMatch actor id version bestOf rules title display) (fun _ => R) fun _ => R := by
  refine k.still fun {Own I m} k hR hm => (Steps.checkVersion hR).bind fun _ _ => (Steps.refuseIf hR).bind fun _ _ => ?_
  have hsave : ∀ m' : Match, Own m' → Steps I (fun _ => R) (do
      let m := { m' with title := (title.map fun t => cut 100 (strip t)).getD m'.title }
      let displayA ← Arena.cleaned ((display.a.map fun v => cleanDisplay v m.tournament.isNone).getD
        (.ok m.displayNames.a))
      let displayB ← Arena.cleaned ((display.b.map fun v => cleanDisplay v m.tournament.isNone).getD
        (.ok m.displayNames.b))
      let m := { m with displayNames := ⟨displayA, displayB⟩ }.bump
      Arena.saveMatch m
      logMatch .update actor m : ArenaM Unit) fun _ => True := by
    refine fun m' hm' => (Steps.cleaned hR).bind fun _ _ => (Steps.cleaned hR).bind fun _ _ => ?_
    refine (k.saveMatch ?_).bind fun _ _ => k.log _ _ _ _
    exact k.bump (k.edited hm' rfl rfl)
  -- the row with another length, and then with other rules
  have hrules : ∀ m' : Match, Own m' → ∀ rules, Own { m' with rules } := fun m' hm' _ => k.edited hm' rfl rfl
  cases bestOf with
  | none =>
      cases rules with
      | none => exact hsave m hm
      | some rules => exact (Steps.cleaned hR).bind fun rules _ => hsave _ (hrules m hm rules)
  | some bestOf =>
      refine (Steps.cleaned hR).bind fun bestOf _ => (Steps.refuseIf hR).bind fun _ _ => ?_
      have hlength : Own { m with bestOf } := k.edited hm rfl rfl
      cases rules with
      | none => exact hsave _ hlength
      | some rules => exact (Steps.cleaned hR).bind fun rules _ => hsave _ (hrules _ hlength rules)

theorem fillMatch : Txn.Triple P (fillMatch site actor id) (fun _ => R) fun _ => R := by
  refine k.still fun k hR hm => .ite (fun _ => .done _) fun _ => (k.ensureNextGame hm).bind fun _ hr => ?_
  refine (k.fillFromBank hr).bind fun _ hr => .ite (fun _ => ?_) fun _ => .done _
  exact (k.saveMatch (k.bump hr)).bind fun _ _ => .done _

theorem setMatchRanking {value : Ranking} : Txn.Triple P (setMatchRanking actor id value) (fun _ => R) fun _ => R := by
  refine k.still fun k hR hm => (Steps.refuseIf hR).bind fun _ _ => .ite (fun _ => ?_) fun _ => .done _
  refine (k.saveMatch ?_).bind fun _ _ => (k.log _ _ _ _).bind fun _ _ => k.onCommit _
  exact k.edited hm rfl rfl

theorem replacePlayer (hstay : ∀ s, P s → R s) {profile : Option ProfileId} {display : String} :
    Txn.Triple P (replacePlayer site actor id slot profile display version) (fun _ => R) fun _ => R := by
  cases profile with
  | none => exact Txn.Triple.refused _ hstay
  | some profile =>
      refine k.still fun {Own I m} k hR hm => (Steps.checkVersion hR).bind fun _ _ => (Steps.refuseIf hR).bind fun _ _ => ?_
      refine (Steps.refuseIf hR).bind fun _ _ => (Steps.refuseIf hR).bind fun _ _ => (Steps.refuseIf hR).bind fun _ _ => ?_
      refine Steps.tables.bind fun _ _ => (Steps.refuseIf hR).bind fun _ _ => (Steps.cleaned hR).bind fun display _ => ?_
      have hreplaced : Own (m.replace slot profile display) := by
        unfold Match.replace
        dsimp only
        split
        · exact k.bump (k.edited hm rfl rfl)
        · exact k.bump (k.edited hm rfl rfl)
      exact k.closing hreplaced

/-! ## Operations that send players forward -/

theorem tick (hstay : ∀ s, P s → R s) : Txn.Triple P (tick site id game now) (fun _ => R) fun _ => R := by
  refine Txn.Triple.ite (fun _ => Txn.Triple.ret _ hstay) fun _ => ?_
  refine Txn.Triple.ite (fun _ => Txn.Triple.ret _ hstay) fun _ => ?_
  refine k.run fun hwalk hR => Steps.first (Steps.orRefuse hR) fun _ _ => ?_
  exact Sends.last (hwalk.toSending.tickLocked hwalk.mine) fun _ _ => .done _

theorem declareWinner {gameId : GameId} :
    Txn.Triple P (declareWinner site actor id gameId slot version) (fun _ => R) fun _ => R := by
  refine k.run fun hwalk hR => Steps.first (Steps.checkVersion hR) fun _ _ => ?_
  refine Steps.first (Steps.orRefuse hR) fun _ _ => Steps.first (Steps.refuseIf hR) fun _ _ => ?_
  refine Steps.first (Steps.refuseIf hR) fun _ _ => Steps.first (Steps.refuseIf hR) fun _ _ => ?_
  exact Sends.last (hwalk.toSending.finish hwalk.mine) fun _ _ => .done _

theorem finalizeVerification {gameId : GameId} :
    Txn.Triple P (finalizeVerification site actor id gameId version) (fun _ => R) fun _ => R := by
  refine k.run fun hwalk hR => Steps.first (Steps.checkVersion hR) fun _ _ => ?_
  refine Steps.first (Steps.refuseIf hR) fun _ _ => Steps.first (Steps.orRefuse hR) fun _ _ => ?_
  refine Steps.first (Steps.refuseIf hR) fun _ _ => ?_
  dsimp only
  split
  · exact Sends.last (hwalk.toSending.finish hwalk.mine) fun _ _ => hwalk.after.log _ _ _ _
  · exact Sends.last (hwalk.toSending.still (hwalk.before.tieGame hwalk.mine)) fun _ _ => hwalk.after.log _ _ _ _

theorem walkover : Txn.Triple P (walkover site actor id slot version) (fun _ => R) fun _ => R := by
  refine k.run fun {Own I J m} hwalk hR => Steps.first (Steps.checkVersion hR) fun _ _ => ?_
  refine Steps.first (Steps.refuseIf hR) fun _ _ => Steps.first (Steps.refuseIf hR) fun _ _ => ?_
  have hvoided : ∀ f, Own (m.voidGames site.now f) := fun _ => hwalk.before.edited hwalk.mine rfl rfl
  exact Sends.last (hwalk.toSending.decideMatch (by decide) (hvoided _)) fun _ _ => .done _

theorem setWinner : Txn.Triple P (setWinner site actor id slot version) (fun _ => R) fun _ => R := by
  refine k.run fun {Own I J m} hwalk hR => Steps.first (Steps.checkVersion hR) fun _ _ => ?_
  have hsteady := hwalk.before
  refine Steps.first (hsteady.orRefuse (by decide)) fun t ht => Steps.first (Steps.refuseIf hR) fun _ _ => ?_
  refine Steps.first (Steps.refuseIf hR) fun _ _ => Steps.first .tables fun _ _ => ?_
  refine Steps.first (Steps.refuseIf hR) fun _ _ => Steps.first (Steps.refuseIf hR) fun _ _ => ?_
  have hcorrected : Own (m.correct slot site.now) := by
    refine hsteady.own hwalk.mine rfl fun hr => ?_
    unfold Match.correct at hr
    rw [Match.bump_decidedReason] at hr
    dsimp only at hr
    split at hr <;> cases hr
  refine Steps.first (hsteady.saveMatch hcorrected) fun _ _ => ?_
  refine Steps.first (hsteady.reopen (hwalk.relocked t ht)) fun _ _ => ?_
  refine Sends.last (hwalk.toSending.sends hcorrected) fun _ _ => ?_
  exact (hwalk.after.log _ _ _ _).bind fun _ _ => hwalk.after.afterDecided.bind fun _ _ => hwalk.after.onCommit _

theorem submit (hstay : ∀ s, P s → R s) {profile : ProfileId} {superuser : Bool} {gameId : GameId} {order : ℕ}
    {language source : String} :
    Txn.Triple P (submit site profile superuser id gameId order language source) (fun _ => R) fun _ => R := by
  have hearly : ∀ {c : Prop} [Decidable c] {e : ArenaError} {f : Unit → ArenaM Unit},
      Txn.Triple P (f ()) (fun _ => R) (fun _ => R) → Txn.Triple P (refuseIf c e >>= f) (fun _ => R) fun _ => R :=
    fun h => Txn.Triple.bind (Q := fun _ => P) (Txn.Triple.ite (fun _ => Txn.Triple.refused _ hstay) fun _ =>
      Txn.Triple.ret _ fun _ hs => hs) fun _ => h
  refine hearly (hearly (k.run fun hwalk hR => Steps.first (Steps.orRefuse hR) fun _ _ => ?_))
  refine Steps.first (Steps.orRefuse hR) fun _ _ => Sends.last (hwalk.toSending.tickLocked hwalk.mine) fun m' hm' => ?_
  have hR' := hwalk.ends
  refine (Steps.orRefuse hR').bind fun _ _ => (Steps.refuseIf hR').bind fun _ _ => (Steps.refuseIf hR').bind fun _ _ => ?_
  refine (Steps.orRefuse hR').bind fun _ _ => (Steps.refuseIf hR').bind fun _ _ => (Steps.refuseIf hR').bind fun _ _ => ?_
  refine (Steps.orRefuse hR').bind fun _ _ => (Steps.refuseIf hR').bind fun _ _ => (Steps.refuseIf hR').bind fun _ _ => ?_
  refine hwalk.after.freshId.bind fun _ _ => hwalk.after.saveMatch ?_
  exact hwalk.after.edited hm' rfl rfl

/-- Whatever an organizer does to a match. -/
theorem action (hstay : ∀ s, P s → R s) {actor : ProfileId} (action : MatchAction) :
    Txn.Triple P (action.run site actor id version) (fun _ => R) fun _ => R := by
  cases action with
  | call => exact k.callMatch
  | start game force => exact k.startGame.discard
  | extend game minutes => exact k.extendGame
  | cancelGame game => exact k.cancelGame
  | declare game slot => exact k.declareWinner
  | finalize game => exact k.finalizeVerification
  | walkover slot => exact k.walkover
  | setWinner slot => exact k.setWinner
  | cancel => exact k.cancelMatch
  | problems game entries number => exact k.setGameProblems
  | addGame => exact k.addGame
  | update bestOf rules title display => exact k.updateMatch
  | replace slot profile display => exact k.replacePlayer hstay

end Opens

end
end Arena
end CpcJudge
