import CpcJudge.Arena.Told

/-!
# `Arena.Hooks` — what every operation schedules

Operation by operation: the list of battles stays as it was, or `recompute` is left for after the commit.
-/

namespace CpcJudge
namespace Arena

open Scoring (Attempt Decision Reason Summary)

section
variable {α : Type} {P : Txn → Prop} {Q : α → Txn → Prop} {I : Db → Prop} {ref : Db} {m m' : Match} {site : Site}
  {actor : Option ProfileId} {now : Time} {C : Prop} {id : MatchId} {version : Option ℤ} {game : Game}

/-! ## The end of a game -/

theorem Game.settle_started {status : GameStatus} {result : Pair Summary} :
    (game.settle status result now).started = game.started := Game.closeContest_contest _ _

theorem finish_ends {slot : Slot} {reason : Reason} {result : Pair Summary} (hgoing : m.isOver = false)
    (hstarted : game.started = true) :
    Ends (Told (Keeping ref (Going ref m))) (finish site actor m game slot reason result now) fun m' =>
      Told (Keeping ref (Same ref m')) := by
  simp only [finish]
  have hwon : Going ref m → Going ref (((m.setGame (game.finish slot reason result now actor)).win slot).bump
      actor.isNone) := fun h => by
    have hset : Going ref (m.setGame (game.finish slot reason result now actor)) :=
      h.setGame fun _ => Game.settle_started.trans hstarted
    have hwin : Going ref ((m.setGame (game.finish slot reason result now actor)).win slot) :=
      hset.to rfl hset.undecided (hset.same.played.of_games rfl)
    exact hwin.bump _
  rw [if_neg (by rw [show Match.isOver (m.setGame _) = m.isOver from rfl, hgoing]; simp)]
  generalize Match.bump _ _ = m1 at hwon ⊢
  refine (saveMatch_ends fun h => (hwon h).same).bind fun _ => (logMatch_ends _ _ _ _).bind fun _ => ?_
  refine Ends.given ?_ hwon
  refine Ends.ite (fun _ => decideMatch_ends) fun _ => ?_
  exact nextGameFromBank_ends.bind fun _ => Ends.refreshLock.bind fun _ => ret_ends _ Going.same

theorem tieGame_ends {result : Pair Summary} (hgoing : m.isOver = false) (hstarted : game.started = true) :
    Ends (Told (Keeping ref (Going ref m))) (tieGame site actor m game result now) fun m' =>
      Told (Keeping ref (Same ref m')) := by
  simp only [tieGame]
  have htied : Going ref m → Going ref ((m.setGame (game.settle .tie result now)).bump actor.isNone) := fun h => by
    have hset : Going ref (m.setGame (game.settle .tie result now)) :=
      h.setGame fun _ => Game.settle_started.trans hstarted
    exact hset.bump _
  have hover : ((m.setGame (game.settle .tie result now)).bump actor.isNone).isOver = false := by
    rw [bump_eq]
    exact hgoing
  generalize Match.bump _ _ = m1 at htied hover ⊢
  refine (saveMatch_ends fun h => (htied h).same).bind fun _ => (logMatch_ends _ _ _ _).bind fun _ => ?_
  rw [if_neg (by rw [hover]; simp)]
  refine Ends.given ?_ htied
  exact nextGameFromBank_ends.bind fun _ => Ends.refreshLock.bind fun _ => ret_ends _ Going.same

theorem verify_started : (game.verify now).started = game.started := Game.closeContest_contest _ _

theorem tickLocked_ends (hgoing : game.status.active = true → m.isOver = false)
    (hstarted : game.status.active = true → game.started = true) :
    Ends (Told (Keeping ref (Same ref m))) (tickLocked site m game now) fun m' =>
      Told (Keeping ref (Same ref m')) := by
  unfold tickLocked
  cases hdecision : evaluate game now with
  | none => exact ret_ends _ fun h => h
  | some decision =>
      have hactive := evaluate_active hdecision
      have hover := hgoing hactive
      have hstart := hstarted hactive
      have hundecided : Same ref m → Going ref m := fun h => by
        refine ⟨h, fun hdecided => ?_⟩
        rw [Match.isOver, hdecided] at hover
        cases hover
      refine Ends.ite (fun _ => ret_ends _ fun h => h) fun _ => ?_
      have hset : ∀ {g : Game}, (g.status ≠ .prepared → g.started = true) → Ends (Told (Keeping ref (Same ref m)))
          (saveMatch (m.setGame g)) fun _ => Told (Keeping ref (Same ref m)) := fun hg =>
        saveMatch_ends fun h => ((hundecided h).setGame hg).same
      unfold applyDecision
      split
      · exact ret_ends _ fun h => h
      · refine Ends.ite (fun _ => ret_ends _ fun h => h) fun _ => ?_
        have hlive : ({ game with status := .live } : Game).status ≠ .prepared →
            ({ game with status := .live } : Game).started = true := fun _ => hstart
        exact (hset hlive).bind fun _ => ret_ends _ fun h => ((hundecided h).setGame hlive).same
      · refine Ends.ite (fun _ => ret_ends _ fun h => h) fun _ => ?_
        have hverified : (game.verify now).status ≠ .prepared → (game.verify now).started = true := fun _ =>
          verify_started.trans hstart
        exact (hset hverified).bind fun _ => (logMatch_ends _ _ _ _).bind fun _ =>
          ret_ends _ fun h => ((hundecided h).setGame hverified).same
      · split
        · exact (finish_ends hover hstart).given hundecided
        · exact ret_ends _ fun h => h
      · exact (tieGame_ends hover hstart).given hundecided

/-! ## Operations on one match -/

theorem requireRunning_ends {f : Unit → ArenaM α} (h : Ends (Told I) (f ()) Q) :
    Ends (Told I) (requireRunningTournament m >>= f) Q := by
  unfold requireRunningTournament
  rw [bind_assoc]
  exact Ends.tables.bind fun db => Ends.refuseIf fun _ => h.of_pre fun _ => Told.mono fun _ hs => hs.1

theorem refuseBusy_ends {slot : Slot} {f : Unit → ArenaM α} (h : Ends (Told I) (f ()) Q) :
    Ends (Told I) (refuseBusy site m slot >>= f) Q := by
  unfold refuseBusy
  rw [bind_assoc]
  exact Ends.tables.bind fun db => Ends.refuseIf fun _ => h.of_pre fun _ => Told.mono fun _ hs => hs.1

theorem gameOf_ends {gameId : GameId} {f : Game → ArenaM α}
    (h : ∀ game, m.games.get? game.id = some game → Ends P (f game) Q) : Ends P (gameOf m gameId >>= f) Q :=
  Ends.orRefuse fun game hgame => h game (by rwa [show game.id = gameId from Table.key_of_get? hgame])

/-- The row of the first lock. -/
theorem first_ends {f : Match → ArenaM α} (hdb : WellFormed ref)
    (h : ∀ m, m.Sound → Same ref m → Ends (Told (Keeping ref True)) (f m) Q) :
    Ends (·.db = ref) (lockMatch id >>= f) Q :=
  Ends.lockMatch_first ⟨.refl hdb, trivial⟩ fun m hm =>
    h m (hdb.sound m (Table.mem_of_get? hm)) ((Tallies.refl hdb).same hm)

theorem Same.toGoing (h : Same ref m) (hover : ¬ m.isOver = true) : Going ref m :=
  ⟨h, fun hdecided => hover (by simp [Match.isOver, hdecided])⟩

theorem callMatch_ends (hdb : WellFormed ref) :
    Ends (·.db = ref) (callMatch site actor id version) fun _ => Told (Keeping ref True) := by
  refine first_ends hdb fun m _ hm => Ends.checkVersion ?_
  refine Ends.ite (fun _ => ret_ends _ fun h => h) fun _ => Ends.refuseIf fun hready => ?_
  refine requireRunning_ends (refuseBusy_ends (refuseBusy_ends ?_))
  have hgoing : Going ref m := ⟨hm, fun hdecided => hready (.inl (by rw [hdecided]; decide))⟩
  have hcalled : Going ref ({ m with status := .called, calledAt := some site.now } : Match).bump :=
    (hgoing.to rfl (by simp) (hm.played.of_games rfl) : Going ref { m with status := .called, calledAt := some site.now }).bump
  refine (saveMatch_ends fun _ => hcalled.same).bind fun _ => ?_
  refine (nextGameFromBank_ends.given fun _ => hcalled).bind fun _ => ?_
  exact (logMatch_ends _ _ _ _).bind fun _ => Ends.refreshLock.bind fun _ => ret_ends _ fun _ => trivial

theorem newGames_ends : ∀ {count : ℕ} {m : Match}, Ends (Told (Keeping ref (Going ref m))) (newGames m count) fun m' =>
    Told (Keeping ref (Going ref m'))
  | 0, _ => ret_ends _ fun h => h
  | _ + 1, _ => newGame_ends.bind fun _ => newGames_ends.given fun h => h.1

theorem gameNumber_ends {number : ℕ} : Ends (Told (Keeping ref (Going ref m))) (gameNumber m number) fun r =>
    Told (Keeping ref (Going ref r.1)) := by
  refine Ends.refuseIf fun _ => ?_
  cases m.games.rows.find? (·.number = number) with
  | some game => exact ret_ends _ fun h => h
  | none => exact newGames_ends.bind fun m' => Ends.orRefuse fun game _ => ret_ends _ fun h => h

theorem setGameProblems_ends (hdb : WellFormed ref) {gameId : Option GameId} {entries : List Entry}
    {number : Option ℕ} : Ends (·.db = ref) (setGameProblems site actor id gameId entries version number) fun _ =>
      Told (Keeping ref True) := by
  refine first_ends hdb fun m _ hm => Ends.checkVersion (Ends.refuseIf fun hover => ?_)
  have hrest : ∀ r : Match × Game, Ends (Told (Keeping ref (Going ref r.1))) (do
        refuseIf (r.2.status ≠ .prepared) ⟨"The problems of a game cannot change once it has started.", 400⟩
        let problems ← cleaned (cleanProblemList site actor entries (problemsUsedInMatch r.1 (some r.2.id))
          (r.2.problems.map fun gp => gp.problem))
        saveMatch ((r.1.setGame { r.2 with problems }).bump)
        logMatch .problems actor ((r.1.setGame { r.2 with problems }).bump) r.2.id : ArenaM Unit) fun _ =>
      Told (Keeping ref True) := fun r => by
    refine Ends.refuseIf fun hprepared => Ends.cleaned fun problems => ?_
    have hset : Going ref r.1 → Going ref (r.1.setGame { r.2 with problems }).bump := fun h => by
      have hset : Going ref (r.1.setGame { r.2 with problems }) := h.setGame fun hne => absurd hne hprepared
      exact hset.bump
    refine (saveMatch_ends fun h => (hset h).same).bind fun _ => ?_
    exact ((logMatch_ends (C := True) _ _ _ _).given fun _ => trivial)
  have hgoing := hm.toGoing hover
  cases gameId with
  | some gameId => exact gameOf_ends fun game _ => (hrest (m, game)).given fun _ => hgoing
  | none =>
      cases number with
      | some number => exact (gameNumber_ends.given fun _ => hgoing).bind hrest
      | none => exact (ensureNextGame_ends.given fun _ => hgoing).bind fun r => (hrest r).given fun h => h.1

theorem addGame_ends (hdb : WellFormed ref) :
    Ends (·.db = ref) (addGame id version) fun _ => Told (Keeping ref True) := by
  refine first_ends hdb fun m _ hm => Ends.checkVersion (Ends.refuseIf fun hover => ?_)
  refine (ensureNextGame_ends.given fun _ => hm.toGoing hover).bind fun r => ?_
  refine ((saveMatch_ends (C := Going ref r.1) fun h => h.bump.same).given fun h => h.1).weaken ?_
  exact fun _ _ => Told.mono fun _ hs => ⟨hs.1, trivial⟩

theorem startGame_ends (hdb : WellFormed ref) {gameId : Option GameId} {force : Bool} :
    Ends (·.db = ref) (startGame site actor id gameId force version) fun _ => Told (Keeping ref True) := by
  refine first_ends hdb fun m _ hm => Ends.checkVersion (Ends.refuseIf fun hstatus => Ends.refuseIf fun _ => ?_)
  refine requireRunning_ends (Ends.refuseIf fun _ => Ends.orRefuse fun game _ => ?_)
  refine refuseBusy_ends (refuseBusy_ends ?_)
  have hgoing : Going ref m := ⟨hm, fun hdecided => hstatus (by simp [hdecided])⟩
  refine ((fillFromBank_ends false game).given fun _ => hgoing).bind fun r => ?_
  refine gameOf_ends fun game _ => Ends.refuseIf fun _ => Ends.tables.bind fun db => ?_
  refine Ends.told (J := Keeping ref (Going ref r.1)) ?_ fun _ hs => hs.1
  refine Ends.refuseIf fun _ => Ends.ite (fun _ => ret_ends _ fun _ => trivial) fun _ => ?_
  dsimp only
  generalize hm2 : Match.bump _ = m2
  have hlaunched : Going ref r.1 → Going ref m2 := fun h => by
    have hset : Going ref (r.1.setGame (game.launch (matchRules db r.1) site.now)) := h.setGame fun _ => rfl
    rw [← hm2]
    refine Going.bump ?_
    split
    · exact hset
    · exact hset.to rfl (by simp) (hset.same.played.of_games rfl)
  refine (saveMatch_ends fun h => (hlaunched h).same).bind fun _ => (logMatch_ends _ _ _ _).bind fun _ => ?_
  exact Ends.refreshLock.bind fun _ => ret_ends _ fun _ => trivial

/-- A match still going, saved once. -/
theorem saved_ends {action : ActionName} {gameId : Option GameId} (h : Going ref m) :
    Ends (Told (Keeping ref True)) (do saveMatch m; logMatch action actor m gameId; refreshLockOnCommit) fun _ =>
      Told (Keeping ref True) :=
  (saveMatch_ends fun _ => h.same).bind fun _ => (logMatch_ends _ _ _ _).bind fun _ => Ends.refreshLock

theorem extendGame_ends (hdb : WellFormed ref) {gameId : GameId} {more : ℤ} :
    Ends (·.db = ref) (extendGame actor id gameId more version) fun _ => Told (Keeping ref True) := by
  refine first_ends hdb fun m _ hm => Ends.checkVersion (Ends.refuseIf fun hover => ?_)
  refine gameOf_ends fun game hgame => Ends.refuseIf fun _ => Ends.refuseIf fun _ => Ends.refuseIf fun _ => ?_
  refine saved_ends (((hm.toGoing hover).setGame fun hprepared => ?_).bump)
  have hstarted : game.started = true := hm.played game (Table.mem_of_get? hgame) hprepared
  exact Option.isSome_map.trans hstarted

theorem cancelGame_ends (hdb : WellFormed ref) {gameId : GameId} :
    Ends (·.db = ref) (cancelGame site actor id gameId version) fun _ => Told (Keeping ref True) := by
  refine first_ends hdb fun m _ hm => Ends.checkVersion (Ends.refuseIf fun hover => ?_)
  refine gameOf_ends fun game hgame => Ends.refuseIf fun hplayed => ?_
  unfold refuseWhileAnotherRuns
  refine Ends.refuseIf fun _ => ?_
  have hne : game.status ≠ .prepared := fun heq => hplayed (by simp [heq, GameStatus.active])
  have hstarted : ({ game.void site.now with decidedBy := actor } : Game).started = true :=
    (Game.closeContest_contest _ _).trans (hm.played game (Table.mem_of_get? hgame) hne)
  have hvoided : Going ref (m.setGame { game.void site.now with decidedBy := actor }).bump :=
    Going.bump ((hm.toGoing hover).setGame fun _ => hstarted)
  refine (saveMatch_ends fun _ => hvoided.same).bind fun _ => (logMatch_ends _ _ _ _).bind fun _ => ?_
  refine Ends.ite (fun _ => ?_) fun _ => Ends.refreshLock
  exact (nextGameFromBank_ends.given fun _ => hvoided).bind fun _ => Ends.given Ends.refreshLock fun _ => trivial

/-- What is known of a row is forgotten at the end. -/
theorem forget_ends {x : ArenaM α} {D : α → Prop} (h : Ends (Told (Keeping ref C)) x fun a => Told (Keeping ref (D a))) :
    Ends (Told (Keeping ref C)) x fun _ => Told (Keeping ref True) :=
  h.weaken fun _ _ => Told.mono fun _ hs => ⟨hs.1, trivial⟩

theorem declareWinner_ends (hdb : WellFormed ref) {gameId : GameId} {slot : Slot} :
    Ends (·.db = ref) (declareWinner site actor id gameId slot version) fun _ => Told (Keeping ref True) := by
  refine first_ends hdb fun m _ hm => Ends.checkVersion (gameOf_ends fun game hgame => ?_)
  refine Ends.refuseIf fun hplayed => Ends.refuseIf fun hplaying => ?_
  unfold refuseWhileAnotherRuns
  refine Ends.refuseIf fun _ => ?_
  rw [not_not] at hplaying
  have hne : game.status ≠ .prepared := fun heq => hplayed (by simp [heq, GameStatus.active])
  have hstarted : game.started = true := hm.played game (Table.mem_of_get? hgame) hne
  have hover : m.isOver = false := by simp [Match.isOver, hplaying]
  refine Ends.bind ((forget_ends (finish_ends hover ?_)).given fun _ => hm.toGoing (by simp [hover])) fun _ =>
    ret_ends _ fun _ => trivial
  split
  · exact hstarted
  · exact hstarted

theorem finalizeVerification_ends (hdb : WellFormed ref) {gameId : GameId} :
    Ends (·.db = ref) (finalizeVerification site actor id gameId version) fun _ => Told (Keeping ref True) := by
  refine first_ends hdb fun m _ hm => Ends.checkVersion (Ends.refuseIf fun hover => gameOf_ends fun game hgame => ?_)
  refine Ends.refuseIf fun hverifying => ?_
  rw [not_not] at hverifying
  have hstarted : game.started = true := hm.played game (Table.mem_of_get? hgame) (by rw [hverifying]; decide)
  have hgoing := hm.toGoing hover
  have hover : m.isOver = false := Bool.eq_false_iff.mpr hover
  dsimp only
  split
  · exact Ends.bind ((forget_ends (finish_ends hover hstarted)).given fun _ => hgoing) fun _ => logMatch_ends _ _ _ _
  · exact Ends.bind ((forget_ends (tieGame_ends hover hstarted)).given fun _ => hgoing) fun _ => logMatch_ends _ _ _ _

theorem walkover_ends (hdb : WellFormed ref) {slot : Slot} :
    Ends (·.db = ref) (walkover site actor id slot version) fun _ => Told (Keeping ref True) := by
  refine first_ends hdb fun m _ hm => Ends.checkVersion (Ends.refuseIf fun hover => Ends.refuseIf fun _ => ?_)
  have hvoided : Going ref (m.voidGames site.now fun _ => actor) :=
    (hm.toGoing hover).games (hm.played.voidGames _ _)
  exact Ends.bind ((forget_ends decideMatch_ends).given fun _ => hvoided) fun _ => ret_ends _ fun _ => trivial

theorem cancelMatch_ends (hdb : WellFormed ref) :
    Ends (·.db = ref) (cancelMatch site actor id version) fun _ => Told (Keeping ref True) := by
  refine first_ends hdb fun m _ hm => Ends.checkVersion (Ends.refuseIf fun _ => Ends.refuseIf fun hover => ?_)
  have hvoided : Going ref (m.voidGames site.now (·.decidedBy)) := (hm.toGoing hover).games (hm.played.voidGames _ _)
  have hdropped : Going ref (m.voidGames site.now (·.decidedBy)).dropUnplayed := hvoided.games hvoided.same.played.dropUnplayed
  have hdrop : Ends (Told (Keeping ref True)) (dropUnplayed (m.voidGames site.now (·.decidedBy))) fun m' =>
      Told (Keeping ref (Going ref m')) := by
    refine (Ends.write (J := Keeping ref True) fun _ hs => ⟨hs.1.congr rfl rfl, hs.2⟩).bind fun _ => ?_
    exact (saveMatch_ends fun _ => hdropped.same).bind fun _ => ret_ends _ fun _ => hdropped
  refine hdrop.bind fun m' => ?_
  have hcancelled : Going ref m' →
      Going ref ({ m' with status := .cancelled, decidedAt := some site.now } : Match).bump := fun h =>
    (h.to rfl (by simp) (h.same.played.of_games rfl) :
      Going ref { m' with status := .cancelled, decidedAt := some site.now }).bump
  exact forget_ends (D := fun _ => Going ref m') ((saveMatch_ends fun h => (hcancelled h).same).bind fun _ =>
    (logMatch_ends _ _ _ _).bind fun _ => Ends.refreshLock)

theorem updateMatch_ends (hdb : WellFormed ref) {bestOf : Option ℕ} {rules : Option Rules} {title : Option String}
    {display : Pair (Option String)} :
    Ends (·.db = ref) (updateMatch actor id version bestOf rules title display) fun _ => Told (Keeping ref True) := by
  refine first_ends hdb fun m _ hm => Ends.checkVersion (Ends.refuseIf fun hover => ?_)
  have hgoing := hm.toGoing hover
  have hsave : ∀ m' : Match, Going ref m' → Ends (Told (Keeping ref True)) (do
      let m := { m' with title := (title.map fun t => cut 100 (strip t)).getD m'.title }
      let displayA ← cleaned ((display.a.map fun v => cleanDisplay v m.tournament.isNone).getD (.ok m.displayNames.a))
      let displayB ← cleaned ((display.b.map fun v => cleanDisplay v m.tournament.isNone).getD (.ok m.displayNames.b))
      let m := { m with displayNames := ⟨displayA, displayB⟩ }.bump
      saveMatch m
      logMatch .update actor m : ArenaM Unit) fun _ => Told (Keeping ref True) := by
    intro m' h
    refine Ends.cleaned fun displayA => Ends.cleaned fun displayB => ?_
    refine (saveMatch_ends fun _ => (Going.bump ?_).same).bind fun _ => logMatch_ends _ _ _ _
    exact h.to rfl h.undecided (h.same.played.of_games rfl)
  have hrules : ∀ {m' : Match} {rules : Rules}, Going ref m' → Going ref { m' with rules } := fun h =>
    h.to rfl h.undecided (h.same.played.of_games rfl)
  -- the row with another length, and then with other rules
  cases bestOf with
  | none =>
      cases rules with
      | none => exact hsave m hgoing
      | some rules => exact Ends.cleaned fun rules => hsave _ (hrules hgoing)
  | some bestOf =>
      refine Ends.cleaned fun bestOf => Ends.refuseIf fun _ => ?_
      have hlength : Going ref { m with bestOf } := hgoing.to rfl hgoing.undecided (hm.played.of_games rfl)
      cases rules with
      | none => exact hsave _ hlength
      | some rules => exact Ends.cleaned fun rules => hsave _ (hrules hlength)

theorem replacePlayer_ends (hdb : WellFormed ref) {slot : Slot} {profile : Option ProfileId} {display : String} :
    Ends (·.db = ref) (replacePlayer site actor id slot profile display version) fun _ =>
      Told (Keeping ref True) := by
  refine Ends.orRefuse fun profile _ => first_ends hdb fun m _ hm => Ends.checkVersion (Ends.refuseIf fun hover => ?_)
  refine Ends.refuseIf fun _ => Ends.refuseIf fun _ => Ends.refuseIf fun _ => Ends.tables.bind fun db => ?_
  refine Ends.told (J := Keeping ref True) ?_ fun _ hs => hs.1
  refine Ends.refuseIf fun _ => Ends.cleaned fun display => saved_ends ?_
  obtain ⟨status, heq, hstatus⟩ := m.replace_eq slot profile display
  have hgoing := hm.toGoing hover
  rw [heq]
  refine hgoing.to rfl (fun hdecided => ?_) (hm.played.of_games rfl)
  rcases hstatus with rfl | ⟨_, rfl⟩
  · exact hgoing.undecided hdecided
  · cases hdecided

theorem tick_ends (hdb : WellFormed ref) : Ends (·.db = ref) (tick site id game now) fun _ =>
    Told (Keeping ref True) := by
  have hkept : ∀ s : Txn, s.db = ref → Told (Keeping ref True) s := fun s hs => by
    refine .inl ⟨?_, trivial⟩
    rw [hs]
    exact .refl hdb
  refine Ends.ite (fun _ => Ends.done _ hkept) fun _ => Ends.ite (fun _ => Ends.done _ hkept) fun _ => ?_
  refine first_ends hdb fun m hsound hm => gameOf_ends fun game hgame => ?_
  have htick : Ends (Told (Keeping ref (Same ref m))) (tickLocked site m game now) fun m' => Told (Keeping ref (Same ref m')) :=
    tickLocked_ends (hsound.going_of_active hgame) fun hactive =>
      hm.played game (Table.mem_of_get? hgame) fun hprepared => by simp [hprepared, GameStatus.active] at hactive
  exact Ends.bind ((forget_ends htick).given fun _ => hm) fun _ => ret_ends _ fun _ => trivial

/-! ## Submissions, verdicts and new battles -/

/-- A game of any match saved without touching what counts of it. -/
theorem Same.setGame {g g' : Game} (h : Same ref m) (hget : m.games.get? g.id = some g) (hid : g'.id = g.id)
    (hcounted : g'.counted = g.counted) (hplayed : g'.status ≠ .prepared → g'.started = true) :
    Same ref (m.setGame g') := by
  have hbattle : battleOf ref (m.setGame g') = battleOf ref m :=
    battleOf_same rfl rfl rfl rfl rfl rfl rfl (counted_setGame hget hid hcounted)
  exact ⟨hbattle.trans h.battle, h.played.setGame hplayed⟩

theorem submit_ends (hdb : WellFormed ref) {profile : ProfileId} {superuser : Bool} {gameId : GameId} {order : ℕ}
    {language source : String} :
    Ends (·.db = ref) (submit site profile superuser id gameId order language source) fun _ =>
      Told (Keeping ref True) := by
  refine Ends.refuseIf fun _ => Ends.refuseIf fun _ => first_ends hdb fun m hsound hm => ?_
  refine gameOf_ends fun game hgame => Ends.orRefuse fun slot _ => ?_
  have htick : Ends (Told (Keeping ref (Same ref m))) (tickLocked site m game site.now) fun m' =>
      Told (Keeping ref (Same ref m')) :=
    tickLocked_ends (hsound.going_of_active hgame) fun hactive =>
      hm.played game (Table.mem_of_get? hgame) fun hprepared => by simp [hprepared, GameStatus.active] at hactive
  refine (htick.given fun _ => hm).bind fun m' => gameOf_ends fun game' hgame' => ?_
  refine Ends.refuseIf fun hopen => Ends.refuseIf fun _ => Ends.orRefuse fun gp _ => Ends.refuseIf fun _ => ?_
  refine Ends.refuseIf fun _ => Ends.orRefuse fun contest _ => Ends.refuseIf fun _ => Ends.refuseIf fun _ => ?_
  refine ((Tallies.forward _).freshId).bind fun attempt => forget_ends (saveMatch_ends fun h => ?_)
  have hopened : game'.status ≠ .finished := fun heq => hopen (.inl (by rw [heq]; rfl))
  refine h.setGame hgame' rfl ?_ fun _ => rfl
  exact (Game.counted_of_ne hopened).trans (Game.counted_of_ne hopened).symm

theorem tables_first {f : Db → ArenaM α} (h : Ends (·.db = ref) (f ref) Q) : Ends (·.db = ref) (tables >>= f) Q := by
  refine Ends.bind (R := fun db s => db = ref ∧ s.db = ref) ?_ fun db => Ends.assume fun hdb => ?_
  · refine ⟨fun s db t hs hrun => ?_⟩
    obtain ⟨rfl, rfl⟩ := tables_ok.mp hrun
    exact ⟨hs, hs⟩
  · subst hdb
    exact h

theorem judge_ends (hdb : WellFormed ref) {gameId : GameId} {attempts : Pair (List Attempt)} :
    Ends (·.db = ref) (judge id gameId attempts) fun _ => Told (Keeping ref True) := by
  refine tables_first (Ends.orRefuse fun m hm => gameOf_ends fun game hgame => Ends.refuseIf fun _ => ?_)
  have hsame := (Tallies.refl hdb).same hm
  refine (saveMatch_ends fun _ => ?_).of_pre fun s hs => .inl ⟨by rw [show s.db = ref from hs]; exact .refl hdb, trivial⟩
  refine hsame.setGame hgame rfl rfl fun hprepared => ?_
  exact Option.isSome_map.trans (hsame.played game (Table.mem_of_get? hgame) hprepared)

theorem addGames_ends : ∀ {list : List (List GameProblem)} {m : Match} {number : ℕ},
    Ends (Told (Keeping ref (Going ref m))) (addGames m number list) fun m' => Told (Keeping ref (Going ref m'))
  | [], _, _ => ret_ends _ fun h => h
  | _ :: _, _, _ => by
    refine Ends.bind (Tallies.forward _).freshId fun id => ?_
    refine (saveMatch_ends fun h => (h.games (h.same.played.add rfl)).same).bind fun _ => ?_
    exact addGames_ends.given fun h => h.games (h.same.played.add rfl)

/-- Tables other than those of matches and tournaments written. -/
theorem write_ends {f : Db → Db} (hbattles : ∀ db, (f db).battles = db.battles)
    (htournaments : ∀ db, (f db).tournaments = db.tournaments) :
    Ends (Told (Keeping ref C)) (write f) fun _ => Told (Keeping ref C) :=
  Ends.write fun db hs => ⟨hs.1.congr (hbattles db) (htournaments db), hs.2⟩

theorem ensureDefaultScreen_ends : Ends (Told (Keeping ref C)) (ensureDefaultScreen site actor) fun _ =>
    Told (Keeping ref C) := by
  refine Ends.tables.bind fun db => Ends.told (J := Keeping ref C) ?_ fun _ hs => hs.1
  refine Ends.ite (fun _ => Ends.ret _ fun _ h => h) fun _ => ?_
  exact ((Tallies.forward _).freshId).bind fun _ => write_ends (fun _ => rfl) fun _ => rfl

theorem lockScreens_ends : ∀ {ids : List ScreenId}, Ends (Told I) (lockScreens ids) fun _ => Told I
  | [] => Ends.ret _ fun _ h => h
  | _ :: _ => (Ends.lock _).bind fun _ => lockScreens_ends

theorem freeScreen_ends : Ends (Told (Keeping ref C)) (freeScreen site actor) fun _ => Told (Keeping ref C) := by
  refine Ends.tables.bind fun db => Ends.told (J := Keeping ref C) ?_ fun _ hs => hs.1
  exact lockScreens_ends.bind fun _ => Ends.ret _ fun _ h => h

theorem freshId_first : Ends (·.db = ref) freshId fun id s =>
    id = ref.nextId ∧ s.db = { ref with nextId := ref.nextId + 1 } := by
  refine ⟨fun s id t hs hrun => ?_⟩
  obtain ⟨rfl, rfl⟩ := freshId_ok.mp hrun
  rw [show s.db = ref from hs]
  exact ⟨rfl, by rw [Txn.wrote_db, show s.db = ref from hs]⟩

theorem createDuel_ends (hdb : WellFormed ref) {players : Pair (Option ProfileId)} {games : List (List Entry)}
    {bestOf : ℕ} {rules : Rules} {display : Pair String} {title : String} {call : Bool} {ranking : Ranking} :
    Ends (·.db = ref) (createDuel site actor players games bestOf rules display title call ranking) fun _ =>
      Told (Keeping ref True) := by
  refine Ends.orRefuse fun a _ => Ends.orRefuse fun b _ => Ends.refuseIf fun _ => Ends.refuseIf fun _ => ?_
  refine Ends.cleaned fun bestOf => Ends.cleaned fun rules => Ends.cleaned fun displayA => ?_
  refine Ends.cleaned fun displayB => tables_first (Ends.refuseIf fun _ => Ends.refuseIf fun _ => ?_)
  refine Ends.refuseIf fun _ => Ends.refuseIf fun _ => Ends.cleaned fun problems => Ends.refuseIf fun _ => ?_
  refine freshId_first.bind fun id => Ends.assume fun hid => ?_
  -- the row is new, so it has no battle in the tables before
  have hadd : ∀ m : Match, m.id = ref.nextId → m.status ≠ .decided → m.Played →
      Ends (·.db = { ref with nextId := ref.nextId + 1 }) (write fun db => { db with battles := db.battles.add m })
        fun _ => Told (Keeping ref (Going ref m)) := by
    intro m hid hundecided hplayed
    have hgoing : Going ref m := by
      refine ⟨⟨?_, hplayed⟩, hundecided⟩
      have hnone : ref.match? m.id = none := by
        rw [Db.match?, Table.get?_eq_none_iff]
        intro x hx hkey
        have hlow := hdb.below x hx
        rw [show x.id = m.id from hkey, hid] at hlow
        exact absurd hlow (lt_irrefl _)
      rw [battleOf_undecided hundecided, tally, hnone]
      rfl
    refine Ends.modified fun s hs => .inl ⟨?_, hgoing⟩
    rw [Txn.wrote_db, show s.db = _ from hs]
    have hnew := (Tallies.refl hdb).foldl_add (l := [m]) fun x hx => by
      rw [List.mem_singleton.mp hx]
      exact ⟨battleOf_undecided hundecided, hplayed⟩
    exact hnew.congr rfl rfl
  refine (hadd _ hid ?_ fun g hg => absurd hg List.not_mem_nil).bind fun _ => addGames_ends.bind fun m' => ?_
  · cases call <;> simp
  refine (logMatch_ends _ _ _ _).bind fun _ => ensureDefaultScreen_ends.bind fun _ => freeScreen_ends.bind fun screen => ?_
  cases screen with
  | none => exact Ends.refreshLock.bind fun _ => ret_ends _ fun _ => trivial
  | some screen =>
      refine Ends.bind (write_ends (fun _ => rfl) fun _ => rfl) fun _ => (logMatch_ends _ _ _ _).bind fun _ => ?_
      exact Ends.refreshLock.bind fun _ => ret_ends _ fun _ => trivial

end

end Arena
end CpcJudge
