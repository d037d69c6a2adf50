import CpcJudge.Arena.Hooks

/-!
# `Arena.Recompute` — the ranking of the duels is never behind

The operations on whole tournaments, on winners and on the ranking itself, and from all of them what holds after every
operation of a run and its hooks: the stored ranking is the one `compute` gives, up to what `_same` lets pass.
-/

namespace CpcJudge
namespace Arena


section
variable {α : Type} {P : Txn → Prop} {Q : α → Txn → Prop} {I : Db → Prop} {ref db : Db} {m m' : Match} {site : Site}
  {actor : Option ProfileId} {now : Time} {C : Prop} {id : MatchId} {version : Option ℤ} {t t' : Tournament}

/-! ## Brackets -/

theorem giveByes_ends : ∀ {ids : List MatchId},
    Ends (Told (Keeping ref True)) (giveByes now ids) fun _ => Told (Keeping ref True)
  | [] => ret_ends _ fun _ => trivial
  | id :: ids => by
    refine Ends.tables.bind fun db => Ends.ite (fun hpending => ?_) fun _ =>
      Ends.told giveByes_ends fun _ hs => hs.1
    -- the match is read again under its lock, still pending
    refine (Ends.lockMatch id).bind fun m => ?_
    have hread : ∀ db', (Keeping ref True db' ∧ db' = db) ∧ db'.match? id = some m →
        Keeping ref (Same ref m ∧ m.status = .pending) db' := by
      rintro db' ⟨⟨h, rfl⟩, hm⟩
      rw [hm, Option.any_some, decide_eq_true_eq] at hpending
      exact ⟨h.1, h.1.same hm, hpending⟩
    refine Ends.told (J := Keeping ref (Same ref m ∧ m.status = .pending)) ?_ hread
    dsimp only
    generalize hm1 : Match.bump _ = m1
    have hgames : m1.games = m.games := by rw [← hm1]; rfl
    have hbye : battleOf ref m1 = none := by
      rw [← hm1]
      exact battleOf_of_not_counts (by simp [countsQ, Match.bump])
    have hsame : Same ref m ∧ m.status = .pending → Same ref m1 := fun h => by
      refine ⟨?_, h.1.played.of_games hgames⟩
      rw [hbye, show m1.id = m.id by rw [← hm1]; rfl, ← h.1.battle, battleOf_undecided (by rw [h.2]; decide)]
    refine (saveMatch_ends hsame).bind fun _ => ((Tallies.forward _).advance now m1).bind fun _ => ?_
    exact giveByes_ends.given fun _ => trivial

theorem restoreGames_ends {chosen : List (Place × List GameProblem)} : ∀ {ids : List MatchId},
    Ends (Told (Keeping ref True)) (restoreGames chosen ids) fun _ => Told (Keeping ref True)
  | [] => ret_ends _ fun _ => trivial
  | id :: ids => by
    refine Ends.tables.bind fun db => ?_
    have hnext : Ends (Told fun db' => Keeping ref True db' ∧ db' = db) (restoreGames chosen ids) fun _ =>
        Told (Keeping ref True) := Ends.told restoreGames_ends fun _ hs => hs.1
    cases hm : db.match? id with
    | none => exact hnext
    | some m =>
        refine Ends.ite (fun _ => hnext) fun hundecided => ?_
        have hread : ∀ db', Keeping ref True db' ∧ db' = db → Keeping ref (Going ref m) db' := by
          rintro db' ⟨h, rfl⟩
          exact ⟨h.1, h.1.same hm, hundecided⟩
        refine Ends.told (J := Keeping ref (Going ref m)) ?_ hread
        exact addGames_ends.bind fun _ => restoreGames_ends.given fun _ => trivial

namespace BracketPlan

/-- No match of a bracket has games when it is drawn. -/
theorem games_of_mem (d : BracketPlan) {m : Match} (h : m ∈ d.allMatches) : m.games = .empty := by
  unfold allMatches at h
  rcases List.mem_append.mp h with h | h
  · obtain ⟨back, _, h⟩ := List.mem_flatMap.mp h
    obtain ⟨position, _, rfl⟩ := List.mem_map.mp h
    split
    · unfold seatPlayers
      dsimp only
      split <;> rfl
    · rfl
  · split at h
    · rw [List.mem_singleton.mp h]
      rfl
    · exact absurd h List.not_mem_nil

end BracketPlan

/-- A tournament that is saved with the ranking it has in `ref`. -/
def Keeps (ref : Db) (t : Tournament) : Prop := (ref.tournament? t.id).map (·.ranking) = some t.ranking

theorem saveTournament_ends (h : Keeps ref t) :
    Ends (Told (Keeping ref C)) (saveTournament t) fun _ => Told (Keeping ref C) :=
  .write fun _ hs => ⟨hs.1.putTournament h, hs.2⟩

theorem logTournament_ends (action : ActionName) (actor : Option ProfileId) (id : TournamentId) :
    Ends (Told (Keeping ref C)) (logTournament action actor id) fun _ => Told (Keeping ref C) :=
  (Tallies.forward C).logTournament action actor id

theorem dropBracket_ends (hunstarted : ¬ (db.battles.rows.any fun m => m.tournament = some id && m.started) = true) :
    Ends (Told fun db' => Keeping ref True db' ∧ db' = db) (write (·.dropBracket id)) fun _ =>
      Told (Keeping ref True) := by
  refine Ends.write fun db' hs => ?_
  obtain ⟨⟨h, _⟩, rfl⟩ := hs
  refine ⟨(h.filter (p := fun m => m.tournament ≠ some id) fun m hm hdropped => ?_).congr rfl rfl, trivial⟩
  refine battleOf_unstarted (h.played m hm) (Bool.eq_false_iff.mpr fun hstarted => hunstarted ?_)
  refine List.any_eq_true.mpr ⟨m, hm, ?_⟩
  simpa [hstarted] using hdropped

theorem buildBracket_ends (ht : Keeps ref t) : Ends (Told (Keeping ref True)) (buildBracket site actor t) fun _ =>
    Told (Keeping ref True) := by
  refine Ends.refuseIf fun _ => Ends.tables.bind fun db => Ends.refuseIf fun hunstarted => ?_
  have hsync : Keeps ref (t.syncRounds t.participants.length) := ht
  refine (dropBracket_ends hunstarted).bind fun _ => (saveTournament_ends hsync).bind fun _ => ?_
  refine Ends.tables.bind fun db => Ends.told (J := Keeping ref True) ?_ fun _ hs => hs.1
  dsimp only
  generalize ({ tournament := _, actor, now := _, base := _, rounds := _, size := _, third := _ } : BracketPlan) = d
  have hadd : Ends (Told (Keeping ref True)) (write fun db =>
      { db with battles := d.allMatches.foldl Table.add db.battles, nextId := db.nextId + d.allMatches.length })
      fun _ => Told (Keeping ref True) := by
    refine Ends.write fun db hs => ⟨(hs.1.foldl_add fun m hm => ?_).congr rfl rfl, trivial⟩
    have hnone : ∀ g ∈ m.games.rows, False := fun g hg => by
      rw [d.games_of_mem hm] at hg
      exact absurd hg List.not_mem_nil
    exact ⟨battleOf_uncounted fun g hg => (hnone g hg).elim, fun g hg => (hnone g hg).elim⟩
  refine hadd.bind fun _ => giveByes_ends.bind fun _ => restoreGames_ends.bind fun _ => ?_
  refine Ends.bind (saveTournament_ends ?_) fun _ => (logTournament_ends _ _ _).bind fun _ =>
    ret_ends _ fun _ => trivial
  exact hsync

/-! ## Operations on a tournament -/

/-- The list of battles is the one of `ref`, or the ranking is going to be worked out again. -/
abbrev Heard (ref : Db) : Txn → Prop := Told fun db => battles db = battles ref

theorem Ends.heard {x : ArenaM α} (h : Ends P x fun _ => Told (Keeping ref True)) : Ends P x fun _ => Heard ref :=
  h.weaken fun _ _ => Told.mono fun _ hs => hs.1.battles_eq

/-- The tournament of the first lock. -/
theorem firstTournament_ends {f : Tournament → ArenaM α} (hdb : WellFormed ref)
    (h : ∀ t, Keeps ref t → Ends (Told (Keeping ref True)) (f t) Q) :
    Ends (·.db = ref) (lockTournament id >>= f) Q :=
  Ends.lockTournament_first ⟨.refl hdb, trivial⟩ fun t ht => h t (by rw [Keeps, ht]; rfl)

/-- A tournament saved once. -/
theorem savedTournament_ends {action : ActionName} {target : TournamentId} (h : Keeps ref t) :
    Ends (Told (Keeping ref True)) (do saveTournament t; logTournament action actor target) fun _ =>
      Told (Keeping ref True) := (saveTournament_ends h).bind fun _ => logTournament_ends _ _ _

theorem updateTournament_ends (hdb : WellFormed ref) {name description : Option String} {rules : Option Rules}
    {bank : Option (Option BankId)} {thirdPlace : Option Bool} {draw : Option Rules.Draw}
    {showInHistory : Option Bool} {plannedAt : Option (Option Time)} :
    Ends (·.db = ref) (updateTournament site actor id version name description rules bank thirdPlace draw
      showInHistory plannedAt) fun _ => Told (Keeping ref True) := by
  refine firstTournament_ends hdb fun t ht => Ends.checkVersion ?_
  have hrest : ∀ planned : Option Time, Ends (Told (Keeping ref True)) (do
      let t := { t with showInHistory := showInHistory.getD t.showInHistory }
      let t := { t with plannedAt := planned }
      refuseIf (name.any fun n => cut 100 (strip n) = "") ⟨"Give the tournament a name.", 400⟩
      let t := { t with name := (name.map fun n => cut 100 (strip n)).getD t.name
                        description := (description.map fun d => cut 2000 (strip d)).getD t.description }
      let rules ← cleaned ((rules.map fun r => (Rules.clean r).map some).getD (.ok none))
      let draw ← cleaned (Rules.cleanDraw (draw.getD {}))
      let t : Tournament := { t with rules := Rules.withDraw t.rules rules draw, bank := bank.getD t.bank }
      let rebuild : Bool := thirdPlace.any (· ≠ t.thirdPlaceMatch)
      refuseIf (rebuild ∧ t.status ≠ .draft)
        ⟨"The bracket is already set; this can only change in a draft.", 400⟩
      let t := { t with thirdPlaceMatch := thirdPlace.getD t.thirdPlaceMatch, version := t.version + 1 }
      saveTournament t
      if rebuild then do
        let _ ← buildBracket site actor t
        logTournament .tournamentUpdate actor id
      else logTournament .tournamentUpdate actor id : ArenaM Unit) fun _ => Told (Keeping ref True) := by
    intro planned
    refine Ends.refuseIf fun _ => Ends.cleaned fun rules => Ends.cleaned fun draw => Ends.refuseIf fun _ => ?_
    refine Ends.bind (saveTournament_ends ?_) fun _ => Ends.ite (fun _ => ?_) fun _ => logTournament_ends _ _ _
    · exact ht
    · refine Ends.bind (buildBracket_ends ?_) fun _ => logTournament_ends _ _ _
      exact ht
  cases plannedAt with
  | none => exact hrest _
  | some moment =>
      dsimp only
      split
      · exact hrest _
      · exact Ends.cleaned hrest

theorem setShowInHistory_ends (hdb : WellFormed ref) {shown : Bool} :
    Ends (·.db = ref) (setShowInHistory actor id shown) fun _ => Told (Keeping ref True) := by
  refine firstTournament_ends hdb fun t ht => Ends.ite (fun _ => savedTournament_ends ?_) fun _ =>
    ret_ends _ fun _ => trivial
  exact ht

theorem setParticipants_ends (hdb : WellFormed ref) {profiles : List (Option ProfileId)} {seeding : Option Seeding} :
    Ends (·.db = ref) (setParticipants site actor id profiles seeding version) fun _ => Told (Keeping ref True) := by
  refine firstTournament_ends hdb fun t ht => Ends.checkVersion (Ends.refuseIf fun _ => Ends.cleaned fun profiles => ?_)
  refine Ends.refuseIf fun _ => Ends.bind (saveTournament_ends ?_) fun _ => ?_
  · exact ht
  · refine Ends.bind (buildBracket_ends ?_) fun _ => logTournament_ends _ _ _
    exact ht

theorem lockAll_ends : ∀ {ls : List Lock}, Ends (Told I) (lockAll ls) fun _ => Told I
  | [] => Ends.ret _ fun _ h => h
  | _ :: _ => (Ends.lock _).bind fun _ => lockAll_ends

/-- A length for a whole round changes no battle. -/
theorem Tallies.length {number bestOf : ℕ} (h : Tallies ref db) : Tallies ref
    { db with battles := db.battles.modify (inRound id number) ({ · with bestOf }) fun _ => rfl } := by
  refine ⟨h.ranked, fun i => ?_, fun x hx => ?_⟩
  · rw [← h.rows]
    show ((db.battles.modify (inRound id number) ({ · with bestOf }) fun _ => rfl).get? i).bind (battleOf ref) =
      (db.battles.get? i).bind (battleOf ref)
    rw [Table.get?_modify]
    cases db.battles.get? i with
    | none => rfl
    | some m =>
        show battleOf ref (if inRound id number m = true then { m with bestOf } else m) = battleOf ref m
        split
        · exact battleOf_same rfl rfl rfl rfl rfl rfl rfl rfl
        · rfl
  · obtain ⟨m, hm, rfl⟩ := List.mem_map.mp hx
    split
    · exact h.played m hm
    · exact h.played m hm

theorem setRound_ends (hdb : WellFormed ref) {number : ℕ} {bestOf : Option ℕ} {rules : Option Rules}
    {name : Option String} {draw : Option Rules.Draw} :
    Ends (·.db = ref) (setRound actor id number bestOf rules name version draw) fun _ => Told (Keeping ref True) := by
  refine firstTournament_ends hdb fun t ht => Ends.checkVersion (Ends.orRefuse fun round _ => ?_)
  have hrest : ∀ round : Round, Ends (Told (Keeping ref True)) (do
      let rules ← cleaned ((rules.map fun r => (Rules.clean r).map some).getD (.ok none))
      let draw ← cleaned (Rules.cleanDraw (draw.getD {}))
      let round := { round with rules := Rules.withDraw round.rules rules { draw with autoDraw := none }
                                name := (name.map fun n => cut 60 (strip n)).getD round.name }
      saveTournament { t with rounds := t.rounds.map (fun r => if r.number = number then round else r)
                              version := t.version + 1 }
      logTournament .round actor id : ArenaM Unit) fun _ => Told (Keeping ref True) := by
    intro round
    refine Ends.cleaned fun rules => Ends.cleaned fun draw => savedTournament_ends ?_
    exact ht
  cases bestOf with
  | none => exact hrest round
  | some bestOf =>
      refine Ends.cleaned fun bestOf => Ends.tables.bind fun db => Ends.refuseIf fun _ => ?_
      refine Ends.told (J := Keeping ref True) (lockAll_ends.bind fun _ => ?_) fun _ hs => hs.1
      have hlength : Ends (Told (Keeping ref True)) (write fun db =>
          { db with battles := db.battles.modify (inRound id number) ({ · with bestOf }) fun _ => rfl }) fun _ =>
            Told (Keeping ref True) := Ends.write fun _ hs => ⟨hs.1.length, trivial⟩
      exact hlength.bind fun _ => hrest _

theorem generateBracket_ends (hdb : WellFormed ref) :
    Ends (·.db = ref) (generateBracket site actor id version) fun _ => Told (Keeping ref True) := by
  refine firstTournament_ends hdb fun t ht => Ends.checkVersion (Ends.refuseIf fun _ => ?_)
  exact (buildBracket_ends ht).bind fun _ => ret_ends _ fun _ => trivial

theorem startTournament_ends (hdb : WellFormed ref) :
    Ends (·.db = ref) (startTournament site actor id version) fun _ => Told (Keeping ref True) := by
  refine firstTournament_ends hdb fun t ht => Ends.checkVersion (Ends.refuseIf fun _ => Ends.tables.bind fun db => ?_)
  refine Ends.told (J := Keeping ref True) (Ends.refuseIf fun _ => savedTournament_ends ?_) fun _ hs => hs.1
  exact ht

theorem archiveTournament_ends (hdb : WellFormed ref) :
    Ends (·.db = ref) (archiveTournament actor id version) fun _ => Told (Keeping ref True) := by
  refine firstTournament_ends hdb fun t ht => Ends.checkVersion (Ends.refuseIf fun _ => Ends.tables.bind fun db => ?_)
  refine Ends.told (J := Keeping ref True) (Ends.refuseIf fun _ => savedTournament_ends ?_) fun _ hs => hs.1
  exact ht

/-- Every tournament a match names has had its key taken. -/
def Linked (db : Db) : Prop := ∀ m ∈ db.battles.rows, ∀ t, m.tournament = some t → t < db.nextId

theorem createTournament_ends (hdb : WellFormed ref) (hlinked : Linked ref) {name : String}
    {profiles : List (Option ProfileId)} {seeding : Seeding} {thirdPlace : Bool} {rules : Rules}
    {description : String} {bank : Option BankId} {showInHistory : Bool} {plannedAt : Option Time}
    {ranking : Ranking} :
    Ends (·.db = ref) (createTournament site actor name profiles seeding thirdPlace rules description bank
      showInHistory plannedAt ranking) fun _ => Heard ref := by
  unfold createTournament refuseParticipant
  refine Ends.refuseIf fun _ => ?_
  refine Ends.cleaned fun rules => Ends.cleaned fun plannedAt => Ends.cleaned fun profiles => ?_
  refine Ends.refuseIf fun _ => freshId_first.bind fun id => Ends.assume fun hid => ?_
  -- the new tournament has no battle yet, so the list is the one without it
  have hrest : ∀ t : Tournament, t.id = ref.nextId → Ends (·.db = { ref with nextId := ref.nextId + 1 }) (do
      write fun db => { db with tournaments := db.tournaments.add t }
      let _ ← buildBracket site actor t
      logTournament .tournamentCreate actor id
      ensureDefaultScreen site actor
      return id : ArenaM TournamentId) fun _ => Heard ref := by
    intro t htid
    let ref' : Db := { ref with tournaments := ref.tournaments.add t }
    have hnone : ref.tournaments.get? t.id = none := by
      rw [Table.get?_eq_none_iff]
      intro x hx hkey
      have hlow := hdb.tournaments x hx
      rw [show x.id = t.id from hkey, htid] at hlow
      exact absurd hlow (lt_irrefl _)
    have hkeeps : Keeps ref' t := by
      have hget : ref'.tournament? t.id = some t := Table.get?_add_self hnone
      rw [Keeps, hget]
      rfl
    have hlist : battles ref' = battles ref := by
      have hsame : ∀ m ∈ ref.battles.rows, battleOf ref' m = battleOf ref m := by
        intro m hm
        have hother : tournamentOf ref' m = tournamentOf ref m := by
          unfold tournamentOf
          cases hmt : m.tournament with
          | none => rfl
          | some i =>
              refine Table.get?_add_of_ne fun heq => ?_
              have hlow := hlinked m hm i hmt
              rw [show i = t.id from heq, htid] at hlow
              exact absurd hlow (lt_irrefl _)
        have hcounts : countsQ ref' m = countsQ ref m := by simp only [countsQ, hother]
        unfold battleOf
        rw [hcounts]
      unfold battles
      rw [show ref'.battles = ref.battles from rfl, List.filterMap_congr hsame]
    have hadd : Ends (·.db = { ref with nextId := ref.nextId + 1 }) (write fun db =>
        { db with tournaments := db.tournaments.add t }) fun _ => Told (Keeping ref' True) := by
      refine Ends.modified fun s hs => .inl ⟨?_, trivial⟩
      rw [Txn.wrote_db, show s.db = _ from hs]
      exact ⟨fun _ => rfl, fun _ => rfl, fun m hm => (hdb.sound m hm).toPlayed⟩
    have hdone : Ends (Told (Keeping ref' True)) (do
        let _ ← buildBracket site actor t
        logTournament .tournamentCreate actor id
        ensureDefaultScreen site actor
        return id : ArenaM TournamentId) fun _ => Told (Keeping ref' True) :=
      (buildBracket_ends hkeeps).bind fun _ => (logTournament_ends _ _ _).bind fun _ =>
        ensureDefaultScreen_ends.bind fun _ => ret_ends _ fun _ => trivial
    exact (hadd.bind fun _ => hdone).weaken fun _ _ => Told.mono fun db hs => hs.1.battles_eq.trans hlist
  refine hrest _ ?_
  exact hid

/-! ## Correcting a winner -/

theorem Forward.reopen (hI : Forward I) (id : TournamentId) : Ends (Told I) (reopen id) fun _ => Told I := by
  refine (Ends.lock _).bind fun _ => Ends.tables.bind fun db => ?_
  cases ht : db.tournament? id with
  | none => exact Ends.ret _ fun _ h => h.1
  | some t =>
      have hid : t.id = id := Table.key_of_get? ht
      refine Ends.ite (fun _ => ?_) fun _ => Ends.ret _ fun _ h => h.1
      refine (hI.saveTournament (t := t) ?_ ?_).told ?_
      · rfl
      · rfl
      · rintro db' ⟨h, rfl⟩
        exact ⟨h, hid ▸ ht⟩

/-- A correction that changes the battle of a match leaves one that counts. -/
theorem countsQ_correct {slot : Slot} (h : battleOf db (m.correct slot now) ≠ battleOf db m) :
    countsQ db (m.correct slot now) = true := by
  by_contra hnot
  have hnone := battleOf_of_not_counts (Bool.eq_false_iff.mpr hnot)
  rw [hnone] at h
  have hcounts : countsQ db m = true := by
    by_contra hnot
    exact h (battleOf_of_not_counts (Bool.eq_false_iff.mpr hnot)).symm
  refine hnot ?_
  simp only [countsQ, Bool.and_eq_true, Bool.not_eq_true', Bool.or_eq_false_iff, decide_eq_false_iff_not] at hcounts ⊢
  obtain ⟨hrest, hbye, hwalkover⟩ := hcounts
  refine ⟨hrest, ?_⟩
  simp [Match.correct, Match.bump, hwalkover]

theorem setWinner_ends (hdb : WellFormed ref) {slot : Slot} :
    Ends (·.db = ref) (setWinner site actor id slot version) fun _ => Told (Keeping ref True) := by
  refine first_ends hdb fun m _ hm => Ends.checkVersion (Ends.orRefuse fun t _ => Ends.refuseIf fun _ => ?_)
  refine Ends.refuseIf fun _ => Ends.tables.bind fun db => Ends.told (J := Keeping ref True) ?_ fun _ hs => hs.1
  refine Ends.refuseIf fun _ => Ends.refuseIf fun _ => ?_
  by_cases hbattle : battleOf ref (m.correct slot site.now) = battleOf ref m
  · have hsame : Same ref (m.correct slot site.now) := ⟨hbattle.trans hm.battle, hm.played.of_games rfl⟩
    refine (saveMatch_ends fun _ => hsame).bind fun _ => ((Tallies.forward _).reopen t).bind fun _ => ?_
    exact ((Tallies.forward _).advance _ _).bind fun _ => (logMatch_ends _ _ _ _).bind fun _ =>
      afterDecided_ends.bind fun _ => Ends.refreshLock
  · refine Ends.told (J := Ranked ref) ?_ fun _ hs => hs.1.ranked
    refine (Ranked.saveMatch _).bind fun _ => (Ranked.forward.reopen t).bind fun _ => ?_
    exact (Ranked.forward.advance _ _).bind fun _ => (Ranked.forward.logMatch _ _ _ _).bind fun _ =>
      (afterDecided_recompute (countsQ_correct hbattle)).bind fun _ => Ends.refreshLock

/-! ## Filling matches, the ranking and the screens -/

/-- `fill_from_bank`, for a game prepared in any match. -/
theorem filled_ends {game : Game} (h : Same ref m) (hget : m.games.get? game.id = some game)
    (hprepared : game.status = .prepared) : Ends (Told (Keeping ref True)) (do
      let (m, filled) ← fillFromBank site actor true m game
      if filled then do
        saveMatch m.bump
        return true
      else return false : ArenaM Bool) fun _ => Told (Keeping ref True) := by
  have hfill : Ends (Told (Keeping ref True)) (fillFromBank site actor true m game) fun r =>
      Told (Keeping ref (Same ref r.1)) := by
    refine Ends.tables.bind fun db => Ends.told (J := Keeping ref True) ?_ fun _ hs => hs.1
    cases bankOffer site db actor true m game with
    | none => exact ret_ends _ fun _ => h
    | some offer =>
        cases offer with
        | error e => exact (logMatch_ends _ _ _ _).bind fun _ => ret_ends _ fun _ => h
        | ok problems =>
            have hne : game.status ≠ .finished := by rw [hprepared]; decide
            have hset : Same ref (m.setGame { game with problems }) :=
              h.setGame hget rfl ((Game.counted_of_ne hne).trans (Game.counted_of_ne hne).symm) fun hnot =>
                absurd hprepared hnot
            exact (saveMatch_ends fun _ => hset).bind fun _ => (logMatch_ends _ _ _ _).bind fun _ =>
              ret_ends _ fun _ => hset
  refine hfill.bind fun r => Ends.ite (fun _ => ?_) fun _ => ret_ends _ fun _ => trivial
  have hbump : Same ref r.1 → Same ref r.1.bump := fun h =>
    ⟨(battleOf_same (m := r.1) rfl rfl rfl rfl rfl rfl rfl rfl).trans h.battle, h.played.of_games rfl⟩
  exact (saveMatch_ends hbump).bind fun _ => ret_ends _ fun _ => trivial

theorem fillMatch_ends (hdb : WellFormed ref) :
    Ends (·.db = ref) (fillMatch site actor id) fun _ => Told (Keeping ref True) := by
  have hlock : Ends (·.db = ref) (lockMatch id) fun m s =>
      (ref.match? m.id = some m ∧ Same ref m) ∧ s.db = ref := by
    refine ⟨fun s m t hs hrun => ?_⟩
    obtain ⟨here, rfl⟩ := lockMatch_ok.mp hrun
    rw [show s.db = ref from hs] at here
    have hid : m.id = id := Table.key_of_get? here
    exact ⟨⟨hid ▸ here, (Tallies.refl hdb).same here⟩, by rw [Txn.holdingMatch_db]; exact hs⟩
  have hstart : ∀ s : Txn, s.db = ref → Told (Keeping ref True) s := fun s hs => by
    refine .inl ⟨?_, trivial⟩
    rw [hs]
    exact .refl hdb
  refine hlock.bind fun m => Ends.assume fun hm => ?_
  obtain ⟨here, hsame⟩ := hm
  refine Ends.ite (fun _ => Ends.done _ hstart) fun _ => ?_
  have hensure : Ends (·.db = ref) (ensureNextGame m) fun r s =>
      (Same ref r.1 ∧ r.1.games.get? r.2.id = some r.2 ∧ r.2.status = .prepared) ∧ Told (Keeping ref True) s := by
    unfold ensureNextGame
    split
    · rename_i game hgame
      exact Ends.done _ fun s hs => ⟨⟨hsame, preparedGame_mem hgame⟩, hstart s hs⟩
    · refine ⟨fun s r t hs hrun => ?_⟩
      obtain ⟨m', game⟩ := r
      obtain ⟨hgame, hm', rfl⟩ := newGame_ok.mp hrun
      rw [show s.db = ref from hs] at hgame
      dsimp only at hgame hm'
      subst hgame hm'
      have hfresh : m.games.get? ref.nextId = none := by
        rw [Table.get?_eq_none_iff]
        exact fun g hg hkey => absurd (hdb.games m (Table.mem_of_get? here) g hg) (by
          rw [show g.id = ref.nextId from hkey]
          exact lt_irrefl _)
      have hadd : Same ref { m with games := m.games.add { id := ref.nextId, number := m.lastNumber + 1 } } := by
        refine ⟨Eq.trans (battleOf_same (m := m) rfl rfl rfl rfl rfl rfl rfl ?_) hsame.battle, hsame.played.add rfl⟩
        exact counted_add rfl
      refine ⟨⟨hadd, Table.get?_add_self hfresh, rfl⟩, .inl ⟨?_, trivial⟩⟩
      have hbumped : Tallies ref { ref with nextId := ref.nextId + 1 } := (Tallies.refl hdb).congr rfl rfl
      have hput := hbumped.putMatch hadd
      simpa [Txn.wrote, hs] using hput
  refine hensure.bind fun r => Ends.assume fun hr => ?_
  obtain ⟨hsame, hget, hprepared⟩ := hr
  exact filled_ends hsame hget hprepared

/-- Whatever is written before `recompute` is scheduled. -/
theorem recomputed_ends {f g : Db → Db} : Ends P (do write f; write g; onCommit .recompute) fun _ => Heard ref := by
  have hany : Ends P (write f) fun _ => Told fun _ => True := Ends.modified fun _ _ => .inl trivial
  exact hany.bind fun _ => (Ends.write (J := fun _ => True) fun _ _ => trivial).bind fun _ => Ends.recompute

theorem setTournamentRanking_ends (hdb : WellFormed ref) {value : Ranking} :
    Ends (·.db = ref) (setTournamentRanking actor id value) fun _ => Heard ref := by
  refine firstTournament_ends hdb fun t _ => Ends.ite (fun _ => recomputed_ends) fun _ => ?_
  exact Ends.ret _ fun _ h => h.1.battles_eq

theorem setMatchRanking_ends (hdb : WellFormed ref) {value : Ranking} :
    Ends (·.db = ref) (setMatchRanking actor id value) fun _ => Heard ref := by
  refine first_ends hdb fun m _ _ => Ends.refuseIf fun _ => Ends.ite (fun _ => recomputed_ends) fun _ => ?_
  exact Ends.ret _ fun _ h => h.1.battles_eq

theorem lockScreen_ends {f : Screen → ArenaM α} {id : ScreenId}
    (h : ∀ s, Ends (Told (Keeping ref C)) (f s) Q) : Ends (Told (Keeping ref C)) (lockScreen id >>= f) Q := by
  have hlock : Ends (Told (Keeping ref C)) (lockScreen id) fun _ => Told (Keeping ref C) := by
    refine Ends.tables.bind fun db => Ends.told (J := Keeping ref C) ?_ fun _ hs => hs.1
    exact Ends.orRefuse fun s _ => (Ends.lock _).bind fun _ => Ends.ret _ fun _ h => h
  exact hlock.bind h

theorem saveScreen_ends {s : Screen} : Ends (Told (Keeping ref C)) (saveScreen s) fun _ => Told (Keeping ref C) :=
  write_ends (fun _ => rfl) fun _ => rfl

/-! ## Every operation -/

/-- An operation that starts from the tables `ref`. -/
theorem start_ends (hdb : WellFormed ref) {x : ArenaM α} (h : Ends (Told (Keeping ref True)) x Q) :
    Ends (·.db = ref) x Q := by
  refine h.of_pre fun s hs => .inl ⟨?_, trivial⟩
  rw [hs]
  exact .refl hdb

theorem Ends.discard {x : ArenaM α} {S : Txn → Prop} (h : Ends P x fun _ => S) :
    Ends P (Functor.discard x) fun _ => S := by
  refine ⟨fun s _ t hs hrun => ?_⟩
  obtain ⟨a, hx, _⟩ := CpcJudge.Txn.map_ok.mp hrun
  exact h.ok s a t hs hx

theorem MatchAction.heard (hdb : WellFormed ref) {actor : ProfileId} : ∀ action : MatchAction,
    Ends (·.db = ref) (action.run site actor id version) fun _ => Heard ref
  | .call => (callMatch_ends hdb).heard
  | .start _ _ => (startGame_ends hdb).heard.discard
  | .extend _ _ => (extendGame_ends hdb).heard
  | .cancelGame _ => (cancelGame_ends hdb).heard
  | .declare _ _ => (declareWinner_ends hdb).heard
  | .finalize _ => (finalizeVerification_ends hdb).heard
  | .walkover _ => (walkover_ends hdb).heard
  | .setWinner _ => (setWinner_ends hdb).heard
  | .cancel => (cancelMatch_ends hdb).heard
  | .problems _ _ _ => (setGameProblems_ends hdb).heard
  | .addGame => (addGame_ends hdb).heard
  | .update _ _ _ _ => (updateMatch_ends hdb).heard
  | .replace _ _ _ => (replacePlayer_ends hdb).heard

theorem TournamentAction.heard (hdb : WellFormed ref) {actor : ProfileId} : ∀ action : TournamentAction,
    Ends (·.db = ref) (action.run site actor id version) fun _ => Heard ref
  | .update _ _ _ _ _ _ _ _ => (updateTournament_ends hdb).heard
  | .participants _ _ => (setParticipants_ends hdb).heard
  | .round _ _ _ _ _ => (setRound_ends hdb).heard
  | .generate => (generateBracket_ends hdb).heard
  | .start => (startTournament_ends hdb).heard
  | .archive => (archiveTournament_ends hdb).heard

theorem Request.heard (hdb : WellFormed ref) (hlinked : Linked ref) {actor : ProfileId} (request : Request) :
    Ends (·.db = ref) (request.run site actor) fun _ => Heard ref := by
  cases request with
  | createDuel => exact (createDuel_ends hdb).heard.discard
  | onMatch _ _ action => exact action.heard hdb
  | createTournament => exact (createTournament_ends hdb hlinked).discard
  | onTournament _ _ action => exact action.heard hdb
  | setShowInHistory => exact (setShowInHistory_ends hdb).heard
  | fill => exact (fillMatch_ends hdb).heard.discard
  | setTournamentRanking => exact setTournamentRanking_ends hdb
  | setMatchRanking => exact setMatchRanking_ends hdb
  | createScreen =>
      refine (start_ends hdb (((Tallies.forward True).freshId).bind fun _ => ?_)).heard
      exact write_ends (fun _ => rfl) fun _ => rfl
  | showOnScreen => exact (start_ends hdb (lockScreen_ends fun _ => Ends.checkVersion saveScreen_ends)).heard
  | renameScreen => exact (start_ends hdb (lockScreen_ends fun _ => saveScreen_ends)).heard
  | regenerateScreenToken => exact (start_ends hdb (lockScreen_ends fun _ => saveScreen_ends)).heard

theorem Op.heard (hdb : WellFormed ref) (hlinked : Linked ref) : ∀ op : Op,
    Ends (·.db = ref) (op.run site) fun _ => Heard ref
  | .organize _ request => request.heard hdb hlinked
  | .tick _ _ _ => (tick_ends hdb).heard
  | .submit _ _ _ _ _ _ _ => (submit_ends hdb).heard
  | .judge _ _ _ => (judge_ends hdb).heard

end

end Arena
end CpcJudge
