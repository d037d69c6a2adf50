import CpcJudge.Arena.Change

/-!
# `Arena.Sound` — what always holds of one match

`Match.Sound` relates the columns of a match to its games: the counters to the games won, the status of the match
to the games being played, the players to the games started. Every change of one match keeps it (`Sound.row`,
`Sound.decides`, `Sound.receive`), and so do the special requests.
-/

namespace CpcJudge
namespace Arena

/-! ## Counting games -/

namespace Match

/-- How many games a slot has won. -/
def gamesWon (m : Match) (slot : Slot) : ℕ :=
  m.games.rows.countP fun g => g.status = .finished ∧ g.winnerSlot = some slot

/-- How many games are being played. -/
def gamesActive (m : Match) : ℕ := m.games.rows.countP fun g => g.status.active

theorem inPlay_eq_false_iff {m : Match} : m.inPlay = false ↔ m.gamesActive = 0 := by
  simp [inPlay, gamesActive, List.countP_eq_zero]

/-- The invariant of one match. -/
structure Sound (m : Match) : Prop where
  /-- The counters are the games won. -/
  wins : ∀ slot, m.wins.get slot = m.gamesWon slot
  /-- One game at a time. -/
  single : m.gamesActive ≤ 1
  /-- Nothing is played in a match that is over. -/
  idle : m.isOver = true → m.gamesActive = 0
  /-- The games with a contest are those that left `PREPARED`. -/
  played : ∀ g ∈ m.games.rows, g.started = true ↔ g.status ≠ .prepared
  /-- A game waiting for verdicts is closed. -/
  closed : ∀ g ∈ m.games.rows, g.status = .verifying → g.closedAt.isSome = true
  /-- Only a match with both players is played. -/
  seated : m.started = true → m.ready = true
  /-- Who won is one of the players. -/
  won : m.status = .decided → ∃ w, m.winnerSlot = some w ∧ (m.players.get w).isSome = true

end Match

/-! ## One game -/

namespace GameStep
variable {organizer : Bool} {g g' : Game}

/-- Neither starting nor winning a game, a change only stops it from being played. -/
theorem active (h : GameStep organizer g g') (hg : g'.status.active = true) : g.status.active = true := by
  rcases h.status with ⟨heq, _⟩ | ⟨hbefore, hne, honward⟩
  · rwa [heq] at hg
  · rcases hbefore with hbefore | hbefore
    · exact hbefore
    · rcases honward with heq | ⟨hlt, _⟩
      · rwa [heq]
      · rw [hbefore] at hlt
        revert hlt hg
        cases g'.status <;> simp [GameStatus.rank, GameStatus.active]

theorem won_iff (h : GameStep organizer g g') (slot : Slot) :
    (g'.status = .finished ∧ g'.winnerSlot = some slot) ↔ (g.status = .finished ∧ g.winnerSlot = some slot) := by
  rcases h.status with ⟨hstatus, hwinner⟩ | ⟨hbefore, hne, _⟩
  · rw [hstatus, hwinner]
  · refine iff_of_false (fun h => hne h.1) fun h => ?_
    rw [h.1] at hbefore
    simp [GameStatus.active] at hbefore

theorem prepared_iff (h : GameStep organizer g g') : g'.status = .prepared ↔ g.status = .prepared := by
  rcases h.status with ⟨hstatus, _⟩ | ⟨hbefore, _, honward⟩
  · rw [hstatus]
  · rcases honward with heq | ⟨hlt, _⟩
    · rw [heq]
    · refine iff_of_false (fun h => ?_) fun h => ?_
      · rw [h] at hlt
        simp [GameStatus.rank] at hlt
      · rw [h] at hbefore
        simp [GameStatus.active] at hbefore

theorem onward (h : GameStep organizer g g') : g.status.Onward organizer g'.status := by
  rcases h.status with ⟨hstatus, _⟩ | ⟨_, _, honward⟩
  · rw [hstatus]
    exact .refl _
  · exact honward

end GameStep

namespace GameWon
variable {organizer : Bool} {slot : Slot} {g g' : Game}

theorem not_finished (h : GameWon organizer slot g g') : g.status ≠ .finished := by
  intro heq
  rcases h.before with hbefore | ⟨hbefore, _⟩ <;> rw [heq] at hbefore <;> simp [GameStatus.active] at hbefore

theorem not_prepared (h : GameWon organizer slot g g') : g.status ≠ .prepared := by
  intro heq
  rcases h.before with hbefore | ⟨hbefore, _⟩ <;> rw [heq] at hbefore <;> simp [GameStatus.active] at hbefore

theorem onward (h : GameWon organizer slot g g') : g.status.Onward organizer g'.status := by
  rw [h.after]
  rcases h.before with hbefore | ⟨hbefore, horganizer⟩
  · revert hbefore
    cases g.status <;> simp [GameStatus.active, GameStatus.Onward, GameStatus.rank]
  · rw [hbefore]
    exact .inr ⟨by decide, fun _ => horganizer⟩

end GameWon

/-! ## One game of a match changed -/

namespace Match
variable {m : Match} {g g' : Game}

theorem gamesWon_setGame (h : m.games.get? g.id = some g) (hid : g'.id = g.id) (slot : Slot) :
    (m.setGame g').gamesWon slot + (if g.status = .finished ∧ g.winnerSlot = some slot then 1 else 0) =
      m.gamesWon slot + (if g'.status = .finished ∧ g'.winnerSlot = some slot then 1 else 0) := by
  have hkey : m.games.get? (Keyed.key g') = some g := by
    show m.games.get? g'.id = some g
    rwa [hid]
  have := Table.countP_put (fun g => decide (g.status = .finished ∧ g.winnerSlot = some slot)) hkey
  simpa [gamesWon, setGame] using this

theorem gamesActive_setGame (h : m.games.get? g.id = some g) (hid : g'.id = g.id) :
    (m.setGame g').gamesActive + (if g.status.active then 1 else 0) =
      m.gamesActive + (if g'.status.active then 1 else 0) := by
  have hkey : m.games.get? (Keyed.key g') = some g := by
    show m.games.get? g'.id = some g
    rwa [hid]
  exact Table.countP_put (fun g => g.status.active) hkey

/-- A game of the match after one is changed is that one or was there. -/
theorem mem_setGame {x : Game} (hx : x ∈ (m.setGame g').games.rows) :
    x = g' ∨ (x ∈ m.games.rows ∧ x.id ≠ g'.id) := Table.mem_put hx

theorem started_iff : m.started = true ↔ ∃ g ∈ m.games.rows, g.started = true := List.any_eq_true

theorem started_setGame (h : m.games.get? g.id = some g) (hid : g'.id = g.id)
    (hcontest : g'.contest.isSome = g.contest.isSome) (hstarted : (m.setGame g').started = true) :
    m.started = true := by
  obtain ⟨x, hx, hxs⟩ := started_iff.mp hstarted
  rcases mem_setGame hx with rfl | ⟨hx, _⟩
  · refine started_iff.mpr ⟨g, Table.mem_of_get? h, ?_⟩
    show g.contest.isSome = true
    rw [← hcontest]
    exact hxs
  · exact started_iff.mpr ⟨x, hx, hxs⟩

/-- A game being played is the only one. -/
theorem Sound.gamesActive_eq (hm : m.Sound) (h : m.games.get? g.id = some g) (hg : g.status.active = true) :
    m.gamesActive = 1 := by
  have hpos : 0 < m.gamesActive := List.countP_pos_iff.mpr ⟨g, Table.mem_of_get? h, hg⟩
  have := hm.single
  omega

theorem Sound.going_of_active (hm : m.Sound) (h : m.games.get? g.id = some g) (hg : g.status.active = true) :
    m.isOver = false := by
  have hone := hm.gamesActive_eq h hg
  cases hover : m.isOver with
  | false => rfl
  | true =>
      have := hm.idle hover
      omega

/-- A match some of whose columns changed: the ones `Sound` does not read, and the players as long as nobody
    leaves. -/
theorem Sound.of_same {m' : Match} (hm : m.Sound) (hgames : m'.games = m.games) (hwins : m'.wins = m.wins)
    (hover : m'.isOver = true → m.isOver = true ∨ m.inPlay = false)
    (hplayers : ∀ slot, (m.players.get slot).isSome = true → (m'.players.get slot).isSome = true)
    (hwon : m'.status = .decided → ∃ w, m'.winnerSlot = some w ∧ (m'.players.get w).isSome = true) :
    m'.Sound := by
  obtain ⟨wins, single, idle, played, closed, seated, _⟩ := hm
  refine ⟨?_, ?_, ?_, ?_, ?_, ?_, hwon⟩
  · intro slot
    rw [hwins, wins, gamesWon, gamesWon, hgames]
  · rwa [gamesActive, hgames]
  · intro h
    rw [gamesActive, hgames]
    rcases hover h with h | h
    · exact idle h
    · exact inPlay_eq_false_iff.mp h
  · rwa [hgames]
  · rwa [hgames]
  · intro h
    have hready := seated (by rwa [started, hgames] at h)
    rw [ready, Bool.and_eq_true] at hready ⊢
    exact ⟨hplayers .a hready.1, hplayers .b hready.2⟩

/-- The same match with the same decision, apart from columns that `Sound` does not read. -/
theorem Sound.of_quiet {m' : Match} (hm : m.Sound) (hgames : m'.games = m.games) (hwins : m'.wins = m.wins)
    (hstatus : m'.status = m.status) (hplayers : m'.players = m.players)
    (hwinner : m'.winnerSlot = m.winnerSlot) : m'.Sound := by
  refine hm.of_same hgames hwins (fun h => .inl ?_) (fun slot h => hplayers ▸ h) fun h => ?_
  · rwa [isOver, hstatus] at h
  · rw [hwinner, hplayers]
    exact hm.won (hstatus ▸ h)

/-! ## The changes of one match -/

/-- A change of one game that neither starts nor wins it. -/
theorem Sound.setGame {organizer : Bool} (hm : m.Sound) (h : m.games.get? g.id = some g)
    (hstep : GameStep organizer g g') : (m.setGame g').Sound := by
  have hmem := Table.mem_of_get? h
  have hactive : (m.setGame g').gamesActive ≤ m.gamesActive := by
    have hcount := gamesActive_setGame h hstep.id
    by_cases hg : g'.status.active = true
    · rw [if_pos hg, if_pos (hstep.active hg)] at hcount
      omega
    · rw [if_neg hg] at hcount
      omega
  refine ⟨?_, hactive.trans hm.single, ?_, ?_, ?_, ?_, hm.won⟩
  · intro slot
    have hcount := gamesWon_setGame h hstep.id slot
    rw [if_congr (hstep.won_iff slot) rfl rfl] at hcount
    rw [show (m.setGame g').wins = m.wins from rfl, hm.wins slot]
    omega
  · intro hover
    have := hm.idle hover
    omega
  · intro x hx
    rcases mem_setGame hx with rfl | ⟨hx, _⟩
    · rw [Game.started, hstep.contest, Ne, hstep.prepared_iff]
      exact hm.played g hmem
    · exact hm.played x hx
  · intro x hx hverifying
    rcases mem_setGame hx with rfl | ⟨hx, _⟩
    · exact hstep.closed hverifying (hm.closed g hmem)
    · exact hm.closed x hx hverifying
  · intro hstarted
    exact hm.seated (started_setGame h hstep.id hstep.contest hstarted)

/-- One of its games won, and counted. -/
theorem Sound.win {organizer : Bool} {slot : Slot} (hm : m.Sound) (h : m.games.get? g.id = some g)
    (hwon : GameWon organizer slot g g') : ((m.setGame g').win slot).Sound := by
  have hmem := Table.mem_of_get? h
  have hfinished : g'.status.active = false := by
    rw [hwon.after]
    rfl
  have hactive : (m.setGame g').gamesActive ≤ m.gamesActive := by
    have hcount := gamesActive_setGame h hwon.id
    rw [hfinished] at hcount
    simp only [Bool.false_eq_true, if_false] at hcount
    omega
  refine ⟨?_, hactive.trans hm.single, ?_, ?_, ?_, ?_, hm.won⟩
  · intro s
    have hcount := gamesWon_setGame h hwon.id s
    rw [if_neg (fun hg => hwon.not_finished hg.1)] at hcount
    show (m.wins.set slot (m.wins.get slot + 1)).get s = (m.setGame g').gamesWon s
    by_cases hs : s = slot
    · subst hs
      rw [if_pos ⟨hwon.after, hwon.winner⟩] at hcount
      rw [Pair.get_set_self, hm.wins]
      omega
    · rw [if_neg (fun hg => hs (Option.some.inj (hg.2.symm.trans hwon.winner)))] at hcount
      rw [Pair.get_set_of_ne _ _ hs, hm.wins]
      omega
  · intro hover
    have := hm.idle hover
    have hle : ((m.setGame g').win slot).gamesActive ≤ m.gamesActive := hactive
    omega
  · intro x hx
    rcases mem_setGame hx with rfl | ⟨hx, _⟩
    · refine iff_of_true ?_ (by rw [hwon.after]; decide)
      rw [Game.started, hwon.contest]
      exact (hm.played g hmem).mpr hwon.not_prepared
    · exact hm.played x hx
  · intro x hx hverifying
    rcases mem_setGame hx with rfl | ⟨hx, _⟩
    · rw [hwon.after] at hverifying
      cases hverifying
    · exact hm.closed x hx hverifying
  · intro hstarted
    exact hm.seated (started_setGame h hwon.id hwon.contest hstarted)

/-- A game started in a match where none is being played. -/
theorem Sound.start {status : MatchStatus} (moment : Option Time) (hm : m.Sound)
    (h : m.games.get? g.id = some g) (hprepared : g.status = .prepared) (hready : m.ready = true)
    (hidle : m.inPlay = false) (hid : g'.id = g.id) (hstatus : g'.status = .countdown)
    (hcontest : g'.contest.isSome = true) (hover : status ≠ .decided ∧ status ≠ .cancelled) :
    Sound { m.setGame g' with status, calledAt := moment } := by
  have hactive : (m.setGame g').gamesActive = 1 := by
    have hcount := gamesActive_setGame h hid
    rw [hprepared, hstatus, inPlay_eq_false_iff.mp hidle] at hcount
    simpa [GameStatus.active] using hcount
  refine ⟨?_, hactive.le, ?_, ?_, ?_, fun _ => hready, fun hdecided => absurd hdecided hover.1⟩
  · intro slot
    have hcount := gamesWon_setGame h hid slot
    rw [if_neg (by rw [hprepared]; simp), if_neg (by rw [hstatus]; simp)] at hcount
    show m.wins.get slot = (m.setGame g').gamesWon slot
    rw [hm.wins]
    omega
  · intro h
    simp [isOver, hover.1, hover.2] at h
  · intro x hx
    rcases mem_setGame hx with rfl | ⟨hx, _⟩
    · exact iff_of_true hcontest (by rw [hstatus]; decide)
    · exact hm.played x hx
  · intro x hx hverifying
    rcases mem_setGame hx with rfl | ⟨hx, _⟩
    · rw [hstatus] at hverifying
      cases hverifying
    · exact hm.closed x hx hverifying

/-- A prepared game more. -/
theorem Sound.addGame (hm : m.Sound) (hstatus : g.status = .prepared) (hcontest : g.contest = none)
    (hfresh : m.games.get? g.id = none) : Sound { m with games := m.games.add g } := by
  have hrows : (m.games.add g).rows = m.games.rows ++ [g] := Table.rows_add hfresh
  have hcount : ∀ p : Game → Bool, p g = false → (m.games.add g).rows.countP p = m.games.rows.countP p := by
    intro p hp
    rw [hrows, List.countP_append]
    simp [hp]
  have hactive : Match.gamesActive { m with games := m.games.add g } = m.gamesActive :=
    hcount _ (by rw [hstatus]; rfl)
  refine ⟨?_, hactive.le.trans hm.single, ?_, ?_, ?_, ?_, hm.won⟩
  · intro slot
    rw [show Match.gamesWon { m with games := m.games.add g } slot = m.gamesWon slot from
      hcount _ (by simp [hstatus])]
    exact hm.wins slot
  · intro hover
    rw [hactive]
    exact hm.idle hover
  · intro x hx
    rcases Table.mem_add hx with rfl | hx
    · simp [Game.started, hcontest, hstatus]
    · exact hm.played x hx
  · intro x hx hverifying
    rcases Table.mem_add hx with rfl | hx
    · rw [hstatus] at hverifying
      cases hverifying
    · exact hm.closed x hx hverifying
  · intro hstarted
    obtain ⟨x, hx, hxs⟩ := started_iff.mp hstarted
    rcases Table.mem_add hx with rfl | hx
    · simp [Game.started, hcontest] at hxs
    · exact hm.seated (started_iff.mpr ⟨x, hx, hxs⟩)

/-- Counting games that are not unplayed ones does not see the unplayed ones go. -/
theorem countP_dropUnplayed {p : Game → Bool} (hp : ∀ g, p g = true → g.unplayed = false) :
    m.dropUnplayed.games.rows.countP p = m.games.rows.countP p := by
  show (m.games.rows.filter fun g => !g.unplayed).countP p = _
  rw [List.countP_filter]
  refine List.countP_congr fun g _ => ?_
  cases hpg : p g with
  | false => simp
  | true => simp [hp g hpg]

theorem mem_dropUnplayed : g ∈ m.dropUnplayed.games.rows ↔ g ∈ m.games.rows ∧ g.unplayed = false := by
  rw [show (g ∈ m.dropUnplayed.games.rows) ↔ _ from Table.mem_filter]
  simp

theorem gamesActive_dropUnplayed : m.dropUnplayed.gamesActive = m.gamesActive :=
  countP_dropUnplayed fun g hg => by
    revert hg
    cases h : g.status <;> simp [GameStatus.active, Game.unplayed, h]

/-- The games prepared in advance thrown away. -/
theorem Sound.dropUnplayed (hm : m.Sound) : m.dropUnplayed.Sound := by
  refine ⟨?_, gamesActive_dropUnplayed.le.trans hm.single, ?_, ?_, ?_, ?_, hm.won⟩
  · intro slot
    rw [gamesWon, countP_dropUnplayed fun g hg => ?_]
    · exact hm.wins slot
    · simp only [Bool.decide_and, Bool.and_eq_true, decide_eq_true_eq] at hg
      simp [Game.unplayed, hg.1]
  · intro hover
    rw [gamesActive_dropUnplayed]
    exact hm.idle hover
  · intro x hx
    exact hm.played x (mem_dropUnplayed.mp hx).1
  · intro x hx
    exact hm.closed x (mem_dropUnplayed.mp hx).1
  · intro hstarted
    obtain ⟨x, hx, hxs⟩ := started_iff.mp hstarted
    exact hm.seated (started_iff.mpr ⟨x, (mem_dropUnplayed.mp hx).1, hxs⟩)

/-- A game of a match whose games were voided: it was going, or tied, and now it is voided, or it stays. -/
theorem mem_voidGames {now : Time} {decidedBy : Game → Option ProfileId} {x : Game}
    (hx : x ∈ (m.voidGames now decidedBy).games.rows) :
    (∃ g ∈ m.games.rows, (g.status.active = true ∨ g.status = .tie) ∧ x.id = g.id ∧
      x.status = .cancelled ∧ x.contest.isSome = g.contest.isSome) ∨
    (x ∈ m.games.rows ∧ x.status.active = false ∧ x.status ≠ .tie) := by
  obtain ⟨g, hg, heq⟩ := List.mem_map.mp hx
  by_cases hp : (g.status.active || g.status = .tie) = true
  · rw [if_pos hp] at heq
    subst heq
    refine .inl ⟨g, hg, by simpa using hp, rfl, rfl, ?_⟩
    simp [Game.void, Game.closeContest]
  · rw [if_neg hp] at heq
    subst heq
    exact .inr ⟨hg, by simpa using hp⟩

/-- Nothing is played after the games going are voided. -/
theorem voidGames_inPlay (now : Time) (decidedBy : Game → Option ProfileId) :
    (m.voidGames now decidedBy).inPlay = false := by
  simp only [inPlay, List.any_eq_false]
  intro x hx
  rcases mem_voidGames hx with ⟨g, _, _, _, hstatus, _⟩ | ⟨_, hstatus, _⟩
  · simp [hstatus, GameStatus.active]
  · simp [hstatus]

/-- The games going, and the tied ones, voided. -/
theorem Sound.voidGames (hm : m.Sound) (now : Time) (decidedBy : Game → Option ProfileId) :
    (m.voidGames now decidedBy).Sound := by
  have hactive := inPlay_eq_false_iff.mp (m.voidGames_inPlay now decidedBy)
  refine ⟨?_, by omega, fun _ => hactive, ?_, ?_, ?_, hm.won⟩
  · intro slot
    show m.wins.get slot = _
    rw [hm.wins, gamesWon, gamesWon]
    show _ = (m.games.rows.map _).countP _
    rw [List.countP_map]
    refine List.countP_congr fun g _ => ?_
    cases hg : g.status <;> simp [hg, GameStatus.active, Game.void, Game.closeContest]
  · intro x hx
    rcases mem_voidGames hx with ⟨g, hg, hbefore, _, hstatus, hcontest⟩ | ⟨hx, _⟩
    · refine iff_of_true ?_ (by rw [hstatus]; decide)
      rw [Game.started, hcontest]
      refine (hm.played g hg).mpr fun heq => ?_
      rw [heq] at hbefore
      simp [GameStatus.active] at hbefore
    · exact hm.played x hx
  · intro x hx hverifying
    rcases mem_voidGames hx with ⟨g, _, _, _, hstatus, _⟩ | ⟨hx, _⟩
    · rw [hstatus] at hverifying
      cases hverifying
    · exact hm.closed x hx hverifying
  · intro hstarted
    refine hm.seated (started_iff.mpr ?_)
    obtain ⟨x, hx, hxs⟩ := started_iff.mp hstarted
    rcases mem_voidGames hx with ⟨g, hg, _, _, _, hcontest⟩ | ⟨hx, _⟩
    · exact ⟨g, hg, by rw [Game.started, ← hcontest]; exact hxs⟩
    · exact ⟨x, hx, hxs⟩

/-- A match given to a player, with nothing being played. -/
theorem Sound.award {slot : Slot} {reason : DecidedReason} {moment : Time} {v : ℕ} (hm : m.Sound)
    (hseated : (m.players.get slot).isSome = true) (hidle : m.inPlay = false) :
    (m.award slot reason moment v).Sound :=
  hm.of_same rfl rfl (fun _ => .inr hidle) (fun _ h => h) fun _ => ⟨slot, rfl, hseated⟩

/-- A game won by the last one being played leaves none. -/
theorem inPlay_win {organizer : Bool} {slot : Slot} (hm : m.Sound) (h : m.games.get? g.id = some g)
    (hwon : GameWon organizer slot g g') (halone : g.status.active = true ∨ m.inPlay = false) :
    ((m.setGame g').win slot).inPlay = false := by
  refine inPlay_eq_false_iff.mpr ?_
  have hcount := gamesActive_setGame h hwon.id
  have hfinished : g'.status.active = false := by
    rw [hwon.after]
    rfl
  rw [hfinished] at hcount
  show (m.setGame g').gamesActive = 0
  rcases halone with hactive | hidle
  · rw [hactive, hm.gamesActive_eq h hactive] at hcount
    simpa using hcount
  · rw [inPlay_eq_false_iff.mp hidle] at hcount
    simp only [Bool.false_eq_true, if_false] at hcount
    omega

end Match

theorem Match.Sound.row {organizer : Bool} {m m' : Match} (hm : m.Sound) (h : RowStep organizer m m') :
    m'.Sound := by
  cases h with
  | edit => exact hm.of_quiet rfl rfl rfl rfl rfl
  | length => exact hm.of_quiet rfl rfl rfl rfl rfl
  | call _ _ _ => exact hm.of_same rfl rfl (fun h => by cases h) (fun _ h => h) fun h => by cases h
  | addGame _ hstatus hcontest hfresh => exact hm.addGame hstatus hcontest hfresh
  | game _ hhere hstep _ => exact (hm.setGame hhere hstep).of_quiet rfl rfl rfl rfl rfl
  | start moment _ hhere hprepared _ hready hidle hid hstatus hcontest _ _ =>
      exact (hm.start moment hhere hprepared hready hidle hid hstatus hcontest
        ⟨(by decide : MatchStatus.playing ≠ .decided), by decide⟩).of_quiet rfl rfl rfl rfl rfl
  | win _ hhere hwon _ _ _ => exact (hm.win hhere hwon).of_quiet rfl rfl rfl rfl rfl
  | voidGames now decidedBy _ => exact hm.voidGames now decidedBy
  | dropUnplayed => exact hm.dropUnplayed
  | cancel _ _ _ _ hidle _ =>
      exact hm.of_same rfl rfl (fun _ => .inr hidle) (fun _ h => h) fun h => by cases h

theorem Match.Sound.decides {organizer : Bool} {m m' : Match} (hm : m.Sound) (h : Decides organizer m m') :
    m'.Sound := by
  cases h with
  | @game g g' slot _ _ _ hhere hwon halone _ _ =>
      -- a game that was played has both players
      have hready : m.ready = true := by
        refine hm.seated (Match.started_iff.mpr ⟨g, Table.mem_of_get? hhere, ?_⟩)
        exact (hm.played g (Table.mem_of_get? hhere)).mpr hwon.not_prepared
      have hseated : (((m.setGame g').win slot).players.get slot).isSome = true := by
        rw [Match.ready, Bool.and_eq_true] at hready
        cases slot
        · exact hready.1
        · exact hready.2
      exact ((hm.win hhere hwon).award hseated (Match.inPlay_win hm hhere hwon halone)).dropUnplayed
  | given _ _ _ hseated hidle _ _ => exact hm.award hseated hidle

/-- A player arrives at a match not yet played. -/
theorem Match.Sound.receive {m : Match} (hm : m.Sound) (slot : Slot) (p : ProfileId) (seed : Option ℕ) :
    (m.receive slot (some p) seed).Sound := by
  obtain ⟨status, heq, hstatus⟩ := m.receive_eq slot (some p) seed
  rw [heq]
  have hset : ∀ s, (m.players.get s).isSome = true → ((m.players.set slot (some p)).get s).isSome = true := by
    intro s hs
    by_cases h : s = slot
    · simp [h]
    · rwa [Pair.get_set_of_ne _ _ h]
  refine hm.of_same rfl rfl (fun h => .inl ?_) hset fun h => ?_
  · rcases hstatus with rfl | ⟨_, rfl⟩ | ⟨_, rfl⟩
    · exact h
    · cases h
    · cases h
  · obtain ⟨w, hw, hseated⟩ := hm.won (by
      rcases hstatus with rfl | ⟨_, rfl⟩ | ⟨_, rfl⟩
      · exact h
      · cases h
      · cases h)
    exact ⟨w, hw, hset w hseated⟩

end Arena
end CpcJudge
