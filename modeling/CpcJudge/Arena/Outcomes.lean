import CpcJudge.Arena.Series

/-!
# `Arena.Outcomes` — a game has one outcome

Any page may call `tick`, with an old copy of a game and its own idea of the time, between any two operations. Under
the lock the game is read again, so its status only moves forward and its results are recorded once. A tie is the one
outcome that does not last: an organizer may still decide the game, or void it.
-/

namespace CpcJudge
namespace Arena

/-! ## What is recorded on the way -/

section
variable {db db' db1 : Db} {m : Match} {op : Op}

theorem Placed.logs {seed : Option ℕ} {target : Option (MatchId × Slot)} {p : Option ProfileId}
    (h : Placed seed db target p db') : Logs db db' := by
  cases h with
  | nobody | nowhere => exact .refl db
  | placed => exact (Logs.refl db).putMatch _

theorem Checked.logs {id : TournamentId} (h : Checked id db db') : Logs db db' := by
  cases h with
  | finished _ _ _ _ _ _ _ _ logs => exact logs
  | same => exact .refl db

theorem Advanced.logs (h : Advanced m db db') : Logs db db' := by
  cases h with
  | quick => exact .refl db
  | onward _ _ _ next loser checked => exact (next.logs.trans loser.logs).trans checked.logs

theorem Reopened.logs {id : TournamentId} (h : Reopened id db db') : Logs db db' := by
  cases h with
  | reopened _ _ _ _ _ _ _ logs => exact logs
  | same => exact .refl db

theorem Op.special_logs (h : op.special db db1) : Logs db db1 := by
  unfold Op.special at h
  split at h
  · exact h.logs
  · exact h.choose_spec.logs
  · obtain ⟨m, hcorrects⟩ := h
    obtain ⟨_, _, now, _, hreopened, hadvanced⟩ := hcorrects.moved
    exact (((Logs.refl db).putMatch (m.correct _ now)).trans hreopened.logs).trans hadvanced.logs
  · exact h.choose_spec.logs
  · rw [h]
    exact .refl db

end

/-! ## What is recorded about a game -/

/-- A result is recorded for a game that has it, once; nothing is recorded under a key nobody has yet. -/
structure Recorded (db : Db) : Prop where
  finishes : ∀ m ∈ db.battles.rows, ∀ g ∈ m.games.rows,
    db.recorded .finish g.id ≤ if g.status = .finished then 1 else 0
  ties : ∀ m ∈ db.battles.rows, ∀ g ∈ m.games.rows, db.recorded .tie g.id ≤ if 4 ≤ g.status.rank then 1 else 0
  fresh : ∀ id, db.nextId ≤ id → db.recorded .finish id = 0 ∧ db.recorded .tie id = 0

namespace Recorded
variable {organizer : Bool} {scope : MatchId → Prop} {db db' db1 : Db} {m m' : Match} {op : Op}

/-- No new game, and no new result. -/
theorem of_logs (h : Recorded db) (logs : Logs db db')
    (hrows : ∀ m' ∈ db'.battles.rows, ∀ g ∈ m'.games.rows, ∃ m ∈ db.battles.rows, g ∈ m.games.rows) :
    Recorded db' := by
  refine ⟨fun m' hm' g hg => ?_, fun m' hm' g hg => ?_, fun id hid => ?_⟩
  · obtain ⟨m, hm, hg⟩ := hrows m' hm' g hg
    exact (logs.finishes g.id).trans (h.finishes m hm g hg)
  · obtain ⟨m, hm, hg⟩ := hrows m' hm' g hg
    exact (logs.ties g.id).trans (h.ties m hm g hg)
  · obtain ⟨hfinish, htie⟩ := h.fresh id (logs.nextId.trans hid)
    exact ⟨Nat.le_zero.mp (hfinish ▸ logs.finishes id), Nat.le_zero.mp (htie ▸ logs.ties id)⟩

/-- The matches rewritten without touching their games. -/
theorem of_maps (h : Recorded db) (logs : Logs db db')
    (hmaps : Table.Maps (fun m m' : Match => m'.games = m.games) db.battles db'.battles) : Recorded db' :=
  h.of_logs logs fun m' hm' g hg => by
    obtain ⟨m, hm, _, hgames⟩ := hmaps.back hm'
    exact ⟨m, hm, hgames ▸ hg⟩

/-- A game with a key of the match `m'`. -/
theorem gameIn_eq {g : Game} {status : GameStatus} (hg : g ∈ m'.games.rows) :
    (m'.gameIn g.id status = true) ↔ g.status = status := by
  simp [Match.gameIn, show m'.games.get? g.id = some g from Table.get?_of_mem hg]

/-- What becomes of a game with an outcome. -/
theorem onward_of_evolves (hm : m.Sound) (h : m.Evolves organizer m') {g g' : Game} (hg : g ∈ m.games.rows)
    (hg' : g' ∈ m'.games.rows) (hid : g'.id = g.id) (hplayed : g.status ≠ .prepared) :
    g.status.Onward organizer g'.status := by
  obtain ⟨x, hx, hxid, _, honward⟩ := h.games g hg ((hm.played g hg).mpr hplayed)
  rwa [Table.eq_of_key hg' hx (hid.trans hxid.symm)]

/-- The bound on one kind of result, after a match is saved: `n` of the status a result needs is kept by
    whatever a game may become. -/
theorem saved_le {name : ActionName} {status : GameStatus} (kept : GameStatus → Prop) [DecidablePred kept]
    (hdb : WellFormed db) (hdb1 : WellFormed db1) (here : db.match? m.id = some m) (hevolves : m.Evolves organizer m')
    (saves : Saves db m m' db1) (hkept : kept status) (hplayed : ∀ x, kept x → x ≠ .prepared)
    (honward : ∀ x y : GameStatus, kept x → x.Onward organizer y → kept y ∧ (y = status → x = status))
    (hle : ∀ id, db1.recorded name id ≤
      db.recorded name id + if m'.gameIn id status ∧ ¬ m.gameIn id status then 1 else 0)
    (hold : ∀ m ∈ db.battles.rows, ∀ g ∈ m.games.rows, db.recorded name g.id ≤ if kept g.status then 1 else 0)
    (hfresh : ∀ id, db.nextId ≤ id → db.recorded name id = 0) :
    (∀ n ∈ db1.battles.rows, ∀ g ∈ n.games.rows, db1.recorded name g.id ≤ if kept g.status then 1 else 0) ∧
      ∀ id, db1.nextId ≤ id → db1.recorded name id = 0 := by
  have hmem := Table.mem_of_get? here
  have hmem' : m' ∈ db1.battles.rows := by
    rw [saves.battles]
    exact Table.mem_of_get? (Table.get?_put_self (b := m) (by
      rw [show Keyed.key m' = m.id from Match.id_of_static hevolves.static]
      exact here))
  constructor
  · intro n hn g hg
    refine (hle g.id).trans ?_
    by_cases hnm : n.id = m'.id
    · obtain rfl := Table.eq_of_key hn hmem' hnm
      cases hbefore : m.games.get? g.id with
      | none =>
          rw [hfresh g.id (saves.fresh g hg hbefore).1, Nat.zero_add]
          by_cases hin : n.gameIn g.id status = true ∧ ¬ m.gameIn g.id status = true
          · rw [if_pos hin, if_pos ((gameIn_eq hg).mp hin.1 ▸ hkept)]
          · rw [if_neg hin]
            exact Nat.zero_le _
      | some x =>
          have hx := Table.mem_of_get? hbefore
          have hid : x.id = g.id := Table.key_of_get? hbefore
          have hcount := hold m hmem x hx
          rw [hid] at hcount
          by_cases hxkept : kept x.status
          · obtain ⟨hgkept, hback⟩ := honward _ _ hxkept
              (onward_of_evolves (hdb.sound m hmem) hevolves hx hg hid.symm (hplayed _ hxkept))
            rw [if_pos hxkept] at hcount
            have hbefore' : n.gameIn g.id status = true → m.gameIn g.id status = true := fun hin =>
              hid ▸ (gameIn_eq hx).mpr (hback ((gameIn_eq hg).mp hin))
            rw [if_pos hgkept, if_neg fun hin => hin.2 (hbefore' hin.1)]
            exact hcount
          · rw [if_neg hxkept] at hcount
            rw [Nat.le_zero.mp hcount, Nat.zero_add]
            by_cases hin : n.gameIn g.id status = true ∧ ¬ m.gameIn g.id status = true
            · rw [if_pos hin, if_pos ((gameIn_eq hg).mp hin.1 ▸ hkept)]
            · rw [if_neg hin]
              exact Nat.zero_le _
    · -- a game of another match
      have hn' : n ∈ db.battles.rows := by
        rw [saves.battles] at hn
        exact ((Table.mem_put hn).resolve_left fun heq => hnm (heq ▸ rfl)).1
      rw [if_neg fun hin => hnm ?_]
      · exact hold n hn' g hg
      · obtain ⟨x, hx, _⟩ := (Option.any_eq_true _ _).mp hin.1
        exact hdb1.own n hn m' hmem' g hg x (Table.mem_of_get? hx) (Table.key_of_get? hx).symm
  · intro id hid
    have hzero := hfresh id (saves.nextId.trans hid)
    have := hle id
    rw [hzero, if_neg fun hin => ?_] at this
    · exact Nat.le_zero.mp this
    · obtain ⟨x, hx, _⟩ := (Option.any_eq_true _ _).mp hin.1
      have hxid : x.id = id := Table.key_of_get? hx
      exact absurd (hdb1.games m' hmem' x (Table.mem_of_get? hx)) (not_lt.mpr (hxid ▸ hid))

/-- A match saved with its results. -/
theorem saves (h : Recorded db) (hdb : WellFormed db) (hdb1 : WellFormed db1) (here : db.match? m.id = some m)
    (hevolves : m.Evolves organizer m') (saves : Saves db m m' db1) : Recorded db1 := by
  have hfinished : ∀ x y : GameStatus, x = .finished → x.Onward organizer y →
      y = .finished ∧ (y = .finished → x = .finished) := by
    rintro x y rfl (rfl | ⟨hlt, _⟩)
    · exact ⟨rfl, fun h => h⟩
    · revert hlt
      cases y <;> simp [GameStatus.rank]
  have hended : ∀ x y : GameStatus, 4 ≤ x.rank → x.Onward organizer y → 4 ≤ y.rank ∧ (y = .tie → x = .tie) := by
    rintro x y hx (rfl | ⟨hlt, _⟩)
    · exact ⟨hx, fun h => h⟩
    · refine ⟨by omega, ?_⟩
      rintro rfl
      exact absurd (lt_of_le_of_lt hx hlt) (by decide)
  obtain ⟨hfinishes, hfinish⟩ := saved_le (fun x => x = .finished) hdb hdb1 here hevolves saves rfl
    (fun x hx => hx ▸ by decide) hfinished saves.finishes h.finishes fun id hid => (h.fresh id hid).1
  obtain ⟨hties, htie⟩ := saved_le (fun x => 4 ≤ x.rank) hdb hdb1 here hevolves saves (by decide)
    (fun x hx heq => absurd (heq ▸ hx) (by decide)) hended saves.ties h.ties fun id hid => (h.fresh id hid).2
  exact ⟨hfinishes, hties, fun id hid => ⟨hfinish id hid, htie id hid⟩⟩

/-- A relation on matches that only speaks of their games. -/
theorem sameGames_covers : Covers (fun m m' : Match => m'.games = m.games) organizer fun _ => False where
  refl _ := rfl
  trans _ _ _ h h' := h'.trans h
  row _ _ own _ := own.elim
  decide _ _ own _ := own.elim
  receive m slot p seed _ := by
    obtain ⟨status, heq, _⟩ := m.receive_eq slot (some p) seed
    rw [heq]

theorem advanced (h : Recorded db) (hadvanced : Advanced m db db') : Recorded db' :=
  h.of_maps hadvanced.logs ((hadvanced.maps (@sameGames_covers true)).mono fun _ _ _ h => h.1)

theorem change (h : Recorded db) (hdb : WellFormed db) (hchange : Change organizer scope db db') : Recorded db' := by
  cases hchange with
  | row here _ step saves =>
      exact h.saves hdb (hdb.saves saves here step.static fun hm => hm.row step) here step.evolves saves
  | decide here _ step saves advanced =>
      have hdb1 := hdb.saves saves here step.static fun hm => hm.decides step
      exact (h.saves hdb hdb1 here step.evolves saves).advanced advanced
  | duel _ _ _ games _ _ _ _ battles _ logs =>
      refine h.of_logs logs fun m' hm' g hg => ?_
      rw [battles] at hm'
      rcases Table.mem_add hm' with rfl | hm'
      · rw [games] at hg
        exact absurd hg List.not_mem_nil
      · exact ⟨m', hm', hg⟩
  | @bracket d _ _ fits _ _ _ _ battles _ _ logs =>
      refine h.of_logs logs fun m' hm' g hg => ?_
      rcases Table.mem_foldl_add (battles ▸ hm') with hm' | hm'
      · exact ⟨m', (Table.mem_filter.mp hm').1, hg⟩
      · rw [(d.mem_fresh fits hm').2.1] at hg
        exact absurd hg List.not_mem_nil
  | tournament _ _ _ _ battles _ logs => exact h.of_logs logs fun m' hm' g hg => ⟨m', battles ▸ hm', hg⟩
  | newTournament _ _ _ _ battles _ logs => exact h.of_logs logs fun m' hm' g hg => ⟨m', battles ▸ hm', hg⟩
  | other battles _ logs => exact h.of_logs logs fun m' hm' g hg => ⟨m', battles ▸ hm', hg⟩

theorem special (h : Recorded db) (hspecial : op.special db db1) : Recorded db1 := by
  refine h.of_maps (Op.special_logs hspecial) ((Op.special_maps hspecial (@sameGames_covers true)
    ⟨fun _ _ _ _ _ _ _ _ _ _ _ _ => rfl, fun m slot profile display _ _ => ?_, fun _ _ _ _ _ _ _ _ _ => rfl⟩).mono
    fun _ _ _ h => h.1)
  obtain ⟨status, heq, _⟩ := m.replace_eq slot profile display
  rw [heq]

end Recorded

theorem Recorded.empty : Recorded {} :=
  ⟨fun _ hm => absurd hm List.not_mem_nil, fun _ hm => absurd hm List.not_mem_nil, fun _ _ => ⟨rfl, rfl⟩⟩

theorem Reachable.recorded {db : Db} (h : Reachable db) : Recorded db :=
  (Run.invariant h .empty .empty (fun hdb hI hchange => hI.change hdb hchange)
    fun _ _ hI hspecial => hI.special hspecial).2

/-! ## One outcome -/

/-- Every game of every run has at most one win, one finish and one tie recorded, and an operation only moves its status
    forward. -/
theorem outcome_once {db : Db} {id : MatchId} {m : Match} {g : Game} (h : Reachable db) (here : db.match? id = some m)
    (hg : g ∈ m.games.rows) :
    (∀ slot, m.wins.get slot = m.gamesWon slot) ∧
      db.recorded .finish g.id ≤ (if g.status = .finished then 1 else 0) ∧
      db.recorded .tie g.id ≤ (if g.status = .tie ∨ g.status = .finished ∨ g.status = .cancelled then 1 else 0) ∧
      (g.started = true → ∀ (site : Site) (op : Op), ∃ m', (op.after site db).match? id = some m' ∧
        ∃ g' ∈ m'.games.rows, g'.id = g.id ∧ g'.started = true ∧
          (g'.status = g.status ∨ g.status.rank < g'.status.rank) ∧
          (g.status = .tie → op.organizer = false → g'.status = .tie) ∧
          (g.status = .finished ∨ g.status = .cancelled → g'.status = g.status)) := by
  have hdb := h.wellFormed
  have hmem := Table.mem_of_get? here
  have hrecorded := h.recorded
  refine ⟨(hdb.sound m hmem).wins, hrecorded.finishes m hmem g hg, ?_, fun hstarted site op => ?_⟩
  · refine (hrecorded.ties m hmem g hg).trans (le_of_eq ?_)
    cases g.status <;> simp [GameStatus.rank]
  · have hlasts : Follows (Match.Lasts op.organizer) db (op.after site db) := Op.lasts hdb
    rcases hlasts.kept id m here with ⟨m', here', hlasts, _⟩ | ⟨_, hunplayed⟩
    · obtain ⟨g', hg', hid, hstarted', honward⟩ := hlasts.games g hg hstarted
      refine ⟨m', here', g', hg', hid, hstarted', ?_, fun htie horganizer => ?_, fun hended => ?_⟩
      · exact honward.imp Eq.symm And.left
      · rcases honward with heq | ⟨_, hleft⟩
        · exact heq.symm.trans htie
        · rw [hleft htie] at horganizer
          cases horganizer
      · rcases honward with heq | ⟨hlt, _⟩
        · exact heq.symm
        · rcases hended with hended | hended <;> rw [hended] at hlt <;> revert hlt <;>
            cases g'.status <;> simp [GameStatus.rank]
    · rw [Match.started_iff.mpr ⟨g, hg, hstarted⟩] at hunplayed
      cases hunplayed

/-- A quick battle, called at once. -/
def duel : Op := .organize 9 (.createDuel ⟨some 1, some 2⟩ [[{ id := 7 }]] 1 {} (.both "") "" true .pending)

/-- Its only game tied: nobody submits anything, and a page asks for its state once it is over. -/
def duelTied : Db := Db.play {}
  [({ now := 0 }, duel), ({ now := 0 }, .organize 9 (.onMatch 1 none (.start none true))),
    ({ now := 1000000000 }, .tick 1 { id := 2, number := 1, status := .live } 1000000000)]

theorem outcome_once_tied : ∃ m, duelTied.match? 1 = some m ∧ ∃ g ∈ m.games.rows, g.status = .tie ∧
    duelTied.recorded .finish g.id = 0 ∧ duelTied.recorded .tie g.id ≤ 1 := by
  have htied : (duelTied.match? 1).any fun m => m.games.rows.any (·.status = .tie) := by decide +kernel
  obtain ⟨m, here, hm⟩ := (Option.any_eq_true _ _).mp htied
  obtain ⟨g, hg, htie⟩ := List.any_eq_true.mp hm
  have htie := of_decide_eq_true htie
  obtain ⟨_, hfinish, hties, _⟩ := outcome_once (Run.play _) here hg
  rw [htie] at hfinish hties
  exact ⟨m, here, g, hg, htie, Nat.le_zero.mp hfinish, hties⟩

/-- An organizer decides the tied game: two outcomes of one game are recorded, its tie and its finish. -/
theorem tied_game_decided : ∃ db, Reachable db ∧ db.recorded .finish 2 = 1 ∧ db.recorded .tie 2 = 1 :=
  ⟨duelTied.play [({ now := 1000000000 }, .organize 9 (.onMatch 1 none (.declare 2 .a)))],
    by rw [duelTied, Db.play, Db.play, ← List.foldl_append]; exact Run.play _, by decide +kernel, by decide +kernel⟩

end Arena
end CpcJudge
