import CpcJudge.Arena.Outcomes

/-!
# `Arena.Length` — how long a series is

A match that goes on has fewer wins than its series needs, as long as no round gets a length that one of its matches
has already outlived. `set_round` does not check it when the length is the one the round already has, and then it
also overwrites the longer series an organizer gave to a single match.
-/

namespace CpcJudge
namespace Arena

/-- The match is over, or nobody has won it yet. -/
def Match.Short (m : Match) : Prop := m.isOver = true ∨ m.mostWins < m.winsNeeded

/-- No match outlives its deciding win. -/
def Short (db : Db) : Prop := ∀ m ∈ db.battles.rows, m.Short

/-- A length for a round that is short for none of its matches. It only matters when the round already has that
    length: otherwise none of its games has been started. -/
def LengthLeft (_ : Site) (op : Op) (db : Db) : Prop :=
  match op with
  | .organize _ (.onTournament id _ (.round number (some bestOf) _ _ _)) =>
    ∀ row round, db.tournament? id = some row → row.round? number = some round → round.bestOf = bestOf →
      ∀ m ∈ db.battles.rows, inRound id number m = true → m.isOver = false → m.mostWins < bestOf / 2 + 1
  | _ => True

section
variable {organizer : Bool} {scope : MatchId → Prop} {db db' db1 : Db} {m m' : Match} {op : Op} {site : Site}

theorem Match.Short.of_same (h : m.Short) (hover : m.isOver = true → m'.isOver = true) (hwins : m'.wins = m.wins)
    (hlength : m'.bestOf = m.bestOf) : m'.Short := by
  refine h.imp hover fun hlt => ?_
  rwa [Match.mostWins, Match.winsNeeded, hwins, hlength]

theorem RowStep.short (h : RowStep organizer m m') (hm : m.Short) : m'.Short := by
  have hended : m.isOver = true → m'.isOver = true := fun hover => by
    rw [Match.isOver, h.evolves.ended hover]
    exact hover
  cases h with
  | length _ _ short => exact .inr short
  | win _ _ _ _ short _ => exact .inr short
  | cancel => exact .inl (by simp [Match.isOver])
  | _ => exact hm.of_same hended rfl rfl

theorem Decides.short (h : Decides organizer m m') : m'.Short := by
  cases h <;> exact .inl rfl

theorem Match.Short.covers : Covers (fun m m' : Match => m.Short → m'.Short) organizer scope where
  refl _ h := h
  trans _ _ _ h h' hm := h' (h hm)
  row _ _ _ step hm := step.short hm
  decide _ _ _ step _ := step.short
  receive m slot p seed _ hm := by
    refine hm.of_same (fun hover => ?_) ?_ ?_
    · rw [Match.isOver, (@Match.receive_evolves true m slot p seed).ended hover]
      exact hover
    all_goals
      obtain ⟨status, heq, _⟩ := m.receive_eq slot (some p) seed
      rw [heq]

theorem Change.short (h : Change organizer scope db db') (hI : Short db) : Short db' := by
  refine h.rows Match.Short.covers (fun m _ hwins _ => .inr ?_) hI
  rw [Match.mostWins, hwins]
  exact Nat.succ_pos _

/-- Before the first game of a match nobody has won one. -/
theorem Match.Sound.noWins (hm : m.Sound) (h : m.started = false) : m.mostWins = 0 := by
  have hnone : ∀ slot, m.wins.get slot = 0 := fun slot => by
    rw [hm.wins slot, Match.gamesWon, List.countP_eq_zero]
    intro g hg hwon
    have hstarted : g.started = true := (hm.played g hg).mpr (by
      rw [(of_decide_eq_true hwon).1]
      decide)
    rw [Match.started_iff.mpr ⟨g, hg, hstarted⟩] at h
    cases h
  rw [Match.mostWins, show m.wins.a = 0 from hnone .a, show m.wins.b = 0 from hnone .b]
  rfl

theorem Short.special (hdb : WellFormed db) (hI : Short db) (hleft : LengthLeft site op db)
    (h : op.special db db1) : Short db1 := by
  have hcovers : Covers (fun m m' : Match => m.Short → m'.Short) true fun _ => False := Match.Short.covers
  refine fun x hx => ?_
  have hmaps := Op.special_maps (R := fun m m' => m.Short → m'.Short) h hcovers
    ⟨fun _ id _ number bestOf _ _ _ hop m hm hin hshort => ?_, fun m slot profile display hgoing _ hm => ?_,
      fun _ _ _ _ _ m now _ _ hm => ?_⟩
  · obtain ⟨y, hy, _, hyx, _⟩ := hmaps.back hx
    exact hyx (hI y hy)
  · -- the length of the round, or one it has never had
    subst hop
    cases hover : m.isOver with
    | true => exact .inl hover
    | false =>
        refine .inr ?_
        obtain ⟨⟨row, round, here, hround, hunplayed⟩, _⟩ := h
        by_cases hsame : round.bestOf = bestOf
        · exact hleft row round here hround hsame m hm hin hover
        · have hin' := hin
          simp only [inRound, Bool.and_eq_true, decide_eq_true_eq] at hin'
          have hnone := (hdb.sound m hm).noWins (hunplayed (Ne.symm hsame) m hm hin'.1.1 hin'.1.2)
          show m.mostWins < bestOf / 2 + 1
          rw [hnone]
          exact Nat.succ_pos _
  · obtain ⟨status, heq, _⟩ := m.replace_eq slot profile display
    rw [heq]
    refine hm.of_same (fun hover => ?_) rfl rfl
    rw [hgoing] at hover
    cases hover
  · exact hm.of_same (fun hover => hover) rfl rfl

end

/-- In a run where no round gets a length some match of it has outlived, no match outlives its deciding win. -/
theorem series_short {db : Db} (h : Run LengthLeft {} db) : ∀ m ∈ db.battles.rows,
    m.status ≠ .decided → m.status ≠ .cancelled → max m.wins.a m.wins.b < m.winsNeeded := by
  have hshort : Short db := (Run.invariant h .empty (fun _ hm => absurd hm List.not_mem_nil)
    (fun _ hI hchange => hchange.short hI) fun hleft hdb hI hspecial => hI.special hdb hleft hspecial).2
  intro m hm hdecided hcancelled
  refine (hshort m hm).resolve_left fun hover => ?_
  simp [Match.isOver, hdecided, hcancelled] at hover

/-- A tournament of two players, whose only match is its final. -/
def finalOnly : Op := .organize 9 (.createTournament "Cup" [some 1, some 2] .manual false {} "" none true none .pending)

/-- The final, best of three in a round that is best of one, after one game. -/
def finalUnderWay : List (Site × Op) :=
  ([finalOnly, .organize 9 (.onTournament 1 none .start),
    .organize 9 (.onMatch 2 none (.update (some 3) none none (.both none))),
    .organize 9 (.onMatch 2 none (.problems none [{ id := 7 }] none)),
    .organize 9 (.onMatch 2 none (.start none true)),
    .organize 9 (.onMatch 2 none (.declare 4 .a))] : List Op).map fun op => ({ now := 0 }, op)

theorem series_short_final : ∃ m ∈ (Db.play {} finalUnderWay).battles.rows, m.status = .playing ∧
    max m.wins.a m.wins.b < m.winsNeeded := by
  have hrun : Run LengthLeft {} (Db.play {} finalUnderWay) := by
    refine Run.ofSteps _ fun step hstep db => ?_
    obtain ⟨op, hop, rfl⟩ := List.mem_map.mp hstep
    fin_cases hop <;> trivial
  have hplaying : (Db.play {} finalUnderWay).battles.rows.any (·.status = .playing) := by decide +kernel
  obtain ⟨m, hm, hstatus⟩ := List.any_eq_true.mp hplaying
  have hstatus := of_decide_eq_true hstatus
  exact ⟨m, hm, hstatus, series_short hrun m hm (by simp [hstatus]) (by simp [hstatus])⟩

/-- The round gets the length it already has, and the final goes on with the wins it needs. -/
theorem outlived_final : ∃ db, Reachable db ∧ ∃ m ∈ db.battles.rows, m.status ≠ .decided ∧ m.status ≠ .cancelled ∧
    ¬ max m.wins.a m.wins.b < m.winsNeeded := by
  refine ⟨Db.play {} (finalUnderWay ++
    [({ now := 0 }, .organize 9 (.onTournament 1 none (.round 1 (some 1) none none none)))]), Run.play _, ?_⟩
  decide +kernel

end Arena
end CpcJudge
