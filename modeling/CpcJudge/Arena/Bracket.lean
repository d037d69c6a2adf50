import CpcJudge.Arena.Sound

/-!
# `Arena.Bracket` — the shape of a bracket

A bracket of `size = 2 ^ rounds` places is a binary tree numbered from the final: the match `position` of the
round `back` before the final has the key `base + (2 ^ back - 1) + position`, so that different places have
different keys and each slot is fed by one match. The seeds of a first round match are paired so that the first
one is in the better half, which is always complete: nobody's bye is empty.
-/

namespace CpcJudge
namespace Arena

/-! ## Sizes -/

theorem sizeLoop_spec (count : ℕ) : ∀ fuel k, (k = 0 ∨ 2 ^ (k - 1) < count) → count ≤ fuel + k →
    ∃ j, sizeLoop count fuel (2 ^ k) = 2 ^ j ∧ count ≤ 2 ^ j ∧ (j = 0 ∨ 2 ^ (j - 1) < count)
  | 0, k, hlow, hfuel => ⟨k, rfl, (by omega : count ≤ k).trans k.lt_two_pow_self.le, hlow⟩
  | fuel + 1, k, hlow, hfuel => by
    unfold sizeLoop
    by_cases h : 2 ^ k < count
    · rw [if_pos h, ← pow_succ]
      exact sizeLoop_spec count fuel (k + 1) (.inr h) (by omega)
    · rw [if_neg h]
      exact ⟨k, rfl, by omega, hlow⟩

/-- The size of a bracket is a power of two that seats everybody, and half of it would not. -/
theorem bracketSize_spec (count : ℕ) :
    ∃ k, bracketSize count = 2 ^ k ∧ count ≤ 2 ^ k ∧ (k = 0 ∨ 2 ^ (k - 1) < count) :=
  sizeLoop_spec count count 0 (.inl rfl) (by omega)

theorem roundLoop_pow : ∀ fuel k rounds, k ≤ fuel → roundLoop fuel (2 ^ k) rounds = rounds + k
  | 0, k, rounds, h => by
    obtain rfl : k = 0 := by omega
    rfl
  | fuel + 1, 0, rounds, _ => by
    unfold roundLoop
    rw [if_neg (by simp)]
    rfl
  | fuel + 1, k + 1, rounds, h => by
    unfold roundLoop
    rw [if_pos (Nat.one_lt_two_pow (by omega)), pow_succ, Nat.mul_div_cancel _ (by decide : 0 < 2),
      roundLoop_pow fuel k (rounds + 1) (by omega)]
    omega

/-- There are as many rounds as halvings. -/
theorem bracketSize_eq (count : ℕ) : bracketSize count = 2 ^ roundCount count := by
  obtain ⟨k, hk, -, -⟩ := bracketSize_spec count
  rw [roundCount, hk, roundLoop_pow _ _ _ k.lt_two_pow_self.le, Nat.zero_add]

/-- The better half of the seeds is complete. -/
theorem half_lt {count : ℕ} (h : 2 ≤ count) : 1 ≤ roundCount count ∧ 2 ^ (roundCount count - 1) < count := by
  obtain ⟨k, hk, hle, hhalf⟩ := bracketSize_spec count
  have hrounds : roundCount count = k := by
    have := bracketSize_eq count
    rw [hk] at this
    exact (Nat.pow_right_injective (le_refl 2) this).symm
  rw [hrounds]
  rcases hhalf with rfl | hhalf
  · simp at hle
    omega
  · refine ⟨?_, hhalf⟩
    by_contra hzero
    obtain rfl : k = 0 := by omega
    simp at hle
    omega

/-! ## The order of the seeds -/

/-- One turn of `seeding_order`. -/
def spread (order : List ℕ) : List ℕ := order.flatMap fun current => [current, order.length * 2 + 1 - current]

theorem length_spread (order : List ℕ) : (spread order).length = order.length * 2 := by
  simp [spread, List.length_flatMap]

theorem spread_getElem? (order : List ℕ) (i : ℕ) : (spread order)[2 * i]? = order[i]? := by
  have hpairs : ∀ (n : ℕ) (l : List ℕ), (l.flatMap fun c => [c, n - c])[2 * i]? = l[i]? := by
    intro n l
    induction l generalizing i with
    | nil => simp
    | cons c l ih =>
        cases i with
        | zero => simp
        | succ i =>
            show ([c, n - c] ++ l.flatMap _)[2 * i + 2]? = (c :: l)[i + 1]?
            rw [List.getElem?_append_right (by simp), List.getElem?_cons_succ, ← ih i]
            simp
  exact hpairs _ order

/-- The order of `2 ^ k` seeds. -/
def orderOf : ℕ → List ℕ
  | 0 => [1]
  | k + 1 => spread (orderOf k)

theorem length_orderOf : ∀ k, (orderOf k).length = 2 ^ k
  | 0 => rfl
  | k + 1 => by rw [orderOf, length_spread, length_orderOf k, pow_succ]

theorem mem_orderOf : ∀ {k seed : ℕ}, seed ∈ orderOf k → 1 ≤ seed ∧ seed ≤ 2 ^ k
  | 0, seed, h => by
    rw [orderOf, List.mem_singleton] at h
    subst h
    exact ⟨le_refl 1, le_refl 1⟩
  | k + 1, seed, h => by
    rw [orderOf, spread, List.mem_flatMap] at h
    obtain ⟨current, hcurrent, hseed⟩ := h
    obtain ⟨hlow, hhigh⟩ := mem_orderOf hcurrent
    rw [length_orderOf] at hseed
    simp only [List.mem_cons, List.not_mem_nil, or_false] at hseed
    rw [pow_succ]
    rcases hseed with rfl | rfl <;> omega

theorem seedingLoop_eq (k : ℕ) : ∀ fuel j, j ≤ k → k ≤ fuel + j →
    seedingLoop (2 ^ k) fuel (orderOf j) = orderOf k
  | 0, j, hj, hfuel => by
    obtain rfl : j = k := by omega
    rfl
  | fuel + 1, j, hj, hfuel => by
    unfold seedingLoop
    rw [length_orderOf]
    by_cases h : 2 ^ j < 2 ^ k
    · rw [if_pos h]
      have hlt : j < k := (Nat.pow_lt_pow_iff_right (by decide)).mp h
      have hnext := seedingLoop_eq k fuel (j + 1) hlt (by omega)
      rwa [orderOf, spread, length_orderOf] at hnext
    · rw [if_neg h]
      have : ¬ j < k := fun hlt => h (Nat.pow_lt_pow_right (by decide) hlt)
      rw [show j = k by omega]

theorem seedingOrder_pow (k : ℕ) : seedingOrder (2 ^ k) = orderOf k :=
  seedingLoop_eq k _ 0 (Nat.zero_le k) (by have := k.lt_two_pow_self; omega)

/-- The first seed of a pair is in the better half. -/
theorem seedingOrder_first {rounds position : ℕ} (hrounds : 1 ≤ rounds) (h : position < 2 ^ (rounds - 1)) :
    ∃ seed, (seedingOrder (2 ^ rounds))[2 * position]? = some seed ∧ 1 ≤ seed ∧ seed ≤ 2 ^ (rounds - 1) := by
  obtain ⟨k, rfl⟩ : ∃ k, rounds = k + 1 := ⟨rounds - 1, by omega⟩
  rw [seedingOrder_pow, orderOf, spread_getElem?]
  simp only [Nat.add_sub_cancel] at h ⊢
  have hlt : position < (orderOf k).length := by rwa [length_orderOf]
  exact ⟨_, List.getElem?_eq_getElem hlt, mem_orderOf (List.getElem_mem hlt)⟩

/-! ## The numbering -/

theorem pow_sub_one_add {k : ℕ} : 2 ^ k - 1 + 2 ^ k = 2 ^ (k + 1) - 1 := by
  have : 1 ≤ 2 ^ k := Nat.one_le_two_pow
  rw [pow_succ]
  omega

/-- Different places have different numbers. -/
theorem place_inj {b c p q : ℕ} (hp : p < 2 ^ b) (hq : q < 2 ^ c) (h : 2 ^ b - 1 + p = 2 ^ c - 1 + q) :
    b = c ∧ p = q := by
  have hb : 1 ≤ 2 ^ b := Nat.one_le_two_pow
  have hc : 1 ≤ 2 ^ c := Nat.one_le_two_pow
  rcases Nat.lt_trichotomy b c with hlt | rfl | hlt
  · have := Nat.pow_le_pow_right (by decide : 0 < 2) hlt
    rw [pow_succ] at this
    omega
  · exact ⟨rfl, by omega⟩
  · have := Nat.pow_le_pow_right (by decide : 0 < 2) hlt
    rw [pow_succ] at this
    omega

/-! ## The matches of a plan -/

theorem Match.mem_targets {m : Match} {p : MatchId × Slot} :
    p ∈ m.targets ↔ m.nextMatch = some p ∨ m.loserNextMatch = some p := by
  simp [Match.targets]

namespace BracketPlan
variable {d : BracketPlan}

/-- The match of a place. -/
def node (d : BracketPlan) (back position : ℕ) : Match :=
  if back + 1 = d.rounds then d.seatPlayers (d.blank back position) else d.blank back position

/-- Taking their seats changes the players of a match, and makes it ready. -/
theorem seatPlayers_eq (m : Match) (h : m.status = .pending) :
    ∃ players seeds status, d.seatPlayers m = { m with players, seeds, status } ∧
      (status = .pending ∨ status = .ready) ∧
      players.a = ((seedingOrder d.size)[2 * m.position]?.bind d.seat).map Participant.profile := by
  unfold seatPlayers
  by_cases hready : Match.ready { m with
      players := ⟨((seedingOrder d.size)[2 * m.position]?.bind d.seat).map Participant.profile,
        ((seedingOrder d.size)[2 * m.position + 1]?.bind d.seat).map Participant.profile⟩
      seeds := ⟨((seedingOrder d.size)[2 * m.position]?.bind d.seat).map Participant.seed,
        ((seedingOrder d.size)[2 * m.position + 1]?.bind d.seat).map Participant.seed⟩ } = true
  · exact ⟨_, _, .ready, if_pos hready, .inr rfl, rfl⟩
  · exact ⟨_, _, m.status, if_neg hready, .inl h, rfl⟩

/-- A match of the plan, but for its players, is a blank one. -/
theorem node_eq (back position : ℕ) :
    ∃ players seeds status, d.node back position = { d.blank back position with players, seeds, status } ∧
      (status = .pending ∨ status = .ready) ∧
      (back + 1 ≠ d.rounds → players = .both none) ∧
      (back + 1 = d.rounds → players.a =
        ((seedingOrder d.size)[2 * position]?.bind d.seat).map Participant.profile) := by
  unfold node
  by_cases hfirst : back + 1 = d.rounds
  · obtain ⟨players, seeds, status, heq, hstatus, ha⟩ := d.seatPlayers_eq (d.blank back position) rfl
    exact ⟨players, seeds, status, (if_pos hfirst).trans heq, hstatus, fun h => absurd hfirst h, fun _ => ha⟩
  · exact ⟨.both none, .both none, .pending, if_neg hfirst, .inl rfl, fun _ => rfl, fun h => absurd h hfirst⟩

theorem node_static (back position : ℕ) : (d.node back position).static = (d.blank back position).static := by
  obtain ⟨_, _, _, heq, -⟩ := d.node_eq back position
  rw [heq]
  rfl

theorem node_id (back position : ℕ) : (d.node back position).id = d.matchId back position :=
  congrArg (·.1) (node_static (d := d) back position)

theorem size_shift (fits : d.Fits) {back : ℕ} (h : back < d.rounds) : d.size >>> (d.rounds - back) = 2 ^ back := by
  rw [fits.size, bracketSize_eq, ← fits.rounds, Nat.shiftRight_eq_div_pow,
    Nat.pow_div (by omega) (by decide)]
  congr 1
  omega

theorem roundMatches_eq (fits : d.Fits) {back : ℕ} (h : back < d.rounds) :
    d.roundMatches back = (List.range (2 ^ back)).map (d.node back) := by
  rw [roundMatches, size_shift fits h]
  rfl

theorem mem_allMatches (fits : d.Fits) {m : Match} : m ∈ d.allMatches ↔
    (∃ back position, back < d.rounds ∧ position < 2 ^ back ∧ m = d.node back position) ∨
      (d.third = true ∧ m = d.thirdMatch) := by
  rw [allMatches, List.mem_append, List.mem_flatMap]
  constructor
  · rintro (⟨back, hback, hm⟩ | hm)
    · rw [List.mem_range] at hback
      rw [roundMatches_eq fits hback] at hm
      obtain ⟨position, hposition, rfl⟩ := List.mem_map.mp hm
      exact .inl ⟨back, position, hback, List.mem_range.mp hposition, rfl⟩
    · by_cases hthird : d.third = true
      · rw [if_pos hthird] at hm
        exact .inr ⟨hthird, List.mem_singleton.mp hm⟩
      · rw [if_neg hthird] at hm
        cases hm
  · rintro (⟨back, position, hback, hposition, rfl⟩ | ⟨hthird, rfl⟩)
    · refine .inl ⟨back, List.mem_range.mpr hback, ?_⟩
      rw [roundMatches_eq fits hback]
      exact List.mem_map.mpr ⟨position, List.mem_range.mpr hposition, rfl⟩
    · exact .inr (by rw [if_pos hthird]; exact List.mem_singleton.mpr rfl)

theorem length_allMatches (fits : d.Fits) :
    d.allMatches.length = 2 ^ d.rounds - 1 + if d.third = true then 1 else 0 := by
  have hrounds : ∀ n, n ≤ d.rounds → ((List.range n).flatMap d.roundMatches).length = 2 ^ n - 1 := by
    intro n hn
    induction n with
    | zero => rfl
    | succ n ih =>
        rw [List.range_succ, List.flatMap_append, List.length_append, ih (by omega), List.flatMap_singleton,
          roundMatches_eq fits (by omega), List.length_map, List.length_range, pow_sub_one_add]
  rw [allMatches, List.length_append, hrounds _ (le_refl _)]
  by_cases hthird : d.third = true
  · rw [if_pos hthird, if_pos hthird]
    rfl
  · rw [if_neg hthird, if_neg hthird]
    rfl

/-- A place comes before the third place match. -/
theorem place_lt {back position : ℕ} (hback : back < d.rounds) (h : position < 2 ^ back) :
    2 ^ back - 1 + position < 2 ^ d.rounds - 1 := by
  have hpow : 2 ^ (back + 1) ≤ 2 ^ d.rounds := Nat.pow_le_pow_right (by decide) hback
  have : 1 ≤ 2 ^ back := Nat.one_le_two_pow
  rw [pow_succ] at hpow
  omega

theorem matchId_inj {b c p q : ℕ} (hp : p < 2 ^ b) (hq : q < 2 ^ c) (h : d.matchId b p = d.matchId c q) :
    b = c ∧ p = q := by
  have hsum : (d.base + (2 ^ b - 1) + p : ℕ) = d.base + (2 ^ c - 1) + q := h
  unfold MatchId at hsum
  exact place_inj hp hq (by omega)

/-- The new keys. -/
theorem id_bounds (fits : d.Fits) {m : Match} (h : m ∈ d.allMatches) :
    d.base ≤ m.id ∧ m.id < d.base + d.allMatches.length := by
  rw [length_allMatches fits]
  rcases (mem_allMatches fits).mp h with ⟨back, position, hback, hposition, rfl⟩ | ⟨hthird, rfl⟩
  · have hlt := place_lt hback hposition
    rw [node_id]
    show (d.base : ℕ) ≤ d.base + (2 ^ back - 1) + position ∧
      (d.base + (2 ^ back - 1) + position : ℕ) < d.base + (2 ^ d.rounds - 1 + _)
    unfold MatchId
    omega
  · rw [if_pos hthird]
    show (d.base : ℕ) ≤ d.base + (2 ^ d.rounds - 1) ∧
      (d.base + (2 ^ d.rounds - 1) : ℕ) < d.base + (2 ^ d.rounds - 1 + 1)
    unfold MatchId
    omega

/-- Where the winner of a match of the plan goes. -/
theorem next_of_mem (fits : d.Fits) {m : Match} (h : m ∈ d.allMatches) {p : MatchId × Slot}
    (hp : m.nextMatch = some p) : ∃ back position, back + 1 < d.rounds ∧ position < 2 ^ (back + 1) ∧
      m = d.node (back + 1) position ∧ p = (d.matchId back (position / 2), slotOf position) := by
  rcases (mem_allMatches fits).mp h with ⟨back, position, hback, hposition, rfl⟩ | ⟨_, rfl⟩
  · rw [show (d.node back position).nextMatch = (d.blank back position).nextMatch from
      congrArg (·.2.2.2.2.1) (d.node_static back position)] at hp
    cases back with
    | zero => cases hp
    | succ back => exact ⟨back, position, hback, hposition, rfl, (Option.some.inj hp).symm⟩
  · cases hp

/-- Where the loser of a semifinal goes. -/
theorem loser_of_mem (fits : d.Fits) {m : Match} (h : m ∈ d.allMatches) {p : MatchId × Slot}
    (hp : m.loserNextMatch = some p) : d.third = true ∧ ∃ position, 1 < d.rounds ∧ position < 2 ∧
      m = d.node 1 position ∧ p = (d.thirdId, if position = 0 then .a else .b) := by
  rcases (mem_allMatches fits).mp h with ⟨back, position, hback, hposition, rfl⟩ | ⟨_, rfl⟩
  · rw [show (d.node back position).loserNextMatch = (d.blank back position).loserNextMatch from
      congrArg (·.2.2.2.2.2) (d.node_static back position)] at hp
    unfold blank at hp
    by_cases hone : back = 1 ∧ d.third = true
    · rw [if_pos hone] at hp
      obtain ⟨rfl, hthird⟩ := hone
      exact ⟨hthird, position, hback, hposition, rfl, (Option.some.inj hp).symm⟩
    · rw [if_neg hone] at hp
      cases hp
  · cases hp

theorem slotOf_inj {p q : ℕ} (hhalf : p / 2 = q / 2) (h : slotOf p = slotOf q) : p = q := by
  unfold slotOf at h
  split_ifs at h <;> omega

/-- A place is never the third place match. -/
theorem matchId_ne_third {back position : ℕ} (hback : back < d.rounds) (h : position < 2 ^ back) :
    d.matchId back position ≠ d.thirdId := by
  have hlt := place_lt hback h
  show (d.base + (2 ^ back - 1) + position : ℕ) ≠ d.base + (2 ^ d.rounds - 1)
  unfold MatchId
  omega

theorem half_lt_pow {back position : ℕ} (h : position < 2 ^ (back + 1)) : position / 2 < 2 ^ back := by
  rw [pow_succ] at h
  omega

/-- Matches of the plan have keys of their own. -/
theorem eq_of_id (fits : d.Fits) {m n : Match} (hm : m ∈ d.allMatches) (hn : n ∈ d.allMatches)
    (h : m.id = n.id) : m = n := by
  rcases (mem_allMatches fits).mp hm with ⟨b, p, hb, hp, rfl⟩ | ⟨_, rfl⟩ <;>
    rcases (mem_allMatches fits).mp hn with ⟨c, q, hc, hq, rfl⟩ | ⟨_, rfl⟩
  · rw [node_id, node_id] at h
    obtain ⟨rfl, rfl⟩ := matchId_inj hp hq h
    rfl
  · rw [node_id] at h
    exact absurd h (matchId_ne_third hb hp)
  · rw [node_id] at h
    exact absurd h.symm (matchId_ne_third hc hq)
  · rfl

/-- Players stay in the plan, and leave the match they played. -/
theorem target_bounds (fits : d.Fits) {m : Match} (h : m ∈ d.allMatches) {p : MatchId × Slot}
    (hp : p ∈ m.targets) : d.base ≤ p.1 ∧ p.1 < d.base + d.allMatches.length ∧ p.1 ≠ m.id := by
  rcases Match.mem_targets.mp hp with hp | hp
  · obtain ⟨back, position, hback, hposition, rfl, rfl⟩ := next_of_mem fits h hp
    have hmem : d.node back (position / 2) ∈ d.allMatches :=
      (mem_allMatches fits).mpr (.inl ⟨back, _, by omega, half_lt_pow hposition, rfl⟩)
    obtain ⟨hlow, hhigh⟩ := id_bounds fits hmem
    rw [node_id] at hlow hhigh ⊢
    refine ⟨hlow, hhigh, fun heq => ?_⟩
    have := (matchId_inj (half_lt_pow hposition) hposition heq).1
    omega
  · obtain ⟨hthird, position, hrounds, hposition, rfl, rfl⟩ := loser_of_mem fits h hp
    have hmem : d.thirdMatch ∈ d.allMatches := (mem_allMatches fits).mpr (.inr ⟨hthird, rfl⟩)
    obtain ⟨hlow, hhigh⟩ := id_bounds fits hmem
    rw [node_id]
    exact ⟨hlow, hhigh, (matchId_ne_third hrounds hposition).symm⟩

/-- The winner and the loser of a match part. -/
theorem targets_apart (fits : d.Fits) {m : Match} (h : m ∈ d.allMatches) {p q : MatchId × Slot}
    (hp : m.nextMatch = some p) (hq : m.loserNextMatch = some q) : p.1 ≠ q.1 := by
  obtain ⟨back, position, hback, hposition, _, rfl⟩ := next_of_mem fits h hp
  obtain ⟨_, _, _, _, _, rfl⟩ := loser_of_mem fits h hq
  exact matchId_ne_third (by omega) (half_lt_pow hposition)

/-- Every slot is fed by one match. -/
theorem feeder_unique (fits : d.Fits) {m n : Match} (hm : m ∈ d.allMatches) (hn : n ∈ d.allMatches)
    {p : MatchId × Slot} (hpm : p ∈ m.targets) (hpn : p ∈ n.targets) : m.id = n.id := by
  rcases Match.mem_targets.mp hpm with hpm | hpm <;> rcases Match.mem_targets.mp hpn with hpn | hpn
  · obtain ⟨b, x, hb, hx, rfl, rfl⟩ := next_of_mem fits hm hpm
    obtain ⟨c, y, hc, hy, rfl, heq⟩ := next_of_mem fits hn hpn
    obtain ⟨hid, hslot⟩ := Prod.mk.inj heq
    obtain ⟨rfl, hhalf⟩ := matchId_inj (half_lt_pow hx) (half_lt_pow hy) hid
    rw [slotOf_inj hhalf hslot]
  · obtain ⟨b, x, hb, hx, rfl, rfl⟩ := next_of_mem fits hm hpm
    obtain ⟨_, _, _, _, _, heq⟩ := loser_of_mem fits hn hpn
    exact absurd (Prod.mk.inj heq).1 (matchId_ne_third (by omega) (half_lt_pow hx))
  · obtain ⟨_, _, _, _, _, rfl⟩ := loser_of_mem fits hm hpm
    obtain ⟨c, y, hc, hy, rfl, heq⟩ := next_of_mem fits hn hpn
    exact absurd (Prod.mk.inj heq).1.symm (matchId_ne_third (by omega) (half_lt_pow hy))
  · obtain ⟨_, x, _, hx, rfl, rfl⟩ := loser_of_mem fits hm hpm
    obtain ⟨_, y, _, hy, rfl, heq⟩ := loser_of_mem fits hn hpn
    have hslot := (Prod.mk.inj heq).2
    have : x = y := by
      split_ifs at hslot <;> omega
    rw [this]

/-- A match of the plan is new: nothing has happened in it. -/
theorem mem_fresh (fits : d.Fits) {m : Match} (h : m ∈ d.allMatches) :
    m.tournament = some d.tournament.id ∧ m.games = .empty ∧ m.wins = .both 0 ∧ m.isOver = false := by
  rcases (mem_allMatches fits).mp h with ⟨back, position, _, _, rfl⟩ | ⟨_, rfl⟩
  · obtain ⟨_, _, status, heq, hstatus, -⟩ := d.node_eq back position
    rw [heq]
    refine ⟨rfl, rfl, rfl, ?_⟩
    rcases hstatus with rfl | rfl <;> rfl
  · exact ⟨rfl, rfl, rfl, rfl⟩

/-- A match that waits for players has none. -/
theorem target_empty (fits : d.Fits) {m n : Match} (hm : m ∈ d.allMatches) (hn : n ∈ d.allMatches)
    {p : MatchId × Slot} (hp : p ∈ m.targets) (hid : n.id = p.1) : n.players = .both none := by
  rcases (mem_allMatches fits).mp hn with ⟨c, y, hc, hy, rfl⟩ | ⟨_, rfl⟩
  · rw [node_id] at hid
    obtain ⟨_, _, _, heq, _, hplayers, _⟩ := d.node_eq c y
    rw [heq]
    refine hplayers ?_
    rcases Match.mem_targets.mp hp with hp | hp
    · obtain ⟨b, x, hb, hx, _, rfl⟩ := next_of_mem fits hm hp
      obtain ⟨rfl, _⟩ := matchId_inj hy (half_lt_pow hx) hid
      omega
    · obtain ⟨_, _, _, _, _, rfl⟩ := loser_of_mem fits hm hp
      exact absurd hid (matchId_ne_third hc hy)
  · rfl

/-- The match for third place leads nowhere. -/
theorem third_last (fits : d.Fits) {m n : Match} (hm : m ∈ d.allMatches) (hn : n ∈ d.allMatches)
    {q : MatchId × Slot} (hq : m.loserNextMatch = some q) (hid : n.id = q.1) : n.targets = [] := by
  obtain ⟨_, _, _, _, _, rfl⟩ := loser_of_mem fits hm hq
  rcases (mem_allMatches fits).mp hn with ⟨c, y, hc, hy, rfl⟩ | ⟨_, rfl⟩
  · rw [node_id] at hid
    exact absurd hid (matchId_ne_third hc hy)
  · rfl

/-- The first seed of a first round match always plays. -/
theorem first_seated (fits : d.Fits) {position : ℕ} (h : position < 2 ^ (d.rounds - 1)) :
    ((d.node (d.rounds - 1) position).players.a).isSome = true := by
  obtain ⟨hone, hhalf⟩ := half_lt fits.count
  rw [← fits.rounds] at hone hhalf
  obtain ⟨_, _, _, heq, _, _, ha⟩ := d.node_eq (d.rounds - 1) position
  rw [heq, ha (by omega), fits.size, bracketSize_eq, ← fits.rounds]
  obtain ⟨seed, hseed, hlow, hhigh⟩ := seedingOrder_first hone h
  rw [hseed, Option.isSome_map]
  exact fits.seeded seed hlow (by omega)

/-- The matches of the first round. -/
theorem mem_firstRound (fits : d.Fits) {m : Match} (h : m ∈ d.roundMatches (d.rounds - 1)) :
    m ∈ d.allMatches ∧ m.players.a.isSome = true := by
  have hlt : d.rounds - 1 < d.rounds := by
    have := (half_lt fits.count).1
    rw [← fits.rounds] at this
    omega
  rw [roundMatches_eq fits hlt] at h
  obtain ⟨position, hposition, rfl⟩ := List.mem_map.mp h
  have hposition := List.mem_range.mp hposition
  exact ⟨(mem_allMatches fits).mpr (.inl ⟨_, position, hlt, hposition, rfl⟩), first_seated fits hposition⟩

end BracketPlan

end Arena
end CpcJudge
