import Mathlib.Algebra.Order.Floor.Ring
import Mathlib.Analysis.Real.Sqrt
import Mathlib.Analysis.SpecialFunctions.Trigonometric.Basic
import Mathlib.Tactic

/-!
# Performances

The first half of `recalculate_ratings` of `judge/ratings.py`: the performance of each participant of a contest, out
of the ranking. A performance is where a sum of `tanh`s meets a target, found by bisection. They go down along the
ranking, so `divconq` solves the middle of an interval first and looks for the others between that and the ends.

The numbers are those of an ordered field in place of floats, with the functions of `math` as a parameter. Beside
`new_p` there is a record of the calls of `solve_idx`, which the code does not keep.
-/

namespace CpcJudge.Ratings

/-- What the formulas take from `math`. -/
structure MathModule (F : Type) where
  sqrt : F → F
  tanh : F → F
  pi : F

variable {F : Type} [Field F] [LinearOrder F] [IsStrictOrderedRing F] [FloorRing F] (math : MathModule F)

/-- `BETA2`. -/
def beta2 : F := 328.33 ^ 2

/-- `VAR_INIT`. -/
def varInit : F := 350 ^ 2 * (beta2 / 212 ^ 2)

/-- `VAR_PER_CONTEST`. -/
def varPerContest : F := 1219.047619 * (beta2 / 212 ^ 2)

namespace MathModule

/-- `SD_INIT`. -/
def sdInit : F := math.sqrt varInit

/-- `VALID_RANGE`. -/
def validRange : F × F := (1500 - 20 * math.sdInit, 1500 + 20 * math.sdInit)

/-- `TANH_C`. -/
def tanhC : F := math.sqrt 3 / math.pi

end MathModule

/-- `get_var`; the cache holds the values before. -/
def getVar : ℕ → F
  | 0 => varInit
  | timesRanked + 1 => 1 / (1 / (getVar timesRanked + varPerContest) + 1 / beta2)

/-! ## Where the sum meets the target -/

/-- `tanh_terms`. -/
structure TanhTerm (F : Type) where
  mu : F
  sd : F
  wt : F

def evalTanhs (terms : List (TanhTerm F)) (x : F) : F :=
  (terms.map fun term => term.wt / term.sd * math.tanh ((x - term.mu) / (2 * term.sd))).sum

/-- The end of `solve`: the interpolation between two ends. -/
def interpolate (f : F → F) (yTg L R : F) (Ly Ry : Option F) : F :=
  let ly := Ly.getD (f L)
  if yTg ≤ ly then L
  else
    let ry := Ry.getD (f R)
    if ry ≤ yTg then R
    else
      let ratio := (yTg - ly) / (ry - ly)
      L * (1 - ratio) + R * ratio

theorem ceil_half_lt {x y : F} (h : 2 < x) (hy : y = x / 2) : ⌈y⌉₊ < ⌈x⌉₊ := by
  have hsub : ⌈x - 1⌉₊ = ⌈x⌉₊ - 1 := Nat.ceil_sub_one x
  have hle : ⌈y⌉₊ ≤ ⌈x - 1⌉₊ := Nat.ceil_mono (by linarith)
  have hpos : 0 < ⌈x⌉₊ := Nat.ceil_pos.mpr (by linarith)
  omega

/-- `while R - L > 2`. -/
def solveBetween {F : Type} [Field F] [LinearOrder F] [IsStrictOrderedRing F] [FloorRing F] (f : F → F)
    (yTg L R : F) (Ly Ry : Option F) : F :=
  if 2 < R - L then
    let x := (L + R) / 2
    let y := f x
    if yTg < y then solveBetween f yTg L x Ly (some y)
    else if y < yTg then solveBetween f yTg x R (some y) Ry
    else x
  else interpolate f yTg L R Ly Ry
termination_by ⌈R - L⌉₊
decreasing_by all_goals exact ceil_half_lt ‹_› (by ring)

def solve (terms : List (TanhTerm F)) (yTg linFactor : F) (bounds : F × F) : F :=
  solveBetween (fun x => linFactor * x + evalTanhs math terms x) yTg bounds.1 bounds.2 none none

/-! ## Divide and conquer -/

/-- What `solve_idx` reads: the ranks, and the terms of the participants in the order of the ranking. -/
structure Standings (F : Type) where
  ranking : List F
  delta : List F
  pTanhTerms : List (TanhTerm F)

/-- A call of `solve_idx`, and the performance it found. -/
structure Solved (F : Type) where
  index : ℕ
  bounds : F × F
  performance : F

/-- `new_p`, and the calls of `solve_idx` so far. -/
structure Performances (F : Type) where
  newP : List F
  solved : List (Solved F)

/-- Half a win for a tie, which is nothing here. -/
def target (c : Standings F) (r : F) : F :=
  (c.delta.zip c.ranking).foldl (fun yTg (d, s) => if r < s then yTg + 1 / d else if s < r then yTg - 1 / d else yTg) 0

/-- `solve_idx`. -/
def solveIdx (c : Standings F) (i : ℕ) (bounds : F × F) (p : Performances F) : Performances F :=
  let performance := solve math c.pTanhTerms (target c (c.ranking.getD i 0)) 0 bounds
  { newP := p.newP.set i performance, solved := p.solved ++ [⟨i, bounds, performance⟩] }

def divconq (c : Standings F) (i j : ℕ) (p : Performances F) : Performances F :=
  if 1 < j - i then
    let k := (i + j) / 2
    divconq c k j (divconq c i k (solveIdx math c k (p.newP.getD j 0, p.newP.getD i 0) p))
  else p
termination_by j - i

/-- `recalculate_ratings`, as far as the performances. -/
def performances (ranking oldMean : List F) (timesRanked : List ℕ) : Performances F :=
  let n := ranking.length
  let delta := timesRanked.map fun t => math.tanhC * math.sqrt (getVar t + varPerContest + beta2)
  let c : Standings F := ⟨ranking, delta, List.zipWith (fun m d => ⟨m, d, 1⟩) oldMean delta⟩
  if n < 2 then ⟨oldMean, []⟩
  else
    let p := solveIdx math c 0 math.validRange ⟨List.replicate n 0, []⟩
    divconq math c 0 (n - 1) (solveIdx math c (n - 1) math.validRange p)

/-! ## Every index once, between two that are solved -/

namespace Performances

/-- The indices that have a performance. -/
def indices (p : Performances F) : List ℕ := p.solved.map (·.index)

end Performances

/-- The bounds are the performances of an index on either side, out of those solved before. -/
def Solved.Between (before : List (Solved F)) (s : Solved F) : Prop :=
  ∃ left ∈ before, ∃ right ∈ before, left.index < s.index ∧ s.index < right.index ∧
    s.bounds = (right.performance, left.performance)

/-- `new_p` holds the performances that were solved: those of the two ends first, over the whole range, and the others
between two of those before. -/
structure Filled (n : ℕ) (p : Performances F) : Prop where
  length : p.newP.length = n
  inside : ∀ s ∈ p.solved, s.index < n
  once : p.indices.Nodup
  entry : ∀ s ∈ p.solved, p.newP[s.index]? = some s.performance
  ends : ∃ first last rest, p.solved = first :: last :: rest ∧
    first.index = 0 ∧ last.index = n - 1 ∧ first.bounds = math.validRange ∧ last.bounds = math.validRange ∧
    ∀ before s after, rest = before ++ s :: after → s.Between (first :: last :: before)

variable {math} {n i j k : ℕ} {c : Standings F} {p : Performances F} {bounds : F × F}

theorem solveIdx_spec (math : MathModule F) (c : Standings F) (k : ℕ) (bounds : F × F) (p : Performances F) :
    ∃ s : Solved F, s.index = k ∧ s.bounds = bounds ∧ (solveIdx math c k bounds p).solved = p.solved ++ [s] ∧
      (solveIdx math c k bounds p).newP = p.newP.set k s.performance := ⟨_, rfl, rfl, rfl, rfl⟩

@[simp] theorem indices_solveIdx : (solveIdx math c k bounds p).indices = p.indices ++ [k] := by
  simp [Performances.indices, solveIdx]

omit [LinearOrder F] [IsStrictOrderedRing F] [FloorRing F] in
theorem Filled.newP_getD (h : Filled math n p) (hi : i ∈ p.indices) :
    ∃ s ∈ p.solved, s.index = i ∧ p.newP.getD i 0 = s.performance := by
  obtain ⟨s, hs, rfl⟩ := List.mem_map.mp hi
  exact ⟨s, hs, rfl, by rw [List.getD_eq_getElem?_getD, h.entry s hs, Option.getD_some]⟩

/-- Solving one more index between two that are solved. -/
theorem Filled.solve (h : Filled math n p) (hi : i ∈ p.indices) (hj : j ∈ p.indices) (hik : i < k) (hkj : k < j)
    (hk : k ∉ p.indices) : Filled math n (solveIdx math c k (p.newP.getD j 0, p.newP.getD i 0) p) := by
  obtain ⟨left, hleft, hlefti, hlow⟩ := h.newP_getD hi
  obtain ⟨right, hright, hrightj, hhigh⟩ := h.newP_getD hj
  obtain ⟨new, rfl, hbounds, hsolved, hnewP⟩ := solveIdx_spec math c k (p.newP.getD j 0, p.newP.getD i 0) p
  have hkn : new.index < n := hkj.trans (hrightj ▸ h.inside right hright)
  refine ⟨?_, ?_, ?_, ?_, ?_⟩
  · rw [hnewP, List.length_set, h.length]
  · intro s hs
    rw [hsolved, List.mem_append, List.mem_singleton] at hs
    rcases hs with hold | rfl
    · exact h.inside s hold
    · exact hkn
  · rw [indices_solveIdx]
    exact h.once.append (List.nodup_singleton _) (by simpa using hk)
  · intro s hs
    rw [hsolved, List.mem_append, List.mem_singleton] at hs
    rcases hs with hold | rfl
    · -- the entry that is written is that of no index solved before
      have hne : new.index ≠ s.index := by
        intro heq
        exact hk (heq ▸ List.mem_map_of_mem hold)
      rw [hnewP, List.getElem?_set_ne hne]
      exact h.entry s hold
    · rw [hnewP, List.getElem?_set_self (h.length ▸ hkn)]
  · obtain ⟨first, last, rest, hbefore, hfirst, hlast, hboundsFirst, hboundsLast, hrest⟩ := h.ends
    refine ⟨first, last, rest ++ [new], by rw [hsolved, hbefore]; rfl, hfirst, hlast, hboundsFirst, hboundsLast, ?_⟩
    intro before s after hsplit
    rcases List.eq_nil_or_concat' after with rfl | ⟨after, t, rfl⟩
    · obtain ⟨rfl, hs⟩ := List.append_inj' hsplit rfl
      obtain rfl := List.singleton_inj.mp hs
      rw [← hbefore]
      exact ⟨left, hleft, right, hright, hlefti ▸ hik, hrightj ▸ hkj, by rw [hbounds, hlow, hhigh]⟩
    · rw [← List.cons_append, ← List.append_assoc] at hsplit
      exact hrest before s after (List.append_inj' hsplit rfl).1

/-- `divconq` solves the indices strictly between its ends, each of them once. -/
theorem Filled.conquer (h : Filled math n p) (hi : i ∈ p.indices) (hj : j ∈ p.indices)
    (hbetween : ∀ k, i < k → k < j → k ∉ p.indices) :
    Filled math n (divconq math c i j p) ∧
      ∀ k, k ∈ (divconq math c i j p).indices ↔ k ∈ p.indices ∨ i < k ∧ k < j := by
  fun_induction divconq math c i j p with
  | case1 i j p hwide k ihleft _ ihright =>
      have hik : i < k := by omega
      have hkj : k < j := by omega
      clear_value k
      have hmiddle := h.solve (c := c) hi hj hik hkj (hbetween k hik hkj)
      have hmiddleIndices (m : ℕ) :
          m ∈ (solveIdx math c k (p.newP.getD j 0, p.newP.getD i 0) p).indices ↔ m ∈ p.indices ∨ m = k := by
        rw [indices_solveIdx, List.mem_append, List.mem_singleton]
      obtain ⟨hleft, hleftIndices⟩ := ihleft hmiddle ((hmiddleIndices i).mpr (.inl hi))
        ((hmiddleIndices k).mpr (.inr rfl)) (by
          intro m him hmk
          rw [hmiddleIndices]
          rintro (hm | rfl)
          · exact hbetween m him (hmk.trans hkj) hm
          · exact lt_irrefl _ hmk)
      simp only [hmiddleIndices] at hleftIndices
      obtain ⟨hright, hrightIndices⟩ := ihright hleft ((hleftIndices k).mpr (.inl (.inr rfl)))
        ((hleftIndices j).mpr (.inl (.inl hj))) (by
          intro m hkm hmj
          rw [hleftIndices]
          rintro ((hm | rfl) | ⟨_, hmk⟩)
          · exact hbetween m (hik.trans hkm) hmj hm
          · exact lt_irrefl _ hkm
          · exact hkm.asymm hmk)
      refine ⟨hright, fun m => ?_⟩
      rw [hrightIndices, hleftIndices]
      grind
  | case2 i j p hnarrow =>
      refine ⟨h, fun k => ?_⟩
      have : ¬(i < k ∧ k < j) := by omega
      simp [this]

theorem indices_start :
    (solveIdx math c (n - 1) math.validRange
      (solveIdx math c 0 math.validRange ⟨List.replicate n 0, []⟩)).indices = [0, n - 1] := by
  rw [indices_solveIdx, indices_solveIdx]
  rfl

/-- The two ends are solved first. -/
theorem Filled.start (math : MathModule F) (c : Standings F) (hn : 2 ≤ n) :
    Filled math n
      (solveIdx math c (n - 1) math.validRange (solveIdx math c 0 math.validRange ⟨List.replicate n 0, []⟩)) := by
  obtain ⟨first, hfirst, hboundsFirst, hsolvedFirst, hnewFirst⟩ :=
    solveIdx_spec math c 0 math.validRange ⟨List.replicate n 0, []⟩
  obtain ⟨last, hlast, hboundsLast, hsolvedLast, hnewLast⟩ :=
    solveIdx_spec math c (n - 1) math.validRange (solveIdx math c 0 math.validRange ⟨List.replicate n 0, []⟩)
  rw [hsolvedFirst, List.nil_append, List.singleton_append] at hsolvedLast
  rw [hnewFirst] at hnewLast
  refine ⟨?_, ?_, ?_, ?_, first, last, [], hsolvedLast, hfirst, hlast, hboundsFirst, hboundsLast, ?_⟩
  · rw [hnewLast, List.length_set, List.length_set, List.length_replicate]
  · intro s hs
    rw [hsolvedLast, List.mem_cons, List.mem_singleton] at hs
    rcases hs with rfl | rfl
    all_goals omega
  · rw [indices_start, List.nodup_cons, List.mem_singleton]
    exact ⟨by omega, List.nodup_singleton _⟩
  · intro s hs
    rw [hsolvedLast, List.mem_cons, List.mem_singleton] at hs
    rw [hnewLast]
    rcases hs with rfl | rfl
    · rw [hfirst, List.getElem?_set_ne (by omega), List.getElem?_set_self (by rw [List.length_replicate]; omega)]
    · rw [hlast, List.getElem?_set_self (by rw [List.length_set, List.length_replicate]; omega)]
  · intro before s after hsplit
    exact absurd hsplit (by simp)

theorem performances_eq (math : MathModule F) (ranking oldMean : List F) (timesRanked : List ℕ)
    (hn : 2 ≤ ranking.length) :
    ∃ c, performances math ranking oldMean timesRanked =
      divconq math c 0 (ranking.length - 1) (solveIdx math c (ranking.length - 1) math.validRange
        (solveIdx math c 0 math.validRange ⟨List.replicate ranking.length 0, []⟩)) := by
  rw [performances, if_neg (by omega)]
  exact ⟨_, rfl⟩

/-- Every index has its performance solved exactly once, the ends over the whole range and the others between the
entries of two that are solved already. -/
theorem performances_solved (math : MathModule F) (ranking oldMean : List F) (timesRanked : List ℕ)
    (hn : 2 ≤ ranking.length) :
    (performances math ranking oldMean timesRanked).indices.Perm (List.range ranking.length) ∧
    Filled math ranking.length (performances math ranking oldMean timesRanked) := by
  obtain ⟨c, hrun⟩ := performances_eq math ranking oldMean timesRanked hn
  obtain ⟨hfilled, hindices⟩ := (Filled.start math c hn).conquer (i := 0) (j := ranking.length - 1)
    (by rw [indices_start]; exact List.mem_cons_self ..) (by rw [indices_start]; simp) (by
      intro k hlow hhigh
      rw [indices_start, List.mem_cons, List.mem_singleton]
      omega)
  rw [← hrun] at hfilled hindices
  refine ⟨(List.perm_ext_iff_of_nodup hfilled.once List.nodup_range).mpr fun k => ?_, hfilled⟩
  rw [hindices, indices_start, List.mem_cons, List.mem_singleton, List.mem_range]
  omega

/-- Two newcomers, the first one ahead of the other. -/
theorem performances_solved_pair :
    (performances ⟨Real.sqrt, Real.tanh, Real.pi⟩ [1, 2] [1500, 1500] [0, 0]).indices.Perm
      (List.range [(1 : ℝ), 2].length) ∧
    Filled ⟨Real.sqrt, Real.tanh, Real.pi⟩ [(1 : ℝ), 2].length
      (performances ⟨Real.sqrt, Real.tanh, Real.pi⟩ [1, 2] [1500, 1500] [0, 0]) :=
  performances_solved ⟨Real.sqrt, Real.tanh, Real.pi⟩ [1, 2] [1500, 1500] [0, 0] (le_refl 2)

end CpcJudge.Ratings
