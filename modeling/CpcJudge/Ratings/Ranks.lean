import CpcJudge.Contest.Reveal
import CpcJudge.Ratings.Rate
import CpcJudge.Lib.Groups

/-!
# The three rankers

`ranker` numbers the rows of a page, `ranks_for` those of a reveal and `tie_ranker` those a rating starts from. On a
list whose ties stand together the first two give a row one more than the rows of the groups before its own, and the
last the mean position of its group.
-/

namespace CpcJudge.Ratings
open Groups

variable {α κ : Type} [DecidableEq κ]

/-- The loop of `ranker`. -/
def rankerFrom (key : α → κ) : List α → ℕ → ℕ → Option κ → List (ℕ × α)
  | [], _, _, _ => []
  | item :: items, rank, delta, last =>
      let new := key item
      if some new ≠ last then (rank + delta, item) :: rankerFrom key items (rank + delta) 1 (some new)
      else (rank, item) :: rankerFrom key items rank (delta + 1) (some new)

/-- `ranker`. -/
def ranker (key : α → κ) (rank : ℕ) (items : List α) : List (ℕ × α) := rankerFrom key items rank 1 none

variable {key : α → κ}

/-! ## One loop at a time -/

/-- The loop of `ranker` once the items of `before` and `x` are numbered. -/
theorem rankerFrom_eq {items before : List α} {x : α} {rank delta : ℕ}
    (h : Adjacent ((before ++ x :: items).map key)) (hrank : rank = 1 + earlier ((before ++ x :: items).map key) (key x))
    (hdelta : rank + delta = before.length + 2) :
    rankerFrom key items rank delta (some (key x)) =
      items.map fun item => (1 + earlier ((before ++ x :: items).map key) (key item), item) := by
  induction items generalizing before x rank delta with
  | nil => rfl
  | cons y items ih =>
      have hassoc : before ++ x :: y :: items = (before ++ [x]) ++ y :: items := by simp
      rw [rankerFrom, List.map_cons]
      by_cases hsame : key y = key x
      · rw [if_neg (by simp [hsame]), hsame, ← hrank, ← hsame]
        congr 1
        rw [hassoc] at h hrank ⊢
        exact ih h (by rw [hrank, hsame]) (by simp; omega)
      · have hstart : rank + delta = 1 + earlier ((before ++ x :: y :: items).map key) (key y) := by
          have hpair : Adjacent (before.map key ++ key x :: key y :: items.map key) := by simpa using h
          have hsplit : Adjacent ((before ++ [x]).map key ++ key y :: items.map key) := by simpa using h
          have hcount := hsplit.earlier_eq (by simpa using hpair.starts hsame)
          rw [show (before ++ x :: y :: items).map key = (before ++ [x]).map key ++ key y :: items.map key by simp,
            hcount, hdelta]
          simp
          omega
        rw [if_pos (by simp [hsame]), ← hstart]
        congr 1
        rw [hassoc] at h hstart ⊢
        exact ih h hstart (by simp; omega)

theorem ranker_eq {items : List α} (h : Adjacent (items.map key)) :
    ranker key 0 items = items.map fun item => (1 + earlier (items.map key) (key item), item) := by
  cases items with
  | nil => rfl
  | cons x items =>
      have hfirst : earlier ((x :: items).map key) (key x) = 0 :=
        @Adjacent.earlier_eq κ _ [] (items.map key) (key x) h List.not_mem_nil
      rw [ranker, rankerFrom, if_pos (by simp), List.map_cons, hfirst]
      congr 1
      exact @rankerFrom_eq α κ _ key items [] x 1 1 h (by rw [List.nil_append, hfirst]) rfl

/-- The loop of `ranks_for` once the rows of `before` and `x` are numbered. -/
theorem rankNext_eq {keys : ℕ → κ} {order before : List ℕ} {x : ℕ} (h : Adjacent ((before ++ x :: order).map keys))
    {ranks : List ℕ} (hlast : ranks.getLast? = some (1 + earlier ((before ++ x :: order).map keys) (keys x))) :
    ((order.zipIdx (before.length + 1)).foldl (Contest.rankNext keys) (ranks, some (keys x))).1 =
      ranks ++ order.map fun row => 1 + earlier ((before ++ x :: order).map keys) (keys row) := by
  induction order generalizing before x ranks with
  | nil => simp
  | cons y order ih =>
      have hassoc : before ++ x :: y :: order = (before ++ [x]) ++ y :: order := by simp
      have hlength : before.length + 1 = (before ++ [x]).length := by simp
      have hstep : Contest.rankNext keys (ranks, some (keys x)) (y, before.length + 1) =
          (ranks ++ [1 + earlier ((before ++ x :: y :: order).map keys) (keys y)], some (keys y)) := by
        by_cases hsame : keys y = keys x
        · simp [Contest.rankNext, hlast, hsame]
        · have hpair : Adjacent (before.map keys ++ keys x :: keys y :: order.map keys) := by simpa using h
          have hsplit : Adjacent ((before ++ [x]).map keys ++ keys y :: order.map keys) := by simpa using h
          have hcount := hsplit.earlier_eq (by simpa using hpair.starts hsame)
          rw [show (before ++ x :: y :: order).map keys = (before ++ [x]).map keys ++ keys y :: order.map keys by simp,
            hcount]
          simp [Contest.rankNext, hlast, hsame, Nat.add_comm]
      rw [List.zipIdx_cons, List.foldl_cons, hstep, List.map_cons]
      rw [hassoc] at h ⊢
      rw [hlength, ih h (by simp)]
      simp

theorem ranksFor_groups {keys : ℕ → κ} {order : List ℕ} (h : Adjacent (order.map keys)) :
    Contest.ranksFor order keys = order.map fun row => 1 + earlier (order.map keys) (keys row) := by
  cases order with
  | nil => rfl
  | cons x order =>
      have hfirst : earlier ((x :: order).map keys) (keys x) = 0 :=
        @Adjacent.earlier_eq κ _ [] (order.map keys) (keys x) h List.not_mem_nil
      have hrest := @rankNext_eq κ _ keys order [] x h [1] (by rw [List.nil_append, hfirst]; rfl)
      rw [Contest.ranksFor, List.zipIdx_cons, List.foldl_cons]
      simp only [List.nil_append, List.length_nil, Nat.zero_add] at hrest
      simp only [List.map_cons] at hfirst
      simp [Contest.rankNext, hrest, hfirst]

/-- The loop of `tie_ranker` while `buf` items equal to `x` wait, after the groups of `before`. -/
theorem tieRankerFrom_eq {keys before : List κ} {x : κ} {buf : ℕ} (hpos : 0 < buf) (hx : x ∉ before)
    (h : Adjacent (before ++ List.replicate buf x ++ keys)) :
    tieRankerFrom keys (before.length + 1) buf (some x) buf =
      (List.replicate buf x ++ keys).map (meanPosition (before ++ List.replicate buf x ++ keys)) := by
  induction keys generalizing before x buf with
  | nil =>
      have hmean := @meanPosition_eq κ _ before [] x buf hpos hx List.not_mem_nil
      simp only [List.append_nil] at hmean ⊢
      rw [tieRankerFrom, List.map_replicate, hmean]
  | cons y keys ih =>
      rw [tieRankerFrom]
      by_cases hsame : y = x
      · subst hsame
        have hassoc : before ++ List.replicate buf y ++ y :: keys = before ++ List.replicate (buf + 1) y ++ keys := by
          rw [List.replicate_succ', List.append_assoc, List.append_assoc, List.append_assoc, List.singleton_append]
        rw [hassoc] at h
        have hrest := ih (Nat.succ_pos buf) hx h
        rw [if_neg (by simp), hassoc, show List.replicate buf y ++ y :: keys = List.replicate (buf + 1) y ++ keys by
          rw [List.replicate_succ', List.append_assoc, List.singleton_append], ← hrest]
        push_cast
        rfl
      · obtain ⟨m, rfl⟩ : ∃ m, buf = m + 1 := ⟨buf - 1, by omega⟩
        have hfull : before ++ List.replicate (m + 1) x ++ y :: keys =
            (before ++ List.replicate m x) ++ x :: y :: keys := by simp [List.replicate_succ']
        have hnew : y ∉ before ++ List.replicate (m + 1) x := by
          have := Adjacent.starts (hfull ▸ h) hsame
          rwa [List.append_assoc, ← List.replicate_succ'] at this
        have hgone : x ∉ y :: keys := by
          intro hmem
          rcases List.mem_cons.mp hmem with heq | hmem
          · exact hsame heq.symm
          · have hagain : [x, y, x].Sublist ((before ++ List.replicate m x) ++ x :: y :: keys) :=
              (((List.singleton_sublist.mpr hmem).cons_cons y).cons_cons x).trans (List.sublist_append_right _ _)
            exact hsame (h x y (hfull ▸ hagain))
        have hmean := meanPosition_eq hpos hx hgone
        have hnext := @ih (before ++ List.replicate (m + 1) x) y 1 Nat.one_pos hnew (by simpa using h)
        have hlength : ((before ++ List.replicate (m + 1) x).length : ℚ) + 1 = (before.length : ℚ) + 1 + (m + 1 : ℕ) := by
          simp
          ring
        rw [if_pos (by simpa using hsame), List.map_append, List.map_replicate, hmean]
        congr 1
        rw [hlength] at hnext
        simpa using hnext

theorem tieRanker_eq {keys : List κ} (h : Adjacent keys) : tieRanker keys = keys.map (meanPosition keys) := by
  cases keys with
  | nil => rfl
  | cons x keys =>
      have hrest := @tieRankerFrom_eq κ _ keys [] x 1 Nat.one_pos List.not_mem_nil h
      rw [tieRanker, tieRankerFrom, if_pos (by simp)]
      simpa using hrest

/-- What is left to add up once `buf` items wait to be ranked from `rank` on. -/
theorem tieRankerFrom_sum {keys : List κ} {rank : ℚ} {last : Option κ} {buf : ℕ} :
    (tieRankerFrom keys rank buf last buf).sum =
      ((buf + keys.length : ℕ) : ℚ) * (rank + (((buf + keys.length : ℕ) : ℚ) - 1) / 2) := by
  induction keys generalizing rank last buf with
  | nil =>
      simp [tieRankerFrom]
      ring
  | cons new keys ih =>
      have hone := @ih (rank + buf) (some new) 1
      have hmore := @ih rank last (buf + 1)
      rw [tieRankerFrom]
      push_cast at hone hmore ⊢
      split
      · rw [List.sum_append, List.sum_replicate, hone, List.length_cons]
        push_cast
        ring
      · rw [hmore, List.length_cons]
        push_cast
        ring

theorem tieRanker_sum (keys : List κ) :
    (tieRanker keys).sum = (keys.length : ℚ) * (keys.length + 1) / 2 := by
  cases keys with
  | nil => simp [tieRanker, tieRankerFrom]
  | cons x keys =>
      have hrest := @tieRankerFrom_sum κ _ keys 1 (some x) 1
      rw [tieRanker, tieRankerFrom, if_pos (by simp)]
      push_cast at hrest
      simp only [List.replicate_zero, List.nil_append, zero_add, hrest, List.length_cons]
      push_cast
      ring

/-- Where ties stand together, `ranker` and `ranks_for` give a row one more than the rows of the groups before its own,
and `tie_ranker` the mean position of its group; the ranks of `n` rows add up to `n (n + 1) / 2`. -/
theorem ranks_of_groups :
    (∀ (key : α → κ) (items : List α), Adjacent (items.map key) →
      ranker key 0 items = items.map (fun item => (1 + earlier (items.map key) (key item), item)) ∧
      tieRanker (items.map key) = items.map (fun item => meanPosition (items.map key) (key item)) ∧
      (tieRanker (items.map key)).sum = (items.length : ℚ) * (items.length + 1) / 2) ∧
    ∀ (keys : ℕ → κ) (order : List ℕ), Adjacent (order.map keys) →
      Contest.ranksFor order keys = order.map fun row => 1 + earlier (order.map keys) (keys row) := by
  refine ⟨fun key items h => ⟨ranker_eq h, ?_, ?_⟩, fun keys order h => ranksFor_groups h⟩
  · rw [tieRanker_eq h, List.map_map]
    rfl
  · rw [tieRanker_sum, List.length_map]

/-- Two rows tied for the first place and one after them. -/
theorem ranks_of_groups_tie :
    ranker id 0 [7, 7, 4] = [(1, 7), (1, 7), (3, 4)] ∧ tieRanker [7, 7, 4] = [3 / 2, 3 / 2, 3] ∧
      (tieRanker [7, 7, 4]).sum = 6 ∧
      Contest.ranksFor [0, 1, 2] (fun row => [7, 7, 4].getD row 0) = [1, 1, 3] := by
  have hadjacent : Adjacent [7, 7, 4] := by
    intro x y h
    have heq : [x, y, x] = [7, 7, 4] := h.eq_of_length rfl
    simp only [List.cons.injEq] at heq
    omega
  obtain ⟨hranker, htie, hsum⟩ := (ranks_of_groups (α := ℕ) (κ := ℕ)).1 id [7, 7, 4] hadjacent
  have hranks := (ranks_of_groups (α := ℕ) (κ := ℕ)).2 (fun row => [7, 7, 4].getD row 0) [0, 1, 2] hadjacent
  refine ⟨hranker.trans (by decide), htie.trans ?_, hsum.trans (by norm_num), hranks.trans (by decide)⟩
  simp [meanPosition, positions]
  norm_num

end CpcJudge.Ratings
