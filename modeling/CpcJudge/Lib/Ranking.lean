import CpcJudge.Lib.FirstBest

/-!
# `Lib.Ranking` — stable sorting by a key, and competition ranks

A list sorted by a key keeps the order of the items that tie. The competition rank of an item is one more
than the number of items with a smaller key; in a sorted list it can be read off the positions, because
the items before the first of a tie are exactly the smaller ones.
-/

namespace CpcJudge
namespace Ranking

variable {α κ : Type*} [LinearOrder κ]

/-- `l'` has the items of `l`, by increasing key, those of one key in the order of `l`. -/
structure IsStableSort (key : α → κ) (l l' : List α) : Prop where
  perm : l'.Perm l
  sorted : l'.Pairwise (key · ≤ key ·)
  stable : ∀ k, l'.filter (key · = k) = l.filter (key · = k)

/-- The stable sort of `l` by `key`. -/
def sortBy (key : α → κ) (l : List α) : List α := l.insertionSort (key · ≤ key ·)

/-- One more than the number of items of `l` with a smaller key. -/
def competitionRank (key : α → κ) (l : List α) (x : α) : ℕ := l.countP (key · < key x) + 1

variable {key : α → κ} {l : List α} {x y : α}

/-! ## The sort -/

theorem isStableSort_sortBy : IsStableSort key l (sortBy key l) := by
  have hperm : (sortBy key l).Perm l := List.perm_insertionSort _ l
  refine ⟨hperm, FirstBest.pairwise_le_insertionSort l, fun k => ?_⟩
  have : Std.Total (fun x y : α => key x ≤ key y) := ⟨fun x y => le_total _ _⟩
  have : IsTrans α (fun x y : α => key x ≤ key y) := ⟨fun x y z => le_trans⟩
  -- the items of one key are sorted as they stand, so they are still there in that order
  have htied : (l.filter (key · = k)).Pairwise (key · ≤ key ·) := by
    apply List.pairwise_of_forall_mem_list
    intro x hx y hy
    have hx' : key x = k := by simpa using (List.mem_filter.mp hx).2
    have hy' : key y = k := by simpa using (List.mem_filter.mp hy).2
    rw [hx', hy']
  have hsub : (l.filter (key · = k)).Sublist (sortBy key l) :=
    List.sublist_insertionSort htied List.filter_sublist
  have hsub' : (l.filter (key · = k)).Sublist ((sortBy key l).filter (key · = k)) := by
    have := hsub.filter (key · = k)
    rwa [List.filter_filter, show (fun a => decide (key a = k) && decide (key a = k))
      = fun a => decide (key a = k) by simp] at this
  exact (hsub'.eq_of_length (hperm.filter _).length_eq.symm).symm

/-- Items rewritten under the same keys are sorted alike. -/
theorem sortBy_map {β : Type*} (key : α → κ) (f : β → α) {key' : β → κ} (h : ∀ x, key (f x) = key' x) (l : List β) :
    sortBy key (l.map f) = (sortBy key' l).map f := by
  unfold sortBy
  exact (List.map_insertionSort _ _ f l fun x _ y _ => by rw [h, h]).symm

/-- A sorted list is its own stable sort. -/
theorem IsStableSort.of_sorted (h : l.Pairwise (key · ≤ key ·)) : IsStableSort key l l :=
  ⟨.refl l, h, fun _ => rfl⟩

theorem IsStableSort.mem_iff {l' : List α} (h : IsStableSort key l l') : x ∈ l' ↔ x ∈ l := h.perm.mem_iff

/-- With distinct keys the sort the other way round is the list read backwards. -/
theorem reverse_sortBy (h : (l.map key).Nodup) :
    (sortBy key l).reverse = sortBy (fun x => OrderDual.toDual (key x)) l := by
  have hup : IsStableSort key l (sortBy key l) := isStableSort_sortBy
  have hdown : IsStableSort (fun x => OrderDual.toDual (key x)) l (sortBy (fun x => OrderDual.toDual (key x)) l) :=
    isStableSort_sortBy
  have hsorted : (sortBy key l).reverse.Pairwise fun x y => OrderDual.toDual (key x) ≤ OrderDual.toDual (key y) :=
    List.pairwise_reverse.mpr hup.sorted
  refine List.Perm.eq_of_pairwise (fun x y hx hy hle hge => ?_) hsorted hdown.sorted
    ((List.reverse_perm _).trans (hup.perm.trans hdown.perm.symm))
  have hx' : x ∈ l := hup.mem_iff.mp (List.mem_reverse.mp hx)
  exact List.inj_on_of_nodup_map h hx' (hdown.mem_iff.mp hy) (le_antisymm hge hle)

/-- Two sorted lists with the same items of each key, in the same order, are equal. -/
theorem eq_of_filter_eq {l' : List α} (h : l.Pairwise (key · ≤ key ·)) (h' : l'.Pairwise (key · ≤ key ·))
    (hsame : ∀ k, l.filter (key · = k) = l'.filter (key · = k)) : l = l' := by
  induction l generalizing l' with
  | nil =>
      cases l' with
      | nil => rfl
      | cons y l' =>
          have hnone := hsame (key y)
          simp at hnone
  | cons x l ih =>
      cases l' with
      | nil =>
          have hnone := hsame (key x)
          simp at hnone
      | cons y l' =>
          have hx : x ∈ (y :: l').filter (key · = key x) := hsame (key x) ▸ by simp
          have hy : y ∈ (x :: l).filter (key · = key y) := hsame (key y) ▸ by simp
          -- both first items have the smallest key
          have hle : key y ≤ key x := by
            rcases List.mem_cons.mp (List.mem_of_mem_filter hx) with rfl | hx
            · exact le_rfl
            · exact (List.pairwise_cons.mp h').1 x hx
          have hle' : key x ≤ key y := by
            rcases List.mem_cons.mp (List.mem_of_mem_filter hy) with rfl | hy
            · exact le_rfl
            · exact (List.pairwise_cons.mp h).1 y hy
          have hkey : key x = key y := le_antisymm hle' hle
          have hfirst := hsame (key x)
          rw [List.filter_cons_of_pos (by simp), List.filter_cons_of_pos (by simp [hkey])] at hfirst
          obtain ⟨rfl, hrest⟩ := List.cons.inj hfirst
          congr 1
          refine ih (List.pairwise_cons.mp h).2 (List.pairwise_cons.mp h').2 fun k => ?_
          by_cases hk : key x = k
          · rw [← hk, hrest]
          · have hk' := hsame k
            rwa [List.filter_cons_of_neg (by simpa using hk), List.filter_cons_of_neg (by simpa using hk)] at hk'

theorem IsStableSort.unique {l' l'' : List α} (h : IsStableSort key l l') (h' : IsStableSort key l l'') : l' = l'' :=
  eq_of_filter_eq h.sorted h'.sorted fun k => (h.stable k).trans (h'.stable k).symm

/-- What is sorted already, and after all the rest, stays where it is. -/
theorem IsStableSort.append {front tail l' : List α} (h : IsStableSort key (front ++ tail) l')
    (hle : ∀ x ∈ front, ∀ y ∈ tail, key x ≤ key y) (htail : tail.Pairwise (key · ≤ key ·)) :
    l' = sortBy key front ++ tail := by
  have hfront : IsStableSort key front (sortBy key front) := isStableSort_sortBy
  refine h.unique ⟨hfront.perm.append_right tail, ?_, fun k => ?_⟩
  · exact List.pairwise_append.mpr ⟨hfront.sorted, htail, fun x hx y hy => hle x (hfront.mem_iff.mp hx) y hy⟩
  · rw [List.filter_append, List.filter_append, hfront.stable]

/-! ## Competition ranks -/

theorem competitionRank_congr (h : key x = key y) : competitionRank key l x = competitionRank key l y := by
  simp only [competitionRank, h]

/-- In a sorted list, the first of the items that tie has its position for its rank. -/
theorem competitionRank_of_lt {before after : List α} (hbefore : ∀ z ∈ before, key z < key x)
    (hafter : ∀ z ∈ after, key x ≤ key z) :
    competitionRank key (before ++ x :: after) x = before.length + 1 := by
  have hsmaller : before.countP (key · < key x) = before.length := by
    rw [List.countP_eq_length]
    intro z hz
    simpa using hbefore z hz
  have hothers : after.countP (key · < key x) = 0 := by
    rw [List.countP_eq_zero]
    intro z hz
    simpa using hafter z hz
  simp [competitionRank, hsmaller, hothers]

section Named
variable {ι : Type*} [DecidableEq ι] {name : α → ι} {tops : List ι}

theorem length_filter_tops (hnames : (l.map name).Nodup) (htops : tops.Nodup) (hsub : tops ⊆ l.map name) :
    (l.filter (name · ∈ tops)).length = tops.length := by
  have hmap : (l.filter (name · ∈ tops)).map name = (l.map name).filter (· ∈ tops) := by
    rw [List.filter_map]
    rfl
  have hperm : ((l.map name).filter (· ∈ tops)).Perm tops := by
    refine (List.perm_ext_iff_of_nodup (hnames.filter _) htops).mpr fun i => ?_
    rw [List.mem_filter, decide_eq_true_eq, and_iff_right_of_imp fun hi => hsub hi]
  rw [← List.length_map name, hmap, hperm.length_eq]

/-- Whoever comes right after the first ones is placed after all of them. -/
theorem competitionRank_of_tops (hnames : (l.map name).Nodup) (htops : tops.Nodup) (hsub : tops ⊆ l.map name)
    (h : ∀ y ∈ l, name y ∈ tops ↔ key y < key x) : competitionRank key l x = tops.length + 1 := by
  have hfilter : l.filter (key · < key x) = l.filter (name · ∈ tops) :=
    List.filter_congr fun y hy => by simp only [h y hy]
  rw [competitionRank, List.countP_eq_length_filter, hfilter, length_filter_tops hnames htops hsub]

theorem lt_competitionRank_of_tops (hnames : (l.map name).Nodup) (htops : tops.Nodup) (hsub : tops ⊆ l.map name)
    (h : ∀ y ∈ l, name y ∈ tops → key y < key x) : tops.length < competitionRank key l x := by
  have hle : l.countP (name · ∈ tops) ≤ l.countP (key · < key x) :=
    List.countP_mono_left fun y hy hmem => decide_eq_true (h y hy (of_decide_eq_true hmem))
  rw [List.countP_eq_length_filter, length_filter_tops hnames htops hsub] at hle
  exact Nat.lt_succ_of_le hle

end Named

end Ranking
end CpcJudge
