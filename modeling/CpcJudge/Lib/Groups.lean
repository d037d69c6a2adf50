import Mathlib.Data.List.Range
import Mathlib.Tactic

/-!
# `Lib.Groups` — a list whose equal items stand together

The items that are equal make a group. Where a group starts there are as many items before as the groups that start
earlier have, and the positions of its items follow each other.
-/

namespace CpcJudge
namespace Groups

variable {κ : Type*}

/-- Between two equal items there is no other. -/
def Adjacent (l : List κ) : Prop := ∀ x y, [x, y, x].Sublist l → y = x

variable [DecidableEq κ]

/-- How many items belong to groups that start before that of `x`. -/
def earlier (l : List κ) (x : κ) : ℕ := l.countP fun y => l.idxOf y < l.idxOf x

/-- The positions of the items equal to `x`, from one. -/
def positions (l : List κ) (x : κ) : List ℕ := ((l.zipIdx 1).filter (·.1 = x)).map (·.2)

/-- The mean of the positions of the items equal to `x`. -/
def meanPosition (l : List κ) (x : κ) : ℚ := ((positions l x).sum : ℚ) / (positions l x).length

variable {before after rest l : List κ} {x y : κ}

/-! ## Where a group starts -/

omit [DecidableEq κ] in
/-- An item unlike the one before it starts a group. -/
theorem Adjacent.starts (h : Adjacent (before ++ x :: y :: rest)) (hne : y ≠ x) : y ∉ before ++ [x] := by
  intro hy
  have hbefore : y ∈ before := (List.mem_append.mp hy).resolve_right fun hx => hne (List.mem_singleton.mp hx)
  have hback : [y, x, y].Sublist (before ++ x :: y :: rest) :=
    (List.singleton_sublist.mpr hbefore).append (((List.nil_sublist rest).cons_cons y).cons_cons x)
  exact hne (h y x hback).symm

theorem Adjacent.earlier_eq (h : Adjacent (before ++ y :: rest)) (hy : y ∉ before) :
    earlier (before ++ y :: rest) y = before.length := by
  have hstart : (before ++ y :: rest).idxOf y = before.length := by
    rw [List.idxOf_append_of_notMem hy, List.idxOf_cons_self, Nat.add_zero]
  have hfront : before.countP (fun z => (before ++ y :: rest).idxOf z < before.length) = before.length := by
    refine List.countP_eq_length.mpr fun z hz => ?_
    rw [List.idxOf_append_of_mem hz]
    exact decide_eq_true (List.idxOf_lt_length_of_mem hz)
  have hback : (y :: rest).countP (fun z => (before ++ y :: rest).idxOf z < before.length) = 0 := by
    refine List.countP_eq_zero.mpr fun z hz => ?_
    -- an item of before that comes again would have `y` between
    have hz' : z ∉ before := by
      intro hbefore
      rcases List.mem_cons.mp hz with rfl | hrest
      · exact hy hbefore
      · have hagain : [z, y, z].Sublist (before ++ y :: rest) :=
          (List.singleton_sublist.mpr hbefore).append ((List.singleton_sublist.mpr hrest).cons_cons y)
        exact hy (h z y hagain ▸ hbefore)
    rw [List.idxOf_append_of_notMem hz']
    simp
  rw [earlier, hstart, List.countP_append, hfront, hback, Nat.add_zero]

/-! ## The positions of a group -/

theorem zipIdx_filter_none (h : x ∉ l) (first : ℕ) : (l.zipIdx first).filter (·.1 = x) = [] := by
  refine List.filter_eq_nil_iff.mpr fun item hitem => ?_
  have hmem : item.1 ∈ l := List.fst_mem_of_mem_zipIdx hitem
  have hne : item.1 ≠ x := fun heq => h (heq ▸ hmem)
  simpa using hne

theorem positions_eq {c : ℕ} (hbefore : x ∉ before) (hafter : x ∉ after) :
    positions (before ++ List.replicate c x ++ after) x = List.range' (before.length + 1) c := by
  have hall : ∀ first, ((List.replicate c x).zipIdx first).filter (·.1 = x) = (List.replicate c x).zipIdx first := by
    intro first
    refine List.filter_eq_self.mpr fun item hitem => ?_
    have hmem := List.fst_mem_of_mem_zipIdx hitem
    exact decide_eq_true (List.eq_of_mem_replicate hmem)
  rw [positions, List.zipIdx_append, List.zipIdx_append, List.filter_append, List.filter_append,
    zipIdx_filter_none hbefore, zipIdx_filter_none hafter, hall, List.nil_append, List.append_nil]
  exact (List.zipIdx_map_snd _ _).trans (by rw [List.length_replicate, Nat.add_comm])

/-- The mean of the positions of a group is that of the first and the last. -/
theorem meanPosition_eq {c : ℕ} (hpos : 0 < c) (hbefore : x ∉ before) (hafter : x ∉ after) :
    meanPosition (before ++ List.replicate c x ++ after) x = before.length + 1 + ((c : ℚ) - 1) / 2 := by
  have hsum : ∀ first n : ℕ, (((List.range' first n).sum : ℕ) : ℚ) = n * (first + ((n : ℚ) - 1) / 2) := by
    intro first n
    induction n generalizing first with
    | zero => simp
    | succ n ih =>
        rw [List.range'_succ, List.sum_cons, Nat.cast_add, ih]
        push_cast
        ring
  have hne : (c : ℚ) ≠ 0 := by exact_mod_cast hpos.ne'
  rw [meanPosition, positions_eq hbefore hafter, hsum, List.length_range', mul_div_cancel_left₀ _ hne]
  push_cast
  ring

end Groups
end CpcJudge
