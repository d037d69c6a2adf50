import Mathlib.Data.List.Range
import Mathlib.Data.List.Pairwise
import Mathlib.Tactic.Common

/-!
# `Lib.Marked` — one list with several priorities

Items of several priorities are kept in one list, with a marker after each priority: an item goes before the marker of
its own (`insert_lay`), and taking one out leaves the others where they are (`filter_lay`). Without the markers the list
is ordered by priority and then as the items came (`line_pairwise`).
-/

namespace CpcJudge
namespace Marked

variable {ι α : Type} (priority : ι → ℕ) (node : ι → α) (marker : ℕ → α)

/-- The items of `count` priorities from `first` on, in order. -/
def line (first count : ℕ) (items : List ι) : List ι :=
  (List.range' first count).flatMap fun p => items.filter fun i => priority i = p

/-- The list that keeps them. -/
def lay (first count : ℕ) (items : List ι) : List α :=
  (List.range' first count).flatMap fun p => (items.filter fun i => priority i = p).map node ++ [marker p]

variable {priority node marker} {first count q : ℕ} {items : List ι} {e : ι}

theorem line_succ : line priority first (count + 1) items =
    (items.filter fun i => priority i = first) ++ line priority (first + 1) count items := by
  unfold line
  rw [List.range'_succ, List.flatMap_cons]

theorem lay_succ : lay priority node marker first (count + 1) items =
    (items.filter fun i => priority i = first).map node ++ marker first ::
      lay priority node marker (first + 1) count items := by
  unfold lay
  rw [List.range'_succ, List.flatMap_cons, List.append_assoc, List.singleton_append]

theorem mem_line : e ∈ line priority first count items ↔ e ∈ items ∧ first ≤ priority e ∧ priority e < first + count := by
  unfold line
  simp only [List.mem_flatMap, List.mem_filter, decide_eq_true_eq, List.mem_range'_1]
  constructor
  · rintro ⟨p, hp, hin, rfl⟩
    exact ⟨hin, hp⟩
  · rintro ⟨hin, hp⟩
    exact ⟨_, hp, hin, rfl⟩

/-- The items of one priority are in the order they came in, before those of the next. -/
theorem line_pairwise {R : ι → ι → Prop} (hitems : items.Pairwise R) : (line priority first count items).Pairwise
    fun a b => priority a < priority b ∨ priority a = priority b ∧ R a b := by
  induction count generalizing first with
  | zero => exact List.Pairwise.nil
  | succ count ih =>
      rw [line_succ]
      refine List.pairwise_append.mpr ⟨?_, ih, ?_⟩
      · refine (hitems.filter _).imp_of_mem fun ha hb hR => .inr ⟨?_, hR⟩
        exact (of_decide_eq_true (List.mem_filter.mp ha).2).trans (of_decide_eq_true (List.mem_filter.mp hb).2).symm
      · intro a ha b hb
        have hfirst : priority a = first := of_decide_eq_true (List.mem_filter.mp ha).2
        exact .inl (hfirst ▸ (mem_line.mp hb).2.1)

theorem lay_append_of_lt (hless : priority e < first) :
    lay priority node marker first count (items ++ [e]) = lay priority node marker first count items := by
  unfold lay
  refine List.flatMap_congr fun p hp => ?_
  have hle : first ≤ p := (List.mem_range'_1.mp hp).1
  have hother : ¬ priority e = p := by omega
  rw [List.filter_append, List.filter_cons_of_neg (by simpa using hother), List.filter_nil, List.append_nil]

/-- An item is put before the marker of its priority. -/
theorem insert_lay {test : α → Bool} (hitems : ∀ i ∈ items, test (node i) = true)
    (hmarkers : ∀ p, test (marker p) = true ↔ p ≠ priority e) (hfirst : first ≤ priority e)
    (hlast : priority e < first + count) :
    (lay priority node marker first count items).takeWhile test ++
        node e :: (lay priority node marker first count items).dropWhile test =
      lay priority node marker first count (items ++ [e]) := by
  induction count generalizing first with
  | zero => omega
  | succ count ih =>
      have hsegment : ∀ a ∈ (items.filter fun i => priority i = first).map node, test a = true := by
        intro a ha
        obtain ⟨i, hi, rfl⟩ := List.mem_map.mp ha
        exact hitems i (List.mem_filter.mp hi).1
      rw [lay_succ, lay_succ, List.takeWhile_append_of_pos hsegment, List.dropWhile_append_of_pos hsegment,
        List.filter_append]
      by_cases hhere : priority e = first
      · -- the marker stops the search
        have hstop : ¬ test (marker first) = true := fun htest => (hmarkers first).mp htest hhere.symm
        rw [List.takeWhile_cons_of_neg hstop, List.dropWhile_cons_of_neg hstop,
          List.filter_cons_of_pos (by simpa using hhere), List.filter_nil, lay_append_of_lt (by omega), List.append_nil,
          List.map_append, List.append_assoc]
        rfl
      · have hpass : test (marker first) = true := (hmarkers first).mpr fun heq => hhere heq.symm
        rw [List.takeWhile_cons_of_pos hpass, List.dropWhile_cons_of_pos hpass,
          List.filter_cons_of_neg (by simpa using hhere), List.filter_nil, List.append_nil, List.append_assoc,
          List.cons_append, ih (by omega) (by omega)]

/-- Taking items out. -/
theorem filter_lay {keep : α → Bool} {keep' : ι → Bool} (hitems : ∀ i ∈ items, keep (node i) = keep' i)
    (hmarkers : ∀ p < first + count, keep (marker p) = true) :
    (lay priority node marker first count items).filter keep =
      lay priority node marker first count (items.filter keep') := by
  induction count generalizing first with
  | zero => rfl
  | succ count ih =>
      rw [lay_succ, lay_succ, List.filter_append, List.filter_cons_of_pos (hmarkers first (by omega)),
        ih fun p hp => hmarkers p (by omega), List.filter_map, List.filter_filter, List.filter_filter]
      congr 2
      refine List.filter_congr fun i hi => ?_
      show (keep (node i) && _) = (_ && keep' i)
      rw [hitems i hi, Bool.and_comm]

theorem mem_lay {a : α} : a ∈ lay priority node marker first count items ↔
    (∃ i ∈ items, first ≤ priority i ∧ priority i < first + count ∧ node i = a) ∨
      ∃ p, first ≤ p ∧ p < first + count ∧ marker p = a := by
  unfold lay
  simp only [List.mem_flatMap, List.mem_append, List.mem_map, List.mem_filter, decide_eq_true_eq, List.mem_range'_1,
    List.mem_singleton]
  constructor
  · rintro ⟨p, hp, ⟨i, ⟨hi, rfl⟩, rfl⟩ | rfl⟩
    · exact .inl ⟨i, hi, hp.1, hp.2, rfl⟩
    · exact .inr ⟨p, hp.1, hp.2, rfl⟩
  · rintro (⟨i, hi, hfirst, hlast, rfl⟩ | ⟨p, hfirst, hlast, rfl⟩)
    · exact ⟨priority i, ⟨hfirst, hlast⟩, .inl ⟨i, ⟨hi, rfl⟩, rfl⟩⟩
    · exact ⟨p, ⟨hfirst, hlast⟩, .inr rfl⟩

end Marked
end CpcJudge
