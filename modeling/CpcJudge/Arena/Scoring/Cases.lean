import CpcJudge.Arena.Scoring.Standing

/-!
# `Scoring.Cases` — the worst and the best case of one problem

On one problem, the worst case, the best case and every way the pending attempts may be judged list the
same attempts in the same places; they only differ in what a pending attempt is taken for and in what is
added at the end. The three comparisons of this module are stated on that shape alone: `items` are the
attempts of the problem, and each side reads an event off every item.
-/

namespace CpcJudge
namespace Arena
namespace Scoring

open Decimal FirstBest

/-- The date of an event is the first half of its place. -/
def Event.Dated (e : Event) : Prop := (ofLex e.order).1 = e.date

theorem Event.date_le {e e' : Event} (h : e.Dated) (h' : e'.Dated) (hle : e.order ≤ e'.order) :
    e.date ≤ e'.date := by
  have := Prod.Lex.monotone_fst _ _ hle
  rwa [h, h'] at this

theorem failedBefore_append (l l' : List Event) (e : Event) :
    failedBefore (l ++ l') e = failedBefore l e + failedBefore l' e := List.countP_append

/-- Nothing failed before `e` among events that are placed after it or are not failed attempts. -/
theorem failedBefore_eq_zero {l : List Event} {e : Event}
    (h : ∀ x ∈ l, x.penalizable = true → ¬ x.order < e.order) : failedBefore l e = 0 := by
  refine List.countP_eq_zero.mpr fun x hx => ?_
  by_cases hp : x.penalizable = true
  · simp [h x hx hp]
  · simp [hp]

theorem failedBefore_map_le {ι : Type*} {items : List ι} {f g : ι → Event} {e e' : Event}
    (h : ∀ i ∈ items, (f i).order < e.order → (f i).penalizable = true →
      (g i).order < e'.order ∧ (g i).penalizable = true) :
    failedBefore (items.map f) e ≤ failedBefore (items.map g) e' := by
  unfold failedBefore
  rw [List.countP_map, List.countP_map]
  refine List.countP_mono_left fun i hi hf => ?_
  simp only [Function.comp_apply, Bool.and_eq_true, decide_eq_true_eq] at hf ⊢
  exact h i hi hf.1 hf.2

theorem RowOf.perm {events events' : List Event} {row : ProblemStanding} (h : RowOf events row)
    (hp : events.Perm events') : RowOf events' row := by
  cases h with
  | empty hnone hbest hpen hpoints =>
      exact .empty hnone hbest hpen fun x hx => hpoints x (hp.mem_iff.mpr hx)
  | reached e hfirst hpos hbest hat hpen =>
      exact .reached e (hfirst.perm hp) hpos hbest hat (hpen.trans (hp.countP_eq _))

/-- Two rows read off the same events are as good as each other. -/
theorem RowOf.atMost_self {events : List Event} {row row' : ProblemStanding} (h : RowOf events row)
    (h' : RowOf events row') (hdated : ∀ x ∈ events, x.Dated) : row.AtMost row' := by
  refine h.atMost h' (fun x hx _ => ⟨x, hx, le_rfl⟩) fun e e' he he' _ _ => ?_
  have hplace := he.place_eq he'
  refine ⟨Event.date_le (hdated e' he'.mem) (hdated e he.mem) hplace.ge, ?_⟩
  unfold failedBefore
  rw [hplace]

section
variable {ι : Type*} {items : List ι} {failed judged solved : ι → Event} {added future : List Event}
  {row row' : ProblemStanding}

/-- **Nothing turns out worse than the worst case.** `failed` takes every pending attempt for a failed
    one; `judged` is what they turned out to be, and `added` came afterwards. -/
theorem atMost_judged (h : RowOf (items.map failed) row) (h' : RowOf (items.map judged ++ added) row')
    (hplace : ∀ i ∈ items, (judged i).order = (failed i).order)
    (hkept : ∀ i ∈ items, 0 < (failed i).points → judged i = failed i)
    (hpen : ∀ i ∈ items, (judged i).penalizable = true → (failed i).penalizable = true)
    (hafter : ∀ i ∈ items, ∀ x ∈ added, (judged i).order < x.order)
    (hdated : ∀ x ∈ items.map judged ++ added, x.Dated) : row.AtMost row' := by
  have hmem : ∀ i ∈ items, judged i ∈ items.map judged ++ added := fun i hi =>
    List.mem_append_left _ (List.mem_map_of_mem hi)
  refine h.atMost h' ?_ ?_
  · intro x hx hpos
    obtain ⟨i, hi, rfl⟩ := List.mem_map.mp hx
    exact ⟨judged i, hmem i hi, by rw [hkept i hi hpos]⟩
  · intro e e' he he' hpos heq
    obtain ⟨i, hi, rfl⟩ := List.mem_map.mp he.mem
    have hsame := hkept i hi hpos
    have hfirst : e'.order ≤ (failed i).order := by
      have := he'.first (judged i) (hmem i hi) (by rw [hsame, heq])
      rwa [hsame] at this
    refine ⟨Event.date_le (hdated e' he'.mem) (hsame ▸ hdated _ (hmem i hi)) hfirst, ?_⟩
    have hadded : failedBefore added e' = 0 := failedBefore_eq_zero fun x hx _ hlt =>
      absurd (hlt.trans_le (hfirst.trans (hplace i hi).ge)) (lt_asymm (hafter i hi x hx))
    rw [failedBefore_append, hadded, Nat.add_zero]
    refine failedBefore_map_le fun j hj hlt hp => ⟨?_, hpen j hj hp⟩
    rw [← hplace j hj]
    exact hlt.trans_le hfirst

/-- **Nothing turns out better than the best case.** `solved` takes every pending attempt for a full
    solve worth `full`; `future` is the full solve that may still come, at `moment`. -/
theorem judged_atMost (full : ℚ) (moment : Time) (h : RowOf (items.map judged ++ added) row)
    (h' : RowOf (items.map solved ++ future) row')
    (hplace : ∀ i ∈ items, (judged i).order = (solved i).order)
    (hpoints : ∀ i ∈ items, (judged i).points ≤ (solved i).points)
    (hpen : ∀ i ∈ items, (solved i).penalizable = true → (judged i).penalizable = true)
    (hafter : ∀ i ∈ items, ∀ x ∈ added, (judged i).order < x.order)
    (hsince : ∀ x ∈ added, moment ≤ x.date)
    (hfull : ∀ x ∈ added, x.points ≤ full)
    (hroom : ∀ x ∈ added, 0 < x.points → ∃ y ∈ items.map solved ++ future, full ≤ y.points)
    (hfuture : ∀ x ∈ future, x.date = moment ∧ x.penalizable = false)
    (hdated : ∀ x ∈ items.map judged ++ added, x.Dated)
    (hdated' : ∀ x ∈ items.map solved ++ future, x.Dated) : row.AtMost row' := by
  have hmem : ∀ i ∈ items, solved i ∈ items.map solved ++ future := fun i hi =>
    List.mem_append_left _ (List.mem_map_of_mem hi)
  refine h.atMost h' ?_ ?_
  · intro x hx hpos
    rcases List.mem_append.mp hx with hx | hx
    · obtain ⟨i, hi, rfl⟩ := List.mem_map.mp hx
      exact ⟨solved i, hmem i hi, hpoints i hi⟩
    · obtain ⟨y, hy, hle⟩ := hroom x hx hpos
      exact ⟨y, hy, (hfull x hx).trans hle⟩
  · intro e e' he he' hpos heq
    -- the best case solves the problem no later, and before every attempt that comes before its solve
    have hkey : e'.date ≤ e.date ∧ ∀ i ∈ items, (solved i).order < e'.order →
        (judged i).order < e.order := by
      rcases List.mem_append.mp he.mem with hmem' | hadded
      · obtain ⟨i, hi, rfl⟩ := List.mem_map.mp hmem'
        have hval : (solved i).points = e'.points :=
          le_antisymm (he'.best _ (hmem i hi)) (heq ▸ hpoints i hi)
        have hfirst := he'.first _ (hmem i hi) hval
        rw [← hplace i hi] at hfirst
        refine ⟨Event.date_le (hdated' e' he'.mem) (hdated _ he.mem) hfirst, fun j hj hlt => ?_⟩
        rw [hplace j hj]
        exact hlt.trans_le hfirst
      · refine ⟨?_, fun j hj _ => hafter j hj e hadded⟩
        rcases List.mem_append.mp he'.mem with hitem | hfut
        · obtain ⟨j, hj, rfl⟩ := List.mem_map.mp hitem
          have hlt := hafter j hj e hadded
          rw [hplace j hj] at hlt
          exact Event.date_le (hdated' _ he'.mem) (hdated e he.mem) hlt.le
        · rw [(hfuture e' hfut).1]
          exact hsince e hadded
    refine ⟨hkey.1, ?_⟩
    have hzero : failedBefore future e' = 0 := failedBefore_eq_zero fun x hx hp =>
      absurd hp (by simp [(hfuture x hx).2])
    rw [failedBefore_append, failedBefore_append, hzero, Nat.add_zero]
    refine (failedBefore_map_le fun i hi hlt hp => ?_).trans (Nat.le_add_right _ _)
    exact ⟨hkey.2 i hi hlt, hpen i hi hp⟩

/-- **The best case can happen.** When every pending attempt is accepted and the solve that may still come
    is sent, the problem goes at least as well as in the best case. -/
theorem best_atMost_judged (full : ℚ) (h : RowOf (items.map solved ++ future) row)
    (h' : RowOf (items.map judged ++ added) row')
    (hplace : ∀ i ∈ items, (judged i).order = (solved i).order)
    (hpoints : ∀ i ∈ items, (judged i).points = (solved i).points)
    (hpen : ∀ i ∈ items, (judged i).penalizable = true →
      (solved i).penalizable = true ∨ full ≤ (judged i).points)
    (hfullest : ∀ x ∈ items.map judged ++ added, x.points ≤ full)
    (hafter : ∀ i ∈ items, ∀ x ∈ added, (judged i).order < x.order)
    (hfuture : ∀ x ∈ future, x.points ≤ full ∧ (∀ i ∈ items, (solved i).order < x.order) ∧
      ∃ y ∈ added, y.points = full ∧ y.date = x.date)
    (hone : ∀ x ∈ added, ∀ y ∈ added, x = y)
    (hdated : ∀ x ∈ items.map judged ++ added, x.Dated)
    (hdated' : ∀ x ∈ items.map solved ++ future, x.Dated) : row.AtMost row' := by
  have hmem : ∀ i ∈ items, judged i ∈ items.map judged ++ added := fun i hi =>
    List.mem_append_left _ (List.mem_map_of_mem hi)
  refine h.atMost h' ?_ ?_
  · intro x hx _
    rcases List.mem_append.mp hx with hx | hx
    · obtain ⟨i, hi, rfl⟩ := List.mem_map.mp hx
      exact ⟨judged i, hmem i hi, (hpoints i hi).ge⟩
    · obtain ⟨hle, _, y, hy, hfull, _⟩ := hfuture x hx
      exact ⟨y, List.mem_append_right _ hy, hle.trans hfull.ge⟩
  · intro e e' he he' _ heq
    have hkey : e'.date ≤ e.date ∧ ∀ i ∈ items, (judged i).order < e'.order →
        (solved i).order < e.order := by
      rcases List.mem_append.mp he.mem with hitem | hfut
      · obtain ⟨i, hi, rfl⟩ := List.mem_map.mp hitem
        have hfirst := he'.first _ (hmem i hi) ((hpoints i hi).trans heq)
        refine ⟨Event.date_le (hdated _ he'.mem) (hdated' _ he.mem) (hplace i hi ▸ hfirst), ?_⟩
        intro j hj hlt
        rw [← hplace j hj, ← hplace i hi]
        exact hlt.trans_le hfirst
      · obtain ⟨hle, hbefore, y, hy, hfull, hdate⟩ := hfuture e hfut
        refine ⟨?_, fun j hj _ => hbefore j hj⟩
        have hyval : y.points = e'.points :=
          le_antisymm (he'.best y (List.mem_append_right _ hy)) (hfull ▸ heq ▸ hle)
        have hfirst := he'.first y (List.mem_append_right _ hy) hyval
        rw [← hdate]
        exact Event.date_le (hdated _ he'.mem) (hdated _ (List.mem_append_right _ hy)) hfirst
    refine ⟨hkey.1, ?_⟩
    have hzero : failedBefore added e' = 0 := by
      refine failedBefore_eq_zero fun x hx _ hlt => ?_
      rcases List.mem_append.mp he'.mem with hitem | hadd
      · obtain ⟨i, hi, rfl⟩ := List.mem_map.mp hitem
        exact lt_asymm hlt (hafter i hi x hx)
      · rw [hone x hx e' hadd] at hlt
        exact lt_irrefl _ hlt
    rw [failedBefore_append, failedBefore_append, hzero, Nat.add_zero]
    refine (failedBefore_map_le fun i hi hlt hp => ?_).trans (Nat.le_add_right _ _)
    refine ⟨hkey.2 i hi hlt, ?_⟩
    rcases hpen i hi hp with hp | hfull
    · exact hp
    · -- a full solve placed before the first best would have been the first best
      have hval : (judged i).points = e'.points :=
        le_antisymm (he'.best _ (hmem i hi)) ((hfullest e' he'.mem).trans hfull)
      exact absurd (he'.first _ (hmem i hi) hval) (not_le.mpr hlt)

end

end Scoring
end Arena
end CpcJudge
