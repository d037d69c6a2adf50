import CpcJudge.Bridge.Maps

/-!
# `Bridge.Reports` — the report of a judge that has finished

`on_judge_free` comes before the verdict is saved, so a report it raises on is lost. It raises where the submission has
left `submission_map`, and where no judge of the list was enabled when the lowest tier was last computed.
-/

namespace CpcJudge
namespace Bridge

open Txn

variable {s : JudgeList} {w : World} {r : Request} {id judge priority : ℕ}

/-- The loop over the queue never raises for a judge of the list. -/
theorem takeFrom_completes : ∀ (nodes : List Node) (priority : ℕ),
    Triple (fun t : JudgeList => judge ∈ t.judges) (takeFrom w judge priority nodes) (fun _ _ => True) fun _ _ => False := by
  intro nodes
  induction nodes with
  | nil => exact fun _ => Triple.ret _ fun _ _ => trivial
  | cons node nodes ih =>
      intro priority
      cases hvalue : node.value with
      | marker p =>
          simp only [takeFrom, hvalue]
          exact ih (p + 1)
      | request r =>
          simp only [takeFrom, hvalue]
          refine Triple.bind (Q := fun _ t => judge ∈ t.judges) (Triple.read fun _ h => h) fun t => ?_
          refine Triple.ite (fun _ => Triple.ret _ fun _ _ => trivial) fun _ => Triple.ite (fun _ => ?_) fun _ => ih priority
          refine Triple.bind (Q := fun _ t => judge ∈ t.judges) (Triple.write fun _ h => h) fun _ => ?_
          have hsubmit : Triple (fun t : JudgeList => judge ∈ t.judges) (submit w judge r) (fun _ t => judge ∈ t.judges)
              fun _ t => judge ∈ t.judges := by
            unfold submit
            split
            · exact Triple.refused _ fun _ h => h
            · exact Triple.bind (Q := fun _ t => judge ∈ t.judges) (Triple.write fun _ h => h) fun _ =>
                Triple.refused _ fun _ h => h
            · exact Triple.write fun _ h => h
          refine Triple.bind hsubmit.attempt fun dispatched => ?_
          cases dispatched with
          | true =>
              simp only [if_true]
              exact Triple.write fun _ _ => trivial
          | false =>
              simp only [Bool.false_eq_true, if_false]
              refine Triple.bind (Q := fun t _ => judge ∈ t.judges) (Triple.read fun _ h => h.choose_spec) fun t => ?_
              refine Triple.ite (fun _ => Triple.write fun _ _ => trivial) fun hout => ?_
              exact Triple.refused _ fun _ hin => hout hin

/-- `_handle_free_judge` of a listed judge with a tier raises where there is no lowest tier, and nowhere else. -/
theorem handleFreeJudge_completes (hlisted : judge ∈ s.judges) (htier : (s.handlers judge).tier.isSome = true) :
    Completes (handleFreeJudge w judge) s ↔ s.minTier.isSome = true := by
  unfold handleFreeJudge
  have hget : (get : M JudgeList) s = .ok s s := rfl
  rw [completes_bind hget]
  obtain ⟨tier, htier⟩ := Option.isSome_iff_exists.mp htier
  cases hmin : s.minTier with
  | none =>
      simp only [htier]
      constructor
      · intro hcompletes
        exact absurd hcompletes (not_completes rfl)
      · intro hsome
        cases hsome
  | some minTier =>
      simp only [htier, Option.isSome_some, iff_true]
      split
      · exact ⟨(), s, rfl⟩
      · exact (takeFrom_completes s.queue 0).completes hlisted

theorem onJudgeFree_completes (hlisted : judge ∈ s.judges) (htier : (s.handlers judge).tier.isSome = true) :
    Completes (onJudgeFree w judge id) s ↔ (s.submissionMap id).isSome = true ∧ s.minTier.isSome = true := by
  unfold onJudgeFree
  have hget : (get : M JudgeList) s = .ok s s := rfl
  have hwrite : ∀ (f : JudgeList → JudgeList) t, (modify f : M Unit) t = .ok () (f t) := fun _ _ => rfl
  rw [completes_bind hget]
  cases hmap : s.submissionMap id with
  | none =>
      rw [if_pos rfl]
      constructor
      · intro hcompletes
        exact absurd hcompletes (not_completes rfl)
      · rintro ⟨hsome, _⟩
        cases hsome
  | some assigned =>
      rw [if_neg (by simp), completes_bind (hwrite _ s), completes_bind (hwrite _ _)]
      have htier' : ((s.free judge id).handlers judge).tier.isSome = true := by
        unfold JudgeList.free
        rw [JudgeList.setHandler_self]
        exact htier
      have hfree : Completes (handleFreeJudge w judge) (s.free judge id) ↔ s.minTier.isSome = true :=
        handleFreeJudge_completes hlisted htier'
      refine hfree.trans ?_
      simp

/-- In every state of every run: the report of a listed judge is handled, and so is its list of problems, if and only if
the submission is in `submission_map` and there is a lowest tier. Where every call is orderly and no `submit` fails, the
submission a judge works on is in `submission_map`. -/
theorem report_handled (calls : List (World × Call)) (w : World) (judge id : ℕ)
    (hlisted : judge ∈ (JudgeList.afterAll {} calls).judges)
    (htier : ((JudgeList.afterAll {} calls).handlers judge).tier.isSome = true) :
    ((Completes (perform w (.onJudgeFree judge id)) (JudgeList.afterAll {} calls) ∧
        Completes (perform w (.updateProblems judge)) (JudgeList.afterAll {} calls)) ↔
      ((JudgeList.afterAll {} calls).submissionMap id).isSome = true ∧
        (JudgeList.afterAll {} calls).minTier.isSome = true) ∧
    (AllCalm calls → InOrder {} calls → ((JudgeList.afterAll {} calls).handlers judge).working = some id →
      ((JudgeList.afterAll {} calls).submissionMap id).isSome = true) := by
  have hreport : Completes (perform w (.onJudgeFree judge id)) (JudgeList.afterAll {} calls) ↔
    ((JudgeList.afterAll {} calls).submissionMap id).isSome = true ∧
      (JudgeList.afterAll {} calls).minTier.isSome = true := onJudgeFree_completes hlisted htier
  have hproblems : Completes (perform w (.updateProblems judge)) (JudgeList.afterAll {} calls) ↔
    (JudgeList.afterAll {} calls).minTier.isSome = true := handleFreeJudge_completes hlisted htier
  refine ⟨?_, fun hcalm horder hworking => ?_⟩
  · rw [hreport, hproblems]
    exact ⟨fun h => h.1, fun h => ⟨h, h.2⟩⟩
  · have hagrees : Agrees (JudgeList.afterAll {} calls) := agrees_start.afterAll hcalm horder
    rw [(hagrees.working id judge).mpr ⟨hlisted, hworking⟩]
    rfl

/-- The only judge works on a submission. -/
def judging : List (World × Call) := connects 1 "one" ++ [(calm, .judge (aplusb 5) 1)]

theorem report_handled_judging :
    ((Completes (perform calm (.onJudgeFree 1 5)) (JudgeList.afterAll {} judging) ∧
        Completes (perform calm (.updateProblems 1)) (JudgeList.afterAll {} judging)) ↔
      ((JudgeList.afterAll {} judging).submissionMap 5).isSome = true ∧
        (JudgeList.afterAll {} judging).minTier.isSome = true) ∧
    (AllCalm judging → InOrder {} judging → ((JudgeList.afterAll {} judging).handlers 1).working = some 5 →
      ((JudgeList.afterAll {} judging).submissionMap 5).isSome = true) :=
  report_handled judging calm 1 5 (by decide +kernel) (by decide +kernel)

/-- It is disabled meanwhile. -/
def disabled : List (World × Call) := judging ++ [(calm, .updateDisableJudge "one" true)]

/-- A judge whose `submit` failed disconnects while the next one works on the same submission. -/
def succeeded : List (World × Call) := stopped ++ connects 2 "two" ++ [(calm, .remove 1)]

/-- A listed judge reports what it works on, and `on_judge_free` raises. -/
def Unheard (calls : List (World × Call)) (judge id : ℕ) : Prop :=
  judge ∈ (JudgeList.afterAll {} calls).judges ∧ ((JudgeList.afterAll {} calls).handlers judge).working = some id ∧
    ¬ Completes (perform calm (.onJudgeFree judge id)) (JudgeList.afterAll {} calls)

/-- The first report finds no lowest tier, and the second no entry of `submission_map`. -/
theorem report_unheard : Unheard disabled 1 5 ∧ Unheard succeeded 2 5 := by
  refine ⟨⟨by decide +kernel, by decide +kernel, fun hcompletes => ?_⟩, ⟨by decide +kernel, by decide +kernel, fun hcompletes => ?_⟩⟩
  · have hend := (onJudgeFree_completes (w := calm) (by decide +kernel) (by decide +kernel)).mp hcompletes
    exact absurd hend.2 (by decide +kernel)
  · have hend := (onJudgeFree_completes (w := calm) (by decide +kernel) (by decide +kernel)).mp hcompletes
    exact absurd hend.1 (by decide +kernel)

end Bridge
end CpcJudge
