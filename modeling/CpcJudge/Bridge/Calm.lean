import CpcJudge.Bridge.Dispatch

/-!
# `Bridge.Calm` — the calls when every judge is reached

Where every `submit` succeeds no call is stopped half way, so what a call leaves behind is a function of the list
before it (`JudgeList.after_calm`): `serve` is `_handle_free_judge`, `settle` is `_update_min_tier`.
-/

namespace CpcJudge
namespace Bridge

open Txn

variable {s s' : JudgeList} {w : World} {r : Request} {id judge key priority : ℕ}

/-- Every `submit` succeeds. -/
def World.Calm (w : World) : Prop := ∀ judge id, w.submits judge id = .sent

namespace JudgeList

section

variable (s : JudgeList) (w : World) (judge : ℕ)

/-- The submission the loop of `_handle_free_judge` stops at, from a node on. -/
def choose : ℕ → List Node → Option (ℕ × Request)
  | _, [] => none
  | priority, node :: rest =>
      match node.value with
      | .marker p => choose (p + 1) rest
      | .request r =>
          if REJUDGE_PRIORITY ≤ priority ∧ s.shouldReserveJudge w = true then none
          else if (s.handlers judge).canJudge r.problem r.language r.judgeId then some (node.key, r)
          else choose priority rest

/-- A judge gets a submission. -/
def give (r : Request) : JudgeList :=
  (s.assign r.id judge).setHandler judge fun j => { j with working := some r.id, sent := r.id :: j.sent }

/-- A judge gets a submission of the queue. -/
def hand (key : ℕ) (r : Request) : JudgeList := (s.give judge r).dequeue key r.id

/-- `_handle_free_judge`. -/
def serve : JudgeList :=
  match (s.handlers judge).tier, s.minTier with
  | some tier, some minTier =>
      if minTier < tier then s
      else
        match s.choose w judge 0 s.queue with
        | some (key, r) => s.hand judge key r
        | none => s
  | _, _ => s

/-- `if not judge.working: self._handle_free_judge(judge)`. -/
def serveIfFree : JudgeList := if s.working judge then s else s.serve w judge

/-- `_update_min_tier`. -/
def settle : JudgeList :=
  let t := { s with minTier := s.lowestTier }
  match s.minTier, t.minTier with
  | some old, some new => if old < new then (t.currentTierJudges w).foldl (fun t judge => t.serveIfFree w judge) t else t
  | _, _ => t

/-- `remove`, up to the loops. -/
def leave : JudgeList :=
  match (s.handlers judge).working with
  | some sub => (s.unassign sub).discard judge
  | none => s.discard judge

/-- `on_judge_free`, up to the loop. -/
def free (id : ℕ) : JudgeList := (s.unassign id).setHandler judge fun j => { j with working := none }

/-- `update_disable_judge`, up to the loop. -/
def disable (judgeId : String) (isDisabled : Bool) : JudgeList :=
  { s with
    handlers := fun judge =>
      if judge ∈ s.judges ∧ (s.handlers judge).name = some judgeId then { s.handlers judge with isDisabled }
      else s.handlers judge }

end

/-- What a call leaves behind. -/
def afterCalm (s : JudgeList) (w : World) : Call → JudgeList
  | .register judge => ((s.add judge).settle w).serve w judge
  | .remove judge =>
      let t := (s.leave judge).settle w
      match t.currentTierJudges w with
      | [last] => t.serveIfFree w last
      | _ => t
  | .updateProblems judge => s.serve w judge
  | .updateDisableJudge judgeId isDisabled => (s.disable judgeId isDisabled).settle w
  | .onJudgeFree judge id => if s.submissionMap id = none then s else (s.free judge id).serve w judge
  | .abort id =>
      match s.submissionMap id, s.nodeMap id with
      | none, some key => s.dequeue key id
      | _, _ => s
  | .judge r priority =>
      if s.knows r.id then s
      else
        match s.pick w r priority with
        | some chosen => s.give chosen r
        | none => if checkPriority priority then s.enqueue r priority else s
  | .handshake judge name tier problems executors =>
      s.setHandler judge fun j => { j with name := some name, tier := some tier, problems, executors }
  | .connected judge isDisabled => s.setHandler judge fun j => { j with isDisabled }
  | .supportedProblems judge problems => s.setHandler judge fun j => { j with problems }
  | .pingResponse judge load => s.setHandler judge fun j => { j with load }

theorem give_of_ne {judge' : ℕ} (h : judge' ≠ judge) : (s.give judge r).handlers judge' = s.handlers judge' :=
  handlers_of_ne h

theorem hand_of_ne {judge' : ℕ} (h : judge' ≠ judge) : (s.hand judge key r).handlers judge' = s.handlers judge' :=
  s.give_of_ne (r := r) h

end JudgeList

/-! ## The calls -/

theorem submit_calm (hw : w.Calm) : submit w judge r s =
    .ok () (s.setHandler judge fun j => { j with working := some r.id, sent := r.id :: j.sent }) := by
  unfold submit
  rw [hw judge r.id]
  rfl

theorem takeFrom_calm (hw : w.Calm) (nodes : List Node) (priority : ℕ) :
    takeFrom w judge priority nodes s = .ok () (match s.choose w judge priority nodes with
      | some (key, r) => s.hand judge key r
      | none => s) := by
  induction nodes generalizing priority with
  | nil => rfl
  | cons node nodes ih =>
      cases hvalue : node.value with
      | marker p =>
          simp only [takeFrom, JudgeList.choose, hvalue]
          exact ih (p + 1)
      | request r =>
          simp only [takeFrom, JudgeList.choose, hvalue]
          have hget : (get : M JudgeList) s = .ok s s := rfl
          rw [bind_run hget]
          by_cases hreserve : REJUDGE_PRIORITY ≤ priority ∧ s.shouldReserveJudge w = true
          · rw [if_pos hreserve, if_pos hreserve]
            rfl
          rw [if_neg hreserve, if_neg hreserve]
          by_cases hcan : (s.handlers judge).canJudge r.problem r.language r.judgeId = true
          · rw [if_pos hcan, if_pos hcan]
            have hassign : (modify (·.assign r.id judge) : M Unit) s = .ok () (s.assign r.id judge) := rfl
            rw [bind_run hassign, bind_run (attempt_ok (submit_calm hw))]
            rfl
          · rw [if_neg hcan, if_neg hcan]
            exact ih priority

/-- `_handle_free_judge` raises where a tier is missing, and nowhere else. -/
theorem handleFreeJudge_calm (hw : w.Calm) : handleFreeJudge w judge s =
    if (s.handlers judge).tier.isSome ∧ s.minTier.isSome then .ok () (s.serve w judge) else .error .type s := by
  unfold handleFreeJudge JudgeList.serve
  have hget : (get : M JudgeList) s = .ok s s := rfl
  rw [bind_run hget]
  cases htier : (s.handlers judge).tier with
  | none => rfl
  | some tier =>
      cases hmin : s.minTier with
      | none => rfl
      | some minTier =>
          by_cases hlt : minTier < tier
          · simp only [Option.isSome_some, and_self, if_true, hlt]
            rfl
          · simp only [Option.isSome_some, and_self, if_true, hlt, if_false]
            exact takeFrom_calm hw _ _

theorem JudgeList.serve_of_untiered (h : ¬ ((s.handlers judge).tier.isSome ∧ s.minTier.isSome)) : s.serve w judge = s := by
  unfold JudgeList.serve
  cases htier : (s.handlers judge).tier with
  | none => rfl
  | some tier =>
      cases hmin : s.minTier with
      | none => rfl
      | some minTier => exact absurd (by simp [htier, hmin]) h

theorem endOf_handleFreeJudge (hw : w.Calm) : endOf (handleFreeJudge w judge) s = s.serve w judge := by
  unfold endOf
  rw [handleFreeJudge_calm hw]
  by_cases h : (s.handlers judge).tier.isSome ∧ s.minTier.isSome
  · rw [if_pos h]
  · rw [if_neg h]
    exact (JudgeList.serve_of_untiered h).symm

theorem handleIfFree_calm (hw : w.Calm) (htier : (s.handlers judge).tier.isSome) (hmin : s.minTier.isSome) :
    handleIfFree w judge s = .ok () (s.serveIfFree w judge) := by
  unfold handleIfFree JudgeList.serveIfFree
  have hget : (get : M JudgeList) s = .ok s s := rfl
  rw [bind_run hget]
  by_cases hworking : s.working judge = true
  · rw [if_pos hworking, if_pos hworking]
    rfl
  · rw [if_neg hworking, if_neg hworking, handleFreeJudge_calm hw, if_pos ⟨htier, hmin⟩]

theorem endOf_handleIfFree (hw : w.Calm) : endOf (handleIfFree w judge) s = s.serveIfFree w judge := by
  unfold handleIfFree JudgeList.serveIfFree
  have hget : (get : M JudgeList) s = .ok s s := rfl
  rw [endOf_bind hget]
  split
  · rfl
  · exact endOf_handleFreeJudge hw

/-- All `_handle_free_judge` can do. -/
theorem JudgeList.serve_cases (s : JudgeList) (w : World) (judge : ℕ) : s.serve w judge = s ∨
    ∃ tier minTier key r, (s.handlers judge).tier = some tier ∧ s.minTier = some minTier ∧ tier ≤ minTier ∧
      s.choose w judge 0 s.queue = some (key, r) ∧ s.serve w judge = s.hand judge key r := by
  unfold JudgeList.serve
  cases htier : (s.handlers judge).tier with
  | none => exact .inl rfl
  | some tier =>
      cases hmin : s.minTier with
      | none => exact .inl rfl
      | some minTier =>
          by_cases hlt : minTier < tier
          · exact .inl (if_pos hlt)
          · cases hchoose : s.choose w judge 0 s.queue with
            | none =>
                left
                dsimp only
                rw [if_neg hlt]
            | some chosen =>
                refine .inr ⟨tier, minTier, chosen.1, chosen.2, rfl, rfl, not_lt.mp hlt, rfl, ?_⟩
                dsimp only
                rw [if_neg hlt]

/-- What handing submissions out leaves as it is: the list of judges, and all of a handler but what it works on. -/
structure Frame (s s' : JudgeList) : Prop where
  judges : s'.judges = s.judges
  minTier : s'.minTier = s.minTier
  nextKey : s'.nextKey = s.nextKey
  name : ∀ judge, (s'.handlers judge).name = (s.handlers judge).name
  tier : ∀ judge, (s'.handlers judge).tier = (s.handlers judge).tier
  isDisabled : ∀ judge, (s'.handlers judge).isDisabled = (s.handlers judge).isDisabled
  canJudge : ∀ judge (r : Request), (s'.handlers judge).canJudge r.problem r.language r.judgeId =
    (s.handlers judge).canJudge r.problem r.language r.judgeId

namespace Frame

theorem refl (s : JudgeList) : Frame s s := ⟨rfl, rfl, rfl, fun _ => rfl, fun _ => rfl, fun _ => rfl, fun _ _ => rfl⟩

theorem trans {s'' : JudgeList} (h : Frame s s') (h' : Frame s' s'') : Frame s s'' :=
  ⟨h'.judges.trans h.judges, h'.minTier.trans h.minTier, h'.nextKey.trans h.nextKey,
    fun judge => (h'.name judge).trans (h.name judge), fun judge => (h'.tier judge).trans (h.tier judge),
    fun judge => (h'.isDisabled judge).trans (h.isDisabled judge),
    fun judge r => (h'.canJudge judge r).trans (h.canJudge judge r)⟩

theorem give (s : JudgeList) (judge : ℕ) (r : Request) : Frame s (s.give judge r) := by
  have hhandler : ∀ {α : Type} (f : JudgeHandler → α),
      (∀ j : JudgeHandler, f { j with working := some r.id, sent := r.id :: j.sent } = f j) →
      ∀ judge', f ((s.give judge r).handlers judge') = f (s.handlers judge') := by
    intro α f hf judge'
    by_cases hsame : judge' = judge
    · subst hsame
      unfold JudgeList.give
      rw [JudgeList.setHandler_self]
      exact hf _
    · rw [JudgeList.give_of_ne hsame]
  exact ⟨rfl, rfl, rfl, hhandler _ fun _ => rfl, hhandler _ fun _ => rfl, hhandler _ fun _ => rfl,
    fun judge' r' => hhandler (·.canJudge r'.problem r'.language r'.judgeId) (fun _ => rfl) judge'⟩

theorem hand (s : JudgeList) (judge key : ℕ) (r : Request) : Frame s (s.hand judge key r) := by
  have hgive : Frame s (s.give judge r) := .give s judge r
  exact ⟨hgive.judges, hgive.minTier, hgive.nextKey, hgive.name, hgive.tier, hgive.isDisabled, hgive.canJudge⟩

theorem serve (s : JudgeList) (w : World) (judge : ℕ) : Frame s (s.serve w judge) := by
  rcases s.serve_cases w judge with heq | ⟨_, _, key, r, _, _, _, _, heq⟩
  · rw [heq]
    exact .refl s
  · rw [heq]
    exact .hand s judge key r

theorem serveIfFree (s : JudgeList) (w : World) (judge : ℕ) : Frame s (s.serveIfFree w judge) := by
  unfold JudgeList.serveIfFree
  split
  · exact .refl s
  · exact .serve s w judge

theorem serveAll (s : JudgeList) (w : World) (judges : List ℕ) :
    Frame s (judges.foldl (fun t judge => t.serveIfFree w judge) s) := by
  induction judges generalizing s with
  | nil => exact .refl s
  | cons judge judges ih => exact (Frame.serveIfFree s w judge).trans (ih _)

end Frame

theorem handleAll_calm (hw : w.Calm) (hmin : s.minTier.isSome) (judges : List ℕ)
    (htiers : ∀ judge ∈ judges, (s.handlers judge).tier.isSome) :
    judges.forM (handleIfFree w) s = .ok () (judges.foldl (fun t judge => t.serveIfFree w judge) s) := by
  induction judges generalizing s with
  | nil => rfl
  | cons judge judges ih =>
      have hframe : Frame s (s.serveIfFree w judge) := .serveIfFree s w judge
      have hfirst : handleIfFree w judge s = .ok () (s.serveIfFree w judge) :=
        handleIfFree_calm hw (htiers judge List.mem_cons_self) hmin
      show (handleIfFree w judge >>= fun _ => judges.forM (handleIfFree w)) s = _
      rw [bind_run hfirst, List.foldl_cons]
      refine ih ?_ fun judge' hin => ?_
      · rw [hframe.minTier]
        exact hmin
      · rw [hframe.tier]
        exact htiers judge' (List.mem_cons_of_mem _ hin)

theorem updateMinTier_calm (hw : w.Calm) : updateMinTier w s = .ok () (s.settle w) := by
  unfold updateMinTier JudgeList.settle
  have hget : ∀ t : JudgeList, (get : M JudgeList) t = .ok t t := fun _ => rfl
  have hwrite : (modify fun s => { s with minTier := s.lowestTier } : M Unit) s =
      .ok () { s with minTier := s.lowestTier } := rfl
  rw [bind_run (hget s), bind_run hwrite, bind_run (hget _)]
  dsimp only
  cases hold : s.minTier with
  | none => rfl
  | some old =>
      cases hnew : s.lowestTier with
      | none => rfl
      | some new =>
          by_cases hlt : old < new
          · simp only [hlt, if_true]
            refine handleAll_calm hw rfl _ fun judge hin => ?_
            obtain ⟨_, htier, _⟩ := JudgeList.mem_currentTierJudges.mp hin
            rw [htier]
            rfl
          · simp only [hlt, if_false]
            rfl

theorem register_calm (hw : w.Calm) :
    endOf (register w judge) s = ((s.add judge).settle w).serve w judge := by
  unfold register
  have hadd : (modify (·.add judge) : M Unit) s = .ok () (s.add judge) := rfl
  rw [endOf_bind hadd, endOf_bind (updateMinTier_calm hw), endOf_handleFreeJudge hw]

theorem updateDisableJudge_calm (hw : w.Calm) {judgeId : String} {isDisabled : Bool} :
    endOf (updateDisableJudge w judgeId isDisabled) s = (s.disable judgeId isDisabled).settle w := by
  unfold updateDisableJudge
  have hwrite : ∀ (f : JudgeList → JudgeList) t, (modify f : M Unit) t = .ok () (f t) := fun _ _ => rfl
  rw [endOf_bind (hwrite _ s), endOf_ok (updateMinTier_calm hw)]
  rfl

theorem remove_calm (hw : w.Calm) : endOf (remove w judge) s = s.afterCalm w (.remove judge) := by
  unfold remove JudgeList.afterCalm
  have hwrite : ∀ (f : JudgeList → JudgeList) t, (modify f : M Unit) t = .ok () (f t) := fun _ _ => rfl
  have hget : ∀ t : JudgeList, (get : M JudgeList) t = .ok t t := fun _ => rfl
  rw [endOf_bind (hwrite _ s), endOf_bind (hwrite _ _)]
  refine Eq.trans (congrArg (endOf _) (?_ : _ = s.leave judge)) ?_
  · unfold JudgeList.leave
    cases (s.handlers judge).working with
    | none => rfl
    | some sub => rfl
  rw [endOf_bind (updateMinTier_calm hw), endOf_bind (hget _)]
  dsimp only
  cases ((s.leave judge).settle w).currentTierJudges w with
  | nil => rfl
  | cons last others =>
      cases others with
      | cons => rfl
      | nil => exact endOf_handleIfFree hw

theorem onJudgeFree_calm (hw : w.Calm) : endOf (onJudgeFree w judge id) s = s.afterCalm w (.onJudgeFree judge id) := by
  unfold onJudgeFree JudgeList.afterCalm
  have hwrite : ∀ (f : JudgeList → JudgeList) t, (modify f : M Unit) t = .ok () (f t) := fun _ _ => rfl
  have hget : (get : M JudgeList) s = .ok s s := rfl
  rw [endOf_bind hget]
  dsimp only
  split
  · rfl
  · rw [endOf_bind (hwrite _ s), endOf_bind (hwrite _ _)]
    exact endOf_handleFreeJudge hw

theorem abort_calm : endOf (perform w (.abort id)) s = s.afterCalm w (.abort id) := by
  unfold perform JudgeList.afterCalm
  have hdiscard : ∀ x : M Bool, endOf (discard x) s = endOf x s := by
    intro x
    show endOf (x >>= fun _ => pure ()) s = endOf x s
    cases hx : x s with
    | ok a t => rw [endOf_bind hx, endOf_ok hx]; rfl
    | error e t => unfold endOf; rw [bind_error hx, hx]
  rw [hdiscard]
  unfold abort
  have hget : (get : M JudgeList) s = .ok s s := rfl
  rw [endOf_bind hget]
  dsimp only
  cases s.submissionMap id with
  | some judge =>
      dsimp only
      split
      · rfl
      · rfl
  | none =>
      cases s.nodeMap id with
      | some key => rfl
      | none => rfl

theorem judge_calm (hw : w.Calm) (depth : ℕ) :
    endOf (JudgeList.judge w r priority (depth + 1)) s = s.afterCalm w (.judge r priority) := by
  unfold JudgeList.judge JudgeList.afterCalm
  have hwrite : ∀ (f : JudgeList → JudgeList) t, (modify f : M Unit) t = .ok () (f t) := fun _ _ => rfl
  have hget : (get : M JudgeList) s = .ok s s := rfl
  rw [endOf_bind hget]
  dsimp only
  by_cases hknown : s.knows r.id = true
  · rw [if_pos hknown, if_pos hknown]
    rfl
  rw [if_neg hknown, if_neg hknown]
  cases s.pick w r priority with
  | some chosen =>
      dsimp only
      rw [endOf_bind (hwrite _ s), endOf_bind (attempt_ok (submit_calm hw))]
      rfl
  | none =>
      dsimp only
      split
      · rfl
      · rfl

/-- The list after a call, when every judge is reached. -/
theorem JudgeList.after_calm (hw : w.Calm) (call : Call) : s.after w call = s.afterCalm w call := by
  cases call with
  | register judge => exact register_calm hw
  | remove judge => exact remove_calm hw
  | updateProblems judge => exact endOf_handleFreeJudge hw
  | updateDisableJudge judgeId isDisabled => exact updateDisableJudge_calm hw
  | onJudgeFree judge id => exact onJudgeFree_calm hw
  | abort id => exact abort_calm
  | judge r priority =>
      show endOf (get >>= fun s : JudgeList => JudgeList.judge w r priority (s.judges.length + 2)) s = _
      have hget : (get : M JudgeList) s = .ok s s := rfl
      rw [endOf_bind hget]
      exact judge_calm hw _
  | handshake => rfl
  | connected => rfl
  | supportedProblems => rfl
  | pingResponse => rfl

end Bridge
end CpcJudge
