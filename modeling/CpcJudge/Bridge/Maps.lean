import CpcJudge.Bridge.Calm

/-!
# `Bridge.Maps` — the queue, the two maps and the judges agree

`node_map` is the queue, `submission_map` is what the listed judges work on, and no submission is in both. A failing
`submit` breaks this; so does a judge that reports, asks for work or registers while the list takes it for another.
-/

namespace CpcJudge
namespace Bridge

open Txn

variable {s s' : JudgeList} {w : World} {r : Request} {id judge judge' key priority : ℕ} {f : JudgeHandler → JudgeHandler}

/-- The representation of the list. -/
structure Agrees (s : JudgeList) : Prop where
  queue : Queue s
  judges : s.judges.Nodup
  apart : ∀ id, (s.nodeMap id).isSome = true → s.submissionMap id = none
  working : ∀ id judge, s.submissionMap id = some judge ↔ judge ∈ s.judges ∧ (s.handlers judge).working = some id

theorem Queue.of_eq (h : Queue s) (hqueue : s'.queue = s.queue) (hnodes : s'.nodeMap = s.nodeMap)
    (hkey : s'.nextKey = s.nextKey) : Queue s' := by
  refine ⟨?_, ?_, ?_⟩
  · rw [hqueue]
    exact h.keys
  · rw [hqueue, hkey]
    exact h.fresh
  · rw [hqueue, hnodes]
    exact h.nodes

/-! ## What the loop stops at -/

/-- The loop stops at a node of the queue that the judge can judge. -/
theorem JudgeList.choose_mem {nodes : List Node} (h : s.choose w judge priority nodes = some (key, r)) :
    (⟨key, .request r⟩ : Node) ∈ nodes ∧ (s.handlers judge).canJudge r.problem r.language r.judgeId = true := by
  induction nodes generalizing priority with
  | nil => cases h
  | cons node nodes ih =>
      obtain ⟨nodeKey, value⟩ := node
      cases value with
      | marker p =>
          obtain ⟨hin, hcan⟩ := ih h
          exact ⟨List.mem_cons_of_mem _ hin, hcan⟩
      | request r' =>
          simp only [JudgeList.choose] at h
          split at h
          · cases h
          · split at h
            · rename_i hcan
              cases h
              exact ⟨List.mem_cons_self, hcan⟩
            · obtain ⟨hin, hcan⟩ := ih h
              exact ⟨List.mem_cons_of_mem _ hin, hcan⟩

theorem Queue.node (h : Queue s) (hin : (⟨key, .request r⟩ : Node) ∈ s.queue) : s.nodeMap r.id = some key :=
  (h.nodes r.id key).mpr ⟨_, hin, rfl, by simp [Node.holds]⟩

/-! ## The writes of a call -/

namespace Agrees

/-- What is known of nothing is worked on by nobody. -/
theorem idle (h : Agrees s) (hnone : s.submissionMap id = none) (hlisted : judge ∈ s.judges) :
    (s.handlers judge).working ≠ some id := by
  intro hworking
  exact absurd (hnone.symm.trans ((h.working id judge).mpr ⟨hlisted, hworking⟩)) (by simp)

/-- Writes that leave the queue and `submission_map` alone, and what the listed judges work on. -/
theorem write (h : Agrees s) (hqueue : s'.queue = s.queue) (hnodes : s'.nodeMap = s.nodeMap)
    (hkey : s'.nextKey = s.nextKey) (hmap : s'.submissionMap = s.submissionMap) (hjudges : s'.judges = s.judges)
    (hworking : ∀ judge, (s'.handlers judge).working = (s.handlers judge).working) : Agrees s' := by
  refine ⟨h.queue.of_eq hqueue hnodes hkey, ?_, ?_, ?_⟩
  · rw [hjudges]
    exact h.judges
  · rw [hnodes, hmap]
    exact h.apart
  · intro id judge
    rw [hmap, hjudges, hworking]
    exact h.working id judge

theorem setHandler (h : Agrees s) (hworking : ∀ j, (f j).working = j.working) : Agrees (s.setHandler judge f) := by
  refine h.write rfl rfl rfl rfl rfl fun judge' => ?_
  by_cases hsame : judge' = judge
  · rw [hsame, JudgeList.setHandler_self, hworking]
  · rw [JudgeList.setHandler_of_ne hsame]

theorem disable (h : Agrees s) {judgeId : String} {isDisabled : Bool} : Agrees (s.disable judgeId isDisabled) := by
  refine h.write rfl rfl rfl rfl rfl fun judge => ?_
  unfold JudgeList.disable
  dsimp only
  split
  · rfl
  · rfl

theorem minTier (h : Agrees s) (minTier : Option ℤ) : Agrees { s with minTier } :=
  h.write rfl rfl rfl rfl rfl fun _ => rfl

theorem add (h : Agrees s) (hfree : (s.handlers judge).working = none) : Agrees (s.add judge) := by
  have hnodup : (s.add judge).judges.Nodup := by
    unfold JudgeList.add
    dsimp only
    split
    · exact h.judges
    · rename_i hout
      rw [← List.concat_eq_append]
      exact h.judges.concat hout
  refine ⟨h.queue.of_eq rfl rfl rfl, hnodup, h.apart, fun id judge' => (h.working id judge').trans ?_⟩
  rw [JudgeList.mem_add]
  constructor
  · exact fun hworking => ⟨.inl hworking.1, hworking.2⟩
  · rintro ⟨hlisted | rfl, hworking⟩
    · exact ⟨hlisted, hworking⟩
    · exact absurd (hfree.symm.trans hworking) (by simp)

/-- A judge without work gets a submission nobody works on. -/
theorem given (h : Agrees s) (hlisted : judge ∈ s.judges) (hfree : (s.handlers judge).working = none)
    (hnone : s.submissionMap r.id = none) (id judge' : ℕ) : (s.give judge r).submissionMap id = some judge' ↔
      judge' ∈ s.judges ∧ ((s.give judge r).handlers judge').working = some id := by
  have hself : ((s.give judge r).handlers judge).working = some r.id := (s.give_has).working
  by_cases hid : id = r.id
  · subst hid
    have hmap : (s.give judge r).submissionMap r.id = some judge := JudgeList.assign_self
    rw [hmap]
    constructor
    · intro heq
      obtain rfl := Option.some.inj heq
      exact ⟨hlisted, hself⟩
    · rintro ⟨hin, hworking⟩
      by_cases hsame : judge' = judge
      · rw [hsame]
      · rw [JudgeList.give_of_ne hsame] at hworking
        exact absurd hworking (h.idle hnone hin)
  · have hmap : (s.give judge r).submissionMap id = s.submissionMap id := JudgeList.assign_of_ne hid
    rw [hmap, h.working id judge']
    by_cases hsame : judge' = judge
    · rw [hsame, hself, hfree]
      constructor
      · rintro ⟨_, hno⟩
        cases hno
      · rintro ⟨_, heq⟩
        exact absurd (Option.some.inj heq).symm hid
    · rw [JudgeList.give_of_ne hsame]

theorem give (h : Agrees s) (hlisted : judge ∈ s.judges) (hfree : (s.handlers judge).working = none)
    (hunknown : s.submissionMap r.id = none) (hqueued : s.nodeMap r.id = none) : Agrees (s.give judge r) := by
  refine ⟨h.queue.of_eq rfl rfl rfl, h.judges, fun id hin => ?_, h.given hlisted hfree hunknown⟩
  have hid : id ≠ r.id := by
    rintro rfl
    have hsome : (s.nodeMap r.id).isSome = true := hin
    rw [hqueued] at hsome
    cases hsome
  exact (JudgeList.assign_of_ne hid).trans (h.apart id hin)

theorem hand (h : Agrees s) (hlisted : judge ∈ s.judges) (hfree : (s.handlers judge).working = none)
    (hin : (⟨key, .request r⟩ : Node) ∈ s.queue) : Agrees (s.hand judge key r) := by
  have hkey : s.nodeMap r.id = some key := h.queue.node hin
  have hnone : s.submissionMap r.id = none := h.apart r.id (by rw [hkey]; rfl)
  have hgive : Queue (s.give judge r) := h.queue.of_eq rfl rfl rfl
  refine ⟨hgive.dequeue hkey, h.judges, fun id hnode => ?_, h.given hlisted hfree hnone⟩
  by_cases hid : id = r.id
  · subst hid
    have hgone : (s.hand judge key r).nodeMap r.id = none := Function.update_self _ _ _
    rw [hgone] at hnode
    cases hnode
  · have hsame : (s.hand judge key r).nodeMap id = s.nodeMap id := Function.update_of_ne hid _ _
    rw [hsame] at hnode
    exact (JudgeList.assign_of_ne hid).trans (h.apart id hnode)

theorem enqueue (h : Agrees s) (hunknown : s.submissionMap r.id = none) (hqueued : s.nodeMap r.id = none) :
    Agrees (s.enqueue r priority) := by
  refine ⟨h.queue.enqueue hqueued, h.judges, fun id hnode => ?_, h.working⟩
  by_cases hid : id = r.id
  · exact hid ▸ hunknown
  · have hsame : (s.enqueue r priority).nodeMap id = s.nodeMap id := Function.update_of_ne hid _ _
    exact h.apart id (hsame ▸ hnode)

theorem dequeue (h : Agrees s) (hkey : s.nodeMap id = some key) : Agrees (s.dequeue key id) := by
  refine ⟨h.queue.dequeue hkey, h.judges, fun id' hnode => h.apart id' ?_, h.working⟩
  by_cases hid : id' = id
  · rw [hid, hkey]
    rfl
  · have hsame : (s.dequeue key id).nodeMap id' = s.nodeMap id' := Function.update_of_ne hid _ _
    exact hsame ▸ hnode

/-- A listed judge works on nothing else than what it is assigned. -/
theorem unassigned (h : Agrees s) (hlisted : judge ∈ s.judges) (hworking : (s.handlers judge).working = some id)
    (id' judge' : ℕ) : (s.unassign id).submissionMap id' = some judge' ↔
      (judge' ∈ s.judges ∧ (s.handlers judge').working = some id') ∧ judge' ≠ judge := by
  rw [← h.working id' judge']
  constructor
  · intro hmap
    obtain ⟨hid, hmap⟩ := JudgeList.unassign_some hmap
    refine ⟨hmap, ?_⟩
    rintro rfl
    exact hid (Option.some.inj (((h.working id' judge').mp hmap).2.symm.trans hworking))
  · rintro ⟨hmap, hne⟩
    have hid : id' ≠ id := by
      rintro rfl
      exact hne (Option.some.inj (hmap.symm.trans ((h.working id' judge).mpr ⟨hlisted, hworking⟩)))
    exact (Function.update_of_ne hid _ _).trans hmap

theorem apart_unassign (h : Agrees s) (id' : ℕ) (hnode : (s.nodeMap id').isSome = true) :
    (s.unassign id).submissionMap id' = none := by
  by_cases hid : id' = id
  · rw [hid]
    exact Function.update_self _ _ _
  · exact (Function.update_of_ne hid _ _).trans (h.apart id' hnode)

theorem free (h : Agrees s) (hlisted : judge ∈ s.judges) (hworking : (s.handlers judge).working = some id) :
    Agrees (s.free judge id) := by
  refine ⟨h.queue.of_eq rfl rfl rfl, h.judges, h.apart_unassign, fun id' judge' => ?_⟩
  refine (h.unassigned hlisted hworking id' judge').trans ?_
  unfold JudgeList.free
  by_cases hsame : judge' = judge
  · rw [hsame, JudgeList.setHandler_self]
    simp
  · rw [JudgeList.setHandler_of_ne hsame]
    exact ⟨fun hother => hother.1, fun hother => ⟨hother, hsame⟩⟩

/-- A judge leaves, once. -/
theorem leave (h : Agrees s) (honce : judge ∈ s.judges ∨ (s.handlers judge).working = none) : Agrees (s.leave judge) := by
  unfold JudgeList.leave
  cases hworking : (s.handlers judge).working with
  | none =>
      refine ⟨h.queue.of_eq rfl rfl rfl, h.judges.filter _, h.apart, fun id judge' => (h.working id judge').trans ?_⟩
      rw [JudgeList.mem_discard]
      constructor
      · rintro ⟨hlisted, hid⟩
        refine ⟨⟨hlisted, ?_⟩, hid⟩
        rintro rfl
        exact absurd (hworking.symm.trans hid) (by simp)
      · exact fun hin => ⟨hin.1.1, hin.2⟩
  | some sub =>
      have hlisted : judge ∈ s.judges := honce.resolve_right (by simp [hworking])
      refine ⟨h.queue.of_eq rfl rfl rfl, h.judges.filter _, h.apart_unassign, fun id judge' => ?_⟩
      refine (h.unassigned hlisted hworking id judge').trans ?_
      rw [JudgeList.mem_discard]
      exact ⟨fun hin => ⟨⟨hin.1.1, hin.2⟩, hin.1.2⟩, fun hin => ⟨⟨hin.1.1, hin.2⟩, hin.1.2⟩⟩

end Agrees

/-! ## Handing submissions out -/

/-- What is done with some judges leaves the others as they are. -/
def Spares (handled : List ℕ) (s s' : JudgeList) : Prop := ∀ judge ∉ handled, s'.handlers judge = s.handlers judge

theorem Spares.serve (s : JudgeList) (w : World) (judge : ℕ) : Spares [judge] s (s.serve w judge) := by
  intro judge' hout
  have hne : judge' ≠ judge := fun heq => hout (heq ▸ List.mem_singleton_self _)
  rcases s.serve_cases w judge with heq | ⟨_, _, key, r, _, _, _, _, heq⟩
  · rw [heq]
  · rw [heq]
    exact JudgeList.hand_of_ne hne

theorem Spares.serveIfFree (s : JudgeList) (w : World) (judge : ℕ) : Spares [judge] s (s.serveIfFree w judge) := by
  unfold JudgeList.serveIfFree
  split
  · exact fun _ _ => rfl
  · exact .serve s w judge

theorem Spares.serveAll (s : JudgeList) (w : World) (judges : List ℕ) :
    Spares judges s (judges.foldl (fun t judge => t.serveIfFree w judge) s) := by
  induction judges generalizing s with
  | nil => exact fun _ _ => rfl
  | cons judge judges ih =>
      intro judge' hout
      obtain ⟨hne, hout⟩ := not_or.mp (List.mem_cons.not.mp hout)
      exact (ih (s.serveIfFree w judge) judge' hout).trans
        (Spares.serveIfFree s w judge judge' fun hin => hne (List.mem_singleton.mp hin))

/-- A judge the lowest tier is not raised to keeps its handler. -/
theorem JudgeList.settle_handler (h : s.raisesTo judge = false) : (s.settle w).handlers judge = s.handlers judge := by
  unfold JudgeList.settle
  dsimp only
  cases hold : s.minTier with
  | none => rfl
  | some old =>
      cases hnew : s.lowestTier with
      | none => rfl
      | some new =>
          dsimp only
          split
          · rename_i hlt
            refine Spares.serveAll _ w _ judge fun hin => ?_
            obtain ⟨_, htier, henabled⟩ := JudgeList.mem_currentTierJudges.mp hin
            have htier' : (s.handlers judge).tier = some new := htier
            have henabled' : (s.handlers judge).isDisabled = false := henabled
            simp [JudgeList.raisesTo, hold, hnew, htier', henabled', hlt] at h
          · rfl

/-- The lowest tier is written, and the judges of the new one are served. -/
theorem JudgeList.settle_cases (s : JudgeList) (w : World) :
    s.settle w = { s with minTier := s.lowestTier } ∨
      s.settle w = (({ s with minTier := s.lowestTier } : JudgeList).currentTierJudges w).foldl
        (fun t judge => t.serveIfFree w judge) { s with minTier := s.lowestTier } := by
  unfold JudgeList.settle
  dsimp only
  cases s.minTier with
  | none => exact .inl rfl
  | some old =>
      cases s.lowestTier with
      | none => exact .inl rfl
      | some new =>
          dsimp only
          split
          · exact .inr rfl
          · exact .inl rfl

theorem JudgeList.settle_judges : (s.settle w).judges = s.judges := by
  rcases s.settle_cases w with heq | heq
  · rw [heq]
  · rw [heq]
    exact (Frame.serveAll _ w _).judges

namespace Agrees

theorem serve (h : Agrees s) (hlisted : judge ∈ s.judges) (hfree : (s.handlers judge).working = none) :
    Agrees (s.serve w judge) := by
  rcases s.serve_cases w judge with heq | ⟨_, _, key, r, _, _, _, hchoose, heq⟩
  · rwa [heq]
  · rw [heq]
    exact h.hand hlisted hfree (JudgeList.choose_mem hchoose).1

theorem serveIfFree (h : Agrees s) (hlisted : judge ∈ s.judges) : Agrees (s.serveIfFree w judge) := by
  unfold JudgeList.serveIfFree
  split
  · exact h
  · rename_i hworking
    exact h.serve hlisted (by simpa [JudgeList.working] using hworking)

theorem serveAll (h : Agrees s) (judges : List ℕ) (hlisted : ∀ judge ∈ judges, judge ∈ s.judges) :
    Agrees (judges.foldl (fun t judge => t.serveIfFree w judge) s) := by
  induction judges generalizing s with
  | nil => exact h
  | cons judge judges ih =>
      refine ih (h.serveIfFree (hlisted judge List.mem_cons_self)) fun judge' hin => ?_
      rw [(Frame.serveIfFree s w judge).judges]
      exact hlisted judge' (List.mem_cons_of_mem _ hin)

theorem settle (h : Agrees s) : Agrees (s.settle w) := by
  rcases s.settle_cases w with heq | heq
  · rw [heq]
    exact h.minTier _
  · rw [heq]
    exact (h.minTier _).serveAll _ fun judge hin => (JudgeList.mem_currentTierJudges.mp hin).1

end Agrees

/-! ## Runs -/

/-- The calls a judge makes agree with what the list takes it for: one that registers has no work and gets none while
the lowest tier is computed, one that leaves is listed or has no work, one that asks for work is listed and has none,
and one that reports is listed and works on what it reports, or nobody has it. -/
def JudgeList.Orderly (s : JudgeList) : Call → Prop
  | .register judge => (s.handlers judge).working = none ∧ (s.add judge).raisesTo judge = false
  | .remove judge => judge ∈ s.judges ∨ (s.handlers judge).working = none
  | .updateProblems judge => judge ∈ s.judges ∧ (s.handlers judge).working = none
  | .onJudgeFree judge submission =>
      s.submissionMap submission = none ∨ judge ∈ s.judges ∧ (s.handlers judge).working = some submission
  | _ => True

instance (s : JudgeList) : (call : Call) → Decidable (s.Orderly call)
  | .register _ => inferInstanceAs (Decidable (_ ∧ _))
  | .remove _ => inferInstanceAs (Decidable (_ ∨ _))
  | .updateProblems _ => inferInstanceAs (Decidable (_ ∧ _))
  | .onJudgeFree _ _ => inferInstanceAs (Decidable (_ ∨ _))
  | .judge _ _ | .updateDisableJudge _ _ | .abort _ | .handshake .. | .connected _ _ | .supportedProblems _ _
  | .pingResponse _ _ => inferInstanceAs (Decidable True)

/-- Every call of a history is orderly where it happens. -/
def InOrder : JudgeList → List (World × Call) → Prop
  | _, [] => True
  | s, call :: calls => s.Orderly call.2 ∧ InOrder (s.after call.1 call.2) calls

instance decidableInOrder : (s : JudgeList) → (calls : List (World × Call)) → Decidable (InOrder s calls)
  | _, [] => inferInstanceAs (Decidable True)
  | s, call :: calls =>
      have := decidableInOrder (s.after call.1 call.2) calls
      inferInstanceAs (Decidable (_ ∧ _))

/-- No `submit` of a history fails. -/
def AllCalm (calls : List (World × Call)) : Prop := ∀ call ∈ calls, call.1.Calm

theorem allCalm_of_worlds {calls : List (World × Call)} (h : ∀ w ∈ calls.map (·.1), w = calm) : AllCalm calls := by
  intro call hin
  rw [h call.1 (List.mem_map_of_mem hin)]
  exact fun _ _ => rfl

theorem JudgeList.unknown (h : ¬ s.knows id = true) : s.submissionMap id = none ∧ s.nodeMap id = none := by
  simpa [JudgeList.knows] using h

theorem Agrees.after (h : Agrees s) (hw : w.Calm) {call : Call} (horderly : s.Orderly call) : Agrees (s.after w call) := by
  rw [JudgeList.after_calm hw]
  cases call with
  | register judge =>
      obtain ⟨hfree, hraise⟩ := horderly
      refine (h.add hfree).settle.serve ?_ ?_
      · rw [JudgeList.settle_judges]
        exact JudgeList.mem_add.mpr (.inr rfl)
      · rw [JudgeList.settle_handler hraise]
        exact hfree
  | remove judge =>
      have hsettled : Agrees ((s.leave judge).settle w) := (h.leave horderly).settle
      unfold JudgeList.afterCalm
      dsimp only
      split
      · rename_i last hlast
        exact hsettled.serveIfFree (JudgeList.mem_currentTierJudges.mp (hlast ▸ List.mem_singleton_self last)).1
      · exact hsettled
  | updateProblems judge => exact h.serve horderly.1 horderly.2
  | updateDisableJudge judgeId isDisabled => exact h.disable.settle
  | onJudgeFree judge submission =>
      unfold JudgeList.afterCalm
      dsimp only
      split
      · exact h
      · rename_i hmap
        obtain ⟨hlisted, hworking⟩ := horderly.resolve_left hmap
        refine (h.free hlisted hworking).serve hlisted ?_
        unfold JudgeList.free
        rw [JudgeList.setHandler_self]
  | abort submission =>
      unfold JudgeList.afterCalm
      dsimp only
      split
      · rename_i hkey
        exact h.dequeue hkey
      · exact h
  | judge r priority =>
      unfold JudgeList.afterCalm
      dsimp only
      split
      · exact h
      rename_i hunknown
      obtain ⟨hmap, hnode⟩ := JudgeList.unknown hunknown
      split
      · rename_i chosen hpick
        exact h.give (JudgeList.pick_spec hpick).1 (JudgeList.pick_spec hpick).2 hmap hnode
      · split
        · exact h.enqueue hmap hnode
        · exact h
  | handshake =>
      unfold JudgeList.afterCalm
      apply h.setHandler
      exact fun _ => rfl
  | connected =>
      unfold JudgeList.afterCalm
      apply h.setHandler
      exact fun _ => rfl
  | supportedProblems =>
      unfold JudgeList.afterCalm
      apply h.setHandler
      exact fun _ => rfl
  | pingResponse =>
      unfold JudgeList.afterCalm
      apply h.setHandler
      exact fun _ => rfl

theorem agrees_start : Agrees {} := by
  refine ⟨sound_start.queue, List.nodup_nil, fun _ _ => rfl, fun id judge => ?_⟩
  constructor
  · intro hmap
    cases hmap
  · rintro ⟨hlisted, _⟩
    exact absurd hlisted List.not_mem_nil

theorem Agrees.afterAll (h : Agrees s) {calls : List (World × Call)} (hcalm : AllCalm calls) (horder : InOrder s calls) :
    Agrees (s.afterAll calls) := by
  induction calls generalizing s with
  | nil => exact h
  | cons call calls ih =>
      obtain ⟨horderly, horder⟩ := horder
      exact ih (h.after (hcalm call List.mem_cons_self) horderly)
        (fun call hin => hcalm call (List.mem_cons_of_mem _ hin)) horder

/-- What the maps are for: the ids of `node_map` are the submissions of the queue, each in one node; `submission_map` is
who works on what; no submission is in both, and none is worked on by two judges. -/
structure Represented (s : JudgeList) : Prop where
  nodes : ∀ id key, s.nodeMap id = some key ↔ ∃ node ∈ s.queue, node.key = key ∧ node.holds id = true
  once : ∀ id, ∀ node ∈ s.queue, ∀ node' ∈ s.queue, node.holds id = true → node'.holds id = true → node = node'
  apart : ∀ id, ¬ ((s.nodeMap id).isSome = true ∧ (s.submissionMap id).isSome = true)
  working : ∀ id judge, s.submissionMap id = some judge ↔ judge ∈ s.judges ∧ (s.handlers judge).working = some id
  alone : ∀ id, ∀ judge ∈ s.judges, ∀ judge' ∈ s.judges, (s.handlers judge).working = some id →
    (s.handlers judge').working = some id → judge = judge'

theorem Agrees.represented (h : Agrees s) : Represented s := by
  refine ⟨h.queue.nodes, ?_, ?_, h.working, ?_⟩
  · intro id node hnode node' hnode' hholds hholds'
    have hkey : s.nodeMap id = some node.key := (h.queue.nodes id node.key).mpr ⟨node, hnode, rfl, hholds⟩
    have hkey' : s.nodeMap id = some node'.key := (h.queue.nodes id node'.key).mpr ⟨node', hnode', rfl, hholds'⟩
    exact h.queue.eq_of_key hnode hnode' (Option.some.inj (hkey.symm.trans hkey'))
  · rintro id ⟨hnode, hmap⟩
    rw [h.apart id hnode] at hmap
    cases hmap
  · intro id judge hlisted judge' hlisted' hworking hworking'
    have hmap : s.submissionMap id = some judge := (h.working id judge).mpr ⟨hlisted, hworking⟩
    have hmap' : s.submissionMap id = some judge' := (h.working id judge').mpr ⟨hlisted', hworking'⟩
    exact Option.some.inj (hmap.symm.trans hmap')

/-- The representation holds after every history of orderly calls in which no `submit` fails. -/
theorem maps_represented (calls : List (World × Call)) (hcalm : AllCalm calls) (horder : InOrder {} calls) :
    Represented (JudgeList.afterAll {} calls) :=
  (agrees_start.afterAll hcalm horder).represented

/-- A judge takes a queued submission, reports it and leaves; a second one is aborted in the queue. -/
def finished : List (World × Call) :=
  [(calm, .judge (aplusb 5) 1), (calm, .judge (aplusb 6) 1)] ++ connects 1 "one" ++
    [(calm, .abort 6), (calm, .onJudgeFree 1 5), (calm, .remove 1)]

theorem maps_represented_finished : Represented (JudgeList.afterAll {} finished) := by
  refine maps_represented finished (allCalm_of_worlds fun w hw => ?_) (by decide +kernel)
  simpa [finished, connects] using hw

/-- The `submit` of a queued submission fails. -/
def stopped : List (World × Call) :=
  [(calm, .judge (aplusb 5) 1), (calm, .handshake 1 "one" 1 ["aplusb"] ["PY3"]), (unreachable, .register 1)]

/-- A judge that turns out to be disabled leaves the lowest tier behind, and the next one gets two submissions. -/
def raised : List (World × Call) :=
  connects 1 "one" ++ [(calm, .connected 1 true), (calm, .judge (aplusb 5) 1), (calm, .judge (aplusb 6) 1),
    (calm, .handshake 2 "two" 2 ["aplusb"] ["PY3"]), (calm, .register 2)]

/-- A judge reports what another one works on. -/
def misreported : List (World × Call) :=
  connects 1 "one" ++ [(calm, .judge (aplusb 5) 1)] ++ connects 2 "two" ++ [(calm, .onJudgeFree 2 5)]

/-- The submission that failed is in both maps; the judge with two submissions is assigned one it does not work on, and
the judge whose submission was reported works on one it is not assigned. -/
theorem maps_disagree : ¬ Represented (JudgeList.afterAll {} stopped) ∧ ¬ Represented (JudgeList.afterAll {} raised) ∧
    ¬ Represented (JudgeList.afterAll {} misreported) := by
  refine ⟨fun h => h.apart 5 (by decide +kernel), fun h => ?_, fun h => ?_⟩
  · have hassigned : (JudgeList.afterAll {} raised).submissionMap 5 = some 2 := by decide +kernel
    have hworking := ((h.working 5 2).mp hassigned).2
    exact absurd hworking (by decide +kernel)
  · have hworking : 1 ∈ (JudgeList.afterAll {} misreported).judges ∧
        ((JudgeList.afterAll {} misreported).handlers 1).working = some 5 := by decide +kernel
    exact absurd ((h.working 5 1).mpr hworking) (by decide +kernel)

end Bridge
end CpcJudge
