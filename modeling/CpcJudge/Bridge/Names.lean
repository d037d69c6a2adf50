import CpcJudge.Bridge.Calm

/-!
# `Bridge.Names` — the names of the judges of the list

Requests name judges, so no two judges of the list should have one name. `register` asks for the judges of that name to
be disconnected, but it passes the handler and not its name: nobody is asked (`disconnects_handler`). Names stay apart
in the runs where no judge registers, or changes its name, under the name of another one of the list.
-/

namespace CpcJudge
namespace Bridge

open Txn

variable {s s' : JudgeList} {w : World} {r : Request} {id judge judge' priority : ℕ}

/-- What `disconnect` is called with: a request names a judge, `register` passes the handler itself. -/
inductive JudgeId where
  | name (name : String)
  | handler (judge : ℕ)
  deriving DecidableEq, Repr

/-- `judge.name == judge_id`: a name is never equal to a handler. -/
def JudgeId.names : JudgeId → Option String → Bool
  | .name id, other => other = some id
  | .handler _, _ => false

/-- `disconnect`: the judges it calls, each with `force`. -/
def JudgeList.disconnect (s : JudgeList) (judgeId : JudgeId) (force : Bool) : List (ℕ × Bool) :=
  (s.judges.filter fun judge => judgeId.names (s.handlers judge).name).map fun judge => (judge, force)

/-- The judges `register` disconnects. -/
def JudgeList.registerDisconnects (s : JudgeList) (judge : ℕ) : List (ℕ × Bool) := s.disconnect (.handler judge) true

/-- Every other judge of the list with the name of the one that registers is disconnected by force. -/
def Replaces (s : JudgeList) (judge : ℕ) : Prop :=
  ∀ other ∈ s.judges, other ≠ judge → (s.handlers other).name = (s.handlers judge).name →
    (other, true) ∈ s.registerDisconnects judge

/-- No two judges of the list have one name. -/
def NamesApart (s : JudgeList) : Prop :=
  ∀ judge ∈ s.judges, ∀ other ∈ s.judges, (s.handlers judge).name = (s.handlers other).name → judge = other

/-- No other judge of the list has the name. -/
def JudgeList.Unused (s : JudgeList) (judge : ℕ) (name : Option String) : Prop :=
  ∀ other ∈ s.judges, other ≠ judge → (s.handlers other).name ≠ name

instance {judge : ℕ} {name : Option String} : Decidable (s.Unused judge name) :=
  inferInstanceAs (Decidable (∀ other ∈ s.judges, other ≠ judge → (s.handlers other).name ≠ name))

/-- `disconnect` of a handler finds nobody. -/
theorem JudgeList.disconnects_handler (judge : ℕ) (force : Bool) : s.disconnect (.handler judge) force = [] := by
  unfold JudgeList.disconnect
  rw [List.map_eq_nil_iff, List.filter_eq_nil_iff]
  intro other _ hnames
  cases hnames

theorem replaces_iff : Replaces s judge ↔ s.Unused judge (s.handlers judge).name := by
  constructor
  · intro hreplaces other hin hne hname
    have hasked := hreplaces other hin hne hname
    unfold JudgeList.registerDisconnects at hasked
    rw [JudgeList.disconnects_handler] at hasked
    exact absurd hasked List.not_mem_nil
  · intro hunused other hin hne hname
    exact absurd hname (hunused other hin hne)

/-! ## What a call does to the names -/

/-- The judges are some of the listed ones, with the names they had. -/
structure Within (judges : List ℕ) (name : ℕ → Option String) (s : JudgeList) : Prop where
  judges : ∀ judge ∈ s.judges, judge ∈ judges
  name : ∀ judge, (s.handlers judge).name = name judge

section

variable {judges : List ℕ} {name : ℕ → Option String}

namespace Within

theorem setHandler {f : JudgeHandler → JudgeHandler} (h : Within judges name s) (hf : ∀ j, (f j).name = j.name) :
    Within judges name (s.setHandler judge f) := by
  refine ⟨h.judges, fun judge' => ?_⟩
  by_cases hsame : judge' = judge
  · rw [hsame, JudgeList.setHandler_self, hf]
    exact h.name judge
  · rw [JudgeList.setHandler_of_ne hsame]
    exact h.name judge'

theorem discard (h : Within judges name s) : Within judges name (s.discard judge) :=
  ⟨fun judge' hin => h.judges judge' (JudgeList.mem_discard.mp hin).1, h.name⟩

theorem submit : Keeps (Within judges name) (submit w judge r) fun _ t => Within judges name t := by
  unfold Bridge.submit
  split
  · exact Triple.refused _ fun _ h => h
  · refine Triple.bind (Q := fun _ => Within judges name) (Triple.write fun _ h => ?_) fun _ => Triple.refused _ fun _ h => h
    apply h.setHandler
    exact fun _ => rfl
  · refine Triple.write fun _ h => ?_
    apply h.setHandler
    exact fun _ => rfl

theorem dispatched : Keeps (Within judges name) (attempt (Bridge.submit w judge r)) fun _ t => Within judges name t := by
  refine submit.attempt.weaken fun dispatched t ht => ?_
  cases dispatched with
  | true => exact ht
  | false =>
      obtain ⟨_, ht⟩ := ht
      exact ht

theorem takeFrom (nodes : List Node) (priority : ℕ) :
    Keeps (Within judges name) (takeFrom w judge priority nodes) fun _ t => Within judges name t := by
  induction nodes generalizing priority with
  | nil => exact Keeps.ret _
  | cons node nodes ih =>
      cases hvalue : node.value with
      | marker p =>
          simp only [Bridge.takeFrom, hvalue]
          exact ih (p + 1)
      | request r =>
          simp only [Bridge.takeFrom, hvalue]
          refine Keeps.read.bind fun t => Keeps.ite (fun _ => Keeps.ret _) fun _ => Keeps.ite (fun _ => ?_) fun _ => ih priority
          refine (Keeps.write fun _ h => ⟨h.judges, h.name⟩).bind fun _ => dispatched.bind fun dispatched => ?_
          refine Keeps.ite (fun _ => Keeps.write fun _ h => ⟨h.judges, h.name⟩) fun _ => Keeps.read.bind fun t => ?_
          exact Keeps.ite (fun _ => Keeps.write fun _ h => h.discard) fun _ => Triple.refused _ fun _ h => h

theorem handleFreeJudge : Keeps (Within judges name) (handleFreeJudge w judge) fun _ t => Within judges name t := by
  unfold Bridge.handleFreeJudge
  refine Keeps.read.bind fun t => ?_
  split
  · exact Keeps.ite (fun _ => Keeps.ret _) fun _ => takeFrom _ _
  · exact Triple.refused _ fun _ h => h

theorem handleIfFree : Keeps (Within judges name) (handleIfFree w judge) fun _ t => Within judges name t :=
  Keeps.read.bind fun _ => Keeps.ite (fun _ => Keeps.ret _) fun _ => handleFreeJudge

theorem updateMinTier : Keeps (Within judges name) (updateMinTier w) fun _ t => Within judges name t := by
  unfold Bridge.updateMinTier
  refine Keeps.read.bind fun old => (Keeps.write fun _ h => ⟨h.judges, h.name⟩).bind fun _ => Keeps.read.bind fun t => ?_
  split
  · exact Keeps.ite (fun _ => Keeps.forM fun _ _ => handleIfFree) fun _ => Keeps.ret _
  · exact Keeps.ret _

theorem remove : Keeps (Within judges name) (remove w judge) fun _ t => Within judges name t := by
  unfold Bridge.remove
  refine (Keeps.write fun t h => ?_).bind fun _ => ?_
  · split
    · exact ⟨h.judges, h.name⟩
    · exact h
  refine (Keeps.write fun _ h => h.discard).bind fun _ => updateMinTier.bind fun _ => Keeps.read.bind fun t => ?_
  split
  · exact handleIfFree
  · exact Keeps.ret _

theorem judgeRequest (depth : ℕ) :
    Keeps (Within judges name) (JudgeList.judge w r priority depth) fun _ t => Within judges name t := by
  induction depth with
  | zero => exact Triple.refused _ fun _ h => h
  | succ depth ih =>
      unfold JudgeList.judge
      refine Keeps.read.bind fun t => Keeps.ite (fun _ => Keeps.ret _) fun _ => ?_
      split
      · refine (Keeps.write fun _ h => ⟨h.judges, h.name⟩).bind fun _ => dispatched.bind fun dispatched => ?_
        exact Keeps.ite (fun _ => Keeps.ret _) fun _ => (Keeps.write fun _ h => h.discard).bind fun _ => ih
      · exact Keeps.ite (fun _ => Keeps.write fun _ h => ⟨h.judges, h.name⟩) fun _ => Triple.refused _ fun _ h => h

theorem updateDisableJudge {judgeId : String} {isDisabled : Bool} :
    Keeps (Within judges name) (updateDisableJudge w judgeId isDisabled) fun _ t => Within judges name t := by
  unfold Bridge.updateDisableJudge
  refine (Keeps.write fun t h => ⟨h.judges, fun judge => ?_⟩).bind fun _ => updateMinTier
  dsimp only
  split
  · exact h.name judge
  · exact h.name judge

theorem onJudgeFree : Keeps (Within judges name) (onJudgeFree w judge id) fun _ t => Within judges name t := by
  unfold Bridge.onJudgeFree
  refine Keeps.read.bind fun t => Keeps.ite (fun _ => Triple.refused _ fun _ h => h) fun _ => ?_
  refine (Keeps.write fun _ h => ⟨h.judges, h.name⟩).bind fun _ => (Keeps.write fun _ h => ?_).bind fun _ => handleFreeJudge
  apply h.setHandler
  exact fun _ => rfl

theorem abort : Keeps (Within judges name) (abort w id) fun _ t => Within judges name t := by
  unfold Bridge.abort
  refine Keeps.read.bind fun t => ?_
  split
  · exact Keeps.ite (fun _ => Keeps.ret _) fun _ => Triple.refused _ fun _ h => h
  · split
    · exact (Keeps.write fun _ h => ⟨h.judges, h.name⟩).bind fun _ => Keeps.ret _
    · exact Keeps.ret _

end Within

end

theorem Within.self (s : JudgeList) : Within s.judges (fun judge => (s.handlers judge).name) s :=
  ⟨fun _ h => h, fun _ => rfl⟩

/-- The judges a call can leave in the list. -/
def JudgeList.roster (s : JudgeList) : Call → List ℕ
  | .register judge => (s.add judge).judges
  | _ => s.judges

/-- The names the judges have after a call. -/
def JudgeList.namesAfter (s : JudgeList) : Call → ℕ → Option String
  | .handshake judge name _ _ _ => Function.update (fun judge => (s.handlers judge).name) judge (some name)
  | _ => fun judge => (s.handlers judge).name

/-- A call adds the judge that registers at most, and only a handshake names a judge. -/
theorem Within.after (s : JudgeList) (w : World) (call : Call) :
    Within (s.roster call) (s.namesAfter call) (s.after w call) := by
  have hcall : ∀ {x : M Unit}, Keeps (Within (s.roster call) (s.namesAfter call)) x
      (fun _ t => Within (s.roster call) (s.namesAfter call) t) → Within (s.roster call) (s.namesAfter call) s →
      Within (s.roster call) (s.namesAfter call) (endOf x s) := fun hx h => Triple.endOf hx h
  unfold JudgeList.after
  cases call with
  | register judge =>
      refine Triple.endOf (P := (· = s)) (Triple.bind (Q := fun _ => Within _ _) (Triple.write ?_) fun _ =>
        updateMinTier.bind fun _ => handleFreeJudge) rfl
      rintro _ rfl
      exact ⟨fun _ h => h, fun _ => rfl⟩
  | remove judge => exact hcall remove (.self s)
  | updateProblems judge => exact hcall handleFreeJudge (.self s)
  | updateDisableJudge judgeId isDisabled => exact hcall updateDisableJudge (.self s)
  | onJudgeFree judge submission => exact hcall onJudgeFree (.self s)
  | abort submission => exact hcall (abort.bind fun _ => Keeps.ret _) (.self s)
  | judge r priority => exact hcall (Keeps.read.bind fun _ => judgeRequest _) (.self s)
  | handshake judge name tier problems executors =>
      refine ⟨fun _ h => h, fun judge' => ?_⟩
      show ((s.setHandler judge fun j => { j with name := some name, tier := some tier, problems, executors }).handlers
        judge').name = Function.update (fun judge => (s.handlers judge).name) judge (some name) judge'
      by_cases hsame : judge' = judge
      · rw [hsame, JudgeList.setHandler_self, Function.update_self]
      · rw [JudgeList.setHandler_of_ne hsame, Function.update_of_ne hsame]
  | connected =>
      refine hcall (Keeps.write fun _ h => ?_) (.self s)
      apply h.setHandler
      exact fun _ => rfl
  | supportedProblems =>
      refine hcall (Keeps.write fun _ h => ?_) (.self s)
      apply h.setHandler
      exact fun _ => rfl
  | pingResponse =>
      refine hcall (Keeps.write fun _ h => ?_) (.self s)
      apply h.setHandler
      exact fun _ => rfl

/-! ## Runs -/

/-- No judge takes the name of another one of the list, when it registers or when it shakes hands. -/
def JudgeList.Distinct (s : JudgeList) : Call → Prop
  | .register judge => s.Unused judge (s.handlers judge).name
  | .handshake judge name _ _ _ => s.Unused judge (some name)
  | _ => True

instance (s : JudgeList) : (call : Call) → Decidable (s.Distinct call)
  | .register _ => inferInstanceAs (Decidable (s.Unused _ _))
  | .handshake _ _ _ _ _ => inferInstanceAs (Decidable (s.Unused _ _))
  | .remove _ | .updateProblems _ | .onJudgeFree _ _ | .judge _ _ | .updateDisableJudge _ _ | .abort _ | .connected _ _
  | .supportedProblems _ _ | .pingResponse _ _ => inferInstanceAs (Decidable True)

/-- No judge takes the name of another one at any call of a history. -/
def AllDistinct : JudgeList → List (World × Call) → Prop
  | _, [] => True
  | s, call :: calls => s.Distinct call.2 ∧ AllDistinct (s.after call.1 call.2) calls

instance decidableAllDistinct : (s : JudgeList) → (calls : List (World × Call)) → Decidable (AllDistinct s calls)
  | _, [] => inferInstanceAs (Decidable True)
  | s, call :: calls =>
      have := decidableAllDistinct (s.after call.1 call.2) calls
      inferInstanceAs (Decidable (_ ∧ _))

theorem NamesApart.after (h : NamesApart s) {call : Call} (hdistinct : s.Distinct call) : NamesApart (s.after w call) := by
  have hwithin : Within (s.roster call) (s.namesAfter call) (s.after w call) := .after s w call
  intro judge hin other hother hname
  have hlisted := hwithin.judges judge hin
  have hlisted' := hwithin.judges other hother
  rw [hwithin.name, hwithin.name] at hname
  by_contra hne
  cases call with
  | register new =>
      rcases JudgeList.mem_add.mp hlisted with hold | heq
      · rcases JudgeList.mem_add.mp hlisted' with hold' | heq'
        · exact hne (h judge hold other hold' hname)
        · subst heq'
          exact hdistinct judge hold hne hname
      · subst heq
        rcases JudgeList.mem_add.mp hlisted' with hold' | heq'
        · exact hdistinct other hold' (Ne.symm hne) hname.symm
        · exact hne heq'.symm
  | handshake shaking name tier problems executors =>
      have hnames : s.namesAfter (.handshake shaking name tier problems executors) =
        Function.update (fun judge => (s.handlers judge).name) shaking (some name) := rfl
      rw [hnames] at hname
      by_cases hjudge : judge = shaking
      · subst hjudge
        rw [Function.update_self, Function.update_of_ne (Ne.symm hne)] at hname
        exact hdistinct other hlisted' (Ne.symm hne) hname.symm
      · rw [Function.update_of_ne hjudge] at hname
        by_cases hshaking : other = shaking
        · subst hshaking
          rw [Function.update_self] at hname
          exact hdistinct judge hlisted hne hname
        · rw [Function.update_of_ne hshaking] at hname
          exact hne (h judge hlisted other hlisted' hname)
  | remove => exact hne (h judge hlisted other hlisted' hname)
  | updateProblems => exact hne (h judge hlisted other hlisted' hname)
  | updateDisableJudge => exact hne (h judge hlisted other hlisted' hname)
  | onJudgeFree => exact hne (h judge hlisted other hlisted' hname)
  | abort => exact hne (h judge hlisted other hlisted' hname)
  | judge => exact hne (h judge hlisted other hlisted' hname)
  | connected => exact hne (h judge hlisted other hlisted' hname)
  | supportedProblems => exact hne (h judge hlisted other hlisted' hname)
  | pingResponse => exact hne (h judge hlisted other hlisted' hname)

theorem NamesApart.afterAll (h : NamesApart s) {calls : List (World × Call)} (hdistinct : AllDistinct s calls) :
    NamesApart (s.afterAll calls) := by
  induction calls generalizing s with
  | nil => exact h
  | cons call calls ih =>
      obtain ⟨hfirst, hrest⟩ := hdistinct
      exact ih (h.after hfirst) hrest

/-- In every state of every run, a judge that registers has every other one of its name disconnected if and only if no
other one has it. In the runs where no judge takes the name of another one, the names of the list stay apart. -/
theorem one_connection (calls : List (World × Call)) :
    (∀ judge, Replaces (JudgeList.afterAll {} calls) judge ↔
      (JudgeList.afterAll {} calls).Unused judge ((JudgeList.afterAll {} calls).handlers judge).name) ∧
    (AllDistinct {} calls → NamesApart (JudgeList.afterAll {} calls)) := by
  refine ⟨fun judge => replaces_iff, fun hdistinct => ?_⟩
  have hstart : NamesApart {} := fun judge hin => absurd hin List.not_mem_nil
  exact hstart.afterAll hdistinct

theorem one_connection_two : NamesApart (JudgeList.afterAll {} (connects 1 "one" ++ connects 2 "two")) :=
  (one_connection (connects 1 "one" ++ connects 2 "two")).2 (by decide +kernel)

/-- A judge connects again while its old connection still looks alive: the old one is not disconnected, and both stay. -/
theorem two_connections : ¬ Replaces (JudgeList.afterAll {} (connects 1 "one" ++ [(calm, .handshake 2 "one" 1 [] [])])) 2 ∧
    ¬ NamesApart (JudgeList.afterAll {} (connects 1 "one" ++ connects 2 "one")) := by
  refine ⟨fun hreplaces => ?_, fun hapart => ?_⟩
  · have hunused := replaces_iff.mp hreplaces 1 (by decide +kernel) (by decide)
    exact absurd hunused (by decide +kernel)
  · have hsame := hapart 1 (by decide +kernel) 2 (by decide +kernel) (by decide +kernel)
    exact absurd hsame (by decide)

end Bridge
end CpcJudge
