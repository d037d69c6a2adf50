import CpcJudge.Bridge.Order

/-!
# `Bridge.Idle` — no judge is idle while work waits for it

A judge can become able to take a submission in many ways: it registers, becomes free or is enabled, its tier becomes the
current one, it gets other problems, or a reservation ends. The list looks for work where a judge registers, becomes free
or updates its problems, for that judge; and for all of the tier when the lowest tier rises, or a removal leaves one. Where
nothing else makes work possible (`Timely`), no judge is idle.
-/

namespace CpcJudge
namespace Bridge

open Txn Marked

variable {s s' t : JudgeList} {w : World} {r : Request} {id judge judge' key priority : ℕ} {e : Entry} {ws ws' : List Entry}

/-- The submissions that wait from a node on, with the priority that the loop of `_handle_free_judge` gives them. -/
def entriesFrom : ℕ → List Node → List Entry
  | _, [] => []
  | priority, node :: rest =>
      match node.value with
      | .marker p => entriesFrom (p + 1) rest
      | .request r => ⟨node.key, r, priority⟩ :: entriesFrom priority rest

namespace JudgeList

section

variable (s : JudgeList)

/-- The submissions that wait. -/
def entries : List Entry := entriesFrom 0 s.queue

/-- The enabled judges of the current tier, in no order. -/
def tierJudges : List ℕ :=
  s.judges.filter fun judge => (s.handlers judge).tier = s.minTier && !(s.handlers judge).isDisabled

/-- An idle, enabled judge of the current tier. -/
def Idle (judge : ℕ) : Prop := judge ∈ s.tierJudges ∧ s.working judge = false

instance (judge : ℕ) : Decidable (s.Idle judge) := inferInstanceAs (Decidable (_ ∧ _))

/-- Of at least two judges, at most one is free. -/
def Scarce (judges : List ℕ) : Prop := 1 < judges.length ∧ judges.countP (! s.working ·) ≤ 1

instance (judges : List ℕ) : Decidable (s.Scarce judges) := inferInstanceAs (Decidable (_ ∧ _))

/-- The judge can judge the submission. -/
def takes (e : Entry) (judge : ℕ) : Bool := (s.handlers judge).canTake e

/-- A rejudge that is held back: the free judge is the only one among at least two of the tier, or among at least two of
it that can judge the submission. -/
def Held (e : Entry) : Prop :=
  REJUDGE_PRIORITY ≤ e.priority ∧ (s.Scarce s.tierJudges ∨ s.Scarce (s.tierJudges.filter (s.takes e)))

instance (e : Entry) : Decidable (s.Held e) := inferInstanceAs (Decidable (_ ∧ _))

/-- No idle judge can judge a submission that waits, but for those held back. -/
def NoneIdle : Prop := ∀ judge, s.Idle judge → ∀ e ∈ s.entries, s.takes e judge = true → s.Held e

end

end JudgeList

/-! ## What happens to the list -/

/-- What happens to the list: a judge registers, reads whether it is disabled, leaves, updates its problems or is free
again; somebody enables or disables a judge, aborts a submission or asks for one. -/
inductive Happening where
  | register (judge : ℕ) (name : String) (tier : ℤ) (problems executors : List String)
  | connected (judge : ℕ) (isDisabled : Bool)
  | remove (judge : ℕ)
  | updateProblems (judge : ℕ) (problems : List String)
  | updateDisableJudge (judgeId : String) (isDisabled : Bool)
  | onJudgeFree (judge submission : ℕ)
  | abort (submission : ℕ)
  | judge (r : Request) (priority : ℕ)
  | pingResponse (judge : ℕ) (load : ℚ)
  deriving DecidableEq, Repr

namespace JudgeList

section

variable (s : JudgeList)

/-- The calls it makes: `on_handshake` writes the handler before it registers it, and `on_supported_problems` asks for
work if the judge has none. -/
def calls : Happening → List Call
  | .register judge name tier problems executors => [.handshake judge name tier problems executors, .register judge]
  | .connected judge isDisabled => [.connected judge isDisabled]
  | .remove judge => [.remove judge]
  | .updateProblems judge problems =>
      if s.working judge then [.supportedProblems judge problems]
      else [.supportedProblems judge problems, .updateProblems judge]
  | .updateDisableJudge judgeId isDisabled => [.updateDisableJudge judgeId isDisabled]
  | .onJudgeFree judge submission => [.onJudgeFree judge submission]
  | .abort submission => [.abort submission]
  | .judge r priority => [.judge r priority]
  | .pingResponse judge load => [.pingResponse judge load]

def happens (w : World) (h : Happening) : JudgeList := (s.calls h).foldl (fun s call => s.after w call) s

/-- The lowest tier is written. -/
def lowered : JudgeList := { s with minTier := s.lowestTier }

def enter (judge : ℕ) (name : String) (tier : ℤ) (problems executors : List String) : JudgeList :=
  (s.setHandler judge fun j => { j with name := some name, tier := some tier, problems, executors }).add judge

def supply (judge : ℕ) (problems : List String) : JudgeList := s.setHandler judge fun j => { j with problems }

def connect (judge : ℕ) (isDisabled : Bool) : JudgeList := s.setHandler judge fun j => { j with isDisabled }

/-! ## When work is looked for in time -/

variable (t : JudgeList)

/-- The lowest tier rises. -/
def Rises : Prop := ∃ old ∈ s.minTier, ∃ new ∈ t.minTier, old < new

instance : Decidable (s.Rises t) := inferInstanceAs (Decidable (∃ old ∈ s.minTier, ∃ new ∈ t.minTier, old < new))

/-- No reservation ends that holds a submission back from an idle judge. -/
def Keeps : Prop :=
  ∀ judge ∈ s.tierJudges, s.Idle judge → t.Idle judge → ∀ e ∈ s.entries, s.takes e judge = true → t.Held e

instance : Decidable (s.Keeps t) := inferInstanceAs (Decidable (∀ judge ∈ s.tierJudges, _))

/-- A judge that was disabled is not idle, or has nothing to do. -/
def Rests : Prop :=
  ∀ judge ∈ t.tierJudges, t.Idle judge → (s.handlers judge).isDisabled = true → ∀ e ∈ s.entries, t.takes e judge = false

instance : Decidable (s.Rests t) := inferInstanceAs (Decidable (∀ judge ∈ t.tierJudges, _))

/-- The judge is idle, and there is work for it. -/
def Employs (judge : ℕ) : Prop := s.Idle judge ∧ ∃ e ∈ s.entries, s.takes e judge = true

instance (judge : ℕ) : Decidable (s.Employs judge) := inferInstanceAs (Decidable (_ ∧ ∃ _ ∈ _, _))

/-- What happens gives work only to judges that it is looked for: nobody is enabled who has some, and it ends no
reservation, unless the judge it is about can take work itself, the lowest tier rises or one judge of it is left. -/
def Timely : Happening → Prop
  | .register judge name tier problems executors =>
      let t := (s.enter judge name tier problems executors).lowered
      judge ∉ s.judges ∧ (s.Rises t ∨ s.Keeps t ∨ t.Employs judge)
  | .connected judge isDisabled =>
      if isDisabled then s.Keeps (s.connect judge true) else (s.handlers judge).isDisabled = false
  | .remove judge =>
      let t := (s.leave judge).lowered
      s.Rises t ∨ t.tierJudges.length = 1 ∨ s.Keeps t
  | .updateProblems judge problems => s.working judge = true → s.Keeps (s.supply judge problems)
  | .updateDisableJudge judgeId isDisabled =>
      let t := (s.disable judgeId isDisabled).lowered
      s.Rises t ∨ s.Keeps t ∧ s.Rests t
  | .onJudgeFree judge submission =>
      s.submissionMap submission = none ∨ s.Keeps (s.free judge submission) ∨ (s.free judge submission).Employs judge
  | .abort _ | .judge _ _ | .pingResponse _ _ => True

instance : DecidablePred s.Timely
  | .register .. => inferInstanceAs (Decidable (_ ∧ (_ ∨ _ ∨ _)))
  | .connected _ true => inferInstanceAs (Decidable (s.Keeps _))
  | .connected _ false => inferInstanceAs (Decidable (_ = false))
  | .remove _ => inferInstanceAs (Decidable (_ ∨ _ ∨ _))
  | .updateProblems _ _ => inferInstanceAs (Decidable (_ → _))
  | .updateDisableJudge _ _ => inferInstanceAs (Decidable (_ ∨ _ ∧ _))
  | .onJudgeFree _ _ => inferInstanceAs (Decidable (_ ∨ _ ∨ _))
  | .abort _ | .judge _ _ | .pingResponse _ _ => inferInstanceAs (Decidable True)

/-- The list after what happened. -/
def happened (happenings : List (World × Happening)) : JudgeList := happenings.foldl (fun s h => s.happens h.1 h.2) s

end

/-- It is so all along. -/
def AllTimely : JudgeList → List (World × Happening) → Prop
  | _, [] => True
  | s, h :: happenings => s.Timely h.2 ∧ AllTimely (s.happens h.1 h.2) happenings

instance AllTimely.decide : (s : JudgeList) → (happenings : List (World × Happening)) → Decidable (s.AllTimely happenings)
  | _, [] => inferInstanceAs (Decidable True)
  | s, h :: happenings =>
      have := AllTimely.decide (s.happens h.1 h.2) happenings
      inferInstanceAs (Decidable (_ ∧ _))

end JudgeList

/-! ## The submissions that wait -/

theorem entriesFrom_segment (es : List Entry) (hes : ∀ e ∈ es, e.priority = priority) (rest : List Node) :
    entriesFrom priority (es.map Entry.node ++ rest) = es ++ entriesFrom priority rest := by
  induction es with
  | nil => rfl
  | cons e es ih =>
      obtain rfl := hes e List.mem_cons_self
      rw [List.map_cons, List.cons_append, List.cons_append, ← ih fun e' he' => hes e' (List.mem_cons_of_mem _ he')]
      rfl

theorem entriesFrom_lay (count : ℕ) (ws : List Entry) :
    entriesFrom priority (lay Entry.priority Entry.node (fun p => ⟨p, .marker p⟩) priority count ws) =
      line Entry.priority priority count ws := by
  induction count generalizing priority with
  | zero => rfl
  | succ count ih =>
      rw [lay_succ, line_succ, ← ih]
      exact entriesFrom_segment _ (fun e he => of_decide_eq_true (List.mem_filter.mp he).2) _

theorem Waits.mem_entries (h : Waits ws s) : e ∈ s.entries ↔ e ∈ ws := by
  unfold JudgeList.entries
  rw [h.queue, laid, entriesFrom_lay, mem_line]
  exact ⟨fun he => he.1, fun he => ⟨he, Nat.zero_le _, by have := h.priorities e he; omega⟩⟩

theorem JudgeList.tierJudges_perm : (s.currentTierJudges w).Perm s.tierJudges := (List.perm_insertionSort _ _).filter _

theorem JudgeList.mem_tierJudges : judge ∈ s.tierJudges ↔
    judge ∈ s.judges ∧ (s.handlers judge).tier = s.minTier ∧ (s.handlers judge).isDisabled = false := by
  simp [JudgeList.tierJudges]

theorem JudgeList.shouldReserveJudge_iff : s.shouldReserveJudge w = true ↔ s.Scarce s.tierJudges := by
  have hperm := s.tierJudges_perm (w := w)
  simp only [JudgeList.shouldReserveJudge, JudgeList.Scarce, hperm.length_eq, hperm.countP_eq, Bool.and_eq_true,
    decide_eq_true_iff]

/-- Where the loop finds nothing for a judge, all it could take is held back. -/
theorem Waits.held (h : Waits ws s) (hdue : s.due w judge ws = none) (he : e ∈ ws) (htakes : s.takes e judge = true) :
    REJUDGE_PRIORITY ≤ e.priority ∧ s.Scarce s.tierJudges := by
  have hin : e ∈ inLine ws := mem_line.mpr ⟨he, Nat.zero_le _, by have := h.priorities e he; omega⟩
  unfold JudgeList.due at hdue
  cases hfirst : (inLine ws).find? (s.handlers judge).canTake with
  | none => exact absurd htakes (List.find?_eq_none.mp hfirst e hin)
  | some first =>
      rw [hfirst, Option.filter_eq_none_iff] at hdue
      have hreserved := hdue first rfl
      simp only [decide_eq_true_eq, not_not] at hreserved
      refine ⟨hreserved.1.trans ?_, JudgeList.shouldReserveJudge_iff.mp hreserved.2⟩
      -- the first one in line that the judge can take comes before all of them
      obtain ⟨-, before, after, hline, hbefore⟩ := List.find?_eq_some_iff_append.mp hfirst
      have hsorted : (inLine ws).Pairwise fun a b =>
          a.priority < b.priority ∨ a.priority = b.priority ∧ a.key < b.key := line_pairwise h.arrivals
      rw [hline] at hin hsorted
      rcases List.mem_append.mp hin with hearly | hlate
      · have hnot := hbefore e hearly
        rw [show (s.handlers judge).canTake e = true from htakes] at hnot
        cases hnot
      · rcases List.mem_cons.mp hlate with rfl | hlate
        · exact le_rfl
        · have hle := (List.pairwise_cons.mp (List.pairwise_append.mp hsorted).2.1).1 e hlate
          omega

/-! ## Reservations -/

/-- Among more judges, those that are new have work. -/
theorem JudgeList.Scarce.mono {judges rest : List ℕ} {p p' : ℕ → Bool} (h : s.Scarce (judges.filter p))
    (hmore : ∀ judge ∈ judges, p judge = true → p' judge = true)
    (hfree : ∀ judge ∈ judges, s'.working judge = false → p' judge = true → s.working judge = false ∧ p judge = true)
    (hrest : ∀ judge ∈ rest, s'.working judge = true) : s'.Scarce ((judges ++ rest).filter p') := by
  obtain ⟨hlength, hcount⟩ := h
  have hold : (judges.filter p).length ≤ (judges.filter p').length := by
    rw [← List.countP_eq_length_filter, ← List.countP_eq_length_filter]
    exact List.countP_mono_left hmore
  have hnew : (rest.filter p').countP (! s'.working ·) = 0 := by
    refine List.countP_eq_zero.mpr fun judge hin => ?_
    simp [hrest judge (List.mem_filter.mp hin).1]
  have hleft : (judges.filter p').countP (! s'.working ·) ≤ (judges.filter p).countP (! s.working ·) := by
    rw [List.countP_filter, List.countP_filter]
    refine List.countP_mono_left fun judge hin hjudge => ?_
    simp only [Bool.and_eq_true, Bool.not_eq_eq_eq_not, Bool.not_true] at hjudge ⊢
    exact hfree judge hin hjudge.1 hjudge.2
  rw [JudgeList.Scarce, List.filter_append, List.length_append, List.countP_append, hnew]
  omega

theorem JudgeList.Scarce.self {judges : List ℕ} : s.Scarce judges ↔ s.Scarce (judges.filter fun _ => true) := by
  rw [List.filter_eq_self.mpr fun _ _ => rfl]

/-- Two free judges are not scarce. -/
theorem JudgeList.Scarce.eq {judges : List ℕ} (h : s.Scarce judges) (hin : judge ∈ judges) (hin' : judge' ∈ judges)
    (hfree : s.working judge = false) (hfree' : s.working judge' = false) : judge = judge' := by
  by_contra hne
  have hsub : [judge, judge'] ⊆ judges.filter (! s.working ·) := by
    intro x hx
    rcases List.mem_cons.mp hx with rfl | hx
    · exact List.mem_filter.mpr ⟨hin, by simp [hfree]⟩
    · rw [List.mem_singleton.mp hx]
      exact List.mem_filter.mpr ⟨hin', by simp [hfree']⟩
  have hnodup : [judge, judge'].Nodup := by simpa using hne
  have hlength := (hnodup.subperm hsub).length_le
  have hcount := h.2
  rw [List.countP_eq_length_filter] at hcount
  simp only [List.length_cons, List.length_nil] at hlength
  omega

/-- What is held back still is, where no judge is freed that could take it. -/
theorem JudgeList.Held.mono {rest : List ℕ} (h : s.Held e) (htier : s'.tierJudges = s.tierJudges ++ rest)
    (htakes : ∀ judge ∈ s.tierJudges, s.takes e judge = true → s'.takes e judge = true)
    (hfree : ∀ judge ∈ s.tierJudges, s'.working judge = false →
      s.working judge = false ∧ (s'.takes e judge = true → s.takes e judge = true))
    (hrest : ∀ judge ∈ rest, s'.working judge = true) : s'.Held e := by
  refine ⟨h.1, h.2.imp (fun hall => ?_) fun hable => ?_⟩
  · rw [JudgeList.Scarce.self] at hall ⊢
    rw [htier]
    exact hall.mono (fun _ _ _ => rfl) (fun judge hin hjudge _ => ⟨(hfree judge hin hjudge).1, rfl⟩) hrest
  · rw [htier]
    exact hable.mono htakes (fun judge hin hjudge htake => ⟨(hfree judge hin hjudge).1, (hfree judge hin hjudge).2 htake⟩)
      hrest

/-! ## Looking for work -/

/-- Every enabled judge has a tier, not below the current one. -/
structure Tiered (s : JudgeList) : Prop where
  tiers : ∀ judge ∈ s.judges, (s.handlers judge).tier.isSome = true
  floor : ∀ judge ∈ s.judges, (s.handlers judge).isDisabled = false →
    ∃ low tier, s.minTier = some low ∧ (s.handlers judge).tier = some tier ∧ low ≤ tier

/-- What holds between two calls; or in the middle of one, but for the judges that work has yet to be looked for. -/
structure Manned (spare : ℕ → Prop) (ws : List Entry) (s : JudgeList) : Prop where
  waits : Waits ws s
  tiered : Tiered s
  served : ∀ judge, ¬ spare judge → s.Idle judge → ∀ e ∈ ws, s.takes e judge = true → s.Held e

theorem Frame.takes (h : Frame s s') (e : Entry) (judge : ℕ) : s'.takes e judge = s.takes e judge :=
  h.canJudge judge e.request

theorem Frame.tierJudges (h : Frame s s') : s'.tierJudges = s.tierJudges := by
  unfold JudgeList.tierJudges
  rw [h.judges]
  refine List.filter_congr fun judge _ => ?_
  rw [h.tier, h.isDisabled, h.minTier]

theorem Tiered.frame (h : Tiered s) (hframe : Frame s s') : Tiered s' where
  tiers judge hin := by
    rw [hframe.judges] at hin
    rw [hframe.tier]
    exact h.tiers judge hin
  floor judge hin henabled := by
    rw [hframe.judges] at hin
    rw [hframe.isDisabled] at henabled
    rw [hframe.minTier, hframe.tier]
    exact h.floor judge hin henabled

theorem Tiered.lowered (htiers : ∀ judge ∈ s.judges, (s.handlers judge).tier.isSome = true) : Tiered s.lowered := by
  refine ⟨htiers, fun judge hin henabled => ?_⟩
  obtain ⟨tier, htier⟩ := Option.isSome_iff_exists.mp (htiers judge hin)
  have henabled' : (s.handlers judge).isDisabled = false := henabled
  have hmem : tier ∈ (s.judges.filter fun judge => !(s.handlers judge).isDisabled).filterMap
      fun judge => (s.handlers judge).tier :=
    List.mem_filterMap.mpr ⟨judge, List.mem_filter.mpr ⟨hin, by simp [henabled']⟩, htier⟩
  cases hlow : s.lowestTier with
  | none =>
      unfold JudgeList.lowestTier at hlow
      rw [List.min?_eq_none_iff.mp hlow] at hmem
      cases hmem
  | some low => exact ⟨low, tier, hlow, htier, (List.min?_eq_some_iff.mp hlow).2 tier hmem⟩

theorem Tiered.current (h : Tiered s) (hin : judge ∈ s.tierJudges) : s.Current judge := by
  obtain ⟨hlisted, htier, henabled⟩ := JudgeList.mem_tierJudges.mp hin
  obtain ⟨low, tier, hlow, hsome, -⟩ := h.floor judge hlisted henabled
  exact ⟨tier, hsome, htier.symm.trans hsome⟩

variable {spare spare' : ℕ → Prop}

/-- Where work is given or leaves, and that is all, no reservation ends. -/
theorem Manned.frame (h : Manned spare ws s) (hframe : Frame s s')
    (hworking : ∀ judge, s.working judge = true → s'.working judge = true) (hwaits : Waits ws' s')
    (hws : ∀ e ∈ ws', e ∈ ws) (hspare : ∀ judge, ¬ spare' judge → s'.Idle judge → ¬ spare judge) : Manned spare' ws' s' := by
  have hfree : ∀ judge, s'.working judge = false → s.working judge = false := fun judge hjudge => by
    by_contra hbusy
    rw [hworking judge (by simpa using hbusy)] at hjudge
    cases hjudge
  refine ⟨hwaits, h.tiered.frame hframe, fun judge hjudge hidle e he htakes => ?_⟩
  have hwas : s.Idle judge := ⟨hframe.tierJudges ▸ hidle.1, hfree judge hidle.2⟩
  rw [hframe.takes] at htakes
  have htier : s'.tierJudges = s.tierJudges ++ [] := by rw [hframe.tierJudges, List.append_nil]
  refine (h.served judge (hspare judge hjudge hidle) hwas e (hws e he) htakes).mono htier ?_ ?_ ?_
  · exact fun judge _ htake => (hframe.takes e judge).trans htake
  · exact fun judge _ hjudge => ⟨hfree judge hjudge, fun htake => (hframe.takes e judge).symm.trans htake⟩
  · exact fun judge hin => absurd hin List.not_mem_nil

theorem working_give (judge' : ℕ) : (s.give judge r).working judge' = (judge' = judge || s.working judge') := by
  by_cases hsame : judge' = judge
  · subst hsame
    have hworking : ((s.give judge' r).handlers judge').working = some r.id := s.give_has.working
    simp [JudgeList.working, hworking]
  · simp [JudgeList.working, JudgeList.give_of_ne hsame, hsame]

theorem working_hand (judge' : ℕ) : (s.hand judge key r).working judge' = (judge' = judge || s.working judge') :=
  working_give judge'

theorem Manned.hand (h : Manned spare ws s) (he : e ∈ ws) (hspare : ∀ judge', ¬ spare' judge' → judge' ≠ judge → ¬ spare judge') :
    Manned spare' (ws.filter (·.key ≠ e.key)) (s.hand judge e.key e.request) := by
  refine h.frame (.hand s judge e.key e.request) (fun judge' hworking => ?_) ?_ (fun e' he' => (List.mem_filter.mp he').1)
    fun judge' hjudge hidle => ?_
  · rw [working_hand, hworking, Bool.or_true]
  · have hgive : Waits ws (s.give judge e.request) := h.waits.quiet rfl rfl rfl
    exact hgive.dequeue he
  · refine hspare judge' hjudge fun hsame => ?_
    have hbusy := hidle.2
    rw [working_hand, decide_eq_true hsame, Bool.true_or] at hbusy
    cases hbusy

/-- Work is looked for, for one judge. -/
theorem Manned.serve (h : Manned spare' ws s) (hspare : ∀ judge', ¬ spare judge' → judge' ≠ judge → ¬ spare' judge') :
    ∃ ws', Manned spare ws' (s.serve w judge) := by
  by_cases hidle : s.Idle judge
  · rw [h.waits.serve_eq (h.tiered.current hidle.1)]
    unfold JudgeList.served
    cases hdue : s.due w judge ws with
    | some e => exact ⟨_, h.hand (JudgeList.mem_of_due hdue) hspare⟩
    | none =>
        refine ⟨ws, h.waits, h.tiered, fun judge' hjudge hidle' e he htakes => ?_⟩
        by_cases hsame : judge' = judge
        · subst hsame
          have hheld := h.waits.held hdue he htakes
          exact ⟨hheld.1, .inl hheld.2⟩
        · exact h.served judge' (hspare judge' hjudge hsame) hidle' e he htakes
  · rcases s.serve_cases w judge with heq | ⟨_, _, key, r, _, _, _, hchoose, heq⟩
    · rw [heq]
      refine ⟨ws, h.waits, h.tiered, fun judge' hjudge hidle' => h.served judge' (hspare judge' hjudge ?_) hidle'⟩
      rintro rfl
      exact hidle hidle'
    · rw [JudgeList.due_eq h.waits.queue] at hchoose
      obtain ⟨e, hdue, hpair⟩ := Option.map_eq_some_iff.mp hchoose
      cases hpair
      rw [heq]
      exact ⟨_, h.hand (JudgeList.mem_of_due hdue) hspare⟩

theorem Manned.serveIfFree (h : Manned spare' ws s)
    (hspare : ∀ judge', ¬ spare judge' → judge' ≠ judge → ¬ spare' judge') :
    ∃ ws', Manned spare ws' (s.serveIfFree w judge) := by
  unfold JudgeList.serveIfFree
  split
  · rename_i hworking
    refine ⟨ws, h.waits, h.tiered, fun judge' hjudge hidle => h.served judge' (hspare judge' hjudge ?_) hidle⟩
    rintro rfl
    exact absurd (hworking.symm.trans hidle.2) (by simp)
  · exact h.serve hspare

/-- Work is looked for, for several judges one after another. -/
theorem Manned.serveAll (judges : List ℕ) (h : Manned (fun judge => spare judge ∨ judge ∈ judges) ws s) :
    ∃ ws', Manned spare ws' (judges.foldl (fun t judge => t.serveIfFree w judge) s) := by
  induction judges generalizing ws s with
  | nil => exact ⟨ws, h.waits, h.tiered, fun judge hjudge => h.served judge (by simpa using hjudge)⟩
  | cons judge judges ih =>
      have hone : ∃ ws', Manned (fun judge' => spare judge' ∨ judge' ∈ judges) ws' (s.serveIfFree w judge) := by
        refine h.serveIfFree fun judge' hjudge hne => ?_
        simp only [List.mem_cons, not_or] at hjudge ⊢
        exact ⟨hjudge.1, hne, hjudge.2⟩
      obtain ⟨ws', hnext⟩ := hone
      exact ih hnext

/-- Work is looked for, for all judges of the tier. -/
theorem Manned.sweep (hwaits : Waits ws t) (htiered : Tiered t) :
    ∃ ws', Manned (fun _ => False) ws' ((t.currentTierJudges w).foldl (fun t judge => t.serveIfFree w judge) t) := by
  refine Manned.serveAll _ ⟨hwaits, htiered, fun judge hjudge hidle => absurd ?_ hjudge⟩
  exact .inr (JudgeList.tierJudges_perm.mem_iff.mpr hidle.1)

/-- Work is looked for, for a judge that takes some: the others are as they were before it could. -/
theorem Manned.employ (hwaits : Waits ws t) (htiered : Tiered t) (hemploys : t.Employs judge)
    (hothers : ∀ judge' ≠ judge, t.Idle judge' → ∀ e ∈ ws, t.takes e judge' = true →
      REJUDGE_PRIORITY ≤ e.priority ∧ ∀ key r, (t.hand judge key r).Held e) :
    ∃ ws', Manned (fun _ => False) ws' (t.serve w judge) := by
  obtain ⟨hidle, first, hfirst, htake⟩ := hemploys
  rw [hwaits.serve_eq (htiered.current hidle.1)]
  unfold JudgeList.served
  cases hdue : t.due w judge ws with
  | some e =>
      have hframe : Frame t (t.hand judge e.key e.request) := .hand t judge e.key e.request
      have hgive : Waits ws (t.give judge e.request) := hwaits.quiet rfl rfl rfl
      refine ⟨_, hgive.dequeue (JudgeList.mem_of_due hdue), htiered.frame hframe, fun judge' _ hidle' e' he' htakes => ?_⟩
      have hfree := hidle'.2
      rw [working_hand, Bool.or_eq_false_iff, decide_eq_false_iff_not] at hfree
      rw [hframe.takes] at htakes
      exact (hothers judge' hfree.1 ⟨hframe.tierJudges ▸ hidle'.1, hfree.2⟩ e' (List.mem_filter.mp he').1 htakes).2 _ _
  | none =>
      -- the reservation that keeps the judge from its work keeps the others too
      have hscarce := (hwaits.held hdue (hwaits.mem_entries.mp hfirst) htake).2
      refine ⟨ws, hwaits, htiered, fun judge' _ hidle' e he htakes => ?_⟩
      by_cases hsame : judge' = judge
      · subst hsame
        exact ⟨(hwaits.held hdue he htakes).1, .inl hscarce⟩
      · exact ⟨(hothers judge' hsame hidle' e he htakes).1, .inl hscarce⟩

/-! ## Tiers -/

/-- Where the lowest tier does not rise, a judge of it that was enabled was of it before. -/
theorem Tiered.current_before (h : Tiered s) (htiered : Tiered t) (hrises : ¬ s.Rises t) (hlisted : judge ∈ s.judges)
    (henabled : (s.handlers judge).isDisabled = false) (htier : (t.handlers judge).tier = (s.handlers judge).tier)
    (hin : judge ∈ t.tierJudges) : judge ∈ s.tierJudges ∧ t.minTier = s.minTier := by
  obtain ⟨low, tier, hlow, hsome, hle⟩ := h.floor judge hlisted henabled
  obtain ⟨tier', htier', hmin⟩ := htiered.current hin
  obtain rfl : tier' = tier := Option.some.inj (htier'.symm.trans (htier.trans hsome))
  -- the judge was above the lowest tier, or of it; the first means that the lowest tier rose
  have hsame : low = tier' := by
    by_contra hne
    exact hrises ⟨low, hlow, tier', hmin, lt_of_le_of_ne hle hne⟩
  subst hsame
  exact ⟨JudgeList.mem_tierJudges.mpr ⟨hlisted, hsome.trans hlow.symm, henabled⟩, hmin.trans hlow.symm⟩

theorem JudgeList.settle_of_rises (h : s.Rises s.lowered) : s.settle w =
    (s.lowered.currentTierJudges w).foldl (fun t judge => t.serveIfFree w judge) s.lowered := by
  obtain ⟨old, hold, new, hnew, hlt⟩ := h
  have hlow : s.lowestTier = some new := hnew
  rw [Option.mem_def] at hold
  unfold JudgeList.settle
  simp only [hold, hlow, if_pos hlt]
  rw [JudgeList.lowered, hlow]

theorem JudgeList.settle_of_not_rises (h : ¬ s.Rises s.lowered) : s.settle w = s.lowered := by
  unfold JudgeList.settle
  dsimp only
  cases hold : s.minTier with
  | none => rfl
  | some old =>
      cases hnew : s.lowestTier with
      | none => rw [JudgeList.lowered, hnew]
      | some new =>
          dsimp only
          rw [if_neg fun hlt => h ⟨old, hold, new, hnew, hlt⟩, JudgeList.lowered, hnew]

/-- The lowest tier is written, and rises or not. -/
theorem Manned.settle (hwaits : Waits ws s) (htiers : ∀ judge ∈ s.judges, (s.handlers judge).tier.isSome = true)
    (hstay : ¬ s.Rises s.lowered → Manned spare ws s.lowered) : ∃ ws', Manned spare ws' (s.settle w) := by
  have hlowered : Waits ws s.lowered := hwaits.quiet rfl rfl rfl
  by_cases hrises : s.Rises s.lowered
  · rw [JudgeList.settle_of_rises hrises]
    obtain ⟨ws', hswept⟩ := Manned.sweep hlowered (Tiered.lowered htiers)
    exact ⟨ws', hswept.waits, hswept.tiered, fun judge _ => hswept.served judge id⟩
  · rw [JudgeList.settle_of_not_rises hrises]
    exact ⟨ws, hstay hrises⟩

/-! ## The calls -/

theorem Manned.keeps (h : Manned (fun _ => False) ws s) (hkeeps : s.Keeps t) (hwas : s.Idle judge) (hidle : t.Idle judge)
    (he : e ∈ ws) (htakes : s.takes e judge = true) : t.Held e :=
  hkeeps judge hwas.1 hwas hidle e (h.waits.mem_entries.mpr he) htakes

theorem JudgeList.working_of_handler (h : s'.handlers judge = s.handlers judge) : s'.working judge = s.working judge := by
  unfold JudgeList.working
  rw [h]

theorem JudgeList.takes_of_handler (h : s'.handlers judge = s.handlers judge) : s'.takes e judge = s.takes e judge := by
  unfold JudgeList.takes
  rw [h]

section

variable {name : String} {tier : ℤ} {problems executors : List String}

theorem JudgeList.enter_of_ne (h : judge' ≠ judge) :
    (s.enter judge name tier problems executors).handlers judge' = s.handlers judge' :=
  Function.update_of_ne h _ s.handlers

theorem JudgeList.enter_tier : ((s.enter judge name tier problems executors).handlers judge).tier = some tier :=
  congrArg JudgeHandler.tier (Function.update_self judge _ s.handlers)

theorem JudgeList.mem_enter : judge' ∈ (s.enter judge name tier problems executors).judges ↔
    judge' ∈ s.judges ∨ judge' = judge := JudgeList.mem_add

/-- A judge that registers joins its tier, and the others stay. -/
theorem JudgeList.tierJudges_enter (hnew : judge ∉ s.judges)
    (hmin : (s.enter judge name tier problems executors).lowered.minTier = s.minTier)
    (hin : judge ∈ (s.enter judge name tier problems executors).lowered.tierJudges) :
    (s.enter judge name tier problems executors).lowered.tierJudges = s.tierJudges ++ [judge] := by
  have hjudges : (s.enter judge name tier problems executors).judges = s.judges ++ [judge] := if_neg hnew
  have hlist : (s.enter judge name tier problems executors).lowered.judges = s.judges ++ [judge] := hjudges
  have hself := (List.mem_filter.mp hin).2
  unfold JudgeList.tierJudges
  rw [hlist, List.filter_append]
  refine congrArg₂ _ (List.filter_congr fun judge' hlisted => ?_) (List.filter_cons_of_pos hself)
  have hsame : (s.enter judge name tier problems executors).lowered.handlers judge' = s.handlers judge' :=
    JudgeList.enter_of_ne fun heq => hnew (heq ▸ hlisted)
  rw [hsame, hmin]

theorem Manned.register (h : Manned (fun _ => False) ws s)
    (htimely : s.Timely (.register judge name tier problems executors)) :
    ∃ ws', Manned (fun _ => False) ws' (((s.enter judge name tier problems executors).settle w).serve w judge) := by
  obtain ⟨hnew, htimely⟩ := htimely
  set u := s.enter judge name tier problems executors with hu
  have hwaits : Waits ws u := h.waits.quiet rfl rfl rfl
  have htiers : ∀ judge' ∈ u.judges, (u.handlers judge').tier.isSome = true := by
    intro judge' hlisted
    by_cases hsame : judge' = judge
    · rw [hsame, hu, JudgeList.enter_tier]
      rfl
    · rw [hu, JudgeList.enter_of_ne hsame]
      exact h.tiered.tiers judge' ((JudgeList.mem_enter.mp hlisted).resolve_right hsame)
  have htiered : Tiered u.lowered := Tiered.lowered htiers
  have hlowered : Waits ws u.lowered := hwaits.quiet rfl rfl rfl
  -- the others were idle, if the lowest tier does not rise
  have hwas : ¬ s.Rises u.lowered → ∀ judge' ≠ judge, u.lowered.Idle judge' →
      s.Idle judge' ∧ u.lowered.minTier = s.minTier ∧ u.lowered.handlers judge' = s.handlers judge' := by
    intro hrises judge' hne hidle
    have hsame : u.lowered.handlers judge' = s.handlers judge' := JudgeList.enter_of_ne hne
    obtain ⟨hlisted, -, henabled⟩ := JudgeList.mem_tierJudges.mp hidle.1
    have hlisted' : judge' ∈ s.judges := (JudgeList.mem_enter.mp hlisted).resolve_right hne
    rw [hsame] at henabled
    obtain ⟨hin, hmin⟩ := h.tiered.current_before htiered hrises hlisted' henabled (by rw [hsame]) hidle.1
    exact ⟨⟨hin, (JudgeList.working_of_handler hsame).symm.trans hidle.2⟩, hmin, hsame⟩
  by_cases hemploys : ¬ s.Rises u.lowered ∧ u.lowered.Employs judge
  · obtain ⟨hrises, hemploys⟩ := hemploys
    rw [JudgeList.settle_of_not_rises hrises]
    refine Manned.employ hlowered htiered hemploys fun judge' hne hidle e he htakes => ?_
    obtain ⟨hidle', hmin, hsame⟩ := hwas hrises judge' hne hidle
    rw [JudgeList.takes_of_handler hsame] at htakes
    have hheld := h.served judge' id hidle' e he htakes
    have hold : ∀ judge' ∈ s.tierJudges, u.lowered.handlers judge' = s.handlers judge' := fun judge' hin =>
      JudgeList.enter_of_ne fun heq => hnew (heq ▸ (JudgeList.mem_tierJudges.mp hin).1)
    have hsame' : u.lowered.tierJudges = s.tierJudges ++ [judge] := JudgeList.tierJudges_enter hnew hmin hemploys.1.1
    refine ⟨hheld.1, fun key r => hheld.mono ((Frame.hand u.lowered judge key r).tierJudges.trans hsame') ?_ ?_ ?_⟩
    · intro judge'' hin htake
      rw [(Frame.hand u.lowered judge key r).takes, JudgeList.takes_of_handler (hold judge'' hin)]
      exact htake
    · intro judge'' hin hfree
      rw [working_hand, Bool.or_eq_false_iff] at hfree
      rw [(Frame.hand u.lowered judge key r).takes, JudgeList.takes_of_handler (hold judge'' hin)]
      exact ⟨(JudgeList.working_of_handler (hold judge'' hin)).symm.trans hfree.2, id⟩
    · intro judge'' hin
      rw [working_hand, decide_eq_true (List.mem_singleton.mp hin), Bool.true_or]
  · have hothers : ∃ ws', Manned (· = judge) ws' (u.settle w) := by
      refine Manned.settle hwaits htiers fun hrises => ⟨hlowered, htiered, fun judge' hne hidle e he htakes => ?_⟩
      obtain ⟨hidle', -, hsame⟩ := hwas hrises judge' hne hidle
      have hkeeps : s.Keeps u.lowered := by
        rcases htimely with hup | hkeeps | hwork
        · exact absurd hup hrises
        · exact hkeeps
        · exact absurd ⟨hrises, hwork⟩ hemploys
      rw [JudgeList.takes_of_handler hsame] at htakes
      exact h.keeps hkeeps hidle' hidle he htakes
    obtain ⟨ws', hothers⟩ := hothers
    exact hothers.serve fun judge' _ hne => hne

end

/-- A change after which every idle judge was idle and is as it was. -/
theorem Manned.of_keeps (h : Manned (fun _ => False) ws s) (hwaits : Waits ws t) (htiered : Tiered t)
    (hwas : ∀ judge, ¬ spare judge → t.Idle judge → s.Idle judge ∧ t.handlers judge = s.handlers judge)
    (hkeeps : s.Keeps t) : Manned spare ws t := by
  refine ⟨hwaits, htiered, fun judge hjudge hidle e he htakes => ?_⟩
  obtain ⟨hidle', hsame⟩ := hwas judge hjudge hidle
  rw [JudgeList.takes_of_handler hsame] at htakes
  exact h.keeps hkeeps hidle' hidle he htakes

theorem JudgeList.leave_handlers : (s.leave judge).handlers = s.handlers := by
  unfold JudgeList.leave
  cases (s.handlers judge).working with
  | none => rfl
  | some sub => rfl

theorem JudgeList.leave_minTier : (s.leave judge).minTier = s.minTier := by
  unfold JudgeList.leave
  cases (s.handlers judge).working with
  | none => rfl
  | some sub => rfl

theorem JudgeList.mem_leave : judge' ∈ (s.leave judge).judges ↔ judge' ∈ s.judges ∧ judge' ≠ judge := by
  unfold JudgeList.leave
  cases (s.handlers judge).working with
  | none => exact JudgeList.mem_discard
  | some sub => exact JudgeList.mem_discard

/-- The end of `remove`: work is looked for, for a judge that is alone. -/
def JudgeList.serveLast (s : JudgeList) (w : World) : JudgeList :=
  match s.currentTierJudges w with
  | [last] => s.serveIfFree w last
  | _ => s

theorem Manned.serveLast (h : Manned (fun _ => False) ws s) : ∃ ws', Manned (fun _ => False) ws' (s.serveLast w) := by
  unfold JudgeList.serveLast
  split
  · exact h.serveIfFree fun _ _ _ => id
  · exact ⟨ws, h⟩

theorem Manned.remove (h : Manned (fun _ => False) ws s) (htimely : s.Timely (.remove judge)) :
    ∃ ws', Manned (fun _ => False) ws' (s.afterCalm w (.remove judge)) := by
  set u := s.leave judge with hu
  have hquiet : Quiet s u := History.quiet_leave
  have hwaits : Waits ws u := h.waits.quiet hquiet.queue hquiet.nodeMap hquiet.nextKey
  have htiers : ∀ judge' ∈ u.judges, (u.handlers judge').tier.isSome = true := fun judge' hin => by
    rw [hu, JudgeList.leave_handlers]
    exact h.tiered.tiers judge' (JudgeList.mem_leave.mp hin).1
  have htiered : Tiered u.lowered := Tiered.lowered htiers
  have hlowered : Waits ws u.lowered := hwaits.quiet rfl rfl rfl
  have hwas : ¬ s.Rises u.lowered → ∀ judge', u.lowered.Idle judge' →
      s.Idle judge' ∧ u.lowered.handlers judge' = s.handlers judge' := by
    intro hrises judge' hidle
    have hsame : u.lowered.handlers judge' = s.handlers judge' := congrFun JudgeList.leave_handlers judge'
    obtain ⟨hlisted, -, henabled⟩ := JudgeList.mem_tierJudges.mp hidle.1
    rw [hsame] at henabled
    have hin := (h.tiered.current_before htiered hrises (JudgeList.mem_leave.mp hlisted).1 henabled (by rw [hsame]) hidle.1).1
    exact ⟨⟨hin, (JudgeList.working_of_handler hsame).symm.trans hidle.2⟩, hsame⟩
  have hrises_iff : u.Rises u.lowered ↔ s.Rises u.lowered := by
    unfold JudgeList.Rises
    rw [hu, JudgeList.leave_minTier]
  show ∃ ws', Manned (fun _ => False) ws' ((u.settle w).serveLast w)
  by_cases hup : s.Rises u.lowered
  · obtain ⟨ws', hswept⟩ := Manned.settle (w := w) hwaits htiers fun hnot => absurd (hrises_iff.mpr hup) hnot
    exact hswept.serveLast
  rw [JudgeList.settle_of_not_rises fun hrises => hup (hrises_iff.mp hrises)]
  rcases htimely with hrises | hone | hkeeps
  · exact absurd hrises hup
  · obtain ⟨last, hlast'⟩ := List.length_eq_one_iff.mp ((JudgeList.tierJudges_perm (w := w)).length_eq.trans hone)
    unfold JudgeList.serveLast
    rw [hlast']
    have hbut : Manned (· = last) ws u.lowered := ⟨hlowered, htiered, fun judge' hne hidle => by
      have hin := (JudgeList.tierJudges_perm (w := w)).mem_iff.mpr hidle.1
      rw [hlast'] at hin
      exact absurd (List.mem_singleton.mp hin) hne⟩
    exact hbut.serveIfFree fun judge' _ hne => hne
  · have hstays : Manned (fun _ => False) ws u.lowered :=
      h.of_keeps hlowered htiered (fun judge' _ => hwas hup judge') hkeeps
    exact hstays.serveLast

theorem Manned.updateDisableJudge {judgeId : String} {isDisabled : Bool} (h : Manned (fun _ => False) ws s)
    (htimely : s.Timely (.updateDisableJudge judgeId isDisabled)) :
    ∃ ws', Manned (fun _ => False) ws' ((s.disable judgeId isDisabled).settle w) := by
  set u := s.disable judgeId isDisabled with hu
  have hwaits : Waits ws u := h.waits.quiet rfl rfl rfl
  have hhandler : ∀ judge, u.handlers judge = s.handlers judge ∨
      u.handlers judge = { s.handlers judge with isDisabled } := fun judge => by
    rw [hu]
    unfold JudgeList.disable
    dsimp only
    split
    · exact .inr rfl
    · exact .inl rfl
  have htier : ∀ judge, (u.handlers judge).tier = (s.handlers judge).tier := fun judge => by
    rcases hhandler judge with heq | heq <;> rw [heq]
  have hworking : ∀ judge, u.working judge = s.working judge := fun judge => by
    unfold JudgeList.working
    rcases hhandler judge with heq | heq <;> rw [heq]
  have htiers : ∀ judge ∈ u.judges, (u.handlers judge).tier.isSome = true := fun judge hin => by
    rw [htier]
    exact h.tiered.tiers judge hin
  refine Manned.settle hwaits htiers fun hrises => ⟨hwaits.quiet rfl rfl rfl, Tiered.lowered htiers, ?_⟩
  obtain ⟨hkeeps, hrests⟩ := htimely.resolve_left hrises
  intro judge _ hidle e he htakes
  obtain ⟨hlisted, -, henabled⟩ := JudgeList.mem_tierJudges.mp hidle.1
  -- a judge that was enabled just now has nothing to do
  cases hbefore : (s.handlers judge).isDisabled with
  | true =>
      rw [hrests judge hidle.1 hidle hbefore e (h.waits.mem_entries.mpr he)] at htakes
      cases htakes
  | false =>
      have hsame : u.lowered.handlers judge = s.handlers judge := by
        rcases hhandler judge with heq | heq
        · exact heq
        · have hdisabled : (u.handlers judge).isDisabled = isDisabled := by rw [heq]
          have hno : isDisabled = false := hdisabled.symm.trans henabled
          refine heq.trans ?_
          rw [hno, ← hbefore]
      have hin := (h.tiered.current_before (Tiered.lowered htiers) hrises hlisted hbefore (by rw [hsame]) hidle.1).1
      rw [JudgeList.takes_of_handler hsame] at htakes
      exact h.keeps hkeeps ⟨hin, (JudgeList.working_of_handler hsame).symm.trans hidle.2⟩ hidle he htakes

section

variable {f : JudgeHandler → JudgeHandler}

/-- A change of one handler that keeps its tier. -/
theorem Tiered.setHandler (h : Tiered s) (htier : ∀ j, (f j).tier = j.tier)
    (hdisabled : (f (s.handlers judge)).isDisabled = false → (s.handlers judge).isDisabled = false) :
    Tiered (s.setHandler judge f) := by
  have hsame : ∀ judge', ((s.setHandler judge f).handlers judge').tier = (s.handlers judge').tier := by
    intro judge'
    by_cases heq : judge' = judge
    · rw [heq, JudgeList.setHandler_self, htier]
    · rw [JudgeList.setHandler_of_ne heq]
  refine ⟨fun judge' hin => ?_, fun judge' hin henabled => ?_⟩
  · rw [hsame]
    exact h.tiers judge' hin
  · rw [hsame]
    refine h.floor judge' hin ?_
    by_cases heq : judge' = judge
    · rw [heq, JudgeList.setHandler_self] at henabled
      rw [heq]
      exact hdisabled henabled
    · rwa [JudgeList.setHandler_of_ne heq] at henabled

theorem JudgeList.idle_of_ne (hne : judge' ≠ judge) : (s.setHandler judge f).Idle judge' ↔ s.Idle judge' := by
  unfold JudgeList.Idle JudgeList.working
  rw [JudgeList.mem_tierJudges, JudgeList.mem_tierJudges, JudgeList.setHandler_of_ne hne]
  rfl

theorem JudgeList.tierJudges_setHandler (htier : ∀ j, (f j).tier = j.tier) (hdisabled : ∀ j, (f j).isDisabled = j.isDisabled) :
    (s.setHandler judge f).tierJudges = s.tierJudges := by
  refine List.filter_congr fun judge' _ => ?_
  by_cases heq : judge' = judge
  · rw [heq, JudgeList.setHandler_self, htier, hdisabled]
    rfl
  · rw [JudgeList.setHandler_of_ne heq]
    rfl

end

theorem Manned.connected {isDisabled : Bool} (h : Manned (fun _ => False) ws s)
    (htimely : s.Timely (.connected judge isDisabled)) : Manned (fun _ => False) ws (s.connect judge isDisabled) := by
  have hwaits : Waits ws (s.connect judge isDisabled) := h.waits.quiet rfl rfl rfl
  cases isDisabled with
  | true =>
      refine h.of_keeps hwaits (h.tiered.setHandler (fun _ => rfl) (by simp)) (fun judge' _ hidle => ?_) htimely
      have hne : judge' ≠ judge := by
        rintro rfl
        have henabled := (JudgeList.mem_tierJudges.mp hidle.1).2.2
        unfold JudgeList.connect at henabled
        rw [JudgeList.setHandler_self] at henabled
        cases henabled
      exact ⟨(JudgeList.idle_of_ne hne).mp hidle, JudgeList.setHandler_of_ne hne⟩
  | false =>
      have hsame : s.connect judge false = s := by
        have hnot : (s.handlers judge).isDisabled = false := htimely
        have hhandler : ({ s.handlers judge with isDisabled := false } : JudgeHandler) = s.handlers judge := by
          rw [← hnot]
        show ({ s with handlers := Function.update s.handlers judge { s.handlers judge with isDisabled := false } } : JudgeList) = s
        rw [hhandler, Function.update_eq_self]
      rwa [hsame]

/-- What one free judge could not take is still held back, if that judge gets work or cannot take it still. -/
theorem JudgeList.Held.besides (h : s.Held e) (hfree : s.working judge = false) (htier : s'.tierJudges = s.tierJudges)
    (hnot : judge ∈ s.tierJudges → s.takes e judge = false)
    (hself : judge ∈ s.tierJudges → s'.working judge = true ∨ s'.takes e judge = false)
    (hothers : ∀ judge' ≠ judge, s'.takes e judge' = s.takes e judge' ∧ s'.working judge' = s.working judge') :
    s'.Held e := by
  refine h.mono (htier.trans (List.append_nil _).symm) (fun judge' hin htake => ?_) (fun judge' hin hidle => ?_)
    fun judge' hin => absurd hin List.not_mem_nil
  · by_cases heq : judge' = judge
    · rw [heq, hnot (heq ▸ hin)] at htake
      cases htake
    · rw [(hothers judge' heq).1]
      exact htake
  · by_cases heq : judge' = judge
    · rw [heq] at hidle hin ⊢
      refine ⟨hfree, fun htake => ?_⟩
      rcases hself hin with hbusy | hno
      · exact absurd (hbusy.symm.trans hidle) (by simp)
      · exact absurd (hno.symm.trans htake) (by simp)
    · rw [(hothers judge' heq).1]
      exact ⟨(hothers judge' heq).2.symm.trans hidle, id⟩

theorem Manned.updateProblems {problems : List String} (h : Manned (fun _ => False) ws s)
    (hfree : s.working judge = false) : ∃ ws', Manned (fun _ => False) ws' ((s.supply judge problems).serve w judge) := by
  set t := s.supply judge problems with ht
  have hwaits : Waits ws t := h.waits.quiet rfl rfl rfl
  have htiered : Tiered t := h.tiered.setHandler (fun _ => rfl) id
  have htier : t.tierJudges = s.tierJudges := JudgeList.tierJudges_setHandler (fun _ => rfl) fun _ => rfl
  have hsame : ∀ judge' ≠ judge, t.handlers judge' = s.handlers judge' := fun judge' hne => JudgeList.setHandler_of_ne hne
  have hworking : ∀ judge', t.working judge' = s.working judge' := fun judge' => by
    by_cases heq : judge' = judge
    · rw [heq, ht]
      unfold JudgeList.supply JudgeList.working
      rw [JudgeList.setHandler_self]
    · exact JudgeList.working_of_handler (hsame judge' heq)
  have hwas : ∀ judge' ≠ judge, t.Idle judge' → s.Idle judge' := fun judge' hne => (JudgeList.idle_of_ne hne).mp
  by_cases hin : judge ∈ s.tierJudges
  · have hidle : t.Idle judge := ⟨htier ▸ hin, (hworking judge).trans hfree⟩
    -- this judge was idle as well, so what another one is held back from is not for this one
    have hunable : ∀ judge' ≠ judge, t.Idle judge' → ∀ e, s.Held e → s.takes e judge' = true → s.takes e judge = false := by
      intro judge' hne hidle' e hheld htakes
      obtain ⟨hin', hfree'⟩ := hwas judge' hne hidle'
      rcases hheld.2 with hall | hable
      · exact absurd (hall.eq hin' hin hfree' hfree) hne
      · by_contra htake
        rw [Bool.not_eq_false] at htake
        exact hne (hable.eq (List.mem_filter.mpr ⟨hin', htakes⟩) (List.mem_filter.mpr ⟨hin, htake⟩) hfree' hfree)
    rw [hwaits.serve_eq (htiered.current hidle.1)]
    unfold JudgeList.served
    cases hdue : t.due w judge ws with
    | some e =>
        have hframe : Frame t (t.hand judge e.key e.request) := .hand t judge e.key e.request
        have hgive : Waits ws (t.give judge e.request) := hwaits.quiet rfl rfl rfl
        refine ⟨_, hgive.dequeue (JudgeList.mem_of_due hdue), htiered.frame hframe, fun judge' _ hidle' e' he' htakes => ?_⟩
        have hother := hidle'.2
        rw [working_hand, Bool.or_eq_false_iff, decide_eq_false_iff_not] at hother
        have hidle'' : t.Idle judge' := ⟨hframe.tierJudges ▸ hidle'.1, hother.2⟩
        rw [hframe.takes, JudgeList.takes_of_handler (hsame judge' hother.1)] at htakes
        have hheld := h.served judge' id (hwas judge' hother.1 hidle'') e' (List.mem_filter.mp he').1 htakes
        refine hheld.besides hfree (hframe.tierJudges.trans htier)
          (fun _ => hunable judge' hother.1 hidle'' e' hheld htakes) (fun _ => .inl ?_) fun other hne => ⟨?_, ?_⟩
        · rw [working_hand, decide_eq_true rfl, Bool.true_or]
        · exact (hframe.takes e' other).trans (JudgeList.takes_of_handler (hsame other hne))
        · rw [working_hand, decide_eq_false hne, Bool.false_or, hworking]
    | none =>
        refine ⟨ws, hwaits, htiered, fun judge' _ hidle' e he htakes => ?_⟩
        by_cases heq : judge' = judge
        · subst heq
          have hheld := hwaits.held hdue he htakes
          exact ⟨hheld.1, .inl hheld.2⟩
        · rw [JudgeList.takes_of_handler (hsame judge' heq)] at htakes
          have hheld := h.served judge' id (hwas judge' heq hidle') e he htakes
          refine hheld.besides hfree htier (fun _ => hunable judge' heq hidle' e hheld htakes) (fun _ => .inr ?_)
            fun other hne => ⟨JudgeList.takes_of_handler (hsame other hne), hworking other⟩
          by_contra htake
          rw [Bool.not_eq_false] at htake
          exact heq ((hwaits.held hdue he htake).2.eq hidle'.1 hidle.1 hidle'.2 hidle.2)
  · -- a judge that is not of the tier counts for no reservation
    have hothers : Manned (· = judge) ws t := ⟨hwaits, htiered, fun judge' hne hidle e he htakes => by
      rw [JudgeList.takes_of_handler (hsame judge' hne)] at htakes
      refine (h.served judge' id (hwas judge' hne hidle) e he htakes).besides hfree htier (fun hin' => absurd hin' hin)
        (fun hin' => absurd hin' hin) fun other hother => ?_
      exact ⟨JudgeList.takes_of_handler (hsame other hother), hworking other⟩⟩
    exact hothers.serve fun judge' _ hne => hne

theorem Manned.supplied {problems : List String} (h : Manned (fun _ => False) ws s) (hworking : s.working judge = true)
    (hkeeps : s.Keeps (s.supply judge problems)) : Manned (fun _ => False) ws (s.supply judge problems) := by
  refine h.of_keeps (h.waits.quiet rfl rfl rfl) (h.tiered.setHandler (fun _ => rfl) id) (fun judge' _ hidle => ?_) hkeeps
  have hne : judge' ≠ judge := by
    rintro rfl
    have hfree := hidle.2
    unfold JudgeList.supply JudgeList.working at hfree
    rw [JudgeList.setHandler_self] at hfree
    exact absurd (hworking.symm.trans hfree) (by simp)
  exact ⟨(JudgeList.idle_of_ne hne).mp hidle, JudgeList.setHandler_of_ne hne⟩

theorem Manned.onJudgeFree (h : Manned (fun _ => False) ws s)
    (htimely : s.Keeps (s.free judge id) ∨ (s.free judge id).Employs judge) :
    ∃ ws', Manned (fun _ => False) ws' ((s.free judge id).serve w judge) := by
  set t := s.free judge id with ht
  have hquiet : Quiet s t := History.quiet_free
  have hwaits : Waits ws t := h.waits.quiet hquiet.queue hquiet.nodeMap hquiet.nextKey
  have hunassigned : Tiered (s.unassign id) := ⟨h.tiered.tiers, h.tiered.floor⟩
  have htiered : Tiered t := hunassigned.setHandler (fun _ => rfl) fun henabled => henabled
  have htier : t.tierJudges = s.tierJudges := JudgeList.tierJudges_setHandler (fun _ => rfl) fun _ => rfl
  have hsame : ∀ judge' ≠ judge, t.handlers judge' = s.handlers judge' := fun judge' hne => JudgeList.setHandler_of_ne hne
  have hwas : ∀ judge' ≠ judge, t.Idle judge' → s.Idle judge' ∧ t.handlers judge' = s.handlers judge' :=
    fun judge' hne hidle =>
      ⟨⟨htier ▸ hidle.1, (JudgeList.working_of_handler (hsame judge' hne)).symm.trans hidle.2⟩, hsame judge' hne⟩
  rcases htimely with hkeeps | hemploys
  · have hothers : Manned (· = judge) ws t := h.of_keeps hwaits htiered hwas hkeeps
    exact hothers.serve fun judge' _ hne => hne
  · refine Manned.employ hwaits htiered hemploys fun judge' hne hidle e he htakes => ?_
    rw [JudgeList.takes_of_handler (hsame judge' hne)] at htakes
    have hheld := h.served judge' (fun hno => hno) (hwas judge' hne hidle).1 e he htakes
    refine ⟨hheld.1, fun key r => ?_⟩
    have hframe : Frame t (t.hand judge key r) := .hand t judge key r
    have htakes' : ∀ other, (t.hand judge key r).takes e other = s.takes e other := fun other => by
      rw [hframe.takes]
      by_cases heq : other = judge
      · rw [heq, ht]
        unfold JudgeList.takes JudgeList.free
        rw [JudgeList.setHandler_self]
        rfl
      · exact JudgeList.takes_of_handler (hsame other heq)
    refine hheld.mono ((hframe.tierJudges.trans htier).trans (List.append_nil _).symm) (fun other _ htake => ?_)
      (fun other _ hfree => ?_) fun other hin => absurd hin List.not_mem_nil
    · rw [htakes']
      exact htake
    · rw [working_hand, Bool.or_eq_false_iff, decide_eq_false_iff_not] at hfree
      rw [htakes']
      exact ⟨(JudgeList.working_of_handler (hsame other hfree.1)).symm.trans hfree.2, fun htake => htake⟩

theorem Manned.abort (h : Manned (fun _ => False) ws s) : ∃ ws', Manned (fun _ => False) ws' (s.afterCalm w (.abort id)) := by
  unfold JudgeList.afterCalm
  dsimp only
  split
  · rename_i key _ hkey
    obtain ⟨e, he, rfl, rfl⟩ := h.waits.entry hkey
    have hframe : Frame s (s.dequeue e.key e.request.id) :=
      ⟨rfl, rfl, rfl, fun _ => rfl, fun _ => rfl, fun _ => rfl, fun _ _ => rfl⟩
    exact ⟨_, h.frame hframe (fun _ hworking => hworking) (h.waits.dequeue he)
      (fun e' he' => (List.mem_filter.mp he').1) fun _ _ _ hno => hno⟩
  · exact ⟨ws, h⟩

/-- A submission that is queued is held back, or no idle judge can take it. -/
theorem JudgeList.pick_none (hpick : s.pick w r priority = none) (hidle : s.Idle judge)
    (htakes : s.takes ⟨key, r, priority⟩ judge = true) : s.Held ⟨key, r, priority⟩ := by
  unfold JudgeList.pick at hpick
  dsimp only at hpick
  have hperm : ((s.currentTierJudges w).filter fun judge => (s.handlers judge).canJudge r.problem r.language r.judgeId).Perm
      (s.tierJudges.filter (s.takes ⟨key, r, priority⟩)) := JudgeList.tierJudges_perm.filter _
  have hin : judge ∈ (s.currentTierJudges w).filter fun judge => (s.handlers judge).canJudge r.problem r.language r.judgeId :=
    hperm.mem_iff.mpr (List.mem_filter.mpr ⟨hidle.1, htakes⟩)
  have henabled := (JudgeList.mem_tierJudges.mp hidle.1).2.2
  split at hpick
  · -- the only free one among the candidates is spared for others
    rename_i hheld
    obtain ⟨hmany, hone, hlow⟩ := hheld
    refine ⟨hlow, .inr ⟨?_, ?_⟩⟩
    · rwa [← hperm.length_eq]
    · rw [← hperm.countP_eq, List.countP_eq_length_filter, ← hone]
      refine le_of_eq (congrArg List.length (List.filter_congr fun judge' hin' => ?_))
      have hsome := (JudgeList.mem_currentTierJudges.mp (List.mem_filter.mp hin').1).2.2
      rw [hsome, Bool.not_false, Bool.and_true]
  · have havailable : judge ∈ ((s.currentTierJudges w).filter fun judge =>
        (s.handlers judge).canJudge r.problem r.language r.judgeId).filter
          fun judge => !s.working judge && !(s.handlers judge).isDisabled :=
      List.mem_filter.mpr ⟨hin, by rw [hidle.2, henabled]; rfl⟩
    rw [List.argmin_eq_none.mp hpick] at havailable
    cases havailable

theorem Manned.submitted (h : Manned (fun _ => False) ws s) :
    ∃ ws', Manned (fun _ => False) ws' (s.afterCalm w (.judge r priority)) := by
  unfold JudgeList.afterCalm
  dsimp only
  split
  · exact ⟨ws, h⟩
  rename_i hunknown
  split
  · rename_i chosen _
    refine ⟨ws, h.frame (.give s chosen r) (fun judge' hworking => ?_) (h.waits.quiet rfl rfl rfl) (fun _ he => he)
      fun _ _ _ hno => hno⟩
    rw [working_give, hworking, Bool.or_true]
  · rename_i hpick
    split
    · rename_i hpriority
      refine ⟨_, h.waits.enqueue (JudgeList.unknown hunknown).2 (of_decide_eq_true hpriority),
        ⟨h.tiered.tiers, h.tiered.floor⟩, fun judge _ hidle e he htakes => ?_⟩
      rcases List.mem_append.mp he with hold | hnew
      · exact h.served judge (fun hno => hno) hidle e hold htakes
      · obtain rfl := List.mem_singleton.mp hnew
        exact JudgeList.pick_none hpick hidle htakes
    · exact ⟨ws, h⟩

theorem Manned.pingResponse {load : ℚ} (h : Manned (fun _ => False) ws s) :
    Manned (fun _ => False) ws (s.setHandler judge fun j => { j with load }) := by
  have hfield : ∀ {α : Type} (f : JudgeHandler → α), (∀ j, f { j with load } = f j) →
      ∀ judge', f ((s.setHandler judge fun j => { j with load }).handlers judge') = f (s.handlers judge') := by
    intro α f hf judge'
    by_cases heq : judge' = judge
    · rw [heq, JudgeList.setHandler_self, hf]
    · rw [JudgeList.setHandler_of_ne heq]
  have hframe : Frame s (s.setHandler judge fun j => { j with load }) :=
    ⟨rfl, rfl, rfl, hfield (·.name) fun _ => rfl, hfield (·.tier) fun _ => rfl, hfield (·.isDisabled) fun _ => rfl,
      fun judge' r => hfield (·.canJudge r.problem r.language r.judgeId) (fun _ => rfl) judge'⟩
  exact h.frame hframe (fun judge' hworking => (hfield (·.working.isSome) (fun _ => rfl) judge').trans hworking)
    (h.waits.quiet rfl rfl rfl) (fun _ he => he) fun _ _ _ hno => hno

/-! ## Runs -/

theorem JudgeList.happens_calm (hw : w.Calm) (h : Happening) :
    s.happens w h = (s.calls h).foldl (fun s call => s.afterCalm w call) s := by
  unfold JudgeList.happens
  simp only [JudgeList.after_calm hw]

theorem Manned.happens {h : Happening} (hmanned : Manned (fun _ => False) ws s) (hw : w.Calm) (htimely : s.Timely h) :
    ∃ ws', Manned (fun _ => False) ws' (s.happens w h) := by
  rw [JudgeList.happens_calm hw]
  cases h with
  | register judge name tier problems executors =>
      exact hmanned.register htimely
  | connected judge isDisabled =>
      exact ⟨ws, hmanned.connected htimely⟩
  | remove judge =>
      exact hmanned.remove htimely
  | updateProblems judge problems =>
      cases hworking : s.working judge with
      | true =>
          simp only [JudgeList.calls, hworking, if_true, List.foldl_cons, List.foldl_nil]
          exact ⟨ws, hmanned.supplied hworking (htimely hworking)⟩
      | false =>
          simp only [JudgeList.calls, hworking, Bool.false_eq_true, if_false, List.foldl_cons, List.foldl_nil]
          exact hmanned.updateProblems hworking
  | updateDisableJudge judgeId isDisabled =>
      exact hmanned.updateDisableJudge htimely
  | onJudgeFree judge submission =>
      simp only [JudgeList.calls, List.foldl_cons, List.foldl_nil]
      unfold JudgeList.afterCalm
      dsimp only
      split
      · exact ⟨ws, hmanned⟩
      · rename_i hassigned
        exact hmanned.onJudgeFree (htimely.resolve_left hassigned)
  | abort submission =>
      exact hmanned.abort (w := w)
  | judge r priority =>
      exact hmanned.submitted
  | pingResponse judge load =>
      exact ⟨ws, hmanned.pingResponse⟩

theorem Manned.happened {happenings : List (World × Happening)} (h : Manned (fun _ => False) ws s)
    (hcalm : ∀ happening ∈ happenings, happening.1.Calm) (htimely : s.AllTimely happenings) :
    ∃ ws', Manned (fun _ => False) ws' (s.happened happenings) := by
  induction happenings generalizing ws s with
  | nil => exact ⟨ws, h⟩
  | cons happening happenings ih =>
      obtain ⟨hfirst, hrest⟩ := htimely
      obtain ⟨ws', hnext⟩ := h.happens (hcalm happening List.mem_cons_self) hfirst
      exact ih hnext (fun later hin => hcalm later (List.mem_cons_of_mem _ hin)) hrest

theorem manned_start : Manned (fun _ => False) [] {} where
  waits := .start
  tiered := ⟨fun _ hin => absurd hin List.not_mem_nil, fun _ hin => absurd hin List.not_mem_nil⟩
  served _ _ _ _ he := absurd he List.not_mem_nil

/-- In every run without failing submits in which work is looked for in time, no judge is idle. -/
theorem none_idle (happenings : List (World × Happening)) (hcalm : ∀ happening ∈ happenings, happening.1.Calm)
    (htimely : JudgeList.AllTimely {} happenings) : (JudgeList.happened {} happenings).NoneIdle := by
  obtain ⟨ws, hmanned⟩ := manned_start.happened hcalm htimely
  exact fun judge hidle e he htakes => hmanned.served judge id hidle e (hmanned.waits.mem_entries.mp he) htakes

/-- Two judges of the first tier and one of the second. A rejudge waits while one of the two is the only free one, and is
taken once the other is free as well; then both leave, and the third judge gets what waits. -/
def manned : List (World × Happening) :=
  [(calm, .register 1 "one" 1 ["aplusb"] ["PY3"]), (calm, .register 2 "two" 1 ["aplusb"] ["PY3"]),
    (calm, .register 3 "three" 2 ["aplusb"] ["PY3"]), (calm, .judge (aplusb 5) 1), (calm, .judge (aplusb 6) 2),
    (calm, .onJudgeFree 1 5), (calm, .judge (aplusb 7) 1), (calm, .judge (aplusb 8) 1), (calm, .remove 1), (calm, .remove 2)]

theorem none_idle_manned : (JudgeList.happened {} manned).NoneIdle := by
  refine none_idle manned (fun happening hin => ?_) (by decide +kernel)
  have hworld : ∀ w ∈ manned.map (·.1), w = calm := by simp [manned]
  rw [hworld happening.1 (List.mem_map_of_mem hin)]
  exact fun _ _ => rfl

example : ((JudgeList.happened {} manned).handlers 1).sent = [6, 5] ∧ ((JudgeList.happened {} manned).handlers 3).sent = [8] := by
  decide +kernel

/-- The only judge is disabled, a submission is queued, and the judge is enabled again. -/
def enabledAgain : List (World × Happening) :=
  [(calm, .register 1 "one" 1 ["aplusb"] ["PY3"]), (calm, .updateDisableJudge "one" true), (calm, .judge (aplusb 5) 1),
    (calm, .updateDisableJudge "one" false)]

theorem idle_enabled : ¬ (JudgeList.happened {} enabledAgain).NoneIdle := by
  intro h
  have hheld := h 1 (by decide +kernel) ⟨4, aplusb 5, 1⟩ (by decide +kernel) (by decide +kernel)
  exact absurd hheld.1 (by decide)

end Bridge
end CpcJudge
