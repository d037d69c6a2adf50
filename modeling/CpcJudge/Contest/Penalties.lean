import CpcJudge.Contest.Cells
import CpcJudge.Contest.Verdicts

/-!
# `Contest.Penalties` — the attempts before the one that scores

ICPC and AtCoder count the attempts sent up to the moment a problem was scored, and take off one, for the submission
that scored it. That is right when it is the only one of that moment that counts. A submission keeps its contest points
while it is judged again, and then its result counts no more: nothing is left to take off.
-/

namespace CpcJudge
namespace Contest

/-- Its result is there, and is no `IE` and no `CE`. -/
def ContestSubmission.counts (s : ContestSubmission) : Bool := s.result.isSome && !s.failed

/-- The attempts on its problem that were sent before it. -/
def Participation.attemptsEarlier (p : Participation) (s : ContestSubmission) : ℕ :=
  (attemptsOf p s.problem).countP (·.date < s.date)

/-- The attempts on its problem that were sent at its moment. -/
def Participation.attemptsThen (p : Participation) (s : ContestSubmission) : ℕ :=
  (attemptsOf p s.problem).countP (·.date = s.date)

section
variable {p : Participation} {config : FormatConfig} {s : ContestSubmission} {row : ProblemRow}

theorem attemptsOf_eq (problem : ℕ) : attemptsOf p problem = (groupOf p.submissions problem).filter (·.counts) := by
  simp only [attemptsOf, groupOf, List.filter_filter]
  exact List.filter_congr fun s _ => by simp [ContestSubmission.counts]

/-- Up to a moment is before it or at it. -/
theorem countP_date (l : List ContestSubmission) (date : Time) :
    l.countP (·.date ≤ date) = l.countP (·.date < date) + l.countP (·.date = date) := by
  induction l with
  | nil => rfl
  | cons t l ih =>
      simp only [List.countP_cons, ih, decide_eq_true_eq]
      rcases lt_trichotomy t.date date with h | h | h
      · rw [if_pos h.le, if_pos h, if_neg h.ne]
        omega
      · rw [if_pos h.le, if_neg h.not_lt, if_pos h]
        omega
      · rw [if_neg h.not_ge, if_neg h.not_gt, if_neg h.ne']
        omega

theorem attemptsBefore_eq (hs : s.points ≠ 0) : attemptsBefore p config ⟨s.problem, s.date, s.points⟩ =
    if config.penalty.getD 0 ≠ 0 then (p.attemptsEarlier s : ℤ) + p.attemptsThen s - 1 else 0 := by
  unfold attemptsBefore
  rw [if_pos hs, countP_date]
  split_ifs with h
  · rw [Participation.attemptsEarlier, Participation.attemptsThen]
    push_cast
    ring
  · rfl

theorem attemptsBefore_iff (hs : s.points ≠ 0) :
    attemptsBefore p config ⟨s.problem, s.date, s.points⟩ = p.attemptsEarlier s ↔
      if config.penalty.getD 0 ≠ 0 then p.attemptsThen s = 1 else p.attemptsEarlier s = 0 := by
  rw [attemptsBefore_eq hs]
  split_ifs with h <;> omega

/-! ## What a format writes -/

/-- Every submission that leads a problem has its cell. -/
theorem Leads.cell {cells : FormatData} (h : Leads p.submissions s)
    (hcells : cells = (bestRows p.submissions).map fun row => (row.problem, penaltyCell p config row)) :
    cells.lookup s.problem = some (penaltyCell p config ⟨s.problem, s.date, s.points⟩) := by
  have hmem : (s.problem, penaltyCell p config ⟨s.problem, s.date, s.points⟩) ∈ cells := by
    rw [hcells]
    exact List.mem_map_of_mem (f := fun row => (row.problem, penaltyCell p config row)) h.mem_bestRows
  have hkeys : (cells.map (·.1)).Nodup := by
    rw [hcells, List.map_map]
    exact bestRows_distinct
  obtain ⟨before, after, rfl⟩ := List.append_of_mem hmem
  refine List.lookup_eq_some_iff.mpr ⟨before, after, rfl, fun item hitem => ?_⟩
  rw [List.map_append, List.map_cons, List.nodup_append'] at hkeys
  rw [bne_iff_ne]
  intro heq
  exact hkeys.2.2 (List.mem_map_of_mem hitem) (heq ▸ List.mem_cons_self)

/-- What both formats leave. -/
theorem updateParticipation_cells {format : Format} (hformat : format = .icpc ∨ format = .atcoder) (precision : ℕ) :
    (updateParticipation p config format precision).formatData =
      (bestRows p.submissions).map fun row => (row.problem, penaltyCell p (format.config config) row) := by
  rcases hformat with rfl | rfl
  · exact updateIcpc_cells
  · exact updateAtcoder_cells

/-- The time of the cells that score, and their penalties. -/
theorem updateParticipation_cumtime {format : Format} (hformat : format = .icpc ∨ format = .atcoder) (precision : ℕ) :
    let results := updateParticipation p config format precision
    results.cumtime = (if format = .icpc then timeOf results.formatData.solved else lastOf results.formatData.solved) +
      penaltyOf ((format.config config).penalty.getD 0) results.formatData.solved := by
  rcases hformat with rfl | rfl
  · obtain ⟨_, htime, _, hpenalty⟩ := icpc_loop p (Format.icpc.config config)
    exact congrArg₂ (· + ·) htime.symm hpenalty.symm
  · obtain ⟨_, hlast, hpenalty⟩ := atcoder_loop p (Format.atcoder.config config)
    exact congrArg₂ (· + ·) hlast.symm hpenalty.symm

theorem updateParticipation_cumtime_nonneg {format : Format} (hformat : format = .icpc ∨ format = .atcoder)
    {precision : ℕ} (hvalid : 0 ≤ (format.config config).penalty.getD 0)
    (hcells : ∀ item ∈ (updateParticipation p config format precision).formatData,
      0 ≤ item.2.seconds ∧ 0 ≤ item.2.penalty.getD 0) :
    0 ≤ (updateParticipation p config format precision).cumtime := by
  rw [updateParticipation_cumtime hformat]
  have hsolved : ∀ cell ∈ (updateParticipation p config format precision).formatData.solved,
      0 ≤ cell.seconds ∧ 0 ≤ cell.penalty.getD 0 := by
    intro cell hcell
    obtain ⟨item, hitem, rfl⟩ := List.mem_map.mp (List.mem_of_mem_filter (List.mem_of_mem_filter hcell))
    exact hcells item hitem
  refine add_nonneg ?_ (List.sum_nonneg fun x hx => ?_)
  · split_ifs
    · refine List.sum_nonneg fun x hx => ?_
      obtain ⟨cell, hcell, rfl⟩ := List.mem_map.mp hx
      exact (hsolved cell hcell).1
    · exact List.foldlRecOn (motive := fun last => 0 ≤ last) _ _ le_rfl fun _ hlast _ _ => le_max_of_le_left hlast
  · obtain ⟨cell, hcell, rfl⟩ := List.mem_map.mp hx
    have hpenalty : (0 : ℚ) ≤ (cell.penalty.getD 0 : ℤ) := by exact_mod_cast (hsolved cell hcell).2
    have hminutes : (0 : ℚ) ≤ ((format.config config).penalty.getD 0 : ℤ) := by exact_mod_cast hvalid
    positivity

end

/-! ## Judging -/

/-- What a judging does not change. -/
theorem ContestSubmission.afterEvent_sent (s : ContestSubmission) (e : JudgeEvent) :
    (s.afterEvent e).submission = s.submission ∧ (s.afterEvent e).problem = s.problem ∧
      (s.afterEvent e).date = s.date := by
  unfold ContestSubmission.afterEvent
  split
  · unfold ContestSubmission.judge
    split_ifs <;> exact ⟨rfl, rfl, rfl⟩
  · rename_i packet
    split_ifs
    · cases packet <;> exact ⟨rfl, rfl, rfl⟩
    · exact ⟨rfl, rfl, rfl⟩
  · split_ifs <;> exact ⟨rfl, rfl, rfl⟩
  · split_ifs <;> exact ⟨rfl, rfl, rfl⟩
  · exact ⟨rfl, rfl, rfl⟩

/-- A submission whose grading ended counts. -/
theorem ContestSubmission.gradingEnd_counts {s s' : ContestSubmission} {c : ContestRow} (h : s.gradingEnd c = some s') :
    s'.counts = true ∧ s'.submission = s.submission ∧ s'.problem = s.problem ∧ s'.date = s.date := by
  simp only [ContestSubmission.gradingEnd, Option.bind_eq_bind, Option.bind_eq_some_iff] at h
  obtain ⟨g, _, result, hresult, h⟩ := h
  rw [← Option.some.inj h]
  have hcode : ∀ result ∈ statusCodes, result ≠ .IE ∧ result ≠ .CE := by decide
  have hresult := hcode result (List.mem_of_getElem? hresult)
  refine ⟨?_, rfl, rfl, rfl⟩
  simp [ContestSubmission.counts, ContestSubmission.failed, hresult]

/-- A submission that scores keeps a result that counts. A new submission has its own key, a moment of its own among
those to its problem, and is sent after the start; when a grading ends, the one that scores is the graded one or counts
already; and nothing else takes the result from one that scores. -/
def ContestParticipation.KeepsResult (p : ContestParticipation) (c : ContestRow) : JudgeEvent → Prop
  | .submitted id submission problem date => p.id = id → p.start c ≤ date ∧
      ∀ s ∈ p.submissions, s.submission ≠ submission ∧ (s.problem = problem → s.date ≠ date)
  | .gradingEnd id => ∀ s ∈ (p.withGrading c id).submissions, Leads (p.withGrading c id).submissions s →
      s.points ≠ 0 → s.submission ≠ id → s.counts = true
  | .recompute _ | .setDisqualified _ _ => True
  | e => ∀ s ∈ p.submissions, Leads p.submissions s → s.points ≠ 0 → (s.afterEvent e).counts = true

instance (p : ContestParticipation) (c : ContestRow) (e : JudgeEvent) : Decidable (p.KeepsResult c e) := by
  cases e <;> unfold ContestParticipation.KeepsResult <;> infer_instance

/-- Every event of a history does. -/
def KeepsResults (c : ContestRow) : ContestParticipation → List (Time × JudgeEvent) → Prop
  | _, [] => True
  | p, e :: events => p.KeepsResult c e.2 ∧ KeepsResults c (p.judged c e.1 e.2) events

instance decidableKeepsResults (c : ContestRow) : (p : ContestParticipation) → (events : List (Time × JudgeEvent)) →
    Decidable (KeepsResults c p events)
  | _, [] => inferInstanceAs (Decidable True)
  | p, e :: events =>
      have := decidableKeepsResults c (p.judged c e.1 e.2) events
      inferInstanceAs (Decidable (_ ∧ _))

/-- The submissions that score count, each at a moment of its own. -/
structure ContestParticipation.Penalized (p : ContestParticipation) (c : ContestRow) : Prop where
  keys : (p.submissions.map (·.submission)).Nodup
  dates : ∀ problem, ((groupOf p.submissions problem).map (·.date)).Nodup
  started : ∀ s ∈ p.submissions, p.start c ≤ s.date
  counted : ∀ s, Leads p.submissions s → s.points ≠ 0 → s.counts = true

namespace ContestParticipation.Penalized

variable {p : ContestParticipation} {c : ContestRow} {e : JudgeEvent} {s : ContestSubmission} {now : Time}

theorem attemptsThen (h : p.Penalized c) (hs : s ∈ p.submissions) (hcounts : s.counts = true) :
    (p.scored c).attemptsThen s = 1 := by
  have hdates : ((attemptsOf (p.scored c) s.problem).map (·.date)).Nodup := by
    rw [attemptsOf_eq]
    exact (h.dates s.problem).sublist (List.filter_sublist.map _)
  have hmem : s.date ∈ (attemptsOf (p.scored c) s.problem).map (·.date) := by
    rw [attemptsOf_eq]
    exact List.mem_map_of_mem (List.mem_filter.mpr ⟨mem_groupOf.mpr ⟨hs, rfl⟩, hcounts⟩)
  have hone := List.count_eq_one_of_mem hdates hmem
  rw [List.count_eq_countP, List.countP_map] at hone
  exact hone

/-- What writes submissions without moving them to another problem or moment keeps it, if the ones that score after it
    count. -/
theorem map (h : p.Penalized c) {f : ContestSubmission → ContestSubmission}
    (hsent : ∀ s, (f s).submission = s.submission ∧ (f s).problem = s.problem ∧ (f s).date = s.date)
    (hcounted : ∀ s, Leads (p.submissions.map f) s → s.points ≠ 0 → s.counts = true) :
    Penalized { p with submissions := p.submissions.map f } c := by
  refine ⟨?_, fun problem => ?_, ?_, hcounted⟩
  · have hkeys : p.submissions.map ((·.submission) ∘ f) = p.submissions.map (·.submission) :=
      List.map_congr_left fun s _ => (hsent s).1
    dsimp only
    rw [List.map_map, hkeys]
    exact h.keys
  · have hgroup : groupOf (p.submissions.map f) problem = (groupOf p.submissions problem).map f := by
      simp only [groupOf, List.filter_map]
      exact congrArg _ (List.filter_congr fun s _ => by simp [hsent])
    have hdates : (groupOf p.submissions problem).map ((·.date) ∘ f) = (groupOf p.submissions problem).map (·.date) :=
      List.map_congr_left fun s _ => (hsent s).2.2
    dsimp only
    rw [hgroup, List.map_map, hdates]
    exact h.dates problem
  · intro s hs
    obtain ⟨t, ht, rfl⟩ := List.mem_map.mp hs
    rw [(hsent t).2.2]
    exact h.started t ht

theorem recomputeResults (h : p.Penalized c) : (p.recomputeResults c now).Penalized c := by
  unfold ContestParticipation.recomputeResults freezeScoreboard
  split <;> exact ⟨h.keys, h.dates, h.started, h.counted⟩

/-- The events that write one submission and nothing else: what scores after them scored before. -/
theorem afterEvent (h : p.Penalized c) (hkeeps : ∀ s ∈ p.submissions, Leads p.submissions s → s.points ≠ 0 →
    (s.afterEvent e).counts = true) : Penalized { p with submissions := p.submissions.map (·.afterEvent e) } c := by
  refine h.map (·.afterEvent_sent e) fun s' hleads hpoints => ?_
  obtain ⟨s, hs, rfl⟩ := List.mem_map.mp hleads.1
  obtain ⟨hsame, _, _⟩ := s.afterEvent_spec e
  refine hkeeps s hs ⟨hs, fun t ht htp => ?_⟩ (hsame ▸ hpoints)
  have hlead := hleads.2 (t.afterEvent e) (List.mem_map_of_mem ht)
  simpa only [(t.afterEvent_spec e).1, (s.afterEvent_spec e).1, t.afterEvent_sent e, s.afterEvent_sent e, htp,
    true_implies] using hlead

theorem submitted (h : p.Penalized c) {submission problem : ℕ} {date : Time} (hstart : p.start c ≤ date)
    (hfresh : ∀ s ∈ p.submissions, s.submission ≠ submission ∧ (s.problem = problem → s.date ≠ date)) :
    Penalized { p with submissions := p.submissions ++
      [{ submission, problem, points := 0, date, status := .QU, result := none, testCases := [] }] } c := by
  refine ⟨?_, fun k => ?_, fun s hs => ?_, fun s hleads hpoints => ?_⟩
  · dsimp only
    rw [List.map_append, List.nodup_append']
    refine ⟨h.keys, List.nodup_singleton _, ?_⟩
    rw [List.map_singleton, List.disjoint_singleton]
    intro hin
    obtain ⟨s, hs, heq⟩ := List.mem_map.mp hin
    exact (hfresh s hs).1 heq
  · dsimp only
    rw [groupOf, List.filter_append, List.map_append, List.nodup_append']
    refine ⟨h.dates k, (List.nodup_singleton _).sublist (List.filter_sublist.map _), ?_⟩
    intro moment hold hnew
    obtain ⟨s, hs, rfl⟩ := List.mem_map.mp hold
    obtain ⟨new, hmem, heq⟩ := List.mem_map.mp hnew
    obtain ⟨hmem, hk⟩ := List.mem_filter.mp hmem
    rw [List.mem_singleton.mp hmem] at heq hk
    obtain ⟨hs, hsk⟩ := mem_groupOf.mp hs
    exact (hfresh s hs).2 (hsk.trans (of_decide_eq_true hk).symm) heq.symm
  · rcases List.mem_append.mp hs with hs | hs
    · exact h.started s hs
    · rw [List.mem_singleton.mp hs]
      exact hstart
  · -- it has no points yet
    rcases List.mem_append.mp hleads.1 with hs | hs
    · exact h.counted s ⟨hs, fun t ht => hleads.2 t (List.mem_append_left _ ht)⟩ hpoints
    · rw [List.mem_singleton.mp hs] at hpoints
      exact absurd rfl hpoints

/-- The end of a grading gives its submission a result that counts. -/
theorem withGrading (h : p.Penalized c) {id : ℕ} (hends : p.hasGrading c id = true)
    (hkeeps : p.KeepsResult c (.gradingEnd id)) : (p.withGrading c id).Penalized c := by
  refine h.map (fun s => ?_) fun s' hleads hpoints => ?_
  · split_ifs
    · cases hgrading : s.gradingEnd c with
      | none => exact ⟨rfl, rfl, rfl⟩
      | some s' => exact (ContestSubmission.gradingEnd_counts hgrading).2
    · exact ⟨rfl, rfl, rfl⟩
  · by_cases hid : s'.submission = id
    · obtain ⟨s, hs, rfl⟩ := List.mem_map.mp hleads.1
      obtain ⟨graded, hgraded, hgrading⟩ := List.any_eq_true.mp hends
      rw [Bool.and_eq_true, decide_eq_true_eq] at hgrading
      obtain ⟨g, hg⟩ := Option.isSome_iff_exists.mp hgrading.2
      have hsame : s.submission = id := by
        by_contra hne
        rw [if_neg hne] at hid
        exact hne hid
      rw [List.inj_on_of_nodup_map h.keys hs hgraded (hsame.trans hgrading.1.symm), if_pos hgrading.1, hg]
      exact (ContestSubmission.gradingEnd_counts hg).1
    · exact hkeeps s' hleads.1 hleads hpoints hid

/-- One event keeps it. -/
theorem judged (h : p.Penalized c) (hkeeps : p.KeepsResult c e) : (p.judged c now e).Penalized c := by
  cases e with
  | submitted id submission problem date =>
      rw [ContestParticipation.judged]
      split_ifs with hid
      · obtain ⟨hstart, hfresh⟩ := hkeeps hid
        exact h.submitted hstart hfresh
      · exact h
  | gradingEnd id =>
      rw [ContestParticipation.judged, onGradingEnd]
      split_ifs with hends
      · exact (h.withGrading hends hkeeps).recomputeResults
      · exact h
  | recompute id =>
      rw [ContestParticipation.judged]
      split_ifs
      · exact h.recomputeResults
      · exact h
  | setDisqualified id disqualified =>
      rw [ContestParticipation.judged]
      split_ifs
      · have hset : Penalized { p with isDisqualified := disqualified } c :=
          ⟨h.keys, h.dates, h.started, h.counted⟩
        exact hset.recomputeResults
      · exact h
  | judge => exact h.afterEvent hkeeps
  | packet => exact h.afterEvent hkeeps
  | disconnected => exact h.afterEvent hkeeps
  | unjudged => exact h.afterEvent hkeeps

theorem judgedRun (h : p.Penalized c) {events : List (Time × JudgeEvent)} (hkeeps : KeepsResults c p events) :
    (p.judgedRun c events).Penalized c := by
  induction events generalizing p with
  | nil => exact h
  | cons e events ih =>
      obtain ⟨hevent, hevents⟩ := hkeeps
      exact ih (h.judged hevent) hevents

/-- No cell has a time or a penalty below zero. -/
theorem cells_nonneg (h : p.Penalized c) (config : FormatConfig) : ∀ row ∈ bestRows p.submissions,
    0 ≤ (penaltyCell (p.scored c) config row).seconds ∧ 0 ≤ (penaltyCell (p.scored c) config row).penalty.getD 0 := by
  intro row hrow
  obtain ⟨s, hleads, rfl⟩ := mem_bestRows.mp hrow
  constructor
  · have hstart : (0 : ℚ) ≤ (s.date - p.start c : ℤ) := by exact_mod_cast sub_nonneg.mpr (h.started s hleads.1)
    exact div_nonneg hstart (by norm_num)
  · by_cases hpoints : s.points = 0
    · simp only [penaltyCell, attemptsBefore, hpoints, ne_eq, not_true_eq_false, if_false, Option.getD_some]
      split_ifs <;> positivity
    · simp only [penaltyCell, Option.getD_some]
      rw [attemptsBefore_eq hpoints, h.attemptsThen hleads.1 (h.counted s hleads hpoints)]
      split_ifs <;> omega

end ContestParticipation.Penalized

theorem ContestParticipation.New.penalized {p : ContestParticipation} {c : ContestRow} (h : p.New) : p.Penalized c := by
  refine ⟨?_, fun problem => ?_, ?_, ?_⟩ <;> simp [h.submissions, groupOf, Leads]

/-- A contest scored as ICPC does. -/
def icpcContest : ContestRow := { emptyBoard.contest with format := .icpc }

/-- Nobody has submitted to it. -/
def entrant : ContestParticipation := { id := 1, realStart := 0, virtual := 0, team := none, isDisqualified := false }

/-- A judging in which the submission fails its only case. -/
def rejected (submission : ℕ) (now : Time) : List (Time × JudgeEvent) :=
  [(now, .judge submission true), (now, .packet submission .processing), (now, .packet submission .gradingBegin),
    (now, .packet submission (.testCase [{ batch := none, points := some 0, total := some 1, status := .WA }])),
    (now, .gradingEnd submission)]

/-- A rejected submission after ten minutes and an accepted one after fifteen. -/
def secondTry : List (Time × JudgeEvent) :=
  [(600000000, .submitted 1 1 1 600000000)] ++ rejected 1 600000000 ++ [(900000000, .submitted 1 2 1 900000000)] ++
    passed 2 900000000

/-- A submission that scored after one minute is judged again, when another one is graded. -/
def scoredAgain : List (Time × JudgeEvent) :=
  [(60000000, .submitted 1 1 1 60000000)] ++ passed 1 60000000 ++ [(120000000, .submitted 1 2 2 120000000)] ++
    [(180000000, .judge 1 true)] ++ rejected 2 180000000

end Contest
end CpcJudge
