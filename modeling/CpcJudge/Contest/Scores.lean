import CpcJudge.Contest.Judging

/-!
# `Contest.Scores` — what the score of a format is made of

A format does not score everything a submission holds. The default, legacy IOI, ICPC and AtCoder formats add up
contest points; the IOI format reads the test cases of the graded submissions; the ECOO format passes over the `IE`
and the `CE`. Two lists of submissions that read the same have the same score. A submission without points adds
nothing to the best points of its problem, unless they are negative.
-/

namespace CpcJudge
namespace Contest

/-- A submission with nothing in it but its problem. -/
def blank (problem : ℕ) : ContestSubmission :=
  { submission := 0, problem, points := 0, date := 0, status := .D, result := none, testCases := [] }

/-- What the score of a format is made of: the part of a submission it reads, if it reads it at all. -/
def Format.reads (format : Format) (s : ContestSubmission) : Option ContestSubmission :=
  match format with
  | .default | .ioi | .icpc | .atcoder => some { blank s.problem with points := s.points }
  | .ioi16 =>
      if s.status = .D then some { blank s.problem with date := s.date, testCases := s.testCases } else none
  | .ecoo => if s.failed then none else some { blank s.problem with points := s.points, date := s.date }

/-- The formats that add up contest points. -/
def Format.sums : Format → Bool
  | .default | .ioi | .icpc | .atcoder => true
  | .ioi16 | .ecoo => false

/-- The best points for a problem. -/
def bestPoints (submissions : List ContestSubmission) (problem : ℕ) : ℚ :=
  maximum ((groupOf submissions problem).map (·.points))

variable {submissions : List ContestSubmission} {p : Participation} {config : FormatConfig} {precision : ℕ}

/-! ## The formats that add up contest points -/

/-- The score of these formats before it is rounded: the most points of each problem. -/
def topPoints (submissions : List ContestSubmission) : ℚ := ((problemsOf submissions).map (bestPoints submissions)).sum

theorem foldl_score {step : Loop → ProblemRow → Loop} (h : ∀ l row, (step l row).score = l.score + row.points) :
    ∀ (rows : List ProblemRow) (l : Loop), (rows.foldl step l).score = l.score + (rows.map (·.points)).sum := by
  intro rows
  induction rows with
  | nil => intro l; simp
  | cons row rows ih =>
      intro l
      rw [List.foldl_cons, ih, h, List.map_cons, List.sum_cons, add_assoc]

theorem lastRows_points : ((lastRows submissions).map (·.points)).sum = topPoints submissions := by
  simp only [lastRows, topPoints, List.map_map]
  rfl

theorem bestRows_points : ((bestRows submissions).map (·.points)).sum = topPoints submissions := by
  simp only [bestRows, topPoints, List.map_map]
  rfl

theorem updateDefault_score : (updateDefault p precision).score = roundDigits precision (topPoints p.submissions) := by
  simp only [updateDefault]
  rw [foldl_score (fun _ _ => rfl), lastRows_points, zero_add]

theorem updateIoi_score : (updateIoi p config precision).score = roundDigits precision (topPoints p.submissions) := by
  simp only [updateIoi]
  rw [foldl_score (fun _ _ => rfl), bestRows_points, zero_add]

theorem updateIcpc_score : (updateIcpc p config precision).score = roundDigits precision (topPoints p.submissions) := by
  simp only [updateIcpc]
  rw [foldl_score (fun _ _ => rfl), bestRows_points, zero_add]

theorem updateAtcoder_score :
    (updateAtcoder p config precision).score = roundDigits precision (topPoints p.submissions) := by
  simp only [updateAtcoder]
  rw [foldl_score (fun _ _ => rfl), bestRows_points, zero_add]

theorem updateParticipation_score (format : Format) (hsums : format.sums = true) :
    (updateParticipation p config format precision).score = roundDigits precision (topPoints p.submissions) := by
  cases format with
  | default => exact updateDefault_score
  | ioi => exact updateIoi_score
  | icpc => exact updateIcpc_score
  | atcoder => exact updateAtcoder_score
  | ioi16 => exact absurd hsums (by decide)
  | ecoo => exact absurd hsums (by decide)

/-- The problems nobody submitted to add nothing. -/
theorem topPoints_eq {problems : Finset ℕ} (h : ∀ problem ∈ problemsOf submissions, problem ∈ problems) :
    topPoints submissions = ∑ problem ∈ problems, bestPoints submissions problem := by
  rw [topPoints, ← List.sum_toFinset _ problemsOf_nodup]
  apply Finset.sum_subset
  · intro problem hin
    exact h problem (List.mem_toFinset.mp hin)
  · intro problem _ hout
    have hempty : groupOf submissions problem = [] := by
      rw [groupOf, List.filter_eq_nil_iff]
      intro s hs heq
      apply hout
      simp only [problemsOf, List.mem_toFinset, List.mem_dedup, List.mem_map]
      exact ⟨s, hs, by simpa using heq⟩
    rw [bestPoints, hempty]
    rfl

/-- The total is decided by the best points of each problem. -/
theorem topPoints_congr {submissions' : List ContestSubmission}
    (h : ∀ problem, bestPoints submissions' problem = bestPoints submissions problem) :
    topPoints submissions' = topPoints submissions := by
  let problems : Finset ℕ := (problemsOf submissions).toFinset ∪ (problemsOf submissions').toFinset
  have hold : topPoints submissions = ∑ problem ∈ problems, bestPoints submissions problem :=
    topPoints_eq (by simp +contextual [problems])
  have hnew : topPoints submissions' = ∑ problem ∈ problems, bestPoints submissions' problem :=
    topPoints_eq (by simp +contextual [problems])
  rw [hold, hnew]
  exact Finset.sum_congr rfl fun problem _ => h problem

/-! ## Submissions without points -/

theorem foldr_max_eq (l : List ℚ) : l.foldr max 0 = max (maximum l) 0 := by
  induction l with
  | nil => rfl
  | cons x l ih =>
      rw [List.foldr_cons, ih]
      cases htail : l.max? with
      | none =>
          rw [List.max?_eq_none_iff.mp htail]
          simp [maximum]
      | some m =>
          simp only [maximum, List.max?_cons, htail, Option.getD_some, Option.elim_some]
          exact (max_assoc x m 0).symm

theorem maximum_nonneg {l : List ℚ} (h : 0 ∈ l) : 0 ≤ maximum l := by
  cases hmax : l.max? with
  | none => simp [List.max?_eq_none_iff.mp hmax] at h
  | some m =>
      rw [maximum, hmax]
      exact List.max?_le_iff hmax |>.mp (le_refl m) 0 h

/-- Some of the submissions that were not read are now read as ones without points. -/
def Gains (good : ℕ → Prop) (read read' : List (Option ContestSubmission)) : Prop :=
  read.Forall₂ (fun old new => new = old ∨ old = none ∧ ∃ s, new = some s ∧ s.points = 0 ∧ good s.problem) read'

section Gains

variable {good : ℕ → Prop} {read read' : List (Option ContestSubmission)} {problem : ℕ}

/-- The points read for a problem. -/
def pointsRead (read : List (Option ContestSubmission)) (problem : ℕ) : List ℚ :=
  (groupOf (read.filterMap fun read => read) problem).map (·.points)

theorem pointsRead_cons {s : ContestSubmission} :
    pointsRead (some s :: read) problem =
      if s.problem = problem then s.points :: pointsRead read problem else pointsRead read problem := by
  simp only [pointsRead, groupOf, List.filterMap_cons, List.filter_cons, decide_eq_true_eq]
  split <;> rfl

theorem Gains.foldr_max (h : Gains good read read') :
    (pointsRead read' problem).foldr max 0 = (pointsRead read problem).foldr max 0 := by
  induction h with
  | nil => rfl
  | @cons old new read read' hgain htail ih =>
      rcases hgain with rfl | ⟨rfl, s, rfl, hzero, _⟩
      · cases new with
        | none => exact ih
        | some s =>
            rw [pointsRead_cons, pointsRead_cons]
            split
            · rw [List.foldr_cons, List.foldr_cons, ih]
            · exact ih
      · refine Eq.trans ?_ ih
        rw [pointsRead_cons]
        split
        · rw [List.foldr_cons, hzero, foldr_max_eq, max_comm, max_assoc, max_self]
        · rfl

/-- Nothing was gained for a problem, or some zero was. -/
theorem Gains.cases (h : Gains good read read') (problem : ℕ) :
    pointsRead read' problem = pointsRead read problem ∨ 0 ∈ pointsRead read' problem ∧ good problem := by
  induction h with
  | nil => exact .inl rfl
  | @cons old new read read' hgain htail ih =>
      rcases hgain with rfl | ⟨rfl, s, rfl, hzero, hgood⟩
      · cases new with
        | none => exact ih
        | some s =>
            rw [pointsRead_cons, pointsRead_cons]
            split
            · rcases ih with ih | ⟨hmem, hgood⟩
              · exact .inl (by rw [ih])
              · exact .inr ⟨List.mem_cons_of_mem _ hmem, hgood⟩
            · exact ih
      · rw [pointsRead_cons]
        split
        · rename_i heq
          exact .inr ⟨hzero ▸ List.mem_cons_self, heq ▸ hgood⟩
        · exact ih

/-- The total does not change if the best points of the problems with gains are not negative. -/
theorem Gains.topPoints
    (h : Gains (fun problem => 0 ≤ bestPoints (read.filterMap fun read => read) problem) read read') :
    topPoints (read'.filterMap fun read => read) = topPoints (read.filterMap fun read => read) := by
  apply topPoints_congr
  intro problem
  show maximum (pointsRead read' problem) = maximum (pointsRead read problem)
  rcases h.cases problem with heq | ⟨hzero, hbest⟩
  · rw [heq]
  · calc maximum (pointsRead read' problem)
      _ = max (maximum (pointsRead read' problem)) 0 := (max_eq_left (maximum_nonneg hzero)).symm
      _ = (pointsRead read' problem).foldr max 0 := (foldr_max_eq _).symm
      _ = (pointsRead read problem).foldr max 0 := h.foldr_max
      _ = max (maximum (pointsRead read problem)) 0 := foldr_max_eq _
      _ = maximum (pointsRead read problem) := max_eq_left hbest

end Gains

/-! ## The formats that read more -/

/-- A graded submission, as the IOI format reads it. -/
def tested (s : ContestSubmission) : ContestSubmission :=
  { blank s.problem with date := s.date, testCases := s.testCases }

theorem batchRows_tested :
    batchRows ((submissions.filter (·.status = .D)).map tested) = batchRows submissions := by
  have hgraded : ((submissions.filter (·.status = .D)).map tested).filter (·.status = .D) =
      (submissions.filter (·.status = .D)).map tested := by
    rw [List.filter_eq_self]
    intro s hs
    obtain ⟨_, _, rfl⟩ := List.mem_map.mp hs
    rfl
  simp only [batchRows]
  rw [hgraded]
  generalize submissions.filter (·.status = .D) = graded
  have hproblems : problemsOf (graded.map tested) = problemsOf graded := by
    simp [problemsOf, tested, blank, Function.comp_def]
  have hgroup : ∀ problem, groupOf (graded.map tested) problem = (groupOf graded problem).map tested := by
    intro problem
    rw [groupOf, groupOf, List.filter_map]
    rfl
  have hbatch : ∀ batch s, batchPoints batch (tested s) = batchPoints batch s := fun _ _ => rfl
  rw [hproblems]
  congr 1
  funext problem
  rw [hgroup, List.flatMap_map]
  congr 1
  funext batch
  simp only [List.filter_map, List.filterMap_map, Function.comp_def, hbatch, List.map_map]
  rfl

/-- A submission that did not fail, as the ECOO format reads it. -/
def dated (s : ContestSubmission) : ContestSubmission := { blank s.problem with points := s.points, date := s.date }

theorem updateEcoo_dated :
    updateEcoo { p with submissions := (p.submissions.filter (! ·.failed)).map dated } config precision =
      updateEcoo p config precision := by
  have hcounted : ((p.submissions.filter (! ·.failed)).map dated).filter (! ·.failed) =
      (p.submissions.filter (! ·.failed)).map dated := by
    rw [List.filter_eq_self]
    intro s hs
    obtain ⟨_, _, rfl⟩ := List.mem_map.mp hs
    rfl
  simp only [updateEcoo]
  rw [hcounted]
  generalize p.submissions.filter (! ·.failed) = counted
  have hgroup : ∀ problem, groupOf (counted.map dated) problem = (groupOf counted problem).map dated := by
    intro problem
    rw [groupOf, groupOf, List.filter_map]
    rfl
  have hrows : finalRows (counted.map dated) = finalRows counted := by
    have hproblems : problemsOf (counted.map dated) = problemsOf counted := by
      simp [problemsOf, dated, blank, Function.comp_def]
    simp only [finalRows, hproblems, hgroup, List.map_map, List.filter_map]
    rfl
  have hcell : ∀ row, ecooCell { p with submissions := counted.map dated } config (counted.map dated) row =
      ecooCell p config counted row := by
    intro row
    simp [ecooCell, ecooBonus, hgroup, elapsed]
  simp only [hrows, hcell]

/-- The score is made of what the format reads. -/
theorem score_reads (format : Format) :
    (updateParticipation { p with submissions := p.submissions.filterMap format.reads } config format precision).score =
      (updateParticipation p config format precision).score := by
  by_cases hsums : format.sums = true
  · rw [updateParticipation_score format hsums, updateParticipation_score format hsums]
    have hreads : p.submissions.filterMap format.reads =
        p.submissions.map fun s => { blank s.problem with points := s.points } := by
      rw [← List.filterMap_eq_map]
      apply List.filterMap_congr
      intro s _
      cases format with
      | ioi16 => exact absurd hsums (by decide)
      | ecoo => exact absurd hsums (by decide)
      | _ => rfl
    apply congrArg
    apply topPoints_congr
    intro problem
    simp only [hreads, bestPoints, groupOf, List.filter_map, List.map_map]
    rfl
  · cases format with
    | ioi16 =>
        have hreads : p.submissions.filterMap Format.ioi16.reads = (p.submissions.filter (·.status = .D)).map tested := by
          rw [← List.filterMap_eq_map, List.filterMap_filter]
          apply List.filterMap_congr
          intro s _
          simp [Format.reads, tested]
        simp only [updateParticipation, updateIoi16, hreads, batchRows_tested]
        rfl
    | ecoo =>
        have hreads : p.submissions.filterMap Format.ecoo.reads = (p.submissions.filter (! ·.failed)).map dated := by
          rw [← List.filterMap_eq_map, List.filterMap_filter]
          apply List.filterMap_congr
          intro s _
          by_cases hfailed : s.failed = true <;> simp [Format.reads, dated, hfailed]
        simp only [updateParticipation, hreads, updateEcoo_dated]
    | _ => exact absurd rfl hsums

end Contest
end CpcJudge
