import CpcJudge.Contest.Cells
import CpcJudge.Contest.Judging

/-!
# `Contest.Scale` — the scale of the points of a problem

A grading puts the points of a submission on the scale of its contest problem. The formats that read them leave a
problem on that scale, with all its points where the submission they count got them. The IOI format reads the test cases:
its points go from nothing to the totals of the batches, whatever the contest problem is worth.
-/

namespace CpcJudge
namespace Contest

/-! ## A grading -/

/-- The points of a test case are no fewer than none and no more than its total. -/
def TestCase.Fair (case : TestCase) : Prop :=
  ∀ points ∈ case.points, ∀ total ∈ case.total, 0 ≤ points ∧ points ≤ total

/-- `on_grading_end` and `update_contest` graded it, from fair test cases. -/
structure ContestSubmission.Graded (s : ContestSubmission) (c : ContestRow) : Prop where
  ends : ∃ s0 : ContestSubmission, s0.gradingEnd c = some s
  cases : ∀ case ∈ s.testCases, case.Fair

/-- What the loop over fair test cases adds up is fair. -/
structure Grading.Fair (g : Grading) : Prop where
  points : 0 ≤ g.points
  total : g.points ≤ g.total
  batches : ∀ entry ∈ g.batches, 0 ≤ entry.2.1 ∧ entry.2.1 ≤ entry.2.2

theorem Grading.Fair.add {g g' : Grading} {case : TestCase} (h : g.Fair) (hcase : case.Fair) (hadd : g.add case = some g') :
    g'.Fair ∧ case.points.isSome ∧ case.total.isSome := by
  simp only [Grading.add, Option.bind_eq_bind, Option.bind_eq_some_iff] at hadd
  obtain ⟨points, hpoints, total, htotal, index, _, hadd⟩ := hadd
  obtain ⟨hnonneg, hle⟩ := hcase points hpoints total htotal
  refine ⟨?_, by rw [hpoints]; rfl, by rw [htotal]; rfl⟩
  have hplain : Grading.Fair
      { g with points := g.points + points, total := g.total + total, status := max g.status index } :=
    ⟨add_nonneg h.points hnonneg, add_le_add h.total hle, h.batches⟩
  split at hadd
  · rw [← Option.some.inj hadd]
    exact hplain
  · rw [← Option.some.inj hadd]
    exact hplain
  · rename_i batch _
    rw [← Option.some.inj hadd]
    refine ⟨h.points, h.total, fun entry hentry => ?_⟩
    dsimp only [addToBatch] at hentry
    split at hentry
    · obtain ⟨old, hold, rfl⟩ := List.mem_map.mp hentry
      obtain ⟨hold0, hold1⟩ := h.batches old hold
      split_ifs
      · exact ⟨le_min hold0 hnonneg, (min_le_left _ _).trans (hold1.trans (le_max_left _ _))⟩
      · exact ⟨hold0, hold1⟩
    · rcases List.mem_append.mp hentry with hentry | hentry
      · exact h.batches entry hentry
      · rw [List.mem_singleton.mp hentry]
        exact ⟨hnonneg, hle⟩

theorem Grading.Fair.fold {g g' : Grading} {cases : List TestCase} (h : g.Fair) (hcases : ∀ case ∈ cases, case.Fair)
    (hfold : cases.foldlM Grading.add g = some g') :
    g'.Fair ∧ ∀ case ∈ cases, case.points.isSome ∧ case.total.isSome := by
  induction cases generalizing g with
  | nil =>
      rw [← Option.some.inj hfold]
      exact ⟨h, fun case hcase => absurd hcase List.not_mem_nil⟩
  | cons case cases ih =>
      rw [List.foldlM_cons, Option.bind_eq_bind, Option.bind_eq_some_iff] at hfold
      obtain ⟨g1, hadd, hfold⟩ := hfold
      obtain ⟨hg1, hcase⟩ := h.add (hcases case (by simp)) hadd
      obtain ⟨hg', hrest⟩ := ih hg1 (fun case hcase => hcases case (by simp [hcase])) hfold
      refine ⟨hg', fun other hother => ?_⟩
      rcases List.mem_cons.mp hother with rfl | hother
      · exact hcase
      · exact hrest other hother

/-- What is rounded stays between two numbers that are their own rounding. -/
theorem roundDigits_mem {digits : ℕ} {low x high : ℚ} (hlow : roundDigits digits low = low)
    (hhigh : roundDigits digits high = high) (h : low ≤ x ∧ x ≤ high) :
    low ≤ roundDigits digits x ∧ roundDigits digits x ≤ high := by
  constructor
  · rw [← hlow]
    exact Decimal.roundTo_mono _ h.1
  · rw [← hhigh]
    exact Decimal.roundTo_mono _ h.2

theorem roundDigits_intCast (digits : ℕ) (n : ℤ) : roundDigits digits n = n := by
  refine Decimal.roundTo_of_onGrid (Nat.pow_pos (by norm_num)) ⟨n * 10 ^ digits, ?_⟩
  push_cast
  field_simp

/-- The points of a part of the total are on the scale of the contest problem. -/
theorem ContestSubmission.contestPoints_mem {s : ContestSubmission} {c : ContestRow} (hnonneg : 0 ≤ s.casePoints)
    (hle : s.casePoints ≤ s.caseTotal) (hworth : 0 ≤ (c.problems s.problem).points) :
    0 ≤ s.contestPoints c ∧ s.contestPoints c ≤ (c.problems s.problem).points := by
  have hworth : (0 : ℚ) ≤ (c.problems s.problem).points := by exact_mod_cast hworth
  have hpart : 0 ≤ (if 0 < s.caseTotal then s.casePoints / s.caseTotal * (c.problems s.problem).points else 0) ∧
      (if 0 < s.caseTotal then s.casePoints / s.caseTotal * (c.problems s.problem).points else 0) ≤
        (c.problems s.problem).points := by
    split_ifs with hpos
    · exact ⟨mul_nonneg (div_nonneg hnonneg hpos.le) hworth,
        mul_le_of_le_one_left hworth ((div_le_one hpos).mpr hle)⟩
    · exact ⟨le_rfl, hworth⟩
  have hround := roundDigits_mem (by exact_mod_cast roundDigits_intCast 3 0) (roundDigits_intCast 3 _) hpart
  unfold ContestSubmission.contestPoints
  dsimp only
  generalize roundDigits 3 _ = points at hround ⊢
  split
  · exact ⟨le_rfl, hworth⟩
  · exact hround

namespace ContestSubmission.Graded

variable {s : ContestSubmission} {c : ContestRow}

theorem spec (h : s.Graded c) : 0 ≤ s.casePoints ∧ s.casePoints ≤ s.caseTotal ∧ s.points = s.contestPoints c ∧
    s.failed = false ∧ ∀ case ∈ s.testCases, case.points.isSome ∧ case.total.isSome := by
  obtain ⟨s0, hends⟩ := h.ends
  simp only [gradingEnd, Option.bind_eq_bind, Option.bind_eq_some_iff] at hends
  obtain ⟨g, hfold, result, hresult, hends⟩ := hends
  have hcases := h.cases
  rw [← Option.some.inj hends] at hcases ⊢
  obtain ⟨hfair, hsome⟩ := Grading.Fair.fold ⟨le_rfl, le_rfl, by simp⟩ hcases hfold
  rw [List.unzip_eq_map]
  dsimp only
  rw [List.unzip_eq_map, List.map_map, List.map_map]
  have hbatches : 0 ≤ (g.batches.map ((·.1) ∘ (·.2))).sum := by
    refine List.sum_nonneg fun x hx => ?_
    obtain ⟨entry, hentry, rfl⟩ := List.mem_map.mp hx
    exact (hfair.batches entry hentry).1
  have htotals : (g.batches.map ((·.1) ∘ (·.2))).sum ≤ (g.batches.map ((·.2) ∘ (·.2))).sum :=
    List.sum_le_sum fun entry hentry => (hfair.batches entry hentry).2
  have hcode : ∀ result ∈ statusCodes, result ≠ .IE ∧ result ≠ .CE := by decide
  have hresult := hcode result (List.mem_of_getElem? hresult)
  refine ⟨?_, Decimal.roundTo_mono _ (add_le_add hfair.total htotals), rfl, ?_, hsome⟩
  · rw [← show roundDigits 1 0 = 0 by exact_mod_cast roundDigits_intCast 1 0]
    exact Decimal.roundTo_mono _ (add_nonneg hfair.points hbatches)
  · simp [failed, hresult]

theorem points_mem (h : s.Graded c) (hworth : 0 ≤ (c.problems s.problem).points) :
    0 ≤ s.points ∧ s.points ≤ (c.problems s.problem).points := by
  obtain ⟨hnonneg, hle, hpoints, _⟩ := h.spec
  rw [hpoints]
  exact contestPoints_mem hnonneg hle hworth

end ContestSubmission.Graded

/-! ## The formats that read contest points -/

/-- The submissions a format scores a problem by: all of them, or for ECOO the last of those that did not fail. -/
def Format.scores (format : Format) (submissions : List ContestSubmission) (s : ContestSubmission) : Prop :=
  if format = .ecoo then
    s ∈ submissions.filter (! ·.failed) ∧
      ∀ t ∈ submissions.filter (! ·.failed), t.problem = s.problem → t.date ≤ s.date
  else s ∈ submissions

section
variable {p : Participation} {config : FormatConfig} {precision problem : ℕ} {cell : Cell} {row : ProblemRow}
  {counted : List ContestSubmission}

/-- The row of a problem has the most points of its last moment. -/
theorem mem_finalRows (hrow : row ∈ finalRows counted) :
    (∃ s ∈ counted, s.problem = row.problem ∧ s.points = row.points) ∧
      ∀ t ∈ counted, t.problem = row.problem → (∀ u ∈ counted, u.problem = row.problem → u.date ≤ t.date) →
        t.points ≤ row.points := by
  obtain ⟨problem, hproblem, rfl⟩ := List.mem_map.mp hrow
  obtain ⟨s, hs, hsp⟩ := mem_problemsOf.mp hproblem
  have hgroup : (groupOf counted problem).map (·.date) ≠ [] := by
    rw [Ne, List.map_eq_nil_iff]
    exact List.ne_nil_of_mem (mem_groupOf.mpr ⟨hs, hsp⟩)
  obtain ⟨hmem, hlast⟩ := maximum_spec hgroup
  obtain ⟨u, hu, hdate⟩ := List.mem_map.mp hmem
  have hfinal : ((groupOf counted problem).filter
      (·.date = maximum ((groupOf counted problem).map (·.date)))).map (·.points) ≠ [] := by
    rw [Ne, List.map_eq_nil_iff]
    exact List.ne_nil_of_mem (List.mem_filter.mpr ⟨hu, by simpa using hdate⟩)
  obtain ⟨hmem, hmost⟩ := maximum_spec hfinal
  constructor
  · obtain ⟨t, ht, hpoints⟩ := List.mem_map.mp hmem
    obtain ⟨ht, htp⟩ := mem_groupOf.mp (List.mem_of_mem_filter ht)
    exact ⟨t, ht, htp, hpoints⟩
  · intro t ht htp htlast
    have htgroup : t ∈ groupOf counted problem := mem_groupOf.mpr ⟨ht, htp⟩
    obtain ⟨hu, hup⟩ := mem_groupOf.mp hu
    have hsame : t.date = maximum ((groupOf counted problem).map (·.date)) :=
      le_antisymm (hlast _ (List.mem_map_of_mem htgroup)) (hdate ▸ htlast u hu hup)
    exact hmost _ (List.mem_map_of_mem (List.mem_filter.mpr ⟨htgroup, by simpa using hsame⟩))

theorem finalRows_distinct : ((finalRows counted).map (·.problem)).Nodup := by
  simpa [finalRows, Function.comp_def] using problemsOf_nodup

/-- A cell holds the points of a submission that is scored, and no scored one has more. -/
theorem cell_points {format : Format} (hformat : format = .icpc ∨ format = .atcoder ∨ format = .ecoo)
    (hmem : (problem, cell) ∈ (updateParticipation p config format precision).formatData) :
    (∃ s ∈ p.submissions, s.problem = problem ∧ s.points = cell.value) ∧
      ∀ t, format.scores p.submissions t → t.problem = problem → t.points ≤ cell.value := by
  by_cases hecoo : format = .ecoo
  · subst hecoo
    have hcells : (updateParticipation p config .ecoo precision).formatData =
        (finalRows (p.submissions.filter (! ·.failed))).map fun row =>
          (row.problem, ecooCell p (Format.ecoo.config config) (p.submissions.filter (! ·.failed)) row) :=
      foldl_setCell_nil finalRows_distinct
    rw [hcells] at hmem
    obtain ⟨row, hrow, heq⟩ := List.mem_map.mp hmem
    obtain ⟨rfl, rfl⟩ := Prod.mk.inj heq
    obtain ⟨⟨s, hs, hsp, hpoints⟩, hmost⟩ := mem_finalRows hrow
    refine ⟨⟨s, List.mem_of_mem_filter hs, hsp, hpoints⟩, fun t ht htp => ?_⟩
    obtain ⟨ht, hlast⟩ := (if_pos rfl).mp ht
    exact hmost t ht htp fun u hu hup => hlast u hu (hup.trans htp.symm)
  · have hcells : (updateParticipation p config format precision).formatData =
        (bestRows p.submissions).map fun row => (row.problem, penaltyCell p (format.config config) row) := by
      rcases hformat with rfl | rfl | rfl
      · exact updateIcpc_cells
      · exact updateAtcoder_cells
      · exact absurd rfl hecoo
    rw [hcells] at hmem
    obtain ⟨row, hrow, heq⟩ := List.mem_map.mp hmem
    obtain ⟨rfl, rfl⟩ := Prod.mk.inj heq
    obtain ⟨s, hleads, rfl⟩ := mem_bestRows.mp hrow
    refine ⟨⟨s, hleads.1, rfl, rfl⟩, fun t ht htp => ?_⟩
    exact (hleads.2 t ((if_neg hecoo).mp ht) htp).1

end

/-! ## The format that reads test cases -/

/-- The largest total of the cases of a batch. -/
def batchTotal (group : List ContestSubmission) (batch : Option ℤ) : ℚ :=
  maximum ((group.flatMap (·.testCases)).filterMap fun case => if case.batch = batch then case.total else none)

/-- The totals of the batches of a problem: the scale of its test cases. -/
def casesTotal (submissions : List ContestSubmission) (problem : ℕ) : ℚ :=
  let group := groupOf (submissions.filter (·.status = .D)) problem
  ((group.flatMap fun s => s.testCases.map (·.batch)).dedup.map (batchTotal group)).sum

/-- The points the cell of a problem holds. -/
def FormatData.pointsAt (data : FormatData) (problem : ℕ) : ℚ := ((data.lookup problem).map Cell.value).getD 0

section
variable {data : FormatData} {problem k : ℕ} {cell : Cell}

theorem FormatData.lookup_setCell : (data.setCell problem cell).lookup k =
    if k = problem then some cell else data.lookup k := by
  rw [FormatData.setCell]
  split
  · rename_i hin
    induction data with
    | nil => simp at hin
    | cons item data ih =>
        rw [List.map_cons, List.lookup_cons, List.lookup_cons]
        by_cases hitem : item.1 = problem
        · rw [if_pos hitem]
          by_cases hk : k = problem
          · simp [hk]
          · rw [if_neg hk, beq_eq_false_iff_ne.mpr hk, beq_eq_false_iff_ne.mpr (hitem ▸ hk)]
            by_cases hrest : problem ∈ data.map (·.1)
            · rw [ih hrest, if_neg hk]
            · -- no other cell is the problem's
              refine congrArg (List.lookup k) ((List.map_congr_left fun other hother => ?_).trans (List.map_id _))
              refine if_neg fun heq => hrest ?_
              rw [← heq]
              exact List.mem_map_of_mem hother
        · rw [if_neg hitem, ih (by simpa [Ne.symm hitem] using hin)]
          by_cases hk : k = item.1
          · rw [if_neg (hk ▸ hitem), hk]
            simp [hitem]
          · rw [beq_eq_false_iff_ne.mpr hk]
  · rename_i hout
    rw [List.lookup_append]
    by_cases hk : k = problem
    · have hnone : data.lookup problem = none := by
        rw [List.lookup_eq_none_iff]
        intro item hitem
        rw [bne_iff_ne]
        exact fun heq => hout (heq ▸ List.mem_map_of_mem hitem)
      rw [if_pos hk, hk, hnone]
      simp
    · rw [if_neg hk, List.lookup_cons, beq_eq_false_iff_ne.mpr hk]
      exact Option.or_none

/-- The loop adds up the points of the batches of each problem. -/
theorem batch_points (p : Participation) (config : FormatConfig) (rows : List ProblemRow) (data : FormatData) :
    (rows.foldl (batchStep p config) data).pointsAt k =
      data.pointsAt k + (rows.map fun row => if row.problem = k then row.points else 0).sum := by
  induction rows generalizing data with
  | nil => simp
  | cons row rows ih =>
      have hstep : (batchStep p config data row).pointsAt k =
          data.pointsAt k + if row.problem = k then row.points else 0 := by
        unfold batchStep FormatData.pointsAt
        dsimp only
        rw [FormatData.lookup_setCell]
        by_cases hk : k = row.problem
        · rw [if_pos hk, if_pos hk.symm, hk]
          cases data.lookup row.problem with
          | none => simp [Cell.value]
          | some cell => simp [Cell.value]
        · rw [if_neg hk, if_neg (Ne.symm hk), add_zero]
      rw [List.foldl_cons, ih, hstep, List.map_cons, List.sum_cons, add_assoc]

/-- Of the rows grouped by problem, those of one problem. -/
theorem sum_rows {problems : List ℕ} (hdistinct : problems.Nodup) {rows : ℕ → List ProblemRow}
    (hrows : ∀ problem, ∀ row ∈ rows problem, row.problem = problem) :
    ((problems.flatMap rows).map fun row => if row.problem = k then row.points else 0).sum =
      if k ∈ problems then ((rows k).map (·.points)).sum else 0 := by
  induction problems with
  | nil => simp
  | cons problem problems ih =>
      obtain ⟨hout, hdistinct⟩ := List.nodup_cons.mp hdistinct
      rw [List.flatMap_cons, List.map_append, List.sum_append, ih hdistinct]
      by_cases hk : k = problem
      · subst hk
        have hsame : (rows k).map (fun row => if row.problem = k then row.points else 0) = (rows k).map (·.points) :=
          List.map_congr_left fun row hrow => if_pos (hrows k row hrow)
        rw [hsame, if_neg hout, add_zero, if_pos List.mem_cons_self]
      · have hnone : (rows problem).map (fun row => if row.problem = k then row.points else 0) =
            (rows problem).map fun _ => 0 :=
          List.map_congr_left fun row hrow => if_neg (hrows problem row hrow ▸ Ne.symm hk)
        simp [hnone, hk]

/-- A sum over some elements of a list, each at most its bound. -/
theorem sum_filterMap_le {α β : Type} {l : List α} {f : α → Option β} {g : β → ℚ} {bound : α → ℚ}
    (hsome : ∀ x ∈ l, ∀ y ∈ f x, 0 ≤ g y ∧ g y ≤ bound x) (hnone : ∀ x ∈ l, f x = none → 0 ≤ bound x) :
    0 ≤ ((l.filterMap f).map g).sum ∧ ((l.filterMap f).map g).sum ≤ (l.map bound).sum := by
  induction l with
  | nil => simp
  | cons x l ih =>
      obtain ⟨hnonneg, hle⟩ := ih (fun x hx => hsome x (by simp [hx])) (fun x hx => hnone x (by simp [hx]))
      cases hf : f x with
      | none =>
          rw [List.filterMap_cons_none hf, List.map_cons, List.sum_cons]
          exact ⟨hnonneg, hle.trans (le_add_of_nonneg_left (hnone x (by simp) hf))⟩
      | some y =>
          obtain ⟨hy0, hy⟩ := hsome x (by simp) y hf
          rw [List.filterMap_cons_some hf, List.map_cons, List.sum_cons, List.map_cons, List.sum_cons]
          exact ⟨add_nonneg hy0 hnonneg, add_le_add hy hle⟩

theorem le_batchTotal {group : List ContestSubmission} {s : ContestSubmission} {case : TestCase} {total : ℚ}
    (hs : s ∈ group) (hcase : case ∈ s.testCases) (htotal : case.total = some total) :
    total ≤ batchTotal group case.batch := by
  have hmem : total ∈ (group.flatMap (·.testCases)).filterMap fun other =>
      if other.batch = case.batch then other.total else none :=
    List.mem_filterMap.mpr ⟨case, List.mem_flatMap.mpr ⟨s, hs, hcase⟩, by rw [if_pos rfl, htotal]⟩
  exact (maximum_spec (List.ne_nil_of_mem hmem)).2 total hmem

/-- The points of a batch are those of one of its cases. -/
theorem batchPoints_case {batch : Option ℤ} {s : ContestSubmission} {points : ℚ}
    (h : batchPoints batch s = some points) : ∃ case ∈ s.testCases, case.batch = batch ∧ case.points = some points := by
  obtain ⟨hmem, _⟩ := List.min?_eq_some_iff.mp h
  obtain ⟨case, hcase, hpoints⟩ := List.mem_filterMap.mp hmem
  obtain ⟨hcase, hbatch⟩ := List.mem_filter.mp hcase
  exact ⟨case, hcase, of_decide_eq_true hbatch, hpoints⟩

/-- The rows of one problem. -/
def batchRowsOf (graded : List ContestSubmission) (problem : ℕ) : List ProblemRow :=
  let group := groupOf graded problem
  (group.flatMap fun s => s.testCases.map (·.batch)).dedup.filterMap fun batch =>
    let reached := group.filter fun s => s.testCases.any (·.batch = batch)
    (reached.filterMap (batchPoints batch)).max?.map fun points =>
      ⟨problem, minimum ((reached.filter (batchPoints batch · = some points)).map (·.date)), points⟩

theorem batchRows_eq (submissions : List ContestSubmission) : batchRows submissions =
    (problemsOf (submissions.filter (·.status = .D))).flatMap (batchRowsOf (submissions.filter (·.status = .D))) := rfl

theorem batchRowsOf_problem (graded : List ContestSubmission) (problem : ℕ) :
    ∀ row ∈ batchRowsOf graded problem, row.problem = problem := by
  intro row hrow
  obtain ⟨batch, _, hbatch⟩ := List.mem_filterMap.mp hrow
  obtain ⟨points, _, rfl⟩ := Option.map_eq_some_iff.mp hbatch
  rfl

/-- Every case of a graded submission has its points and its total. -/
theorem ContestSubmission.Graded.case {s : ContestSubmission} {c : ContestRow} (h : s.Graded c) {case : TestCase}
    (hcase : case ∈ s.testCases) :
    ∃ points total, case.points = some points ∧ case.total = some total ∧ 0 ≤ points ∧ points ≤ total := by
  obtain ⟨_, _, _, _, hsome⟩ := h.spec
  obtain ⟨points, hpoints⟩ := Option.isSome_iff_exists.mp (hsome case hcase).1
  obtain ⟨total, htotal⟩ := Option.isSome_iff_exists.mp (hsome case hcase).2
  exact ⟨points, total, hpoints, htotal, h.cases case hcase points hpoints total htotal⟩

/-- The best points of each batch are within its total. -/
theorem batchRowsOf_points {graded : List ContestSubmission} {c : ContestRow} (hgraded : ∀ s ∈ graded, s.Graded c)
    (problem : ℕ) : 0 ≤ ((batchRowsOf graded problem).map (·.points)).sum ∧
      ((batchRowsOf graded problem).map (·.points)).sum ≤
        (((groupOf graded problem).flatMap fun s => s.testCases.map (·.batch)).dedup.map
          (batchTotal (groupOf graded problem))).sum := by
  apply sum_filterMap_le
  · intro batch _ row hrow
    obtain ⟨best, hbest, rfl⟩ := Option.map_eq_some_iff.mp hrow
    obtain ⟨hmem, _⟩ := List.max?_eq_some_iff.mp hbest
    obtain ⟨s, hs, hbatch⟩ := List.mem_filterMap.mp hmem
    obtain ⟨case, hcase, rfl, hcasepoints⟩ := batchPoints_case hbatch
    have hs := List.mem_of_mem_filter hs
    obtain ⟨points, total, hpoints, htotal, hnonneg, hle⟩ := (hgraded s (mem_groupOf.mp hs).1).case hcase
    obtain rfl : points = best := Option.some.inj (hpoints.symm.trans hcasepoints)
    exact ⟨hnonneg, hle.trans (le_batchTotal hs hcase htotal)⟩
  · intro batch hbatch _
    obtain ⟨s, hs, hcases⟩ := List.mem_flatMap.mp (List.mem_dedup.mp hbatch)
    obtain ⟨case, hcase, rfl⟩ := List.mem_map.mp hcases
    obtain ⟨points, total, _, htotal, hnonneg, hle⟩ := (hgraded s (mem_groupOf.mp hs).1).case hcase
    exact (hnonneg.trans hle).trans (le_batchTotal hs hcase htotal)

/-- What the IOI format adds up for a problem is on the scale of its test cases. -/
theorem updateIoi16_points (p : Participation) (config : FormatConfig) (precision : ℕ) {c : ContestRow}
    (hgraded : ∀ s ∈ p.submissions, s.Graded c) (k : ℕ) :
    0 ≤ (updateIoi16 p config precision).formatData.pointsAt k ∧
      (updateIoi16 p config precision).formatData.pointsAt k ≤ casesTotal p.submissions k := by
  have hpoints : (updateIoi16 p config precision).formatData.pointsAt k =
      0 + ((batchRows p.submissions).map fun row => if row.problem = k then row.points else 0).sum :=
    batch_points p config _ []
  rw [hpoints, zero_add, batchRows_eq, sum_rows problemsOf_nodup (batchRowsOf_problem _)]
  have hdone : ∀ s ∈ p.submissions.filter (·.status = .D), s.Graded c :=
    fun s hs => hgraded s (List.mem_of_mem_filter hs)
  obtain ⟨hnonneg, hle⟩ := batchRowsOf_points hdone k
  split_ifs
  · exact ⟨hnonneg, hle⟩
  · exact ⟨le_rfl, hnonneg.trans hle⟩

end

/-- **The scale of a problem.** With ICPC, AtCoder and ECOO, what is stored for a problem is between nothing and the
points of the contest problem, and it is these if a submission that is scored got them. With IOI it is between nothing
and the totals of the batches. -/
theorem on_scale (c : ContestRow) (p : ContestParticipation) (hgraded : ∀ s ∈ p.submissions, s.Graded c)
    {problem : ℕ} {cell : Cell}
    (hcell : (updateParticipation (p.scored c) c.formatConfig c.format c.pointsPrecision).formatData.lookup problem =
      some cell) :
    (c.format = .icpc ∨ c.format = .atcoder ∨ c.format = .ecoo → 0 ≤ (c.problems problem).points →
        0 ≤ cell.value ∧ cell.value ≤ (c.problems problem).points ∧
          ((∃ s, c.format.scores p.submissions s ∧ s.problem = problem ∧ s.points = (c.problems problem).points) →
            cell.value = (c.problems problem).points)) ∧
      (c.format = .ioi16 → 0 ≤ cell.value ∧ cell.value ≤ casesTotal p.submissions problem) := by
  constructor
  · intro hformat hworth
    obtain ⟨before, after, hdata, _⟩ := List.lookup_eq_some_iff.mp hcell
    obtain ⟨⟨s, hs, rfl, hpoints⟩, hmost⟩ := cell_points hformat (hdata ▸ List.mem_append_right _ List.mem_cons_self)
    obtain ⟨hnonneg, hle⟩ := (hgraded s hs).points_mem hworth
    rw [hpoints] at hnonneg hle
    refine ⟨hnonneg, hle, fun ⟨t, ht, htp, hfull⟩ => le_antisymm hle ?_⟩
    rw [← hfull]
    exact hmost t ht htp
  · intro hformat
    have hpoints := updateIoi16_points (p.scored c) (c.format.config c.formatConfig) c.pointsPrecision hgraded problem
    rw [hformat] at hcell hpoints
    have hvalue : FormatData.pointsAt (updateIoi16 (p.scored c) (Format.ioi16.config c.formatConfig)
        c.pointsPrecision).formatData problem = cell.value :=
      congrArg (fun found : Option Cell => (found.map Cell.value).getD 0) hcell
    rw [hvalue] at hpoints
    exact hpoints

/-- A contest of one problem of a hundred points. -/
def scaleContest (format : Format) : ContestRow :=
  { startTime := 0, endTime := 7200000000, timeLimit := none, freezeMinutes := none, scoreboardRevealed := false,
    format, formatConfig := {}, pointsPrecision := 3, problems := fun _ => { points := 100 } }

/-- A submission with one case, of five hundred points, that it passes. -/
def passesCase : ContestSubmission :=
  { submission := 1, problem := 1, points := 100, date := 60000000, status := .D, result := some .AC,
    casePoints := 500, caseTotal := 500, testCases := [{ batch := none, points := some 500, total := some 500 }] }

theorem passesCase_graded (format : Format) : passesCase.Graded (scaleContest format) := by
  refine ⟨⟨{ passesCase with points := 0, status := .G, result := none, casePoints := 0, caseTotal := 0 }, ?_⟩, ?_⟩
  · cases format <;> decide +kernel
  · intro case hcase points hpoints total htotal
    obtain rfl := List.mem_singleton.mp hcase
    obtain rfl := Option.some.inj hpoints
    obtain rfl := Option.some.inj htotal
    norm_num

def scaleEntry : ContestParticipation :=
  { id := 1, realStart := 0, virtual := 0, team := none, isDisqualified := false, submissions := [passesCase] }

theorem on_scale_icpc : ∃ cell,
    (updateParticipation (scaleEntry.scored (scaleContest .icpc)) {} .icpc 3).formatData.lookup 1 = some cell ∧
      cell.value = 100 := by
  have hgraded : ∀ s ∈ scaleEntry.submissions, s.Graded (scaleContest .icpc) := by
    intro s hs
    rw [List.mem_singleton.mp hs]
    exact passesCase_graded .icpc
  refine ⟨{ time := some 60, points := some 100, penalty := some 0 }, by decide +kernel, ?_⟩
  exact ((on_scale (scaleContest .icpc) scaleEntry hgraded (by decide +kernel)).1 (.inl rfl) (by decide)).2.2
    ⟨passesCase, List.mem_singleton.mpr rfl, rfl, rfl⟩

/-- The IOI format gives it five hundred points of a hundred. -/
theorem over_scale : ¬ ∀ (c : ContestRow) (p : ContestParticipation) (problem : ℕ) (cell : Cell),
    (∀ s ∈ p.submissions, s.Graded c) → (updateParticipation (p.scored c) c.formatConfig c.format
      c.pointsPrecision).formatData.lookup problem = some cell → 0 ≤ (c.problems problem).points →
        cell.value ≤ (c.problems problem).points := by
  intro h
  have hgraded : ∀ s ∈ scaleEntry.submissions, s.Graded (scaleContest .ioi16) := by
    intro s hs
    rw [List.mem_singleton.mp hs]
    exact passesCase_graded .ioi16
  have hle := h (scaleContest .ioi16) scaleEntry 1 { points := some 500, time := some 0 } hgraded (by decide +kernel)
    (by decide)
  norm_num [Cell.value, scaleContest] at hle

end Contest
end CpcJudge
