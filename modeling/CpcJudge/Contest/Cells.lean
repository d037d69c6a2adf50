import CpcJudge.Contest.Totals

/-!
# `Contest.Cells` — the submission that leads, and the cell of its problem

A query gives each problem one row, so a loop that writes the cell of every row leaves a dictionary with just these
cells. The rows of the ICPC and AtCoder formats are those of the submissions that lead: nobody did better on the problem,
and nobody as well before.
-/

namespace CpcJudge
namespace Contest

/-- None to its problem has more points, and none with as many was sent earlier. -/
def Leads (submissions : List ContestSubmission) (s : ContestSubmission) : Prop :=
  s ∈ submissions ∧ ∀ t ∈ submissions, t.problem = s.problem →
    t.points ≤ s.points ∧ (t.points = s.points → s.date ≤ t.date)

instance (submissions : List ContestSubmission) (s : ContestSubmission) : Decidable (Leads submissions s) :=
  inferInstanceAs (Decidable (s ∈ submissions ∧ ∀ t ∈ submissions, t.problem = s.problem →
    t.points ≤ s.points ∧ (t.points = s.points → s.date ≤ t.date)))

/-! ## The rows -/

section
variable {α : Type} [LinearOrder α] [Zero α] {group : List α} {x : α}

theorem maximum_spec (h : group ≠ []) : maximum group ∈ group ∧ ∀ x ∈ group, x ≤ maximum group := by
  obtain ⟨m, hm⟩ := Option.ne_none_iff_exists'.mp (mt List.max?_eq_none_iff.mp h)
  rw [maximum, hm, Option.getD_some]
  exact List.max?_eq_some_iff.mp hm

theorem minimum_spec (h : group ≠ []) : minimum group ∈ group ∧ ∀ x ∈ group, minimum group ≤ x := by
  obtain ⟨m, hm⟩ := Option.ne_none_iff_exists'.mp (mt List.min?_eq_none_iff.mp h)
  rw [minimum, hm, Option.getD_some]
  exact List.min?_eq_some_iff.mp hm

theorem maximum_eq (hx : x ∈ group) (hle : ∀ y ∈ group, y ≤ x) : maximum group = x := by
  obtain ⟨hmem, hmax⟩ := maximum_spec (List.ne_nil_of_mem hx)
  exact le_antisymm (hle _ hmem) (hmax x hx)

theorem minimum_eq (hx : x ∈ group) (hle : ∀ y ∈ group, x ≤ y) : minimum group = x := by
  obtain ⟨hmem, hmin⟩ := minimum_spec (List.ne_nil_of_mem hx)
  exact le_antisymm (hmin x hx) (hle _ hmem)

end

section
variable {submissions : List ContestSubmission} {s t : ContestSubmission} {problem : ℕ} {row : ProblemRow}

theorem mem_groupOf : s ∈ groupOf submissions problem ↔ s ∈ submissions ∧ s.problem = problem := by
  simp [groupOf]

theorem mem_problemsOf : problem ∈ problemsOf submissions ↔ ∃ s ∈ submissions, s.problem = problem := by
  simp [problemsOf]

/-- The row of a problem is that of any submission that leads it. -/
theorem Leads.mem_bestRows (h : Leads submissions s) :
    (⟨s.problem, s.date, s.points⟩ : ProblemRow) ∈ bestRows submissions := by
  refine List.mem_map.mpr ⟨s.problem, mem_problemsOf.mpr ⟨s, h.1, rfl⟩, ?_⟩
  have hs : s ∈ groupOf submissions s.problem := mem_groupOf.mpr ⟨h.1, rfl⟩
  have hpoints : maximum ((groupOf submissions s.problem).map (·.points)) = s.points := by
    refine maximum_eq (List.mem_map_of_mem hs) fun y hy => ?_
    obtain ⟨t, ht, rfl⟩ := List.mem_map.mp hy
    obtain ⟨ht, hproblem⟩ := mem_groupOf.mp ht
    exact (h.2 t ht hproblem).1
  simp only [hpoints, ProblemRow.mk.injEq, true_and, and_true]
  refine minimum_eq (List.mem_map_of_mem (List.mem_filter.mpr ⟨hs, by simp⟩)) fun y hy => ?_
  obtain ⟨t, ht, rfl⟩ := List.mem_map.mp hy
  obtain ⟨ht, heq⟩ := List.mem_filter.mp ht
  obtain ⟨ht, hproblem⟩ := mem_groupOf.mp ht
  exact (h.2 t ht hproblem).2 (of_decide_eq_true heq)

/-- Every problem somebody submitted to has a submission that leads it. -/
theorem exists_leads (hs : s ∈ submissions) : ∃ t, Leads submissions t ∧ t.problem = s.problem := by
  let group := groupOf submissions s.problem
  have hgroup : group.map (·.points) ≠ [] := by
    rw [Ne, List.map_eq_nil_iff]
    exact List.ne_nil_of_mem (mem_groupOf.mpr ⟨hs, rfl⟩)
  obtain ⟨hmem, hmax⟩ := maximum_spec hgroup
  obtain ⟨u, hu, hpoints⟩ := List.mem_map.mp hmem
  let reached := group.filter (·.points = u.points)
  have hreached : reached.map (·.date) ≠ [] := by
    rw [Ne, List.map_eq_nil_iff]
    exact List.ne_nil_of_mem (List.mem_filter.mpr ⟨hu, by simp⟩)
  obtain ⟨hmem, hmin⟩ := minimum_spec hreached
  obtain ⟨t, ht, hdate⟩ := List.mem_map.mp hmem
  obtain ⟨ht, heq⟩ := List.mem_filter.mp ht
  obtain ⟨htin, hproblem⟩ := mem_groupOf.mp ht
  have heq : t.points = u.points := of_decide_eq_true heq
  refine ⟨t, ⟨htin, fun v hv hvt => ?_⟩, hproblem⟩
  have hvgroup : v ∈ group := mem_groupOf.mpr ⟨hv, hvt.trans hproblem⟩
  constructor
  · rw [heq, hpoints]
    exact hmax _ (List.mem_map_of_mem hvgroup)
  · intro hsame
    rw [hdate]
    exact hmin _ (List.mem_map_of_mem (List.mem_filter.mpr ⟨hvgroup, by simp [hsame, heq]⟩))

theorem mem_bestRows : row ∈ bestRows submissions ↔ ∃ s, Leads submissions s ∧ row = ⟨s.problem, s.date, s.points⟩ := by
  constructor
  · intro hrow
    obtain ⟨problem, hproblem, heq⟩ := List.mem_map.mp hrow
    obtain ⟨s, hs, hsp⟩ := mem_problemsOf.mp hproblem
    obtain ⟨t, ht, htp⟩ := exists_leads hs
    -- each problem has one row
    refine ⟨t, ht, List.inj_on_of_nodup_map bestRows_distinct hrow ht.mem_bestRows ?_⟩
    rw [← heq]
    exact (htp.trans hsp).symm
  · rintro ⟨s, hs, rfl⟩
    exact hs.mem_bestRows

end

/-! ## The cells -/

section
variable {rows : List ProblemRow} {cell : ProblemRow → Cell}

/-- Writing the cells of rows of different problems writes just these. -/
theorem foldl_setCell (hdistinct : (rows.map (·.problem)).Nodup) {data : FormatData}
    (hfresh : ∀ row ∈ rows, row.problem ∉ data.map (·.1)) :
    rows.foldl (fun data row => data.setCell row.problem (cell row)) data =
      data ++ rows.map fun row => (row.problem, cell row) := by
  induction rows generalizing data with
  | nil => simp
  | cons row rows ih =>
      obtain ⟨hrow, hrows⟩ := List.nodup_cons.mp hdistinct
      rw [List.foldl_cons, FormatData.setCell_of_notMem (hfresh row (by simp)), ih hrows, List.map_cons]
      · simp
      · intro other hother hin
        rw [List.map_append, List.mem_append] at hin
        rcases hin with hin | hin
        · exact hfresh other (by simp [hother]) hin
        · have heq : other.problem = row.problem := by simpa using hin
          have hmem : other.problem ∈ rows.map (·.problem) := List.mem_map_of_mem hother
          rw [heq] at hmem
          exact hrow hmem

theorem foldl_setCell_nil (hdistinct : (rows.map (·.problem)).Nodup) :
    rows.foldl (fun (data : FormatData) row => data.setCell row.problem (cell row)) [] =
      rows.map fun row => (row.problem, cell row) :=
  (foldl_setCell hdistinct (by simp)).trans (List.nil_append _)

/-- A loop that writes a cell each turn. -/
theorem foldl_formatData (hdistinct : (rows.map (·.problem)).Nodup) {step : Loop → ProblemRow → Loop}
    (h : ∀ l row, (step l row).formatData = l.formatData.setCell row.problem (cell row)) :
    (rows.foldl step {}).formatData = rows.map fun row => (row.problem, cell row) := by
  have hloop : ∀ (rows : List ProblemRow) (l : Loop), (rows.foldl step l).formatData =
      rows.foldl (fun (data : FormatData) row => data.setCell row.problem (cell row)) l.formatData := by
    intro rows
    induction rows with
    | nil => intro l; rfl
    | cons row rows ih => intro l; rw [List.foldl_cons, List.foldl_cons, ih, h]
  exact (hloop rows {}).trans (foldl_setCell_nil hdistinct)

end

/-- The cell ICPC and AtCoder write. -/
def penaltyCell (p : Participation) (config : FormatConfig) (row : ProblemRow) : Cell :=
  { time := some (elapsed p row.time), points := some row.points, penalty := some (attemptsBefore p config row) }

section
variable {p : Participation} {config : FormatConfig} {precision : ℕ}

theorem updateIcpc_cells : (updateIcpc p config precision).formatData =
    (bestRows p.submissions).map fun row => (row.problem, penaltyCell p config row) :=
  foldl_formatData bestRows_distinct fun _ _ => rfl

theorem updateAtcoder_cells : (updateAtcoder p config precision).formatData =
    (bestRows p.submissions).map fun row => (row.problem, penaltyCell p config row) :=
  foldl_formatData bestRows_distinct fun _ _ => rfl

end

end Contest
end CpcJudge
