import CpcJudge.Contest.Formats

/-!
# `Contest.Totals` — adding the stored cells up again

`format_totals` computes the totals of a participation a second time, from the cells its format stored. It
agrees with `update_participation` because each loop keeps this: what it has added up so far is what
`format_totals` makes of the cells written so far. A format that adds up while it writes relies on its query
giving each problem once.

The totals agree as numbers before the participation is saved. The saved `cumtime` is an integer field, so
it only keeps the whole seconds.
-/

namespace CpcJudge
namespace Contest

/-- `_points`. -/
def Cell.value (cell : Cell) : ℚ := cell.points.getD 0

def Cell.seconds (cell : Cell) : ℚ := cell.time.getD 0

/-- The cells that are no empty dictionary, and those of them with points. -/
def FormatData.values (data : FormatData) : List Cell := (data.map (·.2)).filter (· ≠ {})

def FormatData.solved (data : FormatData) : List Cell := data.values.filter (·.value ≠ 0)

def scoreOf (cells : List Cell) : ℚ := (cells.map Cell.value).sum
def timeOf (cells : List Cell) : ℚ := (cells.map Cell.seconds).sum
def lastOf (cells : List Cell) : ℚ := (cells.map Cell.seconds).foldl max 0
def penaltyOf (minutes : ℤ) (cells : List Cell) : ℚ :=
  (cells.map fun cell => ((cell.penalty.getD 0 : ℤ) : ℚ) * minutes * 60).sum

/-- What `format_totals` returns: `(score, cumtime, tiebreaker)`. -/
structure Calculated where
  score : ℚ
  cumtime : ℚ
  tiebreaker : ℚ
  deriving DecidableEq, Repr

/-- `format_totals`. A name that is not in the registry has no format here; there it returns `None`. -/
def formatTotals (format : Format) (config : FormatConfig) (cells : FormatData) : Calculated :=
  match format with
  | .default | .ioi | .ioi16 => ⟨scoreOf cells.values, max (timeOf cells.solved) 0, 0⟩
  | .icpc =>
      ⟨scoreOf cells.values, timeOf cells.solved + penaltyOf (config.penalty.getD 20) cells.solved, lastOf cells.solved⟩
  | .atcoder =>
      ⟨scoreOf cells.values, lastOf cells.solved + penaltyOf (config.penalty.getD 5) cells.solved, 0⟩
  | .ecoo =>
      ⟨(cells.values.map fun cell => cell.value + cell.bonus.getD 0).sum,
        if config.cumtime = some true then timeOf cells.values else 0, 0⟩

/-! ## One more cell -/

variable {data : FormatData} {problem : ℕ} {cell : Cell}

theorem FormatData.setCell_of_notMem (h : problem ∉ data.map (·.1)) :
    data.setCell problem cell = data ++ [(problem, cell)] := by
  rw [FormatData.setCell, if_neg h]

theorem FormatData.values_append (h : cell ≠ {}) :
    FormatData.values (data ++ [(problem, cell)]) = data.values ++ [cell] := by
  simp [FormatData.values, h]

theorem FormatData.solved_append (h : cell ≠ {}) :
    FormatData.solved (data ++ [(problem, cell)]) = data.solved ++ if cell.value ≠ 0 then [cell] else [] := by
  rw [FormatData.solved, FormatData.values_append h, List.filter_append, List.filter_singleton]
  by_cases hv : cell.value = 0 <;> simp [hv, FormatData.solved]

theorem Cell.ne_empty {time : ℚ} (h : cell.time = some time) : cell ≠ {} := by
  intro heq
  rw [heq] at h
  exact absurd h (by simp)

section
variable (hfresh : problem ∉ data.map (·.1)) (hcell : cell ≠ {})
include hfresh hcell

theorem scoreOf_setCell : scoreOf (data.setCell problem cell).values = scoreOf data.values + cell.value := by
  simp [FormatData.setCell_of_notMem hfresh, FormatData.values_append hcell, scoreOf]

theorem timeOf_setCell : timeOf (data.setCell problem cell).solved =
    if cell.value ≠ 0 then timeOf data.solved + cell.seconds else timeOf data.solved := by
  rw [FormatData.setCell_of_notMem hfresh, FormatData.solved_append hcell]
  by_cases h : cell.value = 0 <;> simp [h, timeOf]

theorem lastOf_setCell : lastOf (data.setCell problem cell).solved =
    if cell.value ≠ 0 then max (lastOf data.solved) cell.seconds else lastOf data.solved := by
  rw [FormatData.setCell_of_notMem hfresh, FormatData.solved_append hcell]
  by_cases h : cell.value = 0 <;> simp [h, lastOf]

theorem penaltyOf_setCell {minutes : ℤ} : penaltyOf minutes (data.setCell problem cell).solved =
    if cell.value ≠ 0 then penaltyOf minutes data.solved + ((cell.penalty.getD 0 : ℤ) : ℚ) * minutes * 60
    else penaltyOf minutes data.solved := by
  rw [FormatData.setCell_of_notMem hfresh, FormatData.solved_append hcell]
  by_cases h : cell.value = 0 <;> simp [h, penaltyOf]

end

/-! ## The loops that add up while they write -/

/-- A loop over rows of different problems keeps a property of its variables, if one turn keeps it when it writes a
problem that has no cell yet. -/
theorem foldl_rows {step : Loop → ProblemRow → Loop} {P : Loop → Prop} {rows : List ProblemRow}
    (hkeys : ∀ l row, (step l row).formatData.map (·.1) ⊆ row.problem :: l.formatData.map (·.1))
    (hstep : ∀ l row, P l → row.problem ∉ l.formatData.map (·.1) → P (step l row))
    (hdistinct : (rows.map (·.problem)).Nodup) :
    ∀ l, P l → (∀ row ∈ rows, row.problem ∉ l.formatData.map (·.1)) → P (rows.foldl step l) := by
  induction rows with
  | nil => intro l hl _; exact hl
  | cons row rows ih =>
      intro l hl hfresh
      obtain ⟨hrow, hrows⟩ := List.nodup_cons.mp hdistinct
      apply ih hrows (step l row) (hstep l row hl (hfresh row (by simp)))
      intro other hother hin
      rcases List.mem_cons.mp (hkeys l row hin) with heq | hin
      · have hin' : other.problem ∈ rows.map (·.problem) := List.mem_map_of_mem hother
        rw [heq] at hin'
        exact hrow hin'
      · exact hfresh other (by simp [hother]) hin

theorem FormatData.setCell_keys : (data.setCell problem cell).map (·.1) ⊆ problem :: data.map (·.1) := by
  intro k hk
  rw [FormatData.setCell] at hk
  split at hk
  · rename_i hin
    obtain ⟨item, hitem, rfl⟩ := List.mem_map.mp hk
    obtain ⟨old, hold, rfl⟩ := List.mem_map.mp hitem
    by_cases heq : old.1 = problem
    · simp [heq]
    · have hin : old.1 ∈ data.map (·.1) := List.mem_map_of_mem hold
      simp only [heq, if_false]
      exact List.mem_cons_of_mem _ hin
  · simp only [List.map_append, List.mem_append, List.map_cons, List.map_nil, List.mem_singleton] at hk
    rcases hk with hk | rfl
    · exact List.mem_cons_of_mem _ hk
    · exact List.mem_cons_self

theorem lastRows_distinct {submissions : List ContestSubmission} : ((lastRows submissions).map (·.problem)).Nodup := by
  simpa [lastRows, Function.comp_def] using problemsOf_nodup

theorem bestRows_distinct {submissions : List ContestSubmission} : ((bestRows submissions).map (·.problem)).Nodup := by
  simpa [bestRows, Function.comp_def] using problemsOf_nodup

variable {p : Participation} {config : FormatConfig}

/-- The default loop has added up what its cells say. -/
theorem default_loop (p : Participation) :
    let l := (lastRows p.submissions).foldl (defaultStep p) {}
    scoreOf l.formatData.values = l.score ∧ timeOf l.formatData.solved = l.cumtime := by
  refine foldl_rows (P := fun l => scoreOf l.formatData.values = l.score ∧ timeOf l.formatData.solved = l.cumtime)
    (fun _ _ => ?_) ?_ lastRows_distinct {} ⟨rfl, rfl⟩ (by simp)
  · exact FormatData.setCell_keys
  rintro l row ⟨hscore, htime⟩ hfresh
  constructor
  · simp only [defaultStep]
    rw [scoreOf_setCell hfresh (Cell.ne_empty rfl), hscore]
    rfl
  · simp only [defaultStep]
    rw [timeOf_setCell hfresh (Cell.ne_empty rfl), htime]
    rfl

/-- The legacy IOI loop too: without `cumtime` its cells hold a time of zero. -/
theorem ioi_loop (p : Participation) (config : FormatConfig) :
    let l := (bestRows p.submissions).foldl (ioiStep p config) {}
    scoreOf l.formatData.values = l.score ∧ timeOf l.formatData.solved = l.cumtime := by
  refine foldl_rows (P := fun l => scoreOf l.formatData.values = l.score ∧ timeOf l.formatData.solved = l.cumtime)
    (fun _ _ => ?_) ?_ bestRows_distinct {} ⟨rfl, rfl⟩ (by simp)
  · exact FormatData.setCell_keys
  rintro l row ⟨hscore, htime⟩ hfresh
  constructor
  · simp only [ioiStep]
    rw [scoreOf_setCell hfresh (Cell.ne_empty rfl), hscore]
    rfl
  · simp only [ioiStep]
    rw [timeOf_setCell hfresh (Cell.ne_empty rfl), htime]
    by_cases hcumtime : config.cumtime = some true <;> simp [Cell.value, Cell.seconds, hcumtime]

/-- The penalty of a row is what its cell will say. -/
theorem addPenalty_eq {penalty : ℚ} {row : ProblemRow} :
    addPenalty p config penalty row =
      if row.points ≠ 0 then penalty + (attemptsBefore p config row : ℚ) * config.penalty.getD 0 * 60 else penalty := by
  by_cases hconfig : config.penalty.getD 0 = 0
  · simp [addPenalty, hconfig]
  · simp [addPenalty, hconfig]

theorem icpc_loop (p : Participation) (config : FormatConfig) :
    let l := (bestRows p.submissions).foldl (icpcStep p config) {}
    scoreOf l.formatData.values = l.score ∧ timeOf l.formatData.solved = l.cumtime ∧
      lastOf l.formatData.solved = l.last ∧ penaltyOf (config.penalty.getD 0) l.formatData.solved = l.penalty := by
  refine foldl_rows (P := fun l => scoreOf l.formatData.values = l.score ∧ timeOf l.formatData.solved = l.cumtime ∧
      lastOf l.formatData.solved = l.last ∧ penaltyOf (config.penalty.getD 0) l.formatData.solved = l.penalty)
    (fun _ _ => ?_) ?_ bestRows_distinct {} ⟨rfl, rfl, rfl, rfl⟩ (by simp)
  · exact FormatData.setCell_keys
  rintro l row ⟨hscore, htime, hlast, hpenalty⟩ hfresh
  refine ⟨?_, ?_, ?_, ?_⟩
  · simp only [icpcStep]
    rw [scoreOf_setCell hfresh (Cell.ne_empty rfl), hscore]
    rfl
  · simp only [icpcStep]
    rw [timeOf_setCell hfresh (Cell.ne_empty rfl), htime]
    rfl
  · simp only [icpcStep]
    rw [lastOf_setCell hfresh (Cell.ne_empty rfl), hlast]
    rfl
  · simp only [icpcStep]
    rw [penaltyOf_setCell hfresh (Cell.ne_empty rfl), hpenalty, addPenalty_eq]
    rfl

/-- AtCoder counts the last time instead of the sum. -/
theorem atcoder_loop (p : Participation) (config : FormatConfig) :
    let l := (bestRows p.submissions).foldl (atcoderStep p config) {}
    scoreOf l.formatData.values = l.score ∧ lastOf l.formatData.solved = l.cumtime ∧
      penaltyOf (config.penalty.getD 0) l.formatData.solved = l.penalty := by
  refine foldl_rows (P := fun l => scoreOf l.formatData.values = l.score ∧ lastOf l.formatData.solved = l.cumtime ∧
      penaltyOf (config.penalty.getD 0) l.formatData.solved = l.penalty)
    (fun _ _ => ?_) ?_ bestRows_distinct {} ⟨rfl, rfl, rfl⟩ (by simp)
  · exact FormatData.setCell_keys
  rintro l row ⟨hscore, hlast, hpenalty⟩ hfresh
  refine ⟨?_, ?_, ?_⟩
  · simp only [atcoderStep]
    rw [scoreOf_setCell hfresh (Cell.ne_empty rfl), hscore]
    rfl
  · simp only [atcoderStep]
    rw [lastOf_setCell hfresh (Cell.ne_empty rfl), hlast]
    rfl
  · simp only [atcoderStep]
    rw [penaltyOf_setCell hfresh (Cell.ne_empty rfl), hpenalty, addPenalty_eq]
    rfl

/-! ## The loops that add up what is written -/

theorem FormatData.forall_setCell {P : Cell → Prop} (h : ∀ item ∈ data, P item.2) (hcell : P cell) :
    ∀ item ∈ data.setCell problem cell, P item.2 := by
  intro item hitem
  rw [FormatData.setCell] at hitem
  split at hitem
  · obtain ⟨old, hold, rfl⟩ := List.mem_map.mp hitem
    by_cases heq : old.1 = problem
    · simpa [heq] using hcell
    · simpa [heq] using h old hold
  · rcases List.mem_append.mp hitem with hitem | hitem
    · exact h item hitem
    · rw [List.mem_singleton.mp hitem]
      exact hcell

/-- A cell written with its time is no empty dictionary. -/
theorem FormatData.values_of_timed (h : ∀ item ∈ data, item.2.time ≠ none) : data.values = data.map (·.2) := by
  rw [FormatData.values, List.filter_eq_self]
  intro cell hcell
  obtain ⟨item, hitem, rfl⟩ := List.mem_map.mp hcell
  have htime := h item hitem
  rw [decide_eq_true_eq]
  intro heq
  rw [heq] at htime
  exact htime rfl

/-- What the IOI loop writes: every cell has a time, which is zero without `cumtime`. -/
theorem batch_cells (p : Participation) (config : FormatConfig) (rows : List ProblemRow) :
    ∀ item ∈ rows.foldl (batchStep p config) [],
      item.2.time ≠ none ∧ (config.cumtime ≠ some true → item.2.seconds = 0) := by
  refine List.foldlRecOn (motive := fun data : FormatData =>
    ∀ item ∈ data, item.2.time ≠ none ∧ (config.cumtime ≠ some true → item.2.seconds = 0)) _ _ ?_ ?_
  · intro item hitem
    exact absurd hitem List.not_mem_nil
  · intro data hdata row _
    apply FormatData.forall_setCell (P := fun cell =>
      cell.time ≠ none ∧ (config.cumtime ≠ some true → cell.seconds = 0)) hdata
    refine ⟨by simp, fun hcumtime => ?_⟩
    cases hlookup : data.lookup row.problem with
    | none => simp [Cell.seconds, hcumtime]
    | some cell =>
        obtain ⟨before, after, hdata', _⟩ := List.lookup_eq_some_iff.mp hlookup
        have hzero := (hdata (row.problem, cell) (by simp [hdata'])).2 hcumtime
        simp only [Cell.seconds] at hzero
        simp [Cell.seconds, hcumtime, hzero]

theorem ioi16_foldl (config : FormatConfig) : ∀ (cells : List Cell) (l : Loop),
    (cells.foldl (ioi16Step config) l).score = l.score + scoreOf cells ∧
      (cells.foldl (ioi16Step config) l).cumtime =
        l.cumtime + if config.cumtime = some true then timeOf (cells.filter (·.value ≠ 0)) else 0 := by
  intro cells
  induction cells with
  | nil => intro l; simp [scoreOf, timeOf]
  | cons cell cells ih =>
      intro l
      obtain ⟨hscore, htime⟩ := ih (ioi16Step config l cell)
      rw [List.foldl_cons, hscore, htime]
      constructor
      · simp [ioi16Step, scoreOf, Cell.value, add_assoc]
      · by_cases hcumtime : config.cumtime = some true <;> by_cases hvalue : cell.value = 0 <;>
          simp_all [ioi16Step, timeOf, Cell.value, Cell.seconds, add_assoc]

theorem ecoo_foldl (config : FormatConfig) : ∀ (cells : List Cell) (l : Loop),
    (cells.foldl (ecooStep config) l).score = l.score + (cells.map fun cell => cell.value + cell.bonus.getD 0).sum ∧
      (cells.foldl (ecooStep config) l).cumtime =
        l.cumtime + if config.cumtime = some true then timeOf cells else 0 := by
  intro cells
  induction cells with
  | nil => intro l; simp [timeOf]
  | cons cell cells ih =>
      intro l
      obtain ⟨hscore, htime⟩ := ih (ecooStep config l cell)
      rw [List.foldl_cons, hscore, htime]
      constructor
      · simp [ecooStep, Cell.value, add_assoc]
      · by_cases hcumtime : config.cumtime = some true <;> simp [ecooStep, timeOf, Cell.seconds, hcumtime, add_assoc]

/-! ## Both computations -/

/-- The totals `format_totals` makes of the cells are those `update_participation` made of the submissions. -/
def Calculated.Matches (t : Calculated) (precision : ℕ) (r : Results) : Prop :=
  roundDigits precision t.score = r.score ∧ t.cumtime = r.cumtime ∧ t.tiebreaker = r.tiebreaker

variable {precision : ℕ}

theorem default_matches :
    (formatTotals .default config (updateDefault p precision).formatData).Matches precision (updateDefault p precision) := by
  obtain ⟨hscore, htime⟩ := default_loop p
  simp [Calculated.Matches, formatTotals, updateDefault, hscore, htime]

theorem ioi_matches :
    (formatTotals .ioi config (updateIoi p config precision).formatData).Matches precision
      (updateIoi p config precision) := by
  obtain ⟨hscore, htime⟩ := ioi_loop p config
  simp [Calculated.Matches, formatTotals, updateIoi, hscore, htime]

theorem ioi16_matches :
    (formatTotals .ioi16 config (updateIoi16 p config precision).formatData).Matches precision
      (updateIoi16 p config precision) := by
  have hcells := batch_cells p config (batchRows p.submissions)
  have hvalues := FormatData.values_of_timed fun item hitem => (hcells item hitem).1
  simp only [Calculated.Matches, formatTotals, updateIoi16, FormatData.solved, hvalues]
  obtain ⟨hscore, htime⟩ := ioi16_foldl config
    (((batchRows p.submissions).foldl (batchStep p config) []).map (·.2)) {}
  refine ⟨by rw [hscore, zero_add], ?_, trivial⟩
  rw [htime, zero_add]
  by_cases hcumtime : config.cumtime = some true
  · rw [if_pos hcumtime]
  · -- the times of the cells are all zero
    rw [if_neg hcumtime]
    congr 1
    apply List.sum_eq_zero
    intro x hx
    obtain ⟨cell, hcell, rfl⟩ := List.mem_map.mp hx
    obtain ⟨item, hitem, rfl⟩ := List.mem_map.mp (List.mem_filter.mp hcell).1
    exact (hcells item hitem).2 hcumtime

theorem icpc_matches {minutes : ℤ} (h : config.penalty = some minutes) :
    (formatTotals .icpc config (updateIcpc p config precision).formatData).Matches precision
      (updateIcpc p config precision) := by
  obtain ⟨hscore, htime, hlast, hpenalty⟩ := icpc_loop p config
  rw [h, Option.getD_some] at hpenalty
  simp [Calculated.Matches, formatTotals, updateIcpc, h, hscore, htime, hlast, hpenalty]

theorem atcoder_matches {minutes : ℤ} (h : config.penalty = some minutes) :
    (formatTotals .atcoder config (updateAtcoder p config precision).formatData).Matches precision
      (updateAtcoder p config precision) := by
  obtain ⟨hscore, hlast, hpenalty⟩ := atcoder_loop p config
  rw [h, Option.getD_some] at hpenalty
  simp [Calculated.Matches, formatTotals, updateAtcoder, h, hscore, hlast, hpenalty]

theorem ecoo_matches :
    (formatTotals .ecoo config (updateEcoo p config precision).formatData).Matches precision
      (updateEcoo p config precision) := by
  have hcells : ∀ item ∈ (updateEcoo p config precision).formatData, item.2.time ≠ none := by
    refine List.foldlRecOn (motive := fun data : FormatData => ∀ item ∈ data, item.2.time ≠ none) _ _ ?_ ?_
    · intro item hitem
      exact absurd hitem List.not_mem_nil
    · intro data hdata row _
      apply FormatData.forall_setCell (P := fun cell => cell.time ≠ none) hdata
      simp [ecooCell]
  have hvalues := FormatData.values_of_timed hcells
  simp only [Calculated.Matches, formatTotals, hvalues]
  obtain ⟨hscore, htime⟩ := ecoo_foldl config ((updateEcoo p config precision).formatData.map (·.2)) {}
  refine ⟨?_, ?_, rfl⟩
  · rw [← zero_add (List.sum _), ← hscore]
    rfl
  · rw [← zero_add (ite _ _ _), ← htime]
    rfl

/-- The totals agree as numbers, for every format and configuration; what the participation keeps of the cumulative
time is its whole seconds. -/
theorem totals_agree (format : Format) (config : FormatConfig) (precision : ℕ) (p : Participation) :
    let r := updateParticipation p config format precision
    let t := formatTotals format (format.config config) r.formatData
    roundDigits precision t.score = r.save.score ∧ t.cumtime = r.cumtime ∧
      Decimal.truncate t.cumtime = r.save.cumtime ∧ t.tiebreaker = r.save.tiebreaker := by
  have hmatches : (formatTotals format (format.config config) (updateParticipation p config format precision).formatData).Matches
      precision (updateParticipation p config format precision) := by
    cases format with
    | default => exact default_matches
    | ioi => exact ioi_matches
    | ioi16 => exact ioi16_matches
    | icpc =>
        obtain ⟨minutes, hminutes⟩ : ∃ minutes, (Format.icpc.config config).penalty = some minutes := by
          cases h : config.penalty <;> simp [Format.config, h]
        exact icpc_matches hminutes
    | atcoder =>
        obtain ⟨minutes, hminutes⟩ : ∃ minutes, (Format.atcoder.config config).penalty = some minutes := by
          cases h : config.penalty <;> simp [Format.config, h]
        exact atcoder_matches hminutes
    | ecoo => exact ecoo_matches
  obtain ⟨hscore, hcumtime, htiebreaker⟩ := hmatches
  refine ⟨hscore, hcumtime, ?_, htiebreaker⟩
  rw [hcumtime]
  rfl

/-- One submission, a second and a half after the start. -/
def halfSecond : Participation where
  start := 0
  endTime := 3600000000
  problems _ := { points := 100 }
  submissions :=
    [{ submission := 1, problem := 1, points := 100, date := 1500000, status := .D, result := some .AC, testCases := [] }]

/-- The participation keeps one second of it, and `format_totals` says one and a half. -/
theorem half_second :
    let saved := (updateParticipation halfSecond {} .default 3).save
    saved.cumtime = 1 ∧ (formatTotals .default {} saved.formatData).cumtime ≠ saved.cumtime := by
  decide +kernel

end Contest
end CpcJudge
