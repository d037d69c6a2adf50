import CpcJudge.Problems.Init

/-!
# What the judge is told about a table of rows

The loop of `make_init` either finds a defect of the table, or lays its rows out: every case once and in order, alone
or in the batch whose start is open where the case stands. The loop is followed row by row, with the rows each entry
comes from beside the entry.
-/

namespace CpcJudge.Problems
open Txn

/-- A row with its number, from one. -/
abbrev Numbered := ProblemTestCase × ℕ

def numbered (rows : List ProblemTestCase) : List Numbered := rows.zipIdx 1

/-- The batch that is open after some rows: the last of them that is not a case, if it starts one. -/
def opened (before : List ProblemTestCase) : Option Numbered :=
  ((numbered before).filter (·.1.type ≠ .case)).getLast?.filter (·.1.type = .batchStart)

/-- The batch that is open where a row stands. -/
def openerOf (rows : List ProblemTestCase) (n : Numbered) : Option Numbered := opened (rows.take (n.2 - 1))

/-- How many batches start in some rows. -/
def starts (rows : List ProblemTestCase) : ℕ := rows.countP (·.type = .batchStart)

/-- The number of the batch that a row starts, in the order of the rows. -/
def batchNumber (rows : List ProblemTestCase) (n : Numbered) : ℕ := starts (rows.take (n.2 - 1)) + 1

variable {J : Type}

/-! ## Malformed tables -/

/-- What can be wrong with a table, at a row or in a batch. -/
inductive Defect (c : Compiler J) (rows : List ProblemTestCase) : ProblemDataError → Prop where
  | noPoints {n : Numbered} : n ∈ numbered rows → n.1.type = .case → openerOf rows n = none → n.1.points = none →
      Defect c rows (.noPoints n.2)
  | noInput {n : Numbered} : n ∈ numbered rows → n.1.type = .case → c.data.generator = [] → n.1.inputFile ∉ c.files →
      Defect c rows (.noInput n.2 n.1.inputFile)
  | noOutput {n : Numbered} : n ∈ numbered rows → n.1.type = .case → c.data.generator = [] → n.1.outputFile ∉ c.files →
      Defect c rows (.noOutput n.2 n.1.outputFile)
  | emptyBatch {s : Numbered} : s ∈ numbered rows → s.1.type = .batchStart →
      (∀ n ∈ numbered rows, n.1.type = .case → openerOf rows n ≠ some s) → Defect c rows .emptyBatch
  | noBatchPoints {n : Numbered} : n ∈ numbered rows → n.1.type = .batchStart → n.1.points = none →
      Defect c rows (.noBatchPoints n.2)
  | notIntegers {n : Numbered} : n ∈ numbered rows → n.1.type = .batchStart → Compiler.dependenciesOf n.1 = none →
      Defect c rows (.notIntegers n.2)
  | notPrevious {n : Numbered} {numbers : List ℤ} {number : ℤ} : n ∈ numbered rows → n.1.type = .batchStart →
      Compiler.dependenciesOf n.1 = some numbers → number ∈ numbers → batchNumber rows n ≤ number →
      Defect c rows (.notPrevious n.2)
  | notPositive {n : Numbered} {numbers : List ℤ} {number : ℤ} : n ∈ numbered rows → n.1.type = .batchStart →
      Compiler.dependenciesOf n.1 = some numbers → number ∈ numbers → number < 1 → Defect c rows (.notPositive n.2)
  | endOutside {n : Numbered} : n ∈ numbered rows → n.1.type = .batchEnd → openerOf rows n = none →
      Defect c rows (.endOutside n.2)

/-! ## The layout -/

/-- The rows an entry comes from. -/
inductive Placed where
  | single (row : Numbered)
  | batch (start : Numbered) (cases : List Numbered)

namespace Placed

def cases : Placed → List Numbered
  | single row => [row]
  | batch _ cases => cases

def start? : Placed → Option Numbered
  | single _ => none
  | batch start _ => some start

/-- Whether the entry is one of the pretests, as the row says that it starts with. -/
def isPretest : Placed → Bool
  | single row => row.1.isPretest
  | batch start _ => start.1.isPretest

end Placed

namespace Compiler
variable (c : Compiler J)

/-- What the judge is told of a row besides its files and points. -/
def options (row : ProblemTestCase) : Options J where
  generatorArgs := if row.generatorArgs.isEmpty then none else some row.generatorArgs.splitlines
  outputLimitLength := row.outputLimit
  outputPrefixLength := row.outputPrefix
  checker := if row.checker.isEmpty then none else c.makeChecker row.checker row.checkerArgs

/-- A case on its own, or in a batch, which has the points. -/
def caseData (inBatch : Bool) (row : ProblemTestCase) : CaseData J where
  input := present row.inputFile
  output := present row.outputFile
  points := if inBatch then none else row.points
  options := c.options row

def batchData (start : ProblemTestCase) (cases : List Numbered) : BatchData J where
  points := start.points.getD 0
  batched := cases.map fun n => c.caseData true n.1
  dependencies := (dependenciesOf start).getD []
  options := c.options start

def entry : Placed → Entry J
  | .single row => .case (c.caseData false row.1)
  | .batch start cases => .batch (c.batchData start.1 cases)

def item (p : Placed) : Item J := ⟨p.isPretest, c.entry p⟩

end Compiler

/-- The layout of a table: its cases in order, each where it belongs. -/
structure Layout (rows : List ProblemTestCase) (placed : List Placed) : Prop where
  cases : placed.flatMap Placed.cases = (numbered rows).filter (·.1.type = .case)
  starts : placed.filterMap Placed.start? = (numbered rows).filter (·.1.type = .batchStart)
  single : ∀ n, .single n ∈ placed → openerOf rows n = none
  inside : ∀ s cases, .batch s cases ∈ placed → cases ≠ [] ∧ ∀ n ∈ cases, openerOf rows n = some s
  dependencies : ∀ s ∈ numbered rows, s.1.type = .batchStart → ∃ numbers, Compiler.dependenciesOf s.1 = some numbers ∧
    ∀ number ∈ numbers, 0 < number ∧ number < batchNumber rows s

variable {c : Compiler J} {rows before after : List ProblemTestCase} {row : ProblemTestCase} {n s : Numbered}

/-! ## Rows with their numbers -/

@[simp] theorem numbered_concat : numbered (before ++ [row]) = numbered before ++ [(row, before.length + 1)] := by
  rw [numbered, List.zipIdx_append, Nat.add_comm]
  rfl

theorem mem_numbered_le (h : n ∈ numbered rows) : 1 ≤ n.2 ∧ n.2 ≤ rows.length := by
  have hlt := List.snd_lt_of_mem_zipIdx h
  have hle := List.le_snd_of_mem_zipIdx h
  omega

/-- Where a row stands. -/
theorem mem_numbered_iff :
    n ∈ numbered rows ↔ ∃ before after, rows = before ++ n.1 :: after ∧ n.2 = before.length + 1 := by
  constructor
  · intro h
    obtain ⟨hone, hle⟩ := mem_numbered_le h
    refine ⟨rows.take (n.2 - 1), rows.drop n.2, ?_, by rw [List.length_take]; omega⟩
    conv_lhs => rw [← List.take_append_drop (n.2 - 1) rows]
    rw [List.drop_eq_getElem_cons (by omega), ← List.fst_eq_of_mem_zipIdx h, Nat.sub_add_cancel hone]
  · rintro ⟨before, after, rfl, hnumber⟩
    rw [numbered, List.zipIdx_append, List.zipIdx_cons]
    refine List.mem_append_right _ (List.mem_cons.mpr (.inl ?_))
    rw [Nat.add_comm 1, ← hnumber]

theorem take_before (h : n.2 = before.length + 1) : (before ++ after).take (n.2 - 1) = before := by
  rw [h, Nat.add_sub_cancel, List.take_left']
  rfl

theorem mem_numbered_of_eq (h : rows = before ++ row :: after) : (row, before.length + 1) ∈ numbered rows :=
  mem_numbered_iff.mpr ⟨before, after, h, rfl⟩

theorem mem_numbered_append (h : n ∈ numbered before) (after : List ProblemTestCase) : n ∈ numbered (before ++ after) := by
  rw [numbered, List.zipIdx_append]
  exact List.mem_append_left _ h

/-! ## The batch that is open -/

theorem opened_case (h : row.type = .case) : opened (before ++ [row]) = opened before := by
  simp [opened, h]

theorem opened_start (h : row.type = .batchStart) : opened (before ++ [row]) = some (row, before.length + 1) := by
  simp [opened, h]

theorem opened_end (h : row.type = .batchEnd) : opened (before ++ [row]) = none := by
  simp [opened, h]

/-- The batch that is open started, and only cases came after its start. -/
theorem opened_eq_some (h : opened rows = some s) :
    s ∈ numbered rows ∧ s.1.type = .batchStart ∧ ∀ n ∈ numbered rows, s.2 < n.2 → n.1.type = .case := by
  induction rows using List.reverseRecOn with
  | nil => cases h
  | append_singleton before row ih =>
      cases htype : row.type with
      | case =>
          rw [opened_case htype] at h
          obtain ⟨hmem, hstart, hcases⟩ := ih h
          refine ⟨mem_numbered_append hmem _, hstart, fun n hn hlt => ?_⟩
          rcases List.mem_append.mp (numbered_concat ▸ hn) with hn | hn
          · exact hcases n hn hlt
          · rw [List.mem_singleton.mp hn]
            exact htype
      | batchStart =>
          rw [opened_start htype] at h
          obtain rfl := Option.some.inj h
          refine ⟨mem_numbered_of_eq (rfl : _ = before ++ row :: []), htype, fun n hn hlt => ?_⟩
          have hle := (mem_numbered_le hn).2
          rw [List.length_append, List.length_singleton] at hle
          omega
      | batchEnd =>
          rw [opened_end htype] at h
          cases h

theorem openerOf_append (h : n.2 ≤ before.length + 1) (after : List ProblemTestCase) :
    openerOf (before ++ after) n = openerOf before n := by
  rw [openerOf, openerOf, List.take_append_of_le_length (by omega)]

theorem openerOf_last (h : n.2 = before.length + 1) : openerOf (before ++ after) n = opened before := by
  rw [openerOf, take_before h]

theorem batchNumber_append (h : n.2 ≤ before.length + 1) (after : List ProblemTestCase) :
    batchNumber (before ++ after) n = batchNumber before n := by
  rw [batchNumber, batchNumber, List.take_append_of_le_length (by omega)]

theorem batchNumber_last (h : n.2 = before.length + 1) : batchNumber (before ++ after) n = starts before + 1 := by
  rw [batchNumber, take_before h]

/-- A batch that the next row does not add to is empty for good. -/
theorem empty_of_next (hrows : rows = before ++ [s.1] ++ after) (hs : s.2 = before.length + 1)
    (hnext : ∀ row ∈ after.head?, row.type ≠ .case) : ∀ n ∈ numbered rows, n.1.type = .case → openerOf rows n ≠ some s := by
  intro n hn hcase hopener
  obtain ⟨hstart, -, hcases⟩ := opened_eq_some hopener
  have hfar := (mem_numbered_le hstart).2
  rw [List.length_take] at hfar
  cases after with
  | nil =>
      have hlast := (mem_numbered_le hn).2
      simp only [hrows, List.length_append, List.length_singleton, List.length_nil] at hlast
      omega
  | cons row after =>
      have hstop := hnext row rfl
      have hrow : rows = (before ++ [s.1]) ++ row :: after := hrows
      by_cases hlt : n.2 = s.2 + 1
      · obtain ⟨pre, post, hsplit, hnumber⟩ := mem_numbered_iff.mp hn
        have hlength : pre.length = (before ++ [s.1]).length := by
          rw [List.length_append, List.length_singleton]
          omega
        have hsame := (List.append_inj (hsplit.symm.trans hrow) hlength).2
        rw [List.cons.injEq] at hsame
        exact hstop (hsame.1 ▸ hcase)
      · -- the next row is among those before `n`
        have hlength : (before ++ [s.1] ++ [row]).length = s.2 + 1 := by simp [hs]
        have htake : rows.take (n.2 - 1) = (before ++ [s.1] ++ [row]) ++ after.take (n.2 - 1 - (s.2 + 1)) := by
          rw [hrow, List.append_cons, List.take_append, hlength, List.take_of_length_le (by omega)]
        have hmem : (row, s.2 + 1) ∈ numbered (rows.take (n.2 - 1)) := by
          rw [htake]
          refine mem_numbered_append ?_ _
          rw [numbered_concat, List.length_append, List.length_singleton, hs]
          exact List.mem_append_right _ (List.mem_singleton_self _)
        exact hstop (hcases _ hmem (Nat.lt_succ_self _))

/-! ## What the loop has read -/

/-- A row the loop found nothing wrong with. -/
structure Checked (c : Compiler J) (rows : List ProblemTestCase) (n : Numbered) : Prop where
  points : n.1.type = .case → openerOf rows n = none → n.1.points ≠ none
  files : n.1.type = .case → c.data.generator = [] → n.1.inputFile ∈ c.files ∧ n.1.outputFile ∈ c.files
  batchPoints : n.1.type = .batchStart → n.1.points ≠ none
  dependencies : n.1.type = .batchStart → ∃ numbers, Compiler.dependenciesOf n.1 = some numbers ∧
    ∀ number ∈ numbers, 0 < number ∧ number < batchNumber rows n
  inside : n.1.type = .batchEnd → openerOf rows n ≠ none

/-- The state of the loop after some rows: the entries of `placed`, and the batch that is `current`. -/
structure Parsed (c : Compiler J) (before : List ProblemTestCase) (loop : Loop J) (placed : List Placed)
    (current : Option (Numbered × List Numbered)) : Prop where
  count : loop.batchCount = starts before
  entries : loop.cases = placed.map c.item
  batch : loop.batch = current.map fun b => ⟨b.1.1.isPretest, c.batchData b.1.1 b.2⟩
  cases : placed.flatMap Placed.cases ++ current.elim [] Prod.snd = (numbered before).filter (·.1.type = .case)
  begun : placed.filterMap Placed.start? ++ (current.map Prod.fst).toList =
    (numbered before).filter (·.1.type = .batchStart)
  isOpen : current.map Prod.fst = opened before
  single : ∀ n, .single n ∈ placed → openerOf before n = none
  inside : ∀ s cases, .batch s cases ∈ placed → cases ≠ [] ∧ ∀ n ∈ cases, openerOf before n = some s
  waiting : ∀ s cases, current = some (s, cases) → (∀ n ∈ cases, openerOf before n = some s) ∧
    (cases = [] → ∃ first, before = first ++ [s.1] ∧ s.2 = first.length + 1)
  checked : ∀ n ∈ numbered before, Checked c before n

theorem Checked.concat (h : Checked c before n) (hn : n ∈ numbered before) : Checked c (before ++ [row]) n := by
  have hle : n.2 ≤ before.length + 1 := Nat.le_succ_of_le (mem_numbered_le hn).2
  have hopener := openerOf_append hle [row]
  have hnumber := batchNumber_append hle [row]
  exact
    { points := hopener ▸ h.points
      files := h.files
      batchPoints := h.batchPoints
      dependencies := hnumber ▸ h.dependencies
      inside := hopener ▸ h.inside }

theorem checked_concat (h : ∀ n ∈ numbered before, Checked c before n)
    (hrow : Checked c (before ++ [row]) (row, before.length + 1)) :
    ∀ n ∈ numbered (before ++ [row]), Checked c (before ++ [row]) n := by
  intro n hn
  rcases List.mem_append.mp (numbered_concat ▸ hn) with hn | hn
  · exact (h n hn).concat hn
  · exact List.mem_singleton.mp hn ▸ hrow

namespace Parsed
variable {loop : Loop J} {placed : List Placed} {current : Option (Numbered × List Numbered)}

/-- Every case the loop has read stands in the rows it has read. -/
theorem mem_numbered (h : Parsed c before loop placed current) {p : Placed} (hp : p ∈ placed) (hn : n ∈ p.cases) :
    n ∈ numbered before := by
  have hmem : n ∈ placed.flatMap Placed.cases ++ current.elim [] Prod.snd :=
    List.mem_append_left _ (List.mem_flatMap.mpr ⟨p, hp, hn⟩)
  exact (List.mem_filter.mp (h.cases ▸ hmem)).1

theorem mem_current (h : Parsed c before loop placed current) {cases : List Numbered} (hcurrent : current = some (s, cases))
    (hn : n ∈ cases) : n ∈ numbered before := by
  have hmem : n ∈ placed.flatMap Placed.cases ++ current.elim [] Prod.snd := by
    rw [hcurrent]
    exact List.mem_append_right _ hn
  exact (List.mem_filter.mp (h.cases ▸ hmem)).1

/-- Where the rows read so far stand does not change with the next. -/
theorem openerOf_concat (hn : n ∈ numbered before) : openerOf (before ++ [row]) n = openerOf before n :=
  openerOf_append (Nat.le_succ_of_le (mem_numbered_le hn).2) [row]

theorem single_concat (h : Parsed c before loop placed current) :
    ∀ n, .single n ∈ placed → openerOf (before ++ [row]) n = none := by
  intro n hn
  rw [openerOf_concat (h.mem_numbered hn (List.mem_singleton_self n))]
  exact h.single n hn

theorem inside_concat (h : Parsed c before loop placed current) :
    ∀ s cases, .batch s cases ∈ placed → cases ≠ [] ∧ ∀ n ∈ cases, openerOf (before ++ [row]) n = some s := by
  intro s cases hp
  refine ⟨(h.inside s cases hp).1, fun n hn => ?_⟩
  rw [openerOf_concat (h.mem_numbered hp hn)]
  exact (h.inside s cases hp).2 n hn

/-- Before the first row. -/
theorem initial : Parsed c [] ⟨[], none, 0⟩ [] none where
  count := rfl
  entries := rfl
  batch := rfl
  cases := rfl
  begun := rfl
  isOpen := rfl
  single := by simp
  inside := by simp
  waiting := by simp
  checked := by simp [numbered]

/-- A case outside every batch. -/
theorem alone (h : Parsed c before loop placed none) (htype : row.type = .case)
    (hchecked : Checked c (before ++ [row]) (row, before.length + 1)) :
    Parsed c (before ++ [row]) { loop with cases := loop.cases ++ [⟨row.isPretest, .case (c.caseData false row)⟩] }
      (placed ++ [.single (row, before.length + 1)]) none where
  count := by simp [h.count, starts, htype]
  entries := by simp [h.entries, Compiler.item, Compiler.entry, Placed.isPretest]
  batch := h.batch
  cases := by
    have hcases := h.cases
    simp only [Option.elim_none, List.append_nil] at hcases
    simp [hcases, htype, Placed.cases]
  begun := by
    have hbegun := h.begun
    simp only [Option.map_none, Option.toList_none, List.append_nil] at hbegun
    simp [hbegun, htype, Placed.start?]
  isOpen := h.isOpen.trans (opened_case htype).symm
  single n hn := by
    rcases List.mem_append.mp hn with hn | hn
    · exact h.single_concat n hn
    · obtain rfl := Placed.single.inj (List.mem_singleton.mp hn)
      exact (openerOf_last rfl).trans h.isOpen.symm
  inside s cases hp := by
    rcases List.mem_append.mp hp with hp | hp
    · exact h.inside_concat s cases hp
    · simp at hp
  waiting := by simp
  checked := checked_concat h.checked hchecked

/-- A case of the batch that is open. -/
theorem joined {cases : List Numbered} (h : Parsed c before loop placed (some (s, cases))) (htype : row.type = .case)
    (hchecked : Checked c (before ++ [row]) (row, before.length + 1)) :
    Parsed c (before ++ [row])
      { loop with batch := some ⟨s.1.isPretest, c.batchData s.1 (cases ++ [(row, before.length + 1)])⟩ } placed
      (some (s, cases ++ [(row, before.length + 1)])) where
  count := by simp [h.count, starts, htype]
  entries := h.entries
  batch := rfl
  cases := by
    have hcases := h.cases
    simp only [Option.elim_some] at hcases
    simp [← hcases, htype]
  begun := by
    have hbegun := h.begun
    simp only [Option.map_some, Option.toList_some] at hbegun
    simp [hbegun, htype]
  isOpen := h.isOpen.trans (opened_case htype).symm
  single := h.single_concat
  inside := h.inside_concat
  waiting s' cases' heq := by
    obtain ⟨rfl, rfl⟩ := Prod.mk.inj (Option.some.inj heq)
    refine ⟨fun n hn => ?_, fun hnil => by simp at hnil⟩
    rcases List.mem_append.mp hn with hn | hn
    · rw [openerOf_concat (h.mem_current rfl hn)]
      exact (h.waiting s cases rfl).1 n hn
    · rw [List.mem_singleton.mp hn]
      exact (openerOf_last rfl).trans h.isOpen.symm
  checked := checked_concat h.checked hchecked

end Parsed

/-- The state of the loop with no batch to add to: what `end_batch` leaves, or nothing open. -/
structure Closed (c : Compiler J) (before : List ProblemTestCase) (loop : Loop J) (placed : List Placed) : Prop where
  count : loop.batchCount = starts before
  entries : loop.cases = placed.map c.item
  cases : placed.flatMap Placed.cases = (numbered before).filter (·.1.type = .case)
  begun : placed.filterMap Placed.start? = (numbered before).filter (·.1.type = .batchStart)
  single : ∀ n, .single n ∈ placed → openerOf before n = none
  inside : ∀ s cases, .batch s cases ∈ placed → cases ≠ [] ∧ ∀ n ∈ cases, openerOf before n = some s
  checked : ∀ n ∈ numbered before, Checked c before n

variable {loop : Loop J} {placed : List Placed}

theorem Parsed.closed (h : Parsed c before loop placed none) : Closed c before loop placed where
  count := h.count
  entries := h.entries
  cases := by simpa using h.cases
  begun := by simpa using h.begun
  single := h.single
  inside := h.inside
  checked := h.checked

/-- The batch that is open becomes an entry. -/
theorem Parsed.ended {cases : List Numbered} (h : Parsed c before loop placed (some (s, cases))) (hne : cases ≠ []) :
    Closed c before { loop with cases := loop.cases ++ [⟨s.1.isPretest, .batch (c.batchData s.1 cases)⟩] }
      (placed ++ [.batch s cases]) where
  count := h.count
  entries := by simp [h.entries, Compiler.item, Compiler.entry, Placed.isPretest]
  cases := by simpa [Placed.cases] using h.cases
  begun := by simpa [Placed.start?] using h.begun
  single n hn := by
    rcases List.mem_append.mp hn with hn | hn
    · exact h.single n hn
    · simp at hn
  inside s' cases' hp := by
    rcases List.mem_append.mp hp with hp | hp
    · exact h.inside s' cases' hp
    · obtain ⟨rfl, rfl⟩ := (Placed.batch.injEq ..).mp (List.mem_singleton.mp hp)
      exact ⟨hne, (h.waiting s' cases' rfl).1⟩
  checked := h.checked

namespace Closed

theorem mem_numbered (h : Closed c before loop placed) {p : Placed} (hp : p ∈ placed) (hn : n ∈ p.cases) :
    n ∈ numbered before :=
  (List.mem_filter.mp (h.cases ▸ List.mem_flatMap.mpr ⟨p, hp, hn⟩)).1

theorem single_concat (h : Closed c before loop placed) :
    ∀ n, .single n ∈ placed → openerOf (before ++ [row]) n = none := by
  intro n hn
  rw [Parsed.openerOf_concat (h.mem_numbered hn (List.mem_singleton_self n))]
  exact h.single n hn

theorem inside_concat (h : Closed c before loop placed) :
    ∀ s cases, .batch s cases ∈ placed → cases ≠ [] ∧ ∀ n ∈ cases, openerOf (before ++ [row]) n = some s := by
  intro s cases hp
  refine ⟨(h.inside s cases hp).1, fun n hn => ?_⟩
  rw [Parsed.openerOf_concat (h.mem_numbered hp hn)]
  exact (h.inside s cases hp).2 n hn

/-- A batch starts. -/
theorem start (h : Closed c before loop placed) (htype : row.type = .batchStart) {batch : OpenBatch J}
    (hbatch : batch = ⟨row.isPretest, c.batchData row []⟩)
    (hchecked : Checked c (before ++ [row]) (row, before.length + 1)) :
    Parsed c (before ++ [row]) ⟨loop.cases, some batch, loop.batchCount + 1⟩ placed
      (some ((row, before.length + 1), [])) where
  count := by simp [h.count, starts, htype]
  entries := h.entries
  batch := congrArg some hbatch
  cases := by simp [h.cases, htype]
  begun := by simp [h.begun, htype]
  isOpen := (opened_start htype).symm
  single := h.single_concat
  inside := h.inside_concat
  waiting s cases heq := by
    obtain ⟨rfl, rfl⟩ := Prod.mk.inj (Option.some.inj heq)
    exact ⟨by simp, fun _ => ⟨before, rfl, rfl⟩⟩
  checked := checked_concat h.checked hchecked

/-- A batch ends. -/
theorem stop (h : Closed c before loop placed) (htype : row.type = .batchEnd)
    (hchecked : Checked c (before ++ [row]) (row, before.length + 1)) :
    Parsed c (before ++ [row]) { loop with batch := none } placed none where
  count := by simp [h.count, starts, htype]
  entries := h.entries
  batch := rfl
  cases := by simp [h.cases, htype]
  begun := by simp [h.begun, htype]
  isOpen := (opened_end htype).symm
  single := h.single_concat
  inside := h.inside_concat
  waiting := by simp
  checked := checked_concat h.checked hchecked

/-- After the last row the entries are a layout of the table. -/
theorem layout (h : Closed c rows loop placed) : Layout rows placed where
  cases := h.cases
  starts := h.begun
  single := h.single
  inside := h.inside
  dependencies s hs htype := (h.checked s hs).dependencies htype

/-- A table the loop reads to its end has no defect. -/
theorem no_defect (h : Closed c rows loop placed) {e : ProblemDataError} : ¬ Defect c rows e := by
  intro hdefect
  cases hdefect with
  | noPoints hn htype hopener hpoints => exact (h.checked _ hn).points htype hopener hpoints
  | noInput hn htype hgenerator hfile => exact hfile ((h.checked _ hn).files htype hgenerator).1
  | noOutput hn htype hgenerator hfile => exact hfile ((h.checked _ hn).files htype hgenerator).2
  | @emptyBatch s hs htype hempty =>
      have hbegun : s ∈ placed.filterMap Placed.start? := by
        rw [h.begun]
        exact List.mem_filter.mpr ⟨hs, decide_eq_true htype⟩
      obtain ⟨p, hp, hstart⟩ := List.mem_filterMap.mp hbegun
      cases p with
      | single n => cases hstart
      | batch s' cases =>
          obtain rfl := Option.some.inj hstart
          obtain ⟨hne, hinside⟩ := h.inside s' cases hp
          obtain ⟨n, hn⟩ := List.exists_mem_of_ne_nil cases hne
          have hcase : n ∈ placed.flatMap Placed.cases := List.mem_flatMap.mpr ⟨_, hp, hn⟩
          rw [h.cases] at hcase
          obtain ⟨hmem, hcase⟩ := List.mem_filter.mp hcase
          exact hempty n hmem (of_decide_eq_true hcase) (hinside n hn)
  | noBatchPoints hn htype hpoints => exact (h.checked _ hn).batchPoints htype hpoints
  | notIntegers hn htype hnone =>
      obtain ⟨numbers, hsome, -⟩ := (h.checked _ hn).dependencies htype
      exact absurd (hnone.symm.trans hsome) (by simp)
  | notPrevious hn htype hnumbers hmem hle =>
      obtain ⟨numbers, hsome, hall⟩ := (h.checked _ hn).dependencies htype
      obtain rfl := Option.some.inj (hnumbers.symm.trans hsome)
      exact absurd (hall _ hmem).2 (not_lt.mpr hle)
  | notPositive hn htype hnumbers hmem hlt =>
      obtain ⟨numbers, hsome, hall⟩ := (h.checked _ hn).dependencies htype
      obtain rfl := Option.some.inj (hnumbers.symm.trans hsome)
      exact absurd (hall _ hmem).1 (by omega)
  | endOutside hn htype hopener => exact (h.checked _ hn).inside htype hopener

end Closed

end CpcJudge.Problems
