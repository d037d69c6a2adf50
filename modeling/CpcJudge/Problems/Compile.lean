import CpcJudge.Problems.Layout

/-!
# The loop of `make_init`

A row either adds to the layout of those before it, or has a defect that the error names. The checker arguments are
those of the forms: empty, or JSON.
-/

namespace CpcJudge.Problems
open Txn

variable {J : Type} {c : Compiler J} {rows before after : List ProblemTestCase} {row : ProblemTestCase}
  {n s : Numbered} {loop : Loop J} {placed : List Placed} {current : Option (Numbered × List Numbered)}

/-- What `checker_args_cleaner` lets through. -/
def Cleaned (c : Compiler J) (args : Text) : Prop := args = [] ∨ (c.loads args).isSome = true

/-- The error names a defect of the table. -/
def Named (c : Compiler J) (rows : List ProblemTestCase) (e : Raised) (_ : Loop J) : Prop :=
  ∃ defect, e = .problemData defect ∧ Defect c rows defect

/-- The loop has read some rows. -/
def Reading (c : Compiler J) (before : List ProblemTestCase) (loop : Loop J) : Prop :=
  ∃ placed current, Parsed c before loop placed current

/-! ## Parts of a row -/

theorem isSome_makeChecker (checker : Text) {args : Text} (h : Cleaned c args) : (c.makeChecker checker args).isSome = true := by
  unfold Compiler.makeChecker
  rcases h with rfl | h
  · rfl
  · split
    · rfl
    · simpa using h

theorem optionsOf_ok (h : Cleaned c row.checkerArgs) (loop : Loop J) :
    c.optionsOf row loop = .ok (c.options row) loop := by
  have hchecker : c.checkerOf row.checker row.checkerArgs loop =
      .ok (if row.checker.isEmpty then none else c.makeChecker row.checker row.checkerArgs) loop := by
    unfold Compiler.checkerOf
    split
    · rfl
    · obtain ⟨made, hmade⟩ := Option.isSome_iff_exists.mp (isSome_makeChecker row.checker h)
      rw [hmade]
      rfl
  unfold Compiler.optionsOf
  rw [bind_run hchecker]
  rfl

theorem checkFiles_reads (hmem : n ∈ numbered rows) (htype : n.1.type = .case) (P : Loop J → Prop) :
    Triple P (c.checkFiles n.2 n.1)
      (fun _ s => (c.data.generator = [] → n.1.inputFile ∈ c.files ∧ n.1.outputFile ∈ c.files) ∧ P s) (Named c rows) := by
  refine Triple.refuseIfBind (fun hbad _ _ => ⟨_, rfl, .noInput hmem htype hbad.1 (Text.isIn_eq_false.mp hbad.2)⟩) fun hinput => ?_
  intro s hs
  by_cases houtput : c.data.generator = [] ∧ n.1.outputFile.isIn c.files = false
  · rw [refuseIf, if_pos houtput]
    exact ⟨_, rfl, .noOutput hmem htype houtput.1 (Text.isIn_eq_false.mp houtput.2)⟩
  · rw [refuseIf, if_neg houtput]
    refine ⟨fun hgenerator => ⟨?_, ?_⟩, hs⟩
    · exact not_not.mp fun h => hinput ⟨hgenerator, Text.isIn_eq_false.mpr h⟩
    · exact not_not.mp fun h => houtput ⟨hgenerator, Text.isIn_eq_false.mpr h⟩

theorem checkDependencies_reads {count : ℕ} {numbers all : List ℤ} (hmem : n ∈ numbered rows)
    (htype : n.1.type = .batchStart) (hall : Compiler.dependenciesOf n.1 = some all) (hsub : ∀ d ∈ numbers, d ∈ all)
    (hcount : batchNumber rows n = count) (P : Loop J → Prop) :
    Triple P (Compiler.checkDependencies n.2 count numbers)
      (fun _ s => (∀ d ∈ numbers, 0 < d ∧ d < (count : ℤ)) ∧ P s) (Named c rows) := by
  induction numbers with
  | nil => exact Triple.ret _ fun s hs => ⟨by simp, hs⟩
  | cons d numbers ih =>
      have hd := hsub d List.mem_cons_self
      refine Triple.refuseIfBind (fun hbad _ _ => ⟨_, rfl, .notPrevious hmem htype hall hd (hcount ▸ hbad)⟩) fun hlt => ?_
      refine Triple.refuseIfBind (fun hbad _ _ => ⟨_, rfl, .notPositive hmem htype hall hd hbad⟩) fun hpos => ?_
      refine (ih fun d' hd' => hsub d' (List.mem_cons_of_mem _ hd')).weaken fun _ s hs => ⟨?_, hs.2⟩
      refine List.forall_mem_cons.mpr ⟨⟨by omega, not_le.mp hlt⟩, hs.1⟩

/-- `end_batch`: the batch becomes an entry, or it has no cases. -/
theorem endBatch_reads {cases : List Numbered} (h : Parsed c before loop placed (some (s, cases))) (count : ℕ)
    (hempty : cases = [] → Defect c rows .emptyBatch) :
    Triple (· = { loop with batchCount := count }) (Compiler.endBatch ⟨s.1.isPretest, c.batchData s.1 cases⟩)
      (fun _ t => t.batchCount = count ∧ ∃ placed, Closed c before { t with batchCount := loop.batchCount } placed)
      (Named c rows) := by
  refine Triple.refuseIfBind (fun hnil _ _ => ⟨_, rfl, hempty (List.map_eq_nil_iff.mp hnil)⟩) fun hne => ?_
  refine Triple.write fun t ht => ?_
  subst ht
  exact ⟨rfl, _, h.ended fun hnil => hne (List.map_eq_nil_iff.mpr hnil)⟩

theorem endOpen_reads (h : Parsed c before loop placed current) (count : ℕ)
    (hempty : ∀ s, current = some (s, []) → Defect c rows .emptyBatch) :
    Triple (· = { loop with batchCount := count }) Compiler.endOpen
      (fun _ t => t.batchCount = count ∧ ∃ placed, Closed c before { t with batchCount := loop.batchCount } placed)
      (Named c rows) := by
  refine Triple.getBind fun t ht => ?_
  subst ht
  obtain ⟨entries, batch, begun⟩ := loop
  cases current with
  | none =>
      obtain rfl : batch = none := h.batch
      refine Triple.ret _ fun t ht => ⟨ht ▸ rfl, placed, ?_⟩
      subst ht
      exact h.closed
  | some b =>
      obtain ⟨s, cases⟩ := b
      obtain rfl : batch = some ⟨s.1.isPretest, c.batchData s.1 cases⟩ := h.batch
      exact endBatch_reads h count fun hnil => hempty s (hnil ▸ rfl)

/-! ## A row -/

theorem addCase_reads (hrows : rows = before ++ row :: after) (htype : row.type = .case)
    (hclean : Cleaned c row.checkerArgs) :
    Triple (Reading c before) (c.addCase (before.length + 1) row) (fun _ => Reading c (before ++ [row]))
      (Named c rows) := by
  have hmem := mem_numbered_of_eq hrows
  have hopener : openerOf rows (row, before.length + 1) = opened before := hrows ▸ openerOf_last rfl
  have hhere : openerOf (before ++ [row]) (row, before.length + 1) = opened before := openerOf_last rfl
  refine Triple.getBind fun loop ⟨placed, current, h⟩ => ?_
  have hnone : loop.batch.isNone = true ↔ opened before = none := by
    rw [h.batch, ← h.isOpen]
    cases current <;> simp
  refine Triple.refuseIfBind (fun hbad _ _ => ⟨_, rfl, .noPoints hmem htype (hopener.trans (hnone.mp hbad.1)) hbad.2⟩)
    fun hpoints => ?_
  refine (checkFiles_reads hmem htype _).bind fun _ => Triple.assume fun hfiles => ?_
  refine Triple.givesBind (fun s _ => optionsOf_ok hclean s) ?_
  have hchecked : Checked c (before ++ [row]) (row, before.length + 1) :=
    { points := fun _ hout hnil => hpoints ⟨hnone.mpr (hhere.symm.trans hout), hnil⟩
      files := fun _ => hfiles
      batchPoints := fun hstart => absurd (htype.symm.trans hstart) (by decide)
      dependencies := fun hstart => absurd (htype.symm.trans hstart) (by decide)
      inside := fun hend => absurd (htype.symm.trans hend) (by decide) }
  obtain ⟨entries, batch, begun⟩ := loop
  cases current with
  | none =>
      obtain rfl : batch = none := h.batch
      exact fun _ _ => ⟨_, _, h.alone htype hchecked⟩
  | some b =>
      obtain ⟨s, cases⟩ := b
      obtain rfl : batch = some ⟨s.1.isPretest, c.batchData s.1 cases⟩ := h.batch
      have hbatched : c.batchData s.1 (cases ++ [(row, before.length + 1)]) =
          { c.batchData s.1 cases with batched := (c.batchData s.1 cases).batched ++ [c.caseData true row] } := by
        simp [Compiler.batchData]
      have hjoined := h.joined htype hchecked
      rw [hbatched] at hjoined
      exact fun _ _ => ⟨_, _, hjoined⟩

/-- What the loop knows where a batch stops: it is empty only if nothing came after its start. -/
theorem defect_of_empty (h : Parsed c before loop placed current) (hrows : rows = before ++ after)
    (hnext : ∀ row ∈ after.head?, row.type ≠ .case) (s : Numbered) (hcurrent : current = some (s, [])) :
    Defect c rows .emptyBatch := by
  obtain ⟨-, hlast⟩ := h.waiting s [] hcurrent
  obtain ⟨first, rfl, hs⟩ := hlast rfl
  obtain ⟨hmem, hstart, -⟩ := opened_eq_some (s := s) (by rw [← h.isOpen, hcurrent]; rfl)
  refine .emptyBatch ?_ hstart (empty_of_next hrows hs hnext)
  rw [hrows]
  exact mem_numbered_append hmem after

theorem startBatch_reads (hrows : rows = before ++ row :: after) (htype : row.type = .batchStart)
    (hclean : Cleaned c row.checkerArgs) :
    Triple (Reading c before) (c.startBatch (before.length + 1) row) (fun _ => Reading c (before ++ [row]))
      (Named c rows) := by
  have hmem := mem_numbered_of_eq hrows
  have hnumber : batchNumber rows (row, before.length + 1) = starts before + 1 := hrows ▸ batchNumber_last rfl
  have hhere : batchNumber (before ++ [row]) (row, before.length + 1) = starts before + 1 := batchNumber_last rfl
  refine Triple.each fun loop ⟨placed, current, h⟩ => Triple.modifyBind ?_
  have hopen := endOpen_reads h (loop.batchCount + 1)
    (defect_of_empty h hrows fun next hnext => Option.some.inj hnext ▸ htype ▸ by decide)
  refine hopen.bind fun _ => ?_
  refine Triple.orRefuseBind (fun hnone _ _ => ⟨_, rfl, .noBatchPoints hmem htype hnone⟩) fun points hpoints => ?_
  refine Triple.orRefuseBind (fun hnone _ _ => ⟨_, rfl, .notIntegers hmem htype hnone⟩) fun numbers hnumbers => ?_
  refine Triple.getBind fun loop' ⟨hcount, placed', hclosed⟩ => ?_
  have hstarts : batchNumber rows (row, before.length + 1) = loop'.batchCount := by
    rw [hnumber, hcount, h.count]
  refine (checkDependencies_reads hmem htype hnumbers (fun _ hd => hd) hstarts _).bind fun _ =>
    Triple.assume fun hdependencies => ?_
  refine Triple.givesBind (fun s _ => optionsOf_ok hclean s) (Triple.write fun s hs => ?_)
  subst hs
  have hchecked : Checked c (before ++ [row]) (row, before.length + 1) :=
    { points := fun hcase => absurd (htype.symm.trans hcase) (by decide)
      files := fun hcase => absurd (htype.symm.trans hcase) (by decide)
      batchPoints := fun _ hnone => absurd (hnone.symm.trans hpoints) (by simp)
      dependencies := fun _ => ⟨numbers, hnumbers, by rw [hhere, ← hnumber, hstarts]; exact hdependencies⟩
      inside := fun hend => absurd (htype.symm.trans hend) (by decide) }
  have hbatch : (⟨row.isPretest, { points, batched := [], dependencies := numbers, options := c.options row }⟩ :
      OpenBatch J) = ⟨row.isPretest, c.batchData row []⟩ := by
    simp [Compiler.batchData, hpoints, hnumbers]
  have hstart := hclosed.start htype hbatch hchecked
  rw [← hcount] at hstart
  exact ⟨_, _, hstart⟩

theorem closeBatch_reads (hrows : rows = before ++ row :: after) (htype : row.type = .batchEnd) :
    Triple (Reading c before) (Compiler.closeBatch (before.length + 1)) (fun _ => Reading c (before ++ [row]))
      (Named c rows) := by
  have hmem := mem_numbered_of_eq hrows
  have hopener : openerOf rows (row, before.length + 1) = opened before := hrows ▸ openerOf_last rfl
  have hhere : openerOf (before ++ [row]) (row, before.length + 1) = opened before := openerOf_last rfl
  refine Triple.getBind fun loop ⟨placed, current, h⟩ => ?_
  have hempty := defect_of_empty h hrows fun next hnext => Option.some.inj hnext ▸ htype ▸ by decide
  have hchecked : opened before ≠ none → Checked c (before ++ [row]) (row, before.length + 1) := fun hinside =>
    { points := fun hcase => absurd (htype.symm.trans hcase) (by decide)
      files := fun hcase => absurd (htype.symm.trans hcase) (by decide)
      batchPoints := fun hstart => absurd (htype.symm.trans hstart) (by decide)
      dependencies := fun hstart => absurd (htype.symm.trans hstart) (by decide)
      inside := fun _ hnone => hinside (hhere.symm.trans hnone) }
  obtain ⟨entries, batch, begun⟩ := loop
  cases current with
  | none =>
      obtain rfl : batch = none := h.batch
      exact Triple.orRefuseBind (fun _ _ _ => ⟨_, rfl, .endOutside hmem htype (hopener.trans h.isOpen.symm)⟩) nofun
  | some b =>
      obtain ⟨s, cases⟩ := b
      obtain rfl : batch = some ⟨s.1.isPretest, c.batchData s.1 cases⟩ := h.batch
      refine Triple.orRefuseBind nofun fun batch hbatch => ?_
      obtain rfl := Option.some.inj hbatch
      refine (endBatch_reads h begun fun hnil => hempty s (hnil ▸ rfl)).bind fun _ => Triple.write fun t ht => ?_
      obtain ⟨hcount, placed', hclosed⟩ := ht
      have hstop := hclosed.stop htype (hchecked (h.isOpen ▸ Option.some_ne_none s))
      rw [← hcount] at hstop
      exact ⟨_, _, hstop⟩

/-- A row read, of any type. -/
theorem readRow_reads (hrows : rows = before ++ row :: after) (hclean : Cleaned c row.checkerArgs) :
    Triple (Reading c before) (c.readRow (row, before.length + 1)) (fun _ => Reading c (before ++ [row]))
      (Named c rows) := by
  unfold Compiler.readRow
  cases htype : row.type with
  | case => exact addCase_reads hrows htype hclean
  | batchStart => exact startBatch_reads hrows htype hclean
  | batchEnd => exact closeBatch_reads hrows htype

/-- The loop, from the row after those of `before` on. -/
theorem forM_reads (hclean : ∀ row ∈ rows, Cleaned c row.checkerArgs) (hrows : rows = before ++ after) :
    Triple (Reading c before) ((after.zipIdx (before.length + 1)).forM c.readRow) (fun _ => Reading c rows)
      (Named c rows) := by
  induction after generalizing before with
  | nil =>
      rw [List.append_nil] at hrows
      exact Triple.ret _ fun s hs => hrows ▸ hs
  | cons row after ih =>
      have hrest := @ih (before ++ [row]) (by rw [hrows, List.append_assoc, List.singleton_append])
      rw [List.length_append, List.length_singleton] at hrest
      exact (readRow_reads hrows (hclean row (by simp [hrows]))).bind fun _ => hrest

theorem readRows_reads (hclean : ∀ row ∈ rows, Cleaned c row.checkerArgs) :
    Triple (Reading c []) (c.readRows rows) (fun _ loop => ∃ placed, Closed c rows loop placed) (Named c rows) := by
  refine (forM_reads hclean (List.nil_append rows).symm).bind fun _ => ?_
  refine Triple.each fun loop ⟨placed, current, h⟩ => ?_
  have hend := endOpen_reads h loop.batchCount
    (defect_of_empty h (List.append_nil rows).symm nofun)
  refine hend.weaken fun _ t ht => ?_
  obtain ⟨hcount, placed', hclosed⟩ := ht
  rw [← hcount] at hclosed
  exact ⟨_, hclosed⟩

/-! ## The files and the checker of the problem -/

/-- What can be wrong with the data of a problem besides its table. -/
inductive DataDefect (c : Compiler J) : ProblemDataError → Prop where
  | zipPath : c.data.zipfile ≠ [] → slash ∉ c.data.zipfile → DataDefect c .zipPath
  | generatorPath : c.data.generator ≠ [] → slash ∉ c.data.generator → DataDefect c .generatorPath
  | interactorPath : c.data.interactor ≠ [] → slash ∉ c.data.interactor → DataDefect c .interactorPath
  | interactorLanguage {name : Text} : c.data.interactor ≠ [] → afterFirst c.data.interactor = some name →
      Compiler.interactorLanguages.lookup (extension name).lowerAscii = none → DataDefect c .interactorLanguage
  | sameNames {name : Text} : c.data.interactor ≠ [] → afterFirst c.data.interactor = some name → c.data.generator ≠ [] →
      (basename c.data.generator = name ∨ basename c.data.generator = Compiler.testlibHeader) → DataDefect c .sameNames
  | interactorMissing : c.data.interactor ≠ [] → c.read c.data.interactor = none → DataDefect c .interactorMissing

theorem afterFirst_eq_none {path : Text} : afterFirst path = none ↔ slash ∉ path := by
  simp [afterFirst]

theorem pathOf_error {file : Text} {e : ProblemDataError} {r : Raised} (h : Compiler.pathOf file e = .error r) :
    r = .problemData e ∧ file ≠ [] ∧ slash ∉ file := by
  unfold Compiler.pathOf at h
  split at h
  · cases h
  · rename_i hne
    cases hpath : afterFirst file with
    | none =>
        rw [hpath] at h
        cases h
        exact ⟨rfl, hne, afterFirst_eq_none.mp hpath⟩
    | some path =>
        rw [hpath] at h
        cases h

theorem pathOf_ok {file : Text} {e : ProblemDataError} {path : Option Text} (h : Compiler.pathOf file e = .ok path) :
    ¬ (file ≠ [] ∧ slash ∉ file) := by
  rintro ⟨hne, hslash⟩
  rw [Compiler.pathOf, if_neg hne, afterFirst_eq_none.mpr hslash] at h
  cases h

theorem problemChecker_ok (h : Cleaned c c.data.checkerArgs) : ∃ checker, c.problemChecker = .ok checker := by
  unfold Compiler.problemChecker
  split
  · exact ⟨_, rfl⟩
  · obtain ⟨made, hmade⟩ := Option.isSome_iff_exists.mp (isSome_makeChecker c.data.checker h)
    rw [hmade]
    exact ⟨_, rfl⟩

theorem makeInteractive_error (hne : c.data.interactor ≠ []) {e : ProblemDataError} (h : c.makeInteractive = .error e) :
    DataDefect c e := by
  unfold Compiler.makeInteractive at h
  cases hpath : afterFirst c.data.interactor with
  | none =>
      rw [hpath] at h
      cases h
      exact .interactorPath hne (afterFirst_eq_none.mp hpath)
  | some name =>
      simp only [hpath] at h
      cases hlang : Compiler.interactorLanguages.lookup (extension name).lowerAscii with
      | none =>
          rw [hlang] at h
          cases h
          exact .interactorLanguage hne hpath hlang
      | some lang =>
          simp only [hlang] at h
          split at h
          · rename_i hsame
            cases h
            exact .sameNames hne hpath hsame.1 hsame.2
          · cases hread : c.read c.data.interactor with
            | none =>
                rw [hread] at h
                cases h
                exact .interactorMissing hne hread
            | some source =>
                simp only [hread] at h
                split at h <;> cases h

/-- An interactor that is told about has none of the defects of one. -/
theorem makeInteractive_ok {interactive : Interactive} (h : c.makeInteractive = .ok interactive) :
    ∃ name source, afterFirst c.data.interactor = some name ∧
      Compiler.interactorLanguages.lookup (extension name).lowerAscii ≠ none ∧
      ¬ (c.data.generator ≠ [] ∧ (basename c.data.generator = name ∨ basename c.data.generator = Compiler.testlibHeader)) ∧
      c.read c.data.interactor = some source := by
  unfold Compiler.makeInteractive at h
  cases hpath : afterFirst c.data.interactor with
  | none =>
      rw [hpath] at h
      cases h
  | some name =>
      simp only [hpath] at h
      cases hlang : Compiler.interactorLanguages.lookup (extension name).lowerAscii with
      | none =>
          rw [hlang] at h
          cases h
      | some lang =>
          simp only [hlang] at h
          split at h
          · cases h
          · rename_i hsame
            cases hread : c.read c.data.interactor with
            | none =>
                rw [hread] at h
                cases h
            | some source => exact ⟨name, source, rfl, hlang ▸ Option.some_ne_none lang, hsame, rfl⟩

theorem interactive_error {r : Raised} (h : c.interactive = .error r) : ∃ e, r = .problemData e ∧ DataDefect c e := by
  unfold Compiler.interactive at h
  split at h
  · cases h
  · rename_i hne
    cases hmade : c.makeInteractive with
    | error e =>
        rw [hmade] at h
        cases h
        exact ⟨e, rfl, makeInteractive_error hne hmade⟩
    | ok made =>
        rw [hmade] at h
        cases h

/-- What is left of the defects once the paths of the zip and the generator are right. -/
theorem interactive_ok {interactive : Option Interactive} (h : c.interactive = .ok interactive)
    (hzip : ¬ (c.data.zipfile ≠ [] ∧ slash ∉ c.data.zipfile))
    (hgenerator : ¬ (c.data.generator ≠ [] ∧ slash ∉ c.data.generator)) (e : ProblemDataError) : ¬ DataDefect c e := by
  have hmade : c.data.interactor ≠ [] → ∃ made, c.makeInteractive = .ok made := by
    intro hne
    rw [Compiler.interactive, if_neg hne] at h
    cases hmade : c.makeInteractive with
    | error e =>
        rw [hmade] at h
        cases h
    | ok made => exact ⟨made, rfl⟩
  intro hdefect
  cases hdefect with
  | zipPath hne hslash => exact hzip ⟨hne, hslash⟩
  | generatorPath hne hslash => exact hgenerator ⟨hne, hslash⟩
  | interactorPath hne hslash =>
      obtain ⟨made, hmade⟩ := hmade hne
      obtain ⟨name, -, hpath, -⟩ := makeInteractive_ok hmade
      exact absurd ((afterFirst_eq_none.mpr hslash).symm.trans hpath) (by simp)
  | interactorLanguage hne hpath hlang =>
      obtain ⟨made, hmade⟩ := hmade hne
      obtain ⟨name, -, hname, hsome, -⟩ := makeInteractive_ok hmade
      obtain rfl := Option.some.inj (hpath.symm.trans hname)
      exact hsome hlang
  | sameNames hne hpath hgenerator hsame =>
      obtain ⟨made, hmade⟩ := hmade hne
      obtain ⟨name, -, hname, -, hdifferent, -⟩ := makeInteractive_ok hmade
      obtain rfl := Option.some.inj (hpath.symm.trans hname)
      exact hdifferent ⟨hgenerator, hsame⟩
  | interactorMissing hne hread =>
      obtain ⟨made, hmade⟩ := hmade hne
      obtain ⟨-, source, -, -, -, hsource⟩ := makeInteractive_ok hmade
      exact absurd (hread.symm.trans hsource) (by simp)

/-! ## The whole -/

theorem assemble_error {cases : List (Item J)} (hclean : Cleaned c c.data.checkerArgs) {r : Raised}
    (h : c.assemble cases = .error r) : ∃ e, r = .problemData e ∧ DataDefect c e := by
  obtain ⟨checker, hchecker⟩ := problemChecker_ok hclean
  unfold Compiler.assemble at h
  cases hzip : Compiler.pathOf c.data.zipfile .zipPath with
  | error r' =>
      obtain ⟨rfl, hne, hslash⟩ := pathOf_error hzip
      rw [hzip] at h
      cases h
      exact ⟨_, rfl, .zipPath hne hslash⟩
  | ok archive =>
      cases hgenerator : Compiler.pathOf c.data.generator .generatorPath with
      | error r' =>
          obtain ⟨rfl, hne, hslash⟩ := pathOf_error hgenerator
          rw [hzip, hgenerator] at h
          cases h
          exact ⟨_, rfl, .generatorPath hne hslash⟩
      | ok generator =>
          cases hinteractive : c.interactive with
          | error r' =>
              rw [hzip, hgenerator, hchecker, hinteractive] at h
              cases h
              exact interactive_error hinteractive
          | ok interactive =>
              rw [hzip, hgenerator, hchecker, hinteractive] at h
              cases h

theorem assemble_ok {cases : List (Item J)} (hclean : Cleaned c c.data.checkerArgs) {init : Init J}
    (h : c.assemble cases = .ok init) :
    init.pretestTestCases = (cases.filter (·.isPretest)).map (·.entry) ∧
      init.testCases = (cases.filter (!·.isPretest)).map (·.entry) ∧ ∀ e, ¬ DataDefect c e := by
  obtain ⟨checker, hchecker⟩ := problemChecker_ok hclean
  unfold Compiler.assemble at h
  cases hzip : Compiler.pathOf c.data.zipfile .zipPath with
  | error r =>
      rw [hzip] at h
      cases h
  | ok archive =>
      cases hgenerator : Compiler.pathOf c.data.generator .generatorPath with
      | error r =>
          rw [hzip, hgenerator] at h
          cases h
      | ok generator =>
          cases hinteractive : c.interactive with
          | error r =>
              rw [hzip, hgenerator, hchecker, hinteractive] at h
              cases h
          | ok interactive =>
              rw [hzip, hgenerator, hchecker, hinteractive] at h
              cases h
              exact ⟨rfl, rfl, interactive_ok hinteractive (pathOf_ok hzip) (pathOf_ok hgenerator)⟩

/-- The entries of the init are those of a layout of the table, the pretests apart. -/
structure Compiled (c : Compiler J) (rows : List ProblemTestCase) (init : Init J) (placed : List Placed) : Prop where
  layout : Layout rows placed
  pretests : init.pretestTestCases = (placed.filter (·.isPretest)).map c.entry
  tests : init.testCases = (placed.filter (!·.isPretest)).map c.entry

/-- What the forms let through: checker arguments that are empty or JSON. -/
structure FromForms (c : Compiler J) (rows : List ProblemTestCase) : Prop where
  data : Cleaned c c.data.checkerArgs
  rows : ∀ row ∈ rows, Cleaned c row.checkerArgs

theorem makeInit_error (hforms : FromForms c rows) {r : Raised} (h : c.makeInit rows = .error r) :
    ∃ e, r = .problemData e ∧ (Defect c rows e ∨ DataDefect c e) := by
  have hinitial : Reading c [] ⟨[], none, 0⟩ := ⟨[], none, .initial⟩
  have hread := readRows_reads hforms.rows
  unfold Compiler.makeInit at h
  cases hloop : c.readRows rows ⟨[], none, 0⟩ with
  | error r' loop =>
      rw [hloop] at h
      cases h
      obtain ⟨e, rfl, hdefect⟩ := hread.error hinitial hloop
      exact ⟨e, rfl, .inl hdefect⟩
  | ok u loop =>
      rw [hloop] at h
      obtain ⟨e, rfl, hdefect⟩ := assemble_error hforms.data h
      exact ⟨e, rfl, .inr hdefect⟩

theorem makeInit_ok (hforms : FromForms c rows) {init : Init J} (h : c.makeInit rows = .ok init) :
    (∀ e, ¬ Defect c rows e ∧ ¬ DataDefect c e) ∧ ∃ placed, Compiled c rows init placed := by
  have hinitial : Reading c [] ⟨[], none, 0⟩ := ⟨[], none, .initial⟩
  have hread := readRows_reads hforms.rows
  unfold Compiler.makeInit at h
  cases hloop : c.readRows rows ⟨[], none, 0⟩ with
  | error r loop =>
      rw [hloop] at h
      cases h
  | ok u loop =>
      rw [hloop] at h
      obtain ⟨placed, hclosed⟩ := hread.ok hinitial hloop
      obtain ⟨hpretests, htests, hdata⟩ := assemble_ok hforms.data h
      refine ⟨fun e => ⟨hclosed.no_defect, hdata e⟩, placed, hclosed.layout, ?_, ?_⟩
      · rw [hpretests, hclosed.entries, List.filter_map, List.map_map]
        rfl
      · rw [htests, hclosed.entries, List.filter_map, List.map_map]
        rfl

/-- `make_init` raises a `ProblemDataError` on the tables and the data that have a defect, which the error names, and
gives on every other the entries of the layout of the table. -/
theorem makeInit_compiles (hforms : FromForms c rows) :
    ((∃ r, c.makeInit rows = .error r) ↔ ∃ e, Defect c rows e ∨ DataDefect c e) ∧
    (∀ r, c.makeInit rows = .error r → ∃ e, r = .problemData e ∧ (Defect c rows e ∨ DataDefect c e)) ∧
    ∀ init, c.makeInit rows = .ok init → ∃ placed, Compiled c rows init placed := by
  refine ⟨⟨?_, ?_⟩, fun r => makeInit_error hforms, fun init h => (makeInit_ok hforms h).2⟩
  · rintro ⟨r, h⟩
    obtain ⟨e, -, hdefect⟩ := makeInit_error hforms h
    exact ⟨e, hdefect⟩
  · rintro ⟨e, hdefect⟩
    cases hinit : c.makeInit rows with
    | error r => exact ⟨r, rfl⟩
    | ok init =>
        have hnone := (makeInit_ok hforms hinit).1 e
        exact (hdefect.elim hnone.1 hnone.2).elim

/-- A problem whose zip has an input and an output. -/
def twoFiles : Compiler Unit where
  data :=
    { zipfile := Text.ofString "suma/datos.zip", generator := [], outputPrefix := none, outputLimit := none,
      checker := [], checkerArgs := [], unicode := false, nobigmath := false, interactor := [],
      interactorFeedback := false }
  files := [Text.ofString "1.in", Text.ofString "1.out"]
  loads _ := some ()
  read _ := none

def caseRow : ProblemTestCase where
  type := .case
  inputFile := Text.ofString "1.in"
  outputFile := Text.ofString "1.out"
  generatorArgs := []
  points := none
  isPretest := false
  outputPrefix := none
  outputLimit := none
  checker := []
  checkerArgs := []
  batchDependencies := []

def startRow (isPretest : Bool) (batchDependencies : Text) : ProblemTestCase :=
  { caseRow with type := .batchStart, points := some 10, isPretest, batchDependencies }

/-- A batch, one of pretests, and a batch that depends on the first. -/
def mixedRows : List ProblemTestCase :=
  [startRow false [], caseRow, startRow true [], caseRow, startRow false (Text.ofString "1"), caseRow]

theorem fromForms_mixedRows : FromForms twoFiles mixedRows where
  data := .inl rfl
  rows row hrow := by
    simp only [mixedRows, List.mem_cons, List.not_mem_nil, or_false] at hrow
    rcases hrow with rfl | rfl | rfl | rfl | rfl | rfl <;> exact .inl rfl

theorem exists_makeInit_mixedRows : ∃ init, twoFiles.makeInit mixedRows = .ok init := by
  have hinit : (twoFiles.makeInit mixedRows).isOk = true := by decide +kernel
  cases h : twoFiles.makeInit mixedRows with
  | error r =>
      rw [h] at hinit
      cases hinit
  | ok init => exact ⟨init, rfl⟩

/-- The table of three batches is compiled. -/
theorem makeInit_compiles_mixedRows :
    ∃ init, twoFiles.makeInit mixedRows = .ok init ∧ ∃ placed, Compiled twoFiles mixedRows init placed := by
  obtain ⟨init, hinit⟩ := exists_makeInit_mixedRows
  exact ⟨init, hinit, (makeInit_compiles fromForms_mixedRows).2.2 init hinit⟩

end CpcJudge.Problems
