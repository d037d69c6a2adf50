import CpcJudge.Lib.Partition
import CpcJudge.Problems.Compile

/-!
# The batches that dependencies name

The dependencies of a batch are numbers of batches in the order of the rows, and are checked in it. In the init the
batches of the pretests come first, and the judge numbers them as they come.
-/

namespace CpcJudge.Problems
open CpcJudge.Txn CpcJudge.Partition

variable {J : Type} {c : Compiler J} {rows before after : List ProblemTestCase} {row : ProblemTestCase}
  {n s t : Numbered} {placed : List Placed}

/-- The rows that start batches, in order. -/
def startsOf (rows : List ProblemTestCase) : List Numbered := (numbered rows).filter (·.1.type = .batchStart)

/-- The rows that start the batches of the init, in the order of the init. -/
def initBatches (placed : List Placed) : List Numbered :=
  (placed.filter (·.isPretest)).filterMap Placed.start? ++ (placed.filter (!·.isPretest)).filterMap Placed.start?

/-- The batches that a batch depends on, by their numbers. -/
def dependencies (s : Numbered) : List ℤ := (Compiler.dependenciesOf s.1).getD []

/-- Every number a batch depends on is that of the same batch in the order of the rows and in that of the init, where
it comes earlier. -/
def KeepMeaning (rows : List ProblemTestCase) (placed : List Placed) : Prop :=
  ∀ s cases, .batch s cases ∈ placed → ∀ d ∈ dependencies s, ∃ t ∈ startsOf rows, (batchNumber rows t : ℤ) = d ∧
    (initBatches placed)[d.toNat - 1]? = some t ∧ (initBatches placed).idxOf t < (initBatches placed).idxOf s

/-- A pretest batch that another depends on has no ordinary batch before it, and an ordinary one no pretest batch
after it. -/
def Unmixed (rows : List ProblemTestCase) : Prop :=
  ∀ s ∈ startsOf rows, ∀ t ∈ startsOf rows, (batchNumber rows t : ℤ) ∈ dependencies s →
    (t.1.isPretest = true → ∀ u ∈ startsOf rows, u.2 < t.2 → u.1.isPretest = true) ∧
    (t.1.isPretest = false → ∀ u ∈ startsOf rows, t.2 < u.2 → u.1.isPretest = false)

/-! ## The order of the rows -/

theorem nodup_numbered : (numbered rows).Nodup := by
  refine List.Nodup.of_map Prod.snd ?_
  rw [numbered, List.zipIdx_map_snd]
  exact List.nodup_range'

theorem nodup_startsOf : (startsOf rows).Nodup := nodup_numbered.filter _

/-- What there is around a row that starts a batch. -/
theorem startsOf_split (ht : t ∈ startsOf rows) :
    ∃ first last, startsOf rows = first ++ t :: last ∧ first.length + 1 = batchNumber rows t ∧
      (∀ u ∈ startsOf rows, u ∈ first ↔ u.2 < t.2) ∧ ∀ u ∈ startsOf rows, u ∈ last ↔ t.2 < u.2 := by
  obtain ⟨hmem, htype⟩ := List.mem_filter.mp ht
  obtain ⟨before, after, hrows, hnumber⟩ := mem_numbered_iff.mp hmem
  have hsplit : startsOf rows = startsOf before ++
      t :: (after.zipIdx (before.length + 2)).filter (·.1.type = .batchStart) := by
    have hrow : (t.1, before.length + 1) = t := by rw [← hnumber]
    rw [startsOf, startsOf, hrows, numbered, List.zipIdx_append, List.zipIdx_cons, List.filter_append,
      Nat.add_comm 1, hrow]
    exact congrArg _ (List.filter_cons_of_pos (p := fun u : Numbered => decide (u.1.type = .batchStart)) htype)
  have hfirst : ∀ u ∈ startsOf before, u.2 < t.2 := by
    intro u hu
    have hle := (mem_numbered_le (List.mem_filter.mp hu).1).2
    omega
  have hlast : ∀ u ∈ (after.zipIdx (before.length + 2)).filter (·.1.type = .batchStart), t.2 < u.2 := by
    intro u hu
    have hle := List.le_snd_of_mem_zipIdx (List.mem_filter.mp hu).1
    omega
  refine ⟨_, _, hsplit, ?_, fun u hu => ⟨hfirst u, fun hlt => ?_⟩, fun u hu => ⟨hlast u, fun hlt => ?_⟩⟩
  · rw [hrows, batchNumber_last hnumber, startsOf, starts, ← List.countP_eq_length_filter, numbered]
    congr 1
    conv_rhs => rw [← List.zipIdx_map_fst 1 before, List.countP_map]
    rfl
  · rw [hsplit] at hu
    rcases List.mem_append.mp hu with hu | hu
    · exact hu
    · rcases List.mem_cons.mp hu with rfl | hu
      · exact absurd hlt (lt_irrefl _)
      · exact absurd (hlast u hu) (by omega)
  · rw [hsplit] at hu
    rcases List.mem_append.mp hu with hu | hu
    · exact absurd (hfirst u hu) (by omega)
    · rcases List.mem_cons.mp hu with rfl | hu
      · exact absurd hlt (lt_irrefl _)
      · exact hu

/-- A number below that of a batch is that of another. -/
theorem exists_batchNumber {d : ℤ} (hs : s ∈ startsOf rows) (hpos : 0 < d) (hlt : d < batchNumber rows s) :
    ∃ t ∈ startsOf rows, (batchNumber rows t : ℤ) = d := by
  obtain ⟨first, last, hsplit, hnumber, -⟩ := startsOf_split hs
  have hi : d.toNat - 1 < first.length := by omega
  have hmem : first[d.toNat - 1] ∈ startsOf rows := by
    rw [hsplit]
    exact List.mem_append_left _ (List.getElem_mem hi)
  refine ⟨_, hmem, ?_⟩
  obtain ⟨first', last', hsplit', hnumber', -⟩ := startsOf_split hmem
  have hidx : (startsOf rows)[d.toNat - 1]? = some first[d.toNat - 1] := by
    rw [hsplit, List.getElem?_append_left hi, List.getElem?_eq_getElem hi]
  have hidx' : (startsOf rows)[first'.length]? = some first[d.toNat - 1] := by
    rw [hsplit', List.getElem?_append_right le_rfl, Nat.sub_self]
    rfl
  have hplace := ((getElem?_eq_some_iff_idxOf nodup_startsOf hmem).mp hidx).symm.trans
    ((getElem?_eq_some_iff_idxOf nodup_startsOf hmem).mp hidx')
  omega

/-! ## The order of the init -/

/-- The batches of the init are those of the rows, the pretests first. -/
theorem initBatches_eq (h : Layout rows placed) : initBatches placed = partition (·.1.isPretest) (startsOf rows) := by
  have hfilter : ∀ q : Bool → Bool, (placed.filter fun p => q p.isPretest).filterMap Placed.start? =
      (placed.filterMap Placed.start?).filter fun s => q s.1.isPretest := by
    intro q
    rw [List.filterMap_filter, List.filter_filterMap]
    refine List.filterMap_congr fun p _ => ?_
    cases p with
    | single row => simp [Placed.start?]
    | batch start cases =>
        simp only [Placed.start?, Placed.isPretest, Option.filter_some]
        rfl
  have hstarts : placed.filterMap Placed.start? = startsOf rows := h.starts
  rw [initBatches, partition, ← hstarts]
  exact congrArg₂ _ (hfilter id) (hfilter (!·))

/-- Where a batch of the table is named by its own number. -/
theorem named_iff (h : Layout rows placed) (ht : t ∈ startsOf rows) {d : ℤ} (hd : (batchNumber rows t : ℤ) = d) :
    (initBatches placed)[d.toNat - 1]? = some t ↔
      (t.1.isPretest = true → ∀ u ∈ startsOf rows, u.2 < t.2 → u.1.isPretest = true) ∧
      (t.1.isPretest = false → ∀ u ∈ startsOf rows, t.2 < u.2 → u.1.isPretest = false) := by
  obtain ⟨first, last, hsplit, hnumber, hfirst, hlast⟩ := startsOf_split ht
  have hnodup : (first ++ t :: last).Nodup := hsplit ▸ nodup_startsOf
  have hi : d.toNat - 1 = first.length := by omega
  have hmem : t ∈ partition (fun u : Numbered => u.1.isPretest) (startsOf rows) := mem_partition.mpr ht
  rw [initBatches_eq h, getElem?_eq_some_iff_idxOf (nodup_partition nodup_startsOf) hmem, hi, hsplit,
    idxOf_partition_eq_length hnodup, ← hsplit]
  have hin : ∀ u ∈ first, u ∈ startsOf rows := fun u hu => hsplit ▸ List.mem_append_left _ hu
  have hin' : ∀ u ∈ last, u ∈ startsOf rows := fun u hu =>
    hsplit ▸ List.mem_append_right _ (List.mem_cons_of_mem _ hu)
  constructor
  · rintro ⟨hpos, hneg⟩
    exact ⟨fun hp u hu hlt => hpos hp u ((hfirst u hu).mpr hlt), fun hp u hu hlt => hneg hp u ((hlast u hu).mpr hlt)⟩
  · rintro ⟨hpos, hneg⟩
    exact ⟨fun hp u hu => hpos hp u (hin u hu) ((hfirst u (hin u hu)).mp hu),
      fun hp u hu => hneg hp u (hin' u hu) ((hlast u (hin' u hu)).mp hu)⟩

/-- A batch that keeps its number still comes before those that depend on it. -/
theorem earlier_of_named (h : Layout rows placed) (hs : s ∈ startsOf rows) (ht : t ∈ startsOf rows)
    (hlt : batchNumber rows t < batchNumber rows s)
    (hnamed : (initBatches placed)[batchNumber rows t - 1]? = some t) :
    (initBatches placed).idxOf t < (initBatches placed).idxOf s := by
  obtain ⟨first, last, hsplit, hnumber, -⟩ := startsOf_split ht
  obtain ⟨first', last', hsplit', hnumber', -⟩ := startsOf_split hs
  have hmem : t ∈ partition (fun u : Numbered => u.1.isPretest) (startsOf rows) := mem_partition.mpr ht
  rw [initBatches_eq h, getElem?_eq_some_iff_idxOf (nodup_partition nodup_startsOf) hmem] at hnamed
  have hstays : (partition (fun u : Numbered => u.1.isPretest) (first ++ t :: last)).idxOf t = first.length := by
    rw [← hsplit, hnamed]
    omega
  have hbefore := idxOf_partition_lt (hsplit ▸ nodup_startsOf) (hsplit.symm.trans hsplit') (by omega) hstays
  rw [initBatches_eq h, hnamed, hsplit]
  omega

theorem keepMeaning_iff (h : Layout rows placed) : KeepMeaning rows placed ↔ Unmixed rows := by
  have hbatch : ∀ s ∈ startsOf rows, ∃ cases, .batch s cases ∈ placed := by
    intro s hs
    rw [startsOf, ← h.starts] at hs
    obtain ⟨p, hp, hstart⟩ := List.mem_filterMap.mp hs
    cases p with
    | single row => cases hstart
    | batch s' cases =>
        obtain rfl := Option.some.inj hstart
        exact ⟨cases, hp⟩
  have hnumbers : ∀ s ∈ startsOf rows, ∀ d ∈ dependencies s, 0 < d ∧ d < batchNumber rows s := by
    intro s hs d hd
    obtain ⟨hmem, htype⟩ := List.mem_filter.mp hs
    obtain ⟨numbers, hnumbers, hall⟩ := h.dependencies s hmem (of_decide_eq_true htype)
    rw [dependencies, hnumbers] at hd
    exact hall d hd
  constructor
  · intro hkeep s hs t ht hd
    obtain ⟨cases, hp⟩ := hbatch s hs
    obtain ⟨t', ht', hnumber, hnamed, -⟩ := hkeep s cases hp _ hd
    -- a number is that of one batch only
    have hsame : t' = t := by
      obtain ⟨first, last, hsplit, hfirst, -⟩ := startsOf_split ht
      obtain ⟨first', last', hsplit', hfirst', -⟩ := startsOf_split ht'
      have hlength : first'.length = first.length := by omega
      have htail := (List.append_inj (hsplit'.symm.trans hsplit) hlength).2
      exact (List.cons.inj htail).1
    exact (named_iff h ht rfl).mp (hsame ▸ hnamed)
  · intro hunmixed s cases hp d hd
    have hs : s ∈ startsOf rows := by
      rw [startsOf, ← h.starts]
      exact List.mem_filterMap.mpr ⟨_, hp, rfl⟩
    obtain ⟨hpos, hlt⟩ := hnumbers s hs d hd
    obtain ⟨t, ht, hnumber⟩ := exists_batchNumber hs hpos hlt
    have hnamed := (named_iff h ht hnumber).mpr (hunmixed s hs t ht (hnumber ▸ hd))
    refine ⟨t, ht, hnumber, hnamed, earlier_of_named h hs ht (by omega) ?_⟩
    rwa [show batchNumber rows t - 1 = d.toNat - 1 by omega]

/-- The dependencies of an init keep their meaning exactly on the tables that do not mix, among the batches before
one that others depend on, or after it, pretests with others. -/
theorem dependencies_keep_meaning_iff (hforms : FromForms c rows) {init : Init J} (hinit : c.makeInit rows = .ok init) :
    (∃ placed, Compiled c rows init placed) ∧
      ∀ placed, Compiled c rows init placed → (KeepMeaning rows placed ↔ Unmixed rows) :=
  ⟨(makeInit_ok hforms hinit).2, fun _ h => keepMeaning_iff h.layout⟩

theorem not_unmixed_mixedRows : ¬ Unmixed mixedRows := by
  intro h
  have hlast := h (startRow false (Text.ofString "1"), 5) (by decide +kernel) (startRow false [], 1) (by decide +kernel)
    (by decide +kernel)
  exact absurd (hlast.2 rfl (startRow true [], 3) (by decide +kernel) (by decide)) (by decide)

/-- On the table of three batches the last one depends on the pretests in the init, and not on the first. -/
theorem dependencies_keep_meaning_iff_mixedRows :
    ∃ init placed, twoFiles.makeInit mixedRows = .ok init ∧ Compiled twoFiles mixedRows init placed ∧
      ¬ KeepMeaning mixedRows placed := by
  obtain ⟨init, hinit⟩ := exists_makeInit_mixedRows
  obtain ⟨⟨placed, hplaced⟩, hiff⟩ := dependencies_keep_meaning_iff fromForms_mixedRows hinit
  exact ⟨init, placed, hinit, hplaced, fun hkeep => not_unmixed_mixedRows ((hiff placed hplaced).mp hkeep)⟩

/-- An accepted table need not keep the meaning of its dependencies. -/
theorem dependencies_change_meaning :
    ¬ ∀ (c : Compiler Unit) (rows : List ProblemTestCase) (init : Init Unit) (placed : List Placed),
      FromForms c rows → c.makeInit rows = .ok init → Compiled c rows init placed → KeepMeaning rows placed := by
  intro hkeep
  obtain ⟨init, hinit⟩ := exists_makeInit_mixedRows
  obtain ⟨-, placed, hplaced⟩ := makeInit_ok fromForms_mixedRows hinit
  have hmeaning := hkeep twoFiles mixedRows init placed fromForms_mixedRows hinit hplaced
  exact not_unmixed_mixedRows ((keepMeaning_iff hplaced.layout).mp hmeaning)

end CpcJudge.Problems
