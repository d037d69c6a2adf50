import Mathlib.Algebra.Order.Floor.Div
import Mathlib.Tactic

/-!
# Infinite pagination

`infinite_paginate` gives a page of a list without counting it: what a page says comes from the items it looks ahead
at. Over it, the page Django's paginator gives of the same list, by its count.
-/

namespace CpcJudge.Pages

variable {α : Type}

/-- `EmptyPage`, the only `InvalidPage` raised here. -/
inductive InvalidPage where
  | emptyPage
  deriving DecidableEq, Repr

/-- `items[start:stop]`. -/
def slice (items : List α) (start stop : ℕ) : List α := (items.take stop).drop start

@[simp] theorem length_slice (items : List α) (start stop : ℕ) :
    (slice items start stop).length = min stop items.length - start := by
  rw [slice, List.length_drop, List.length_take]

/-- `InfinitePage`. -/
structure InfinitePage (α : Type) where
  objectList : List α
  number : ℕ
  unfilteredQueryset : List α
  pageSize : ℕ
  padPages : ℕ
  deriving Repr

namespace InfinitePage

variable (page : InfinitePage α)

/-- `_after_up_to_pad`: how many items there are after the page, up to one more than the padding. -/
def afterUpToPad : ℕ :=
  let firstAfter := page.number * page.pageSize
  let paddingLength := page.padPages * page.pageSize
  (slice page.unfilteredQueryset firstAfter (firstAfter + paddingLength + 1)).length

def hasNext : Bool := 0 < page.afterUpToPad

def hasPrevious : Bool := 1 < page.number

def startIndex : ℕ := page.pageSize * (page.number - 1) + 1

def endIndex : ℕ := page.startIndex + page.objectList.length

/-- The first number of `main_range`. -/
def mainStart : ℕ := max 1 (page.number - page.padPages)

/-- The last number of `main_range`. The division is of numbers of rows, where a float is exact. -/
def mainEnd : ℕ := page.number + min (page.afterUpToPad ⌈/⌉ page.pageSize) page.padPages

/-- `main_range`. -/
def mainRange : List ℕ := List.range' page.mainStart (page.mainEnd + 1 - page.mainStart)

/-- `leading_range`. -/
def leadingRange : List ℕ := List.range' 1 (min 3 (page.mainRange.headD 0) - 1)

/-- `has_trailing`. -/
def hasTrailing : Bool := page.padPages * page.pageSize < page.afterUpToPad

/-- `page_range`. A gap, `False` in the list, is `none`. -/
def pageRange : List (Option ℕ) :=
  let gap := (page.leadingRange.getLast?).any fun last => last + 1 < page.mainRange.headD 0
  page.leadingRange.map some ++ (if gap then [none] else []) ++ page.mainRange.map some ++
    (if page.hasTrailing then [none] else [])

end InfinitePage

/-- `infinite_paginate`. -/
def infinitePaginate (queryset : List α) (page : ℤ) (pageSize padPages : ℕ) : Except InvalidPage (InfinitePage α) :=
  if page < 1 then .error .emptyPage
  else
    let number := page.toNat
    let sliced := slice queryset ((number - 1) * pageSize) (number * pageSize)
    if 1 < page ∧ sliced.isEmpty then .error .emptyPage
    else .ok { objectList := sliced, number, unfilteredQueryset := queryset, pageSize, padPages }

/-! ## The page of Django's paginator

The documented meaning of `Page`, for a list with items and no orphans. -/

namespace Django

variable (items : List α) (perPage number : ℕ)

/-- `Paginator.num_pages`. -/
def numPages : ℕ := items.length ⌈/⌉ perPage

/-- The objects of a page. -/
def objectList : List α := slice items ((number - 1) * perPage) (number * perPage)

def hasNext : Bool := number < numPages items perPage

def hasPrevious : Bool := 1 < number

/-- The index of the first object of the page, from one. -/
def startIndex : ℕ := perPage * (number - 1) + 1

/-- The index of the last object of the page, from one. -/
def endIndex : ℕ := if number = numPages items perPage then items.length else number * perPage

end Django

open Django

/-- What an infinite page has as Django's has it, all but `end_index`. -/
structure SameButEnd (page : InfinitePage α) (items : List α) (perPage number : ℕ) : Prop where
  objects : page.objectList = objectList items perPage number
  next : page.hasNext = hasNext items perPage number
  previous : page.hasPrevious = hasPrevious number
  start : page.startIndex = startIndex perPage number
  /-- Every number of the range is a page with objects. -/
  shown : ∀ p, some p ∈ page.pageRange → 1 ≤ p ∧ objectList items perPage p ≠ []
  /-- The range ends with a gap for the pages beyond its main part. -/
  trailing : page.pageRange.getLast? = some none ↔
    ∃ p, (∀ q ∈ page.mainRange, q < p) ∧ objectList items perPage p ≠ []

/-- An infinite page agrees with Django's. -/
structure Same (page : InfinitePage α) (items : List α) (perPage number : ℕ) : Prop
    extends SameButEnd page items perPage number where
  stop : page.endIndex = endIndex items perPage number

variable {items : List α} {perPage number padPages p : ℕ}

/-! ## The pages that have objects -/

theorem numPages_le (hsize : 0 < perPage) {k : ℕ} : numPages items perPage ≤ k ↔ items.length ≤ perPage * k :=
  ceilDiv_le_iff_le_mul hsize

theorem lt_numPages (hsize : 0 < perPage) {k : ℕ} : k < numPages items perPage ↔ perPage * k < items.length := by
  simpa only [not_le] using (numPages_le hsize).not

theorem objectList_ne_nil (hsize : 0 < perPage) (hp : 1 ≤ p) :
    objectList items perPage p ≠ [] ↔ p ≤ numPages items perPage := by
  obtain ⟨k, rfl⟩ : ∃ k, p = k + 1 := ⟨p - 1, by omega⟩
  rw [← List.length_pos_iff, objectList, length_slice, Nat.succ_le_iff, lt_numPages hsize, Nat.add_sub_cancel,
    Nat.add_mul, Nat.mul_comm k]
  omega

/-! ## What is after the page -/

/-- The page `infinite_paginate` gives of a list. -/
def pageOf (items : List α) (number perPage padPages : ℕ) : InfinitePage α :=
  { objectList := objectList items perPage number, number, unfilteredQueryset := items, pageSize := perPage, padPages }

theorem infinitePaginate_ok (hsize : 0 < perPage) (hnumber : 1 ≤ number) (hwithin : number ≤ numPages items perPage) :
    infinitePaginate items number perPage padPages = .ok (pageOf items number perPage padPages) := by
  have hobjects := (objectList_ne_nil hsize hnumber).mpr hwithin
  rw [infinitePaginate, if_neg (by omega), if_neg (fun h => hobjects (List.isEmpty_iff.mp h.2))]
  rfl

theorem afterUpToPad_eq :
    (pageOf items number perPage padPages).afterUpToPad =
      min (padPages * perPage + 1) (items.length - number * perPage) := by
  rw [InfinitePage.afterUpToPad, length_slice]
  simp only [pageOf]
  omega

theorem hasTrailing_iff (hsize : 0 < perPage) :
    (pageOf items number perPage padPages).hasTrailing ↔ number + padPages < numPages items perPage := by
  rw [InfinitePage.hasTrailing, decide_eq_true_iff, afterUpToPad_eq, lt_numPages hsize, Nat.mul_add,
    Nat.mul_comm perPage, Nat.mul_comm perPage]
  simp only [pageOf]
  omega

/-- The main range goes on to the last page, or as far as the padding does. -/
theorem mainEnd_eq (hsize : 0 < perPage) (hwithin : number ≤ numPages items perPage) :
    (pageOf items number perPage padPages).mainEnd = min (number + padPages) (numPages items perPage) := by
  obtain ⟨rest, hrest⟩ := Nat.exists_eq_add_of_le hwithin
  have hahead : ∀ k, (items.length - number * perPage) ⌈/⌉ perPage ≤ k ↔ rest ≤ k := by
    intro k
    have hpages : numPages items perPage ≤ number + k ↔ _ := numPages_le hsize
    rw [hrest, Nat.add_le_add_iff_left, Nat.mul_add, Nat.mul_comm perPage number] at hpages
    rw [ceilDiv_le_iff_le_mul hsize, hpages]
    omega
  have hlook : ∀ k, min ((pageOf items number perPage padPages).afterUpToPad ⌈/⌉ perPage) padPages ≤ k ↔
      min rest padPages ≤ k := by
    intro k
    rw [min_le_iff, min_le_iff, ← hahead, ceilDiv_le_iff_le_mul hsize, ceilDiv_le_iff_le_mul hsize, afterUpToPad_eq,
      min_le_iff]
    refine ⟨fun h => ?_, fun h => h.imp_left Or.inr⟩
    rcases h with (hpad | hall) | hpad
    · have hlt : padPages * perPage < k * perPage := by rw [Nat.mul_comm k]; exact hpad
      exact .inr (Nat.lt_of_mul_lt_mul_right hlt).le
    · exact .inl hall
    · exact .inr hpad
  have hmin := eq_of_forall_ge_iff hlook
  rw [InfinitePage.mainEnd, hrest]
  simp only [pageOf] at hmin ⊢
  rw [hmin, Nat.add_min_add_left, min_comm]

/-! ## What the range shows -/

namespace InfinitePage

variable (page : InfinitePage α)

theorem mem_mainRange {q : ℕ} : q ∈ page.mainRange ↔ page.mainStart ≤ q ∧ q ≤ page.mainEnd := by
  rw [mainRange, List.mem_range'_1]
  omega

theorem mainStart_le (h : 1 ≤ page.number) : page.mainStart ≤ page.mainEnd := by
  rw [mainStart, mainEnd]
  omega

@[simp] theorem headD_mainRange (h : 1 ≤ page.number) : page.mainRange.headD 0 = page.mainStart := by
  have hle := page.mainStart_le h
  rw [mainRange, show page.mainEnd + 1 - page.mainStart = (page.mainEnd - page.mainStart) + 1 by omega,
    List.range'_succ, List.headD_cons]

theorem mem_pageRange (h : 1 ≤ page.number) (hp : some p ∈ page.pageRange) : 1 ≤ p ∧ p ≤ page.mainEnd := by
  have hle := page.mainStart_le h
  have hone : 1 ≤ page.mainStart := le_max_left _ _
  have hpart : p ∈ page.leadingRange ∨ p ∈ page.mainRange := by
    rw [pageRange] at hp
    split at hp <;> split at hp <;> simpa using hp
  rcases hpart with hlead | hmain
  · rw [leadingRange, List.mem_range'_1, page.headD_mainRange h] at hlead
    omega
  · rw [mem_mainRange] at hmain
    omega

theorem getLast_pageRange (h : 1 ≤ page.number) : page.pageRange.getLast? = some none ↔ page.hasTrailing := by
  have hle := page.mainStart_le h
  have hmain : page.mainRange.map some ≠ [] :=
    List.ne_nil_of_mem (List.mem_map_of_mem (page.mem_mainRange.mpr ⟨le_rfl, hle⟩))
  rw [pageRange]
  by_cases htrailing : page.hasTrailing
  · simp [htrailing]
  · -- the range then ends with a number
    simp [htrailing, List.getLast?_append_of_ne_nil _ hmain]

end InfinitePage

theorem sameButEnd_pageOf (hsize : 0 < perPage) (hnumber : 1 ≤ number) (hwithin : number ≤ numPages items perPage) :
    SameButEnd (pageOf items number perPage padPages) items perPage number where
  objects := rfl
  next := by
    have hone : 0 < items.length - number * perPage ↔ number < numPages items perPage := by
      rw [lt_numPages hsize, Nat.mul_comm perPage]
      omega
    rw [InfinitePage.hasNext, hasNext, afterUpToPad_eq]
    simp only [← hone, lt_min_iff, Nat.succ_pos, true_and]
  previous := rfl
  start := rfl
  shown p hp := by
    obtain ⟨hone, hend⟩ := (pageOf items number perPage padPages).mem_pageRange hnumber hp
    rw [mainEnd_eq hsize hwithin] at hend
    exact ⟨hone, (objectList_ne_nil hsize hone).mpr (hend.trans (min_le_right _ _))⟩
  trailing := by
    rw [(pageOf items number perPage padPages).getLast_pageRange hnumber, hasTrailing_iff hsize]
    constructor
    · intro hbeyond
      have hpages : 1 ≤ numPages items perPage := by omega
      refine ⟨numPages items perPage, fun q hq => ?_, (objectList_ne_nil hsize hpages).mpr le_rfl⟩
      have hq := ((InfinitePage.mem_mainRange _).mp hq).2
      rw [mainEnd_eq hsize hwithin] at hq
      omega
    · rintro ⟨p, hbeyond, hobjects⟩
      have hlast := hbeyond _ ((InfinitePage.mem_mainRange _).mpr ⟨InfinitePage.mainStart_le _ hnumber, le_rfl⟩)
      have hp := (objectList_ne_nil hsize (Nat.one_le_of_lt hlast)).mp hobjects
      rw [mainEnd_eq hsize hwithin] at hlast
      omega

/-! ## The end of the page -/

/-- `end_index` is one more than the index of the last object. -/
theorem endIndex_pageOf (hsize : 0 < perPage) (hnumber : 1 ≤ number) (hwithin : number ≤ numPages items perPage) :
    (pageOf items number perPage padPages).endIndex = endIndex items perPage number + 1 := by
  obtain ⟨k, rfl⟩ : ∃ k, number = k + 1 := ⟨number - 1, by omega⟩
  have hbefore := (lt_numPages hsize).mp (Nat.lt_of_succ_le hwithin)
  have hafter : numPages items perPage ≤ k + 1 ↔ _ := numPages_le hsize
  rw [Nat.mul_add, Nat.mul_one] at hafter
  rw [InfinitePage.endIndex, InfinitePage.startIndex, endIndex]
  simp only [pageOf, objectList, length_slice, Nat.add_sub_cancel, Nat.add_mul, Nat.one_mul, Nat.mul_comm k]
  split <;> omega

/-- The infinite page of a list is Django's in all but `end_index`, which is always one more than Django's. -/
theorem infinitePaginate_never_same (hsize : 1 ≤ perPage) (hnumber : 1 ≤ number)
    (hwithin : number ≤ numPages items perPage) :
    ∃ page, infinitePaginate items number perPage padPages = .ok page ∧ SameButEnd page items perPage number ∧
      page.endIndex = endIndex items perPage number + 1 ∧ ¬ Same page items perPage number := by
  have hend : (pageOf items number perPage padPages).endIndex = _ := endIndex_pageOf hsize hnumber hwithin
  refine ⟨_, infinitePaginate_ok hsize hnumber hwithin, sameButEnd_pageOf hsize hnumber hwithin, hend, fun hsame => ?_⟩
  have hstop := hsame.stop
  omega

/-- The first page of two items. -/
theorem infinitePaginate_never_same_two :
    ∃ page, infinitePaginate [3, 5] 1 2 2 = .ok page ∧ page.endIndex = 3 := by
  obtain ⟨page, hpage, -, hend, -⟩ :=
    @infinitePaginate_never_same ℕ [3, 5] 2 1 2 (by decide) (by decide) (by decide)
  exact ⟨page, hpage, hend⟩

/-- A page of a list need not be Django's. -/
theorem infinitePaginate_not_same :
    ¬ ∀ (items : List ℕ) (number perPage padPages : ℕ) (page : InfinitePage ℕ), items ≠ [] → 1 ≤ perPage →
      1 ≤ number → number ≤ numPages items perPage → infinitePaginate items number perPage padPages = .ok page →
      Same page items perPage number := by
  intro hsame
  have hstop := (hsame [3, 5] 1 2 2 _ (by decide) (by decide) (by decide) (by decide) rfl).stop
  exact absurd hstop (by decide)

end CpcJudge.Pages
