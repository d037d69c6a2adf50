import Mathlib.Data.List.ReduceOption
import Mathlib.Tactic

/-!
# Pages in ranges

`DiggPaginator` shows the numbers of the pages in up to three ranges, the first pages, those around the one on show and
the last ones, and puts dots between two of them.
-/

namespace CpcJudge.Pages

/-- `DiggPaginator`, once it knows how many pages there are. -/
structure DiggPaginator where
  numPages : ℤ
  body : ℤ := 10
  tail : ℤ := 2
  margin : ℤ := 4
  padding : ℤ := min 4 ((body + 1) / 2 - 1)
  alignLeft : Bool := false
  /-- Django counts a page even where there is nothing to show. -/
  pages : 1 ≤ numPages
  /-- What the constructor checks: `math.ceil(body / 2.0) - 1`. -/
  fits : padding ≤ (body + 1) / 2 - 1 := by omega

/-- `DiggPage`: its number and its ranges. -/
structure DiggPage where
  number : ℤ
  mainRange : List ℤ
  leadingRange : List ℤ
  trailingRange : List ℤ
  deriving DecidableEq, Repr

/-- `list(range(first, last + 1))`. -/
def numbers (first last : ℤ) : List ℤ := (List.range (last + 1 - first).toNat).map fun i : ℕ => first + i

/-- The function of the `reduce`: two ranges, and `False`, here `none`, between them if there are both. -/
def joined (x y : List (Option ℤ)) : List (Option ℤ) := x ++ (if x ≠ [] ∧ y ≠ [] then [none] else []) ++ y

/-- `page_range`. -/
def DiggPage.pageRange (page : DiggPage) : List (Option ℤ) :=
  joined (joined (page.leadingRange.map some) (page.mainRange.map some)) (page.trailingRange.map some)

namespace DiggPaginator

variable (p : DiggPaginator)

/-- The first range worked out for a number: as many numbers as the body, as close around it as the pages allow. -/
def around (number : ℤ) : ℤ × ℤ :=
  let start := number - (p.body + 1) / 2 + 1
  let stop := number + p.body / 2
  let (start, stop) := if start < 1 then (start + |start - 1|, stop + |start - 1|) else (start, stop)
  if p.numPages < stop then (start + (p.numPages - stop), stop + (p.numPages - stop)) else (start, stop)

/-- The ranges of a page that is there. -/
def ranges (number shown : ℤ) : DiggPage :=
  let (start, stop) := p.around number
  let leading := if start ≤ p.tail + p.margin then [] else numbers 1 p.tail
  let (start, stop) :=
    if start ≤ p.tail + p.margin then (1, max p.body (min (number + p.padding) stop)) else (start, stop)
  let (start, stop, trailing) :=
    if p.alignLeft then (start, stop, [])
    else if p.numPages - (p.tail + p.margin) + 1 ≤ stop then
      if leading = [] then (1, p.numPages, [])
      else (min (p.numPages - p.body + 1) (max (number - p.padding) start), p.numPages, [])
    else (start, stop, numbers (p.numPages - p.tail + 1) p.numPages)
  { number := shown, mainRange := numbers (max start 1) (min stop p.numPages), leadingRange := leading
    trailingRange := trailing }

/-- `page`. With `softlimit`, a number past the last page gives the last page, and the ranges are those of the number. -/
def page (number : ℤ) (softlimit : Bool := false) : Option DiggPage :=
  if number < 1 then none
  else if p.numPages < number then if softlimit then some (p.ranges number p.numPages) else none
  else some (p.ranges number number)

end DiggPaginator

/-! ## Numbers that follow one another -/

/-- Each number is the one after the last, or there are dots between them, for `margin` numbers at least. -/
def Spaced (margin : ℤ) : List (Option ℤ) → Prop
  | some a :: some b :: l => b = a + 1 ∧ Spaced margin (some b :: l)
  | some a :: none :: some b :: l => a + margin < b ∧ Spaced margin (some b :: l)
  | [some _] => True
  | [] => True
  | _ => False

section
variable {first last margin n : ℤ} {l : List ℤ} {x : List (Option ℤ)}

theorem mem_numbers : n ∈ numbers first last ↔ first ≤ n ∧ n ≤ last := by
  rw [numbers, List.mem_map]
  constructor
  · rintro ⟨i, hi, rfl⟩
    have hlt := List.mem_range.mp hi
    omega
  · rintro ⟨hfirst, hlast⟩
    exact ⟨(n - first).toNat, List.mem_range.mpr (by omega), by omega⟩

theorem numbers_of_lt (h : last < first) : numbers first last = [] := by
  rw [List.eq_nil_iff_forall_not_mem]
  intro n hn
  rw [mem_numbers] at hn
  omega

theorem numbers_cons (h : first ≤ last) : numbers first last = first :: numbers (first + 1) last := by
  obtain ⟨k, hk⟩ : ∃ k : ℕ, (last + 1 - first).toNat = k + 1 := ⟨(last - first).toNat, by omega⟩
  have hrest : (last + 1 - (first + 1)).toNat = k := by omega
  rw [numbers, numbers, hk, hrest, List.range_succ_eq_map, List.map_cons, List.map_map]
  congr 1
  · simp
  · refine List.map_congr_left fun i _ => ?_
    simp only [Function.comp_apply, Nat.succ_eq_add_one]
    push_cast
    ring

@[simp] theorem length_numbers : (numbers first last).length = (last + 1 - first).toNat := by
  rw [numbers, List.length_map, List.length_range]

/-- One range, before whatever may follow its last number. -/
theorem spaced_numbers_append (h : first ≤ last) (hx : Spaced margin (some last :: x)) :
    Spaced margin ((numbers first last).map some ++ x) := by
  obtain ⟨k, hk⟩ : ∃ k : ℕ, last = first + k := ⟨(last - first).toNat, by omega⟩
  induction k generalizing first with
  | zero =>
      obtain rfl : last = first := by omega
      rw [numbers_cons h, numbers_of_lt (by omega)]
      exact hx
  | succ k ih =>
      have hnext : first + 1 ≤ last := by omega
      have hrest := ih hnext (by omega)
      rw [numbers_cons hnext] at hrest
      rw [numbers_cons h, numbers_cons hnext]
      exact ⟨rfl, hrest⟩

theorem spaced_numbers : Spaced margin ((numbers first last).map some) := by
  by_cases h : first ≤ last
  · simpa using spaced_numbers_append (x := []) h trivial
  · rw [numbers_of_lt (by omega)]
    trivial

/-- A range and what comes after the dots. -/
theorem spaced_numbers_gap {next : ℤ} (h : first ≤ last) (hgap : last + margin < next)
    (hx : Spaced margin (some next :: x)) : Spaced margin ((numbers first last).map some ++ none :: some next :: x) :=
  spaced_numbers_append h ⟨hgap, hx⟩

end

/-! ## The ranges -/

namespace DiggPaginator

variable {p : DiggPaginator} {number shown : ℤ}

/-- What there is to know of the ranges: the main one, and whether there are others. -/
structure Ranges (p : DiggPaginator) (page : DiggPage) (shown start stop : ℤ) : Prop where
  number : page.number = shown
  main : page.mainRange = numbers start stop
  one : 1 ≤ start
  nonempty : start ≤ stop
  last : stop ≤ p.numPages
  /-- The pages around the one on show. -/
  window : ∀ n, shown - p.padding ≤ n → n ≤ shown + p.padding → 1 ≤ n → n ≤ p.numPages →
    start ≤ n ∧ n ≤ stop
  leading : page.leadingRange = [] ∧ (1 ≤ p.tail → start = 1) ∨
    page.leadingRange = numbers 1 p.tail ∧ 1 ≤ p.tail ∧
      p.tail + p.margin < start ∧ stop + 1 - start ≤ p.body + p.tail + p.margin
  trailing : page.trailingRange = [] ∧ (1 ≤ p.tail → p.alignLeft = false → stop = p.numPages) ∨
    page.trailingRange = numbers (p.numPages - p.tail + 1) p.numPages ∧ 1 ≤ p.tail ∧
      stop + p.margin < p.numPages - p.tail + 1 ∧ stop + 1 - start ≤ p.body + p.tail + p.margin
  size : 1 ≤ p.tail ∨ p.alignLeft = true → stop + 1 - start ≤ p.body + 2 * (p.tail + p.margin)

theorem around_spec (hpadding : 0 ≤ p.padding) (hnumber : 1 ≤ number) :
    (p.around number).2 = (p.around number).1 + p.body - 1 ∧ (p.around number).2 ≤ max p.numPages p.body ∧
      (p.around number).1 ≤ max 1 (min number p.numPages - p.padding) ∧
      min (number + p.padding) p.numPages ≤ (p.around number).2 := by
  have hfits := p.fits
  have hpages := p.pages
  have habs : number - (p.body + 1) / 2 + 1 < 1 →
      |number - (p.body + 1) / 2 + 1 - 1| = 1 - (number - (p.body + 1) / 2 + 1) := fun h => by
    rw [abs_of_neg (by omega)]
    ring
  simp only [around]
  split <;> split <;> omega

theorem ranges_spec (hbody : 1 ≤ p.body) (htail : 0 ≤ p.tail) (hmargin : 0 ≤ p.margin) (hpadding : 0 ≤ p.padding)
    (hnumber : 1 ≤ number) :
    ∃ start stop, Ranges p (p.ranges number (min number p.numPages)) (min number p.numPages) start stop := by
  obtain ⟨hwidth, hstop, hstart, hreach⟩ := around_spec hpadding hnumber
  have hfits := p.fits
  have hpages := p.pages
  have hempty : ∀ first last : ℤ, first ≤ last → numbers first last ≠ [] := fun first last h => by
    rw [numbers_cons h]
    exact List.cons_ne_nil _ _
  generalize hrange : p.around number = range at *
  obtain ⟨start, stop⟩ := range
  simp only at hwidth hstop hstart hreach
  unfold ranges
  rw [hrange]
  dsimp only
  by_cases hlead : start ≤ p.tail + p.margin
  · simp only [if_pos hlead]
    cases hleft : p.alignLeft with
    | true =>
        have haligned : ∀ {c : Prop}, p.alignLeft = false → c := fun h => by
          rw [hleft] at h
          cases h
        simp only [if_true]
        refine ⟨_, _, rfl, rfl, ?_, ?_, ?_, ?_, .inl ⟨rfl, ?_⟩, .inl ⟨rfl, fun _ => haligned⟩, ?_⟩ <;> omega
    | false =>
        simp only [Bool.false_eq_true, if_false, if_true]
        split
        · refine ⟨_, _, rfl, rfl, ?_, ?_, ?_, ?_, .inl ⟨rfl, ?_⟩, .inl ⟨rfl, ?_⟩, ?_⟩ <;> omega
        · by_cases hone : 1 ≤ p.tail
          · refine ⟨_, _, rfl, rfl, ?_, ?_, ?_, ?_, .inl ⟨rfl, ?_⟩, .inr ⟨rfl, hone, ?_, ?_⟩, ?_⟩ <;> omega
          · have hnone : numbers (p.numPages - p.tail + 1) p.numPages = [] := numbers_of_lt (by omega)
            refine ⟨_, _, rfl, rfl, ?_, ?_, ?_, ?_, .inl ⟨rfl, ?_⟩, .inl ⟨hnone, ?_⟩, ?_⟩ <;> omega
  · simp only [if_neg hlead]
    cases hleft : p.alignLeft with
    | true =>
        have haligned : ∀ {c : Prop}, p.alignLeft = false → c := fun h => by
          rw [hleft] at h
          cases h
        simp only [if_true]
        by_cases hone : 1 ≤ p.tail
        · refine ⟨_, _, rfl, rfl, ?_, ?_, ?_, ?_, .inr ⟨rfl, hone, ?_, ?_⟩, .inl ⟨rfl, fun _ => haligned⟩, ?_⟩ <;> omega
        · have hnone : numbers 1 p.tail = [] := numbers_of_lt (by omega)
          refine ⟨_, _, rfl, rfl, ?_, ?_, ?_, ?_, .inl ⟨hnone, ?_⟩, .inl ⟨rfl, fun _ => haligned⟩, ?_⟩ <;> omega
    | false =>
        have haligned : p.alignLeft ≠ true := by simp [hleft]
        simp only [Bool.false_eq_true, if_false]
        by_cases hone : 1 ≤ p.tail
        · have hsome : numbers 1 p.tail ≠ [] := hempty 1 p.tail hone
          simp only [if_neg hsome]
          split
          · refine ⟨_, _, rfl, rfl, ?_, ?_, ?_, ?_, .inr ⟨rfl, hone, ?_, ?_⟩, .inl ⟨rfl, ?_⟩, ?_⟩ <;> omega
          · refine ⟨_, _, rfl, rfl, ?_, ?_, ?_, ?_, .inr ⟨rfl, hone, ?_, ?_⟩, .inr ⟨rfl, hone, ?_, ?_⟩, ?_⟩ <;> omega
        · have hnone : numbers 1 p.tail = [] := numbers_of_lt (by omega)
          have hnone' : numbers (p.numPages - p.tail + 1) p.numPages = [] := numbers_of_lt (by omega)
          have hsize : ∀ {c : Prop}, (1 ≤ p.tail ∨ p.alignLeft = true) → c := fun h => by
            rcases h with h | h
            · exact absurd h hone
            · exact absurd h haligned
          simp only [hnone, if_true]
          split
          · refine ⟨_, _, rfl, rfl, ?_, ?_, ?_, ?_, .inl ⟨rfl, ?_⟩, .inl ⟨rfl, ?_⟩, hsize⟩ <;> omega
          · refine ⟨_, _, rfl, rfl, ?_, ?_, ?_, ?_, .inl ⟨rfl, ?_⟩, .inl ⟨hnone', ?_⟩, hsize⟩ <;> omega

/-! ## What a page shows -/

/-- The page that is given for a number. -/
theorem page_eq {page : DiggPage} {softlimit : Bool} (h : p.page number softlimit = some page) :
    1 ≤ number ∧ page = p.ranges number (min number p.numPages) := by
  unfold DiggPaginator.page at h
  split at h
  · cases h
  · rename_i hone
    refine ⟨by omega, ?_⟩
    split at h
    · rename_i hpast
      split at h
      · rw [min_eq_right (by omega), ← Option.some.inj h]
      · cases h
    · rw [min_eq_left (by omega), ← Option.some.inj h]

/-- The ranges, one after the other. -/
theorem Ranges.pageRange {page : DiggPage} {start stop : ℤ} (h : Ranges p page shown start stop) :
    page.pageRange = (if page.leadingRange = [] then [] else (page.leadingRange.map some) ++ [none]) ++
      (numbers start stop).map some ++
        if page.trailingRange = [] then [] else none :: page.trailingRange.map some := by
  have hmain : (numbers start stop).map some ≠ [] := by
    rw [numbers_cons h.nonempty]
    exact List.cons_ne_nil _ _
  unfold DiggPage.pageRange joined
  rw [h.main]
  by_cases hleading : page.leadingRange = [] <;> by_cases htrailing : page.trailingRange = [] <;>
    simp [hleading, htrailing, hmain]

/-- The numbers on show. -/
theorem Ranges.reduceOption {page : DiggPage} {start stop : ℤ} (h : Ranges p page shown start stop) :
    page.pageRange.reduceOption = page.leadingRange ++ numbers start stop ++ page.trailingRange := by
  have hsome : ∀ l : List ℤ, (l.map some).reduceOption = l := fun l => by simp [List.reduceOption]
  have hleading : (if page.leadingRange = [] then [] else page.leadingRange.map some ++ [none]).reduceOption =
      page.leadingRange := by
    split
    · rename_i hnone
      rw [hnone]
      rfl
    · rw [List.reduceOption_append, hsome, List.reduceOption_cons_of_none]
      exact List.append_nil _
  have htrailing : (if page.trailingRange = [] then [] else none :: page.trailingRange.map some).reduceOption =
      page.trailingRange := by
    split
    · rename_i hnone
      rw [hnone]
      rfl
    · rw [List.reduceOption_cons_of_none, hsome]
  rw [h.pageRange, List.reduceOption_append, List.reduceOption_append, hleading, hsome, htrailing]

theorem Ranges.mem {page : DiggPage} {start stop n : ℤ} (h : Ranges p page shown start stop) :
    some n ∈ page.pageRange ↔ n ∈ page.leadingRange ∨ (start ≤ n ∧ n ≤ stop) ∨ n ∈ page.trailingRange := by
  rw [← List.reduceOption_mem_iff, h.reduceOption, List.mem_append, List.mem_append, mem_numbers, or_assoc]

theorem Ranges.spaced {page : DiggPage} {start stop : ℤ} (h : Ranges p page shown start stop) :
    Spaced p.margin page.pageRange := by
  have hcons : ∀ {first last : ℤ}, first ≤ last → ∃ l, (numbers first last).map some = some first :: l := fun h =>
    ⟨_, by rw [numbers_cons h]; rfl⟩
  -- from the last range back
  have htrailing : Spaced p.margin (some stop :: if page.trailingRange = [] then [] else
      none :: page.trailingRange.map some) := by
    rcases h.trailing with ⟨hnone, _⟩ | ⟨hsome, htail, hgap, _⟩
    · rw [if_pos hnone]
      trivial
    · obtain ⟨l, hl⟩ := hcons (show p.numPages - p.tail + 1 ≤ p.numPages by omega)
      rw [hsome, if_neg (by rw [numbers_cons (by omega)]; exact List.cons_ne_nil _ _), hl]
      exact ⟨hgap, hl ▸ spaced_numbers⟩
  have hmain := spaced_numbers_append h.nonempty htrailing
  rw [h.pageRange]
  rcases h.leading with ⟨hnone, _⟩ | ⟨hsome, htail, hgap, _⟩
  · rw [if_pos hnone]
    exact hmain
  · obtain ⟨l, hl⟩ := hcons h.nonempty
    rw [hsome, if_neg (by rw [numbers_cons htail]; exact List.cons_ne_nil _ _)]
    rw [hl] at hmain ⊢
    have hgap' : Spaced p.margin (some p.tail :: none :: some start :: _) := ⟨hgap, hmain⟩
    simpa using spaced_numbers_append htail hgap'

/-- The pages of a list of problems, of which there are 91. -/
def problemPages : DiggPaginator where
  numPages := 91
  body := 6
  padding := 2
  pages := by decide
  fits := by decide

end DiggPaginator

end CpcJudge.Pages
