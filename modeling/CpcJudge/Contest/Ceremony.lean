import CpcJudge.Contest.Reveal

/-!
# `Contest.Ceremony` — the reveal keeps its protocol and ends on the real board

One turn of the loop keeps an invariant that ties its variables to the page that plays the steps back: the
same order, ranks and totals, and in each row the uncovered columns followed by those left are the pending
ones. Every turn does one unit of work, so the loop ends, and what one turn does to the page is what every
step of the plan does.
-/

namespace CpcJudge
namespace Contest

open Ranking

variable {κ : Type} {b : RevealBoard κ} {row : RevealRow κ}

/-! ## Rows and their cells -/

theorem RevealBoard.row?_of_mem (h : row ∈ b.rows) : b.row? row.index = some row := by
  obtain ⟨found, hfound⟩ : ∃ found, b.row? row.index = some found := by
    apply Option.isSome_iff_exists.mp
    exact List.find?_isSome.mpr ⟨row, h, by simp⟩
  have hmem : found ∈ b.rows := List.mem_of_find?_eq_some hfound
  have hindex : found.index = row.index := by simpa using List.find?_some hfound
  rw [hfound, List.inj_on_of_nodup_map b.distinct hmem h hindex]

theorem RevealBoard.mem_of_row? {index : ℕ} (h : b.row? index = some row) : row ∈ b.rows ∧ row.index = index :=
  ⟨List.mem_of_find?_eq_some h, by simpa using List.find?_some h⟩

theorem RevealRow.uncovered_getElem? (opened : List ℕ) (column : ℕ) :
    (row.uncovered opened)[column]? =
      if column ∈ opened then row.finalCells[column]? else row.frozenCells[column]? := by
  have hlength := row.final_length
  by_cases hlt : column < row.frozenCells.length
  · have hlt' : column < row.finalCells.length := by omega
    simp only [RevealRow.uncovered, List.getElem?_map, List.getElem?_zipIdx,
      List.getElem?_eq_getElem hlt, List.getElem?_eq_getElem hlt', List.zip, List.getElem?_zipWith]
    by_cases hmem : column ∈ opened <;> simp [hmem]
  · have hlt' : ¬ column < row.finalCells.length := by omega
    rw [List.getElem?_eq_none (by simp [RevealRow.uncovered]; omega),
      List.getElem?_eq_none (by omega), List.getElem?_eq_none (by omega)]
    simp

theorem RevealRow.uncovered_nil : row.uncovered [] = row.frozenCells := by
  apply List.ext_getElem?
  intro column
  simp [RevealRow.uncovered_getElem?]

theorem RevealRow.uncovered_append {opened : List ℕ} {column : ℕ} {cell : κ}
    (h : row.finalCells[column]? = some cell) :
    (row.uncovered opened).set column cell = row.uncovered (opened ++ [column]) := by
  apply List.ext_getElem?
  intro i
  rw [List.getElem?_set, RevealRow.uncovered_getElem?, RevealRow.uncovered_getElem?]
  have hlt : column < row.finalCells.length := (List.getElem?_eq_some_iff.mp h).1
  have hlength := row.final_length
  by_cases hi : column = i
  · subst hi
    have hinside : column < (row.uncovered opened).length := by
      simp [RevealRow.uncovered]; omega
    simp [hinside, h]
  · have hi' : i ≠ column := fun heq => hi heq.symm
    simp [hi, hi']

variable [DecidableEq κ]

theorem RevealRow.pending_lt {column : ℕ} (h : column ∈ row.pending) : column < row.frozenCells.length := by
  have hlt := List.mem_range.mp (List.mem_of_mem_filter h)
  rwa [row.counts_length] at hlt

/-- The pending columns are read from left to right. -/
theorem RevealRow.pending_sorted : row.pending.Pairwise (· < ·) := List.pairwise_lt_range.filter _

theorem RevealRow.cells_eq_of_not_pending {column : ℕ} (h : column ∉ row.pending) :
    row.frozenCells[column]? = row.finalCells[column]? := by
  by_cases hlt : column < row.pendingCounts.length
  · by_contra hne
    exact h (List.mem_filter.mpr ⟨List.mem_range.mpr hlt, by simp [hne]⟩)
  · have hfrozen := row.counts_length
    have hfinal := row.final_length
    rw [List.getElem?_eq_none (by omega), List.getElem?_eq_none (by omega)]

/-- With all of its pending columns uncovered a row has its final cells. -/
theorem RevealRow.uncovered_pending : row.uncovered row.pending = row.finalCells := by
  apply List.ext_getElem?
  intro column
  rw [RevealRow.uncovered_getElem?]
  split
  · rfl
  · rename_i hpending
    exact RevealRow.cells_eq_of_not_pending hpending

/-- The totals a row shows with some columns uncovered: its own at both ends, added up in between. -/
def RevealRow.shownTotals (row : RevealRow κ) (intermediateTotals : RevealRow κ → List κ → Totals)
    (opened : List ℕ) : Totals :=
  if opened = [] then row.frozenTotals
  else if opened = row.pending then row.finalTotals
  else intermediateTotals row (row.uncovered opened)

/-! ## Ranks -/

section
variable {K : Type} [LinearOrder K] {keys : ℕ → K}

/-- The ranks given so far are the competition ranks of the rows they are given to. -/
theorem rankNext_foldl : ∀ (before after : List ℕ), (before ++ after).Pairwise (keys · ≤ keys ·) →
    (after.zipIdx before.length).foldl (rankNext keys)
        (before.map (competitionRank keys (before ++ after)), before.getLast?.map keys) =
      ((before ++ after).map (competitionRank keys (before ++ after)), (before ++ after).getLast?.map keys) := by
  intro before after
  induction after generalizing before with
  | nil => intro _; simp
  | cons x after ih =>
      intro hsorted
      have hassoc : before ++ x :: after = (before ++ [x]) ++ after := by simp
      obtain ⟨hbefore, hxafter, hcross⟩ := List.pairwise_append.mp hsorted
      have hafter : ∀ z ∈ after, keys x ≤ keys z := (List.pairwise_cons.mp hxafter).1
      have hstep : rankNext keys (before.map (competitionRank keys (before ++ x :: after)),
          before.getLast?.map keys) (x, before.length) =
          ((before ++ [x]).map (competitionRank keys (before ++ x :: after)), (before ++ [x]).getLast?.map keys) := by
        rcases List.eq_nil_or_concat before with rfl | ⟨front, last, rfl⟩
        · have hfirst : competitionRank keys ([] ++ x :: after) x = 0 + 1 := competitionRank_of_lt (by simp) hafter
          simp only [List.nil_append] at hfirst
          simp [rankNext, hfirst]
        · rw [List.concat_eq_append] at hbefore hcross ⊢
          by_cases htie : keys x = keys last
          · -- a tie takes the rank of the row before it
            have hrank := competitionRank_congr (l := front ++ [last] ++ x :: after) htie
            simp only [List.append_assoc, List.cons_append, List.nil_append] at hrank
            simp [rankNext, htie, hrank]
          · have hlt : ∀ z ∈ front ++ [last], keys z < keys x := by
              have hlast : keys last < keys x :=
                lt_of_le_of_ne (hcross last (by simp) x (by simp)) fun heq => htie heq.symm
              intro z hz
              rcases List.mem_append.mp hz with hz | hz
              · exact ((List.pairwise_append.mp hbefore).2.2 z hz last (by simp)).trans_lt hlast
              · rw [List.mem_singleton.mp hz]; exact hlast
            have hrank := competitionRank_of_lt hlt hafter
            simp only [List.append_assoc, List.cons_append, List.nil_append, List.length_append,
              List.length_singleton] at hrank
            simp [rankNext, htie, hrank]
      have htail := ih (before ++ [x]) (by rwa [← hassoc])
      rw [← hassoc] at htail
      rw [List.zipIdx_cons, List.foldl_cons, hstep, ← htail]
      simp

/-- On a sorted board the positions of `ranks_for` are the competition ranks. -/
theorem ranksFor_eq {order : List ℕ} (h : order.Pairwise (keys · ≤ keys ·)) :
    ranksFor order keys = order.map (competitionRank keys order) := by
  have hfold := rankNext_foldl [] order h
  simp only [List.nil_append, List.map_nil, List.length_nil, List.getLast?_nil, Option.map_none] at hfold
  simp [ranksFor, hfold]

end

/-! ## What a step does to the page -/

/-- The order and the ranks of a page follow its totals, the order as a stable sort of the one before. -/
structure Page.Ranked (precision : ℕ) (before : List ℕ) (p : Page) : Prop where
  order : IsStableSort (keysOf precision p.totals) before p.order
  ranks : p.ranks = p.order.map (competitionRank (keysOf precision p.totals) p.order)

/-- The lowest row of the page that is not finalized, and where it stands. -/
structure Page.Lowest (p : Page) (index position : ℕ) : Prop where
  here : p.order[position]? = some index
  unclosed : index ∉ p.closed
  below : ∀ j, position < j → ∀ other, p.order[j]? = some other → other ∈ p.closed

/-- A step of the ceremony, as the page before it sees it: it is about the lowest row that is not finalized. -/
structure Page.Acts (b : RevealBoard κ) (precision : ℕ) (intermediateTotals : RevealRow κ → List κ → Totals)
    (p : Page) (step : Step) : Prop where
  ranked : (p.after step).Ranked precision p.order
  does : match step with
    | .reveal index column totals fromPosition toPosition _ _ =>
        p.Lowest index fromPosition ∧ (p.after step).order[toPosition]? = some index ∧
          ∃ row, b.row? index = some row ∧ column ∈ row.pending ∧
            totals = row.shownTotals intermediateTotals (p.opened index ++ [column])
    | .finalize index position =>
        p.Lowest index position ∧ ∃ row, b.row? index = some row ∧ p.opened index = row.pending

/-- The page shows what the loop holds: in each row the uncovered columns, followed by those left, are the pending
ones, and the cells and the totals are those of the uncovered columns. -/
structure Ceremony.Shows (b : RevealBoard κ) (precision : ℕ) (intermediateTotals : RevealRow κ → List κ → Totals)
    (c : Ceremony κ) (p : Page) : Prop where
  order : p.order = c.order
  ranks : p.ranks = c.ranks
  totals : p.totals = c.totals
  closed : ∀ index, index ∈ p.closed ↔ index ∈ c.finalized
  perm : c.order.Perm (b.rows.map (·.index))
  sorted : c.order.Pairwise (keysOf precision c.totals · ≤ keysOf precision c.totals ·)
  ranked : c.ranks = c.order.map (competitionRank (keysOf precision c.totals) c.order)
  finalized : ∀ index ∈ c.finalized, index ∈ c.order ∧ c.left index = []
  left : ∀ row ∈ b.rows, row.pending = p.opened row.index ++ c.left row.index
  cells : ∀ row ∈ b.rows, c.cells row.index = row.uncovered (p.opened row.index)
  shown : ∀ row ∈ b.rows, c.totals row.index = row.shownTotals intermediateTotals (p.opened row.index)

variable {precision : ℕ} {intermediateTotals : RevealRow κ → List κ → Totals} {c c' : Ceremony κ} {p : Page}
  {step : Step}

/-- What the ceremony still has to do with a row: uncover its columns from left to right, then finalize it. -/
def Ceremony.todo (c : Ceremony κ) (index : ℕ) : List (Option ℕ) :=
  (c.left index).map some ++ if index ∈ c.finalized then [] else [none]

/-- The row and, when it uncovers one, the column of a step. -/
def Step.about (index : ℕ) : Step → Option (Option ℕ)
  | .reveal row column _ _ _ _ _ => if row = index then some (some column) else none
  | .finalize row _ => if row = index then some none else none

omit [DecidableEq κ] in
theorem Ceremony.mem_positions {i : ℕ} :
    i ∈ (c.order.zipIdx.filter (·.1 ∉ c.finalized)).map (·.2) ↔
      ∃ index, c.order[i]? = some index ∧ index ∉ c.finalized := by
  simp only [List.mem_map, List.mem_filter, decide_eq_true_eq, Prod.exists, exists_eq_right,
    List.mem_zipIdx_iff_getElem?]

omit [DecidableEq κ] in
theorem Ceremony.position?_lowest {position : ℕ} (h : c.position? = some position) :
    ∃ index, c.order[position]? = some index ∧ index ∉ c.finalized ∧
      ∀ j, position < j → ∀ other, c.order[j]? = some other → other ∈ c.finalized := by
  obtain ⟨hmem, hmax⟩ := List.max?_eq_some_iff.mp h
  obtain ⟨index, hindex, hopen⟩ := Ceremony.mem_positions.mp hmem
  refine ⟨index, hindex, hopen, ?_⟩
  intro j hj other hother
  by_contra hnot
  have hle := hmax j (Ceremony.mem_positions.mpr ⟨other, hother, hnot⟩)
  omega

omit [DecidableEq κ] in
theorem Ceremony.exists_position {index : ℕ} (hmem : index ∈ c.order) (hopen : index ∉ c.finalized) :
    ∃ position, c.position? = some position := by
  obtain ⟨i, hi⟩ := List.mem_iff_getElem?.mp hmem
  cases h : c.position? with
  | none =>
      have hempty := List.max?_eq_none_iff.mp h
      have hin := Ceremony.mem_positions.mpr ⟨index, hi, hopen⟩
      rw [hempty] at hin
      exact absurd hin List.not_mem_nil
  | some position => exact ⟨position, rfl⟩

/-- Before the first step. -/
theorem RevealBoard.start_shows :
    (b.start precision).Shows b precision intermediateTotals
      (b.page (b.start precision).order (b.start precision).ranks) := by
  have hsort : IsStableSort (fun index => toLex (keysOf precision (b.start precision).totals index, index))
      (b.rows.map (·.index)) (b.start precision).order := isStableSort_sortBy
  have hsorted : (b.start precision).order.Pairwise
      (keysOf precision (b.start precision).totals · ≤ keysOf precision (b.start precision).totals ·) := by
    apply hsort.sorted.imp
    intro i j hij
    rcases (Prod.Lex.le_iff.mp hij) with h | h
    · exact le_of_lt h
    · exact le_of_eq h.1
  refine ⟨rfl, rfl, rfl, ?_, hsort.perm, hsorted, ranksFor_eq hsorted, ?_, ?_, ?_, ?_⟩
  · intro index
    simp [RevealBoard.page, RevealBoard.start]
  · intro index hindex
    simp [RevealBoard.start] at hindex
  · intro row hrow
    simp [RevealBoard.page, RevealBoard.start, b.row?_of_mem hrow]
  · intro row hrow
    simp [RevealBoard.page, RevealBoard.start, b.row?_of_mem hrow, RevealRow.uncovered_nil]
  · intro row hrow
    simp [RevealBoard.page, RevealBoard.start, b.row?_of_mem hrow, RevealRow.shownTotals]

/-! ## One turn of the loop -/

/-- A turn that uncovers a cell. -/
theorem Ceremony.Shows.reveal {index position column : ℕ} {left : List ℕ} {cell : κ}
    (h : c.Shows b precision intermediateTotals p) (hlowest : p.Lowest index position)
    (hrow : b.row? index = some row) (hleft : c.left index = column :: left)
    (hcell : row.finalCells[column]? = some cell) {shown : Totals}
    (hshown : shown = if left = [] then row.finalTotals
      else intermediateTotals row ((c.cells index).set column cell))
    {totals : ℕ → Totals} (htotals : totals = Function.update c.totals index shown)
    {newOrder newRanks : List ℕ} (hnewOrder : newOrder = sortBy (keysOf precision totals) c.order)
    (hnewRanks : newRanks = ranksFor newOrder (keysOf precision totals))
    (hstep : step = .reveal index column shown position (newOrder.idxOf index)
      (if newOrder ≠ c.order then some newOrder else none) (if newRanks ≠ c.ranks then some newRanks else none))
    (hc' : c' = { totals, cells := Function.update c.cells index ((c.cells index).set column cell)
                  left := Function.update c.left index left, order := newOrder, ranks := newRanks
                  finalized := c.finalized }) :
    p.Acts b precision intermediateTotals step ∧ c'.Shows b precision intermediateTotals (p.after step) := by
  obtain ⟨hmem, hindex⟩ := b.mem_of_row? hrow
  have hpending : row.pending = p.opened index ++ column :: left := by
    rw [← hleft, ← hindex]
    exact h.left row hmem
  have hcells : (c.cells index).set column cell = row.uncovered (p.opened index ++ [column]) := by
    rw [← hindex, h.cells row hmem, RevealRow.uncovered_append hcell]
  -- the last cell of a row brings its real totals
  have hcomplete : p.opened index ++ [column] = row.pending ↔ left = [] := by
    rw [hpending, show column :: left = [column] ++ left from rfl, ← List.append_assoc]
    simp
  have hshown' : shown = row.shownTotals intermediateTotals (p.opened index ++ [column]) := by
    have hne : p.opened index ++ [column] ≠ [] := by simp
    rw [hshown, hcells]
    simp only [RevealRow.shownTotals, hcomplete, if_neg hne]
  have hsort : IsStableSort (keysOf precision totals) c.order newOrder := hnewOrder ▸ isStableSort_sortBy
  have hranks : newRanks = newOrder.map (competitionRank (keysOf precision totals) newOrder) := by
    rw [hnewRanks, ranksFor_eq hsort.sorted]
  have hinOrder : index ∈ newOrder := by
    rw [hsort.mem_iff, ← h.order]
    exact List.mem_of_getElem? hlowest.here
  have horder' : (p.after step).order = newOrder := by
    rw [hstep]
    by_cases heq : newOrder = c.order
    · simp [Page.after, heq, h.order]
    · simp [Page.after, heq]
  have hranks' : (p.after step).ranks = newRanks := by
    rw [hstep]
    by_cases heq : newRanks = c.ranks
    · simp [Page.after, heq, h.ranks]
    · simp [Page.after, heq]
  have htotals' : (p.after step).totals = totals := by
    rw [hstep, htotals, ← h.totals]
    rfl
  have hopened' : (p.after step).opened = Function.update p.opened index (p.opened index ++ [column]) := by
    rw [hstep]
    rfl
  have hclosed' : (p.after step).closed = p.closed := by
    rw [hstep]
    rfl
  constructor
  · have hranked : (p.after step).Ranked precision p.order := by
      constructor
      · rw [horder', htotals', h.order]
        exact hsort
      · rw [horder', hranks', htotals']
        exact hranks
    have hto : (p.after step).order[newOrder.idxOf index]? = some index := by
      rw [horder']
      exact List.getElem?_idxOf hinOrder
    have hcolumn : column ∈ row.pending := by
      rw [hpending]
      simp
    subst hstep
    exact ⟨hranked, hlowest, hto, row, hrow, hcolumn, hshown'⟩
  · subst hc'
    refine ⟨horder', hranks', htotals', ?_, hsort.perm.trans h.perm, hsort.sorted, hranks, ?_, ?_, ?_, ?_⟩
    · intro i
      rw [hclosed']
      exact h.closed i
    · intro i hi
      obtain ⟨hin, hdone⟩ := h.finalized i hi
      have hne : i ≠ index := by
        rintro rfl
        exact hlowest.unclosed ((h.closed i).mpr hi)
      exact ⟨hsort.mem_iff.mpr hin, by simpa [Function.update_of_ne hne] using hdone⟩
    · intro other hother
      rw [hopened']
      by_cases heq : other.index = index
      · have hsame : other = row := List.inj_on_of_nodup_map b.distinct hother hmem (heq.trans hindex.symm)
        subst hsame
        simp [heq, hpending]
      · simpa [Function.update_of_ne heq] using h.left other hother
    · intro other hother
      rw [hopened']
      by_cases heq : other.index = index
      · have hsame : other = row := List.inj_on_of_nodup_map b.distinct hother hmem (heq.trans hindex.symm)
        subst hsame
        simpa [heq] using hcells
      · simpa [Function.update_of_ne heq] using h.cells other hother
    · intro other hother
      rw [hopened', htotals]
      by_cases heq : other.index = index
      · have hsame : other = row := List.inj_on_of_nodup_map b.distinct hother hmem (heq.trans hindex.symm)
        subst hsame
        simpa [heq] using hshown'
      · simpa [Function.update_of_ne heq] using h.shown other hother

/-- A turn that finalizes a row. -/
theorem Ceremony.Shows.finalize {index position : ℕ} (h : c.Shows b precision intermediateTotals p)
    (hlowest : p.Lowest index position) (hrow : b.row? index = some row) (hleft : c.left index = []) :
    p.Acts b precision intermediateTotals (.finalize index position) ∧
      ({ c with finalized := insert index c.finalized } : Ceremony κ).Shows b precision intermediateTotals
        (p.after (.finalize index position)) := by
  obtain ⟨hmem, hindex⟩ := b.mem_of_row? hrow
  constructor
  · have hpending := h.left row hmem
    rw [hindex, hleft, List.append_nil] at hpending
    have hranked : (p.after (.finalize index position)).Ranked precision p.order := by
      constructor
      · exact .of_sorted (by simpa [Page.after, h.order, h.totals] using h.sorted)
      · simpa [Page.after, h.order, h.totals, h.ranks] using h.ranked
    exact ⟨hranked, hlowest, row, hrow, hpending.symm⟩
  · refine ⟨h.order, h.ranks, h.totals, ?_, h.perm, h.sorted, h.ranked, ?_, h.left, h.cells, h.shown⟩
    · intro i
      simp only [Page.after, List.mem_append, List.mem_singleton, Finset.mem_insert, h.closed i]
      exact or_comm
    · intro i hi
      rcases Finset.mem_insert.mp hi with rfl | hi
      · exact ⟨h.order ▸ List.mem_of_getElem? hlowest.here, hleft⟩
      · exact h.finalized i hi

/-- While a row is not finalized the loop takes a turn, and it does one thing of what was to do. -/
theorem Ceremony.Shows.next (h : c.Shows b precision intermediateTotals p)
    (hunfinished : c.finalized.card < c.order.length) :
    ∃ step c', c.next b precision intermediateTotals = some (step, c') ∧ p.Acts b precision intermediateTotals step ∧
      c'.Shows b precision intermediateTotals (p.after step) ∧
      ∃ acted ∈ b.rows, ∀ index,
        c.todo index = (step.about index).toList ++ c'.todo index ∧
          ((step.about index).isSome ↔ index = acted.index) := by
  -- some row of the order is not finalized
  obtain ⟨open', hin, hopen⟩ : ∃ index ∈ c.order, index ∉ c.finalized := by
    by_contra hall
    push Not at hall
    have hsub : c.order.toFinset ⊆ c.finalized := by
      intro i hi
      exact hall i (List.mem_toFinset.mp hi)
    have hcard := Finset.card_le_card hsub
    rw [List.toFinset_card_of_nodup (h.perm.nodup_iff.mpr b.distinct)] at hcard
    omega
  obtain ⟨position, hposition⟩ := Ceremony.exists_position hin hopen
  obtain ⟨index, hhere, hunclosed, hbelow⟩ := Ceremony.position?_lowest hposition
  have hlowest : p.Lowest index position := by
    refine ⟨h.order ▸ hhere, fun hclosed => hunclosed ((h.closed index).mp hclosed), ?_⟩
    intro j hj other hother
    exact (h.closed other).mpr (hbelow j hj other (h.order ▸ hother))
  have hindices := h.perm.mem_iff.mp (List.mem_of_getElem? hhere)
  obtain ⟨row, hmem, hindex⟩ := List.mem_map.mp hindices
  have hrow : b.row? index = some row := hindex ▸ b.row?_of_mem hmem
  cases hleft : c.left index with
  | nil =>
      obtain ⟨hacts, hshows⟩ := h.finalize hlowest hrow hleft
      refine ⟨_, _, by simp [Ceremony.next, hposition, hhere, hrow, hleft], hacts, hshows, row, hmem, ?_⟩
      intro i
      by_cases hi : i = index
      · subst hi
        simp [Ceremony.todo, Step.about, hleft, hunclosed, hindex]
      · have hi' : index ≠ i := fun heq => hi heq.symm
        simp [Ceremony.todo, Step.about, hi, hi', hindex]
  | cons column left =>
      have hcolumn : column ∈ row.pending := by
        have hpending := h.left row hmem
        rw [hindex, hleft] at hpending
        simp [hpending]
      obtain ⟨cell, hcell⟩ : ∃ cell, row.finalCells[column]? = some cell := by
        have hlt := RevealRow.pending_lt hcolumn
        rw [← row.final_length] at hlt
        exact ⟨_, List.getElem?_eq_getElem hlt⟩
      obtain ⟨hacts, hshows⟩ := h.reveal hlowest hrow hleft hcell rfl rfl rfl rfl rfl rfl
      refine ⟨_, _, by simp only [Ceremony.next, hposition, hhere, hrow, hleft, hcell, Option.bind_eq_bind,
        Option.bind_some], hacts, hshows, row, hmem, ?_⟩
      intro i
      by_cases hi : i = index
      · subst hi
        simp [Ceremony.todo, Step.about, hleft, hindex]
      · have hi' : index ≠ i := fun heq => hi heq.symm
        simp [Ceremony.todo, Step.about, hi, hi', hindex]

/-! ## The whole ceremony -/

/-- What is left to do on the whole board. -/
def Ceremony.work (b : RevealBoard κ) (c : Ceremony κ) : ℕ := (b.rows.map fun row => (c.todo row.index).length).sum

omit [DecidableEq κ] in
/-- Only one row of the board has a given index. -/
theorem RevealBoard.sum_acted {acted : RevealRow κ} (h : acted ∈ b.rows) :
    (b.rows.map fun row => if row.index = acted.index then 1 else 0).sum = 1 := by
  have hcount : (b.rows.map (·.index)).count acted.index = 1 :=
    List.count_eq_one_of_mem b.distinct (List.mem_map_of_mem h)
  suffices hsum : (b.rows.map fun row => if row.index = acted.index then 1 else 0).sum
      = (b.rows.map (·.index)).count acted.index from hsum.trans hcount
  induction b.rows with
  | nil => rfl
  | cons row rows ih =>
      rw [List.map_cons, List.sum_cons, List.map_cons, List.count_cons, ih]
      by_cases heq : row.index = acted.index <;> simp [heq, Nat.add_comm]

omit [DecidableEq κ] in
theorem Ceremony.work_next {acted : RevealRow κ} (hmem : acted ∈ b.rows)
    (h : ∀ index, c.todo index = (step.about index).toList ++ c'.todo index ∧
      ((step.about index).isSome ↔ index = acted.index)) :
    c.work b = c'.work b + 1 := by
  have hrow : ∀ row ∈ b.rows,
      (c.todo row.index).length = (if row.index = acted.index then 1 else 0) + (c'.todo row.index).length := by
    intro row _
    obtain ⟨htodo, hsome⟩ := h row.index
    rw [htodo, List.length_append]
    by_cases heq : row.index = acted.index
    · obtain ⟨column, hcolumn⟩ := Option.isSome_iff_exists.mp (hsome.mpr heq)
      rw [hcolumn, if_pos heq]
      rfl
    · have hnone : step.about row.index = none := by
        rw [← Option.not_isSome_iff_eq_none, hsome]
        exact heq
      simp [hnone, heq]
  rw [Ceremony.work, Ceremony.work, List.map_congr_left hrow, List.sum_map_add, b.sum_acted hmem, Nat.add_comm]

/-- The steps do what there was to do from `c`, row by row, each as the page that has replayed those before it
sees it, and leave nothing to do. -/
structure Ceremony.Plays (b : RevealBoard κ) (precision : ℕ) (intermediateTotals : RevealRow κ → List κ → Totals)
    (c : Ceremony κ) (p : Page) (steps : List Step) : Prop where
  length : steps.length = c.work b
  once : ∀ row ∈ b.rows, steps.filterMap (Step.about row.index) = c.todo row.index
  acts : ∀ done step rest, steps = done ++ step :: rest →
    (p.replay done).Acts b precision intermediateTotals step
  ends : ∃ last : Ceremony κ, last.Shows b precision intermediateTotals (p.replay steps) ∧
    ∀ row ∈ b.rows, last.left row.index = []

/-- The loop ends, and with more fuel than it has work the fuel does not matter. -/
theorem Ceremony.Shows.plays (h : c.Shows b precision intermediateTotals p) :
    ∃ steps, (∀ fuel, c.work b < fuel → c.play b precision intermediateTotals fuel = some steps) ∧
      c.Plays b precision intermediateTotals p steps := by
  induction hwork : c.work b generalizing c p with
  | zero =>
      have hnone : ∀ row ∈ b.rows, c.todo row.index = [] := by
        intro row hrow
        have hzero := (List.sum_eq_zero_iff.mp hwork) _ (List.mem_map_of_mem hrow)
        exact List.length_eq_zero_iff.mp hzero
      have hover : ¬ c.finalized.card < c.order.length := by
        intro hunfinished
        obtain ⟨_, _, _, _, _, acted, hacted, hdone⟩ := h.next hunfinished
        have := Ceremony.work_next hacted hdone
        omega
      refine ⟨[], ?_, ⟨by simp [hwork], ?_, by simp, c, h, ?_⟩⟩
      · intro fuel hfuel
        obtain ⟨k, rfl⟩ : ∃ k, fuel = k + 1 := ⟨fuel - 1, by omega⟩
        simp [Ceremony.play, hover]
      · intro row hrow
        simp [hnone row hrow]
      · intro row hrow
        have htodo := hnone row hrow
        simp only [Ceremony.todo, List.append_eq_nil_iff, List.map_eq_nil_iff] at htodo
        exact htodo.1
  | succ n ih =>
      -- while there is work, some row is not finalized
      have hunfinished : c.finalized.card < c.order.length := by
        by_contra hover
        have hsub : c.finalized ⊆ c.order.toFinset := by
          intro i hi
          exact List.mem_toFinset.mpr (h.finalized i hi).1
        have hcard : c.order.toFinset.card ≤ c.finalized.card := by
          rw [List.toFinset_card_of_nodup (h.perm.nodup_iff.mpr b.distinct)]
          omega
        have hall := Finset.eq_of_subset_of_card_le hsub hcard
        have hzero : c.work b = 0 := by
          apply List.sum_eq_zero
          intro k hk
          obtain ⟨row, hrow, rfl⟩ := List.mem_map.mp hk
          have hin : row.index ∈ c.finalized := by
            rw [hall, List.mem_toFinset, h.perm.mem_iff]
            exact List.mem_map_of_mem hrow
          simp [Ceremony.todo, (h.finalized _ hin).2, hin]
        omega
      obtain ⟨step, c', hnext, hacts, hshows, acted, hacted, hdone⟩ := h.next hunfinished
      have hwork' : c'.work b = n := by
        have := Ceremony.work_next hacted hdone
        omega
      obtain ⟨steps, hplay, hplays⟩ := ih hshows hwork'
      refine ⟨step :: steps, ?_, ⟨?_, ?_, ?_, hplays.ends⟩⟩
      · intro fuel hfuel
        obtain ⟨k, rfl⟩ : ∃ k, fuel = k + 1 := ⟨fuel - 1, by omega⟩
        simp [Ceremony.play, hunfinished, hnext, hplay k (by omega)]
      · rw [List.length_cons, hplays.length, hwork', hwork]
      · intro row hrow
        rw [(hdone row.index).1, ← hplays.once row hrow]
        cases habout : step.about row.index <;> simp [habout]
      · intro done next rest hsteps
        cases done with
        | nil =>
            obtain ⟨rfl, rfl⟩ := List.cons.inj hsteps
            exact hacts
        | cons first done =>
            obtain ⟨rfl, hrest⟩ := List.cons.inj hsteps
            exact hplays.acts done next rest hrest

/-- What the plan of a reveal promises to whoever plays it back. -/
structure RevealProtocol (b : RevealBoard κ) (precision : ℕ) (intermediateTotals : RevealRow κ → List κ → Totals)
    (order ranks : List ℕ) (steps : List Step) : Prop where
  perm : order.Perm (b.rows.map (·.index))
  sorted : order.Pairwise (keysOf precision (b.page order ranks).totals · ≤ keysOf precision (b.page order ranks).totals ·)
  ranked : ranks = order.map (competitionRank (keysOf precision (b.page order ranks).totals) order)
  leftToRight : ∀ row ∈ b.rows, row.pending.Pairwise (· < ·)
  once : ∀ row ∈ b.rows, steps.filterMap (Step.about row.index) = row.pending.map some ++ [none]
  length : steps.length = (b.rows.map (·.pending.length)).sum + b.rows.length
  acts : ∀ done step rest, steps = done ++ step :: rest →
    ((b.page order ranks).replay done).Acts b precision intermediateTotals step

theorem RevealBoard.start_todo (h : row ∈ b.rows) :
    (b.start precision).todo row.index = row.pending.map some ++ [none] := by
  simp [Ceremony.todo, RevealBoard.start, b.row?_of_mem h]

/-- The number of steps of a reveal: its pending cells and its rows. -/
def RevealBoard.steps (b : RevealBoard κ) : ℕ := (b.rows.map (·.pending.length)).sum + b.rows.length

theorem RevealBoard.start_work : (b.start precision).work b = b.steps := by
  have hrow : ∀ row ∈ b.rows, ((b.start precision).todo row.index).length = row.pending.length + 1 := by
    intro row hrow
    simp [b.start_todo hrow]
  rw [Ceremony.work, List.map_congr_left hrow, List.sum_map_add]
  simp [RevealBoard.steps]

/-- The plan is made, with as many steps as pending cells and rows, and it keeps the protocol. -/
theorem reveal_protocol (b : RevealBoard κ) (precision : ℕ) (intermediateTotals : RevealRow κ → List κ → Totals) :
    ∃ order ranks steps,
      (∀ fuel, b.steps < fuel → planReveal b precision intermediateTotals fuel = some (order, ranks, steps)) ∧
      RevealProtocol b precision intermediateTotals order ranks steps := by
  have hstart : (b.start precision).Shows b precision intermediateTotals _ := b.start_shows
  obtain ⟨steps, hplay, hplays⟩ := hstart.plays
  rw [RevealBoard.start_work] at hplay
  refine ⟨(b.start precision).order, (b.start precision).ranks, steps, ?_, ?_⟩
  · intro fuel hfuel
    simp [planReveal, hplay fuel hfuel]
  · refine ⟨hstart.perm, hstart.sorted, hstart.ranked, fun row _ => row.pending_sorted, ?_, ?_, hplays.acts⟩
    · intro row hrow
      rw [hplays.once row hrow, b.start_todo hrow]
    · rw [hplays.length, b.start_work]
      rfl

/-! ## The last board -/

/-- The totals the contest format stored, as `by_index` finds them. -/
def RevealBoard.finalTotals (b : RevealBoard κ) (index : ℕ) : Totals :=
  (b.row? index).elim ⟨none, none, none⟩ (·.finalTotals)

/-- The page shows the real board: the final cells and totals of every row, in the order and with the ranks that the
final totals give. -/
structure Page.Final (b : RevealBoard κ) (precision : ℕ) (p : Page) : Prop where
  cells : ∀ row ∈ b.rows, row.uncovered (p.opened row.index) = row.finalCells
  totals : ∀ row ∈ b.rows, p.totals row.index = row.finalTotals
  perm : p.order.Perm (b.rows.map (·.index))
  sorted : p.order.Pairwise (keysOf precision b.finalTotals · ≤ keysOf precision b.finalTotals ·)
  ranks : p.ranks = p.order.map (competitionRank (keysOf precision b.finalTotals) p.order)

/-- After all the steps, the totals of a row are its final ones, unless it hid nothing. -/
theorem Ceremony.Shows.totals_of_done (h : c.Shows b precision intermediateTotals p) (hrow : row ∈ b.rows)
    (hdone : c.left row.index = []) :
    p.opened row.index = row.pending ∧
      p.totals row.index = if row.pending = [] then row.frozenTotals else row.finalTotals := by
  have hopened : p.opened row.index = row.pending := by
    have hleft := h.left row hrow
    rw [hdone, List.append_nil] at hleft
    exact hleft.symm
  refine ⟨hopened, ?_⟩
  rw [h.totals, h.shown row hrow, hopened, RevealRow.shownTotals, if_pos (rfl : row.pending = row.pending)]

theorem Ceremony.Shows.final_iff (h : c.Shows b precision intermediateTotals p)
    (hdone : ∀ row ∈ b.rows, c.left row.index = []) :
    p.Final b precision ↔ ∀ row ∈ b.rows, row.pending = [] → row.frozenTotals = row.finalTotals := by
  constructor
  · intro hfinal row hrow hpending
    have htotals := (h.totals_of_done hrow (hdone row hrow)).2
    rw [hfinal.totals row hrow, if_pos hpending] at htotals
    exact htotals.symm
  · intro hsame
    have htotals : ∀ row ∈ b.rows, p.totals row.index = row.finalTotals := by
      intro row hrow
      rw [(h.totals_of_done hrow (hdone row hrow)).2]
      split
      · rename_i hpending
        exact hsame row hrow hpending
      · rfl
    have hperm : p.order.Perm (b.rows.map (·.index)) := h.order ▸ h.perm
    -- the keys of the page are those of the final totals
    have hkeys : ∀ index ∈ p.order, keysOf precision b.finalTotals index = keysOf precision c.totals index := by
      intro index hindex
      obtain ⟨row, hrow, rfl⟩ := List.mem_map.mp (hperm.mem_iff.mp hindex)
      rw [keysOf, keysOf, ← h.totals, htotals row hrow, RevealBoard.finalTotals, b.row?_of_mem hrow, Option.elim_some]
    refine ⟨?_, htotals, hperm, ?_, ?_⟩
    · intro row hrow
      rw [(h.totals_of_done hrow (hdone row hrow)).1, row.uncovered_pending]
    · have hsorted := h.sorted
      rw [← h.order] at hsorted
      apply hsorted.imp_of_mem
      intro i j hi hj hij
      rwa [hkeys i hi, hkeys j hj]
    · rw [h.ranks, h.ranked, ← h.order]
      apply List.map_congr_left
      intro index hindex
      rw [competitionRank, competitionRank, hkeys index hindex]
      congr 1
      apply List.countP_congr
      intro other hother
      rw [hkeys other hother]

/-- Two teams solved the only problem before the freeze and sent nothing during it. Then the penalty of the contest
went from twenty minutes to none and the contest was rescored: the cell of the first team, with one wrong try,
is the same, but its time is not. -/
def rescored : RevealBoard (Option Cell) where
  rows :=
    let first : Option Cell := some { points := some 1, time := some 60, penalty := some 1 }
    let second : Option Cell := some { points := some 1, time := some 600, penalty := some 0 }
    [⟨0, [first], [first], ⟨some 1, some 1260, some 60⟩, ⟨some 1, some 60, some 60⟩, [0], rfl, rfl⟩,
      ⟨1, [second], [second], ⟨some 1, some 600, some 600⟩, ⟨some 1, some 600, some 600⟩, [0], rfl, rfl⟩]
  distinct := by decide

end Contest
end CpcJudge
