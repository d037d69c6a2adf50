import CpcJudge.Contest.Basic
import CpcJudge.Lib.Ranking

/-!
# `Contest.Reveal` — the plan of a scoreboard reveal

`plan_reveal`: the frozen board, uncovered one problem at a time until it is the real one. The lowest row
that still hides something uncovers its leftmost hidden cell and the board is sorted again; a row with
nothing left to uncover is finalized. The page that plays the steps back is at the end: it only knows what
the steps tell it.

A cell is whatever the contest format stores, and the totals between the first board and the last come
from a function of the caller, so both are parameters here.
-/

namespace CpcJudge
namespace Contest

open Ranking

variable {κ : Type} [DecidableEq κ]

/-- `RevealRow`: one participation, with its frozen and its final cells, one for each problem. -/
structure RevealRow (κ : Type) where
  index : ℕ
  frozenCells : List κ
  finalCells : List κ
  frozenTotals : Totals
  finalTotals : Totals
  pendingCounts : List ℕ
  final_length : finalCells.length = frozenCells.length
  counts_length : pendingCounts.length = frozenCells.length

/-- The columns that hide something: submissions came during the freeze, or the cell changed anyway. -/
def RevealRow.pending (row : RevealRow κ) : List ℕ :=
  (List.range row.pendingCounts.length).filter fun column =>
    row.pendingCounts.getD column 0 ≠ 0 ∨ row.frozenCells[column]? ≠ row.finalCells[column]?

/-- The rows of a reveal: one for each participation, each with an index of its own. -/
structure RevealBoard (κ : Type) where
  rows : List (RevealRow κ)
  distinct : (rows.map (·.index)).Nodup

/-- `by_index`. -/
def RevealBoard.row? (b : RevealBoard κ) (index : ℕ) : Option (RevealRow κ) :=
  b.rows.find? (·.index = index)

/-- One turn of the loop of `ranks_for`: the ranks so far with the key of the last row, then a row at its position. -/
def rankNext {K : Type} [DecidableEq K] (keys : ℕ → K) (state : List ℕ × Option K) (item : ℕ × ℕ) :
    List ℕ × Option K :=
  match state.1.getLast? with
  | none => (state.1 ++ [item.2 + 1], some (keys item.1))
  | some rank =>
      if some (keys item.1) ≠ state.2 then (state.1 ++ [item.2 + 1], some (keys item.1))
      else (state.1 ++ [rank], some (keys item.1))

/-- `ranks_for`. -/
def ranksFor {K : Type} [DecidableEq K] (order : List ℕ) (keys : ℕ → K) : List ℕ :=
  (order.zipIdx.foldl (rankNext keys) ([], none)).1

/-- A step of the ceremony. The order and the ranks are there when the step changes them. -/
inductive Step where
  | reveal (row column : ℕ) (totals : Totals) (fromPosition toPosition : ℕ) (order ranks : Option (List ℕ))
  | finalize (row position : ℕ)
  deriving DecidableEq, Repr

/-- The variables of the loop. -/
structure Ceremony (κ : Type) where
  totals : ℕ → Totals
  cells : ℕ → List κ
  left : ℕ → List ℕ
  order : List ℕ
  ranks : List ℕ
  finalized : Finset ℕ

/-- `keys()`. -/
def keysOf (precision : ℕ) (totals : ℕ → Totals) (index : ℕ) : SortKey := sortKey (totals index) precision

/-- The board before the first step. The first order breaks the ties by index. -/
def RevealBoard.start (b : RevealBoard κ) (precision : ℕ) : Ceremony κ :=
  let totals index := (b.row? index).elim ⟨none, none, none⟩ (·.frozenTotals)
  let keys := keysOf precision totals
  let order := sortBy (fun index => toLex (keys index, index)) (b.rows.map (·.index))
  { totals
    cells := fun index => (b.row? index).elim [] (·.frozenCells)
    left := fun index => (b.row? index).elim [] (·.pending)
    order
    ranks := ranksFor order keys
    finalized := ∅ }

/-- `max(i for i, index in enumerate(order) if index not in finalized)`. -/
def Ceremony.position? (c : Ceremony κ) : Option ℕ :=
  ((c.order.zipIdx.filter (·.1 ∉ c.finalized)).map (·.2)).max?

/-- One turn of the loop: the lowest row that is not finalized uncovers a cell, or is finalized. -/
def Ceremony.next (b : RevealBoard κ) (precision : ℕ) (intermediateTotals : RevealRow κ → List κ → Totals)
    (c : Ceremony κ) : Option (Step × Ceremony κ) := do
  let position ← c.position?
  let index ← c.order[position]?
  let row ← b.row? index
  match c.left index with
  | column :: left =>
      let cell ← row.finalCells[column]?
      let cells := (c.cells index).set column cell
      let shown := if left = [] then row.finalTotals else intermediateTotals row cells
      let totals := Function.update c.totals index shown
      let keys := keysOf precision totals
      -- a stable sort: a row that only ties the ones above it stays below them
      let newOrder := sortBy keys c.order
      let newRanks := ranksFor newOrder keys
      some (.reveal index column shown position (newOrder.idxOf index)
          (if newOrder ≠ c.order then some newOrder else none) (if newRanks ≠ c.ranks then some newRanks else none),
        { totals
          cells := Function.update c.cells index cells
          left := Function.update c.left index left
          order := newOrder
          ranks := newRanks
          finalized := c.finalized })
  | [] => some (.finalize index position, { c with finalized := insert index c.finalized })

/-- The loop, for at most `fuel` steps; `none` is a loop that has not ended, or an exception. -/
def Ceremony.play (b : RevealBoard κ) (precision : ℕ) (intermediateTotals : RevealRow κ → List κ → Totals) :
    ℕ → Ceremony κ → Option (List Step)
  | 0, _ => none
  | fuel + 1, c =>
      if c.finalized.card < c.order.length then do
        let (step, c') ← c.next b precision intermediateTotals
        let steps ← c'.play b precision intermediateTotals fuel
        some (step :: steps)
      else some []

/-- `plan_reveal`: the first order, its ranks, and the steps. -/
def planReveal (b : RevealBoard κ) (precision : ℕ) (intermediateTotals : RevealRow κ → List κ → Totals)
    (fuel : ℕ) : Option (List ℕ × List ℕ × List Step) := do
  let c := b.start precision
  let steps ← c.play b precision intermediateTotals fuel
  some (c.order, c.ranks, steps)

/-! ## Playing the steps back -/

/-- What the page shows: the order and the ranks of the rows, the totals of each, the columns it has uncovered
and the rows it has finalized. -/
structure Page where
  order : List ℕ
  ranks : List ℕ
  totals : ℕ → Totals
  opened : ℕ → List ℕ
  closed : List ℕ

/-- The page when it loads. -/
def RevealBoard.page (b : RevealBoard κ) (order ranks : List ℕ) : Page where
  order := order
  ranks := ranks
  totals index := (b.row? index).elim ⟨none, none, none⟩ (·.frozenTotals)
  opened _ := []
  closed := []

/-- The page after a step. -/
def Page.after (p : Page) : Step → Page
  | .reveal row column totals _ _ order ranks =>
      { p with
        order := order.getD p.order
        ranks := ranks.getD p.ranks
        totals := Function.update p.totals row totals
        opened := Function.update p.opened row (p.opened row ++ [column]) }
  | .finalize row _ => { p with closed := p.closed ++ [row] }

/-- The page after some steps. -/
def Page.replay (p : Page) (steps : List Step) : Page := steps.foldl Page.after p

/-- The cells of a row with some columns uncovered. -/
def RevealRow.uncovered (row : RevealRow κ) (opened : List ℕ) : List κ :=
  (row.frozenCells.zip row.finalCells).zipIdx.map fun cell => if cell.2 ∈ opened then cell.1.2 else cell.1.1

end Contest
end CpcJudge
