import CpcJudge.Contest.Ceremony

/-!
# `Contest.BottomUp` — the ceremony goes from the last place to the first

A row that uncovers a cell and does not get worse stays above the rows that are finalized, and a stable sort leaves
those where they are. So the finalized rows are the tail of the board from the first step to the last, and each was
finalized in the place it ends at.
-/

namespace CpcJudge
namespace Contest

open Ranking

variable {κ : Type} [DecidableEq κ] {b : RevealBoard κ} {row : RevealRow κ} {precision : ℕ}
  {intermediateTotals : RevealRow κ → List κ → Totals} {c : Ceremony κ} {p : Page} {step : Step} {steps : List Step}

/-! ## Every step of a plan -/

/-- Each page of a plan is shown by the loop, from where it plays the rest. -/
theorem Ceremony.Shows.onward {fuel : ℕ} (h : c.Shows b precision intermediateTotals p)
    (hplay : c.play b precision intermediateTotals fuel = some steps) {done rest : List Step}
    (hsteps : steps = done ++ rest) :
    ∃ c' fuel', Ceremony.Shows b precision intermediateTotals c' (p.replay done) ∧
      c'.play b precision intermediateTotals fuel' = some rest := by
  induction done generalizing c p fuel steps with
  | nil => exact ⟨c, fuel, h, by rw [hplay, hsteps, List.nil_append]⟩
  | cons step done ih =>
      cases fuel with
      | zero => cases hplay
      | succ fuel =>
          rw [Ceremony.play] at hplay
          split at hplay
          · rename_i hunfinished
            obtain ⟨step', c', hnext, _, hshows, _⟩ := h.next hunfinished
            rw [hnext, Option.bind_eq_bind, Option.bind_some] at hplay
            obtain ⟨later, hlater, heq⟩ := Option.bind_eq_some_iff.mp hplay
            rw [hsteps, List.cons_append] at heq
            obtain ⟨rfl, rfl⟩ := List.cons.inj (Option.some.inj heq)
            exact ih hshows hlater rfl
          · rw [hsteps] at hplay
            cases hplay

/-- When there is nothing left to play every row is finalized. -/
theorem Ceremony.Shows.all_closed {fuel : ℕ} (h : c.Shows b precision intermediateTotals p)
    (hplay : c.play b precision intermediateTotals fuel = some []) : ∀ index ∈ p.order, index ∈ p.closed := by
  intro index hindex
  rw [h.order] at hindex
  rw [h.closed]
  by_contra hopen
  have hunfinished : c.finalized.card < c.order.length := by
    have hsub : c.finalized ⊂ c.order.toFinset := by
      refine Finset.ssubset_iff_subset_ne.mpr ⟨fun i hi => ?_, fun heq => ?_⟩
      · exact List.mem_toFinset.mpr (h.finalized i hi).1
      · rw [heq] at hopen
        exact hopen (List.mem_toFinset.mpr hindex)
    have hcard := Finset.card_lt_card hsub
    rwa [List.toFinset_card_of_nodup (h.perm.nodup_iff.mpr b.distinct)] at hcard
  cases fuel with
  | zero => cases hplay
  | succ fuel =>
      obtain ⟨step, c', hnext, _⟩ := h.next hunfinished
      rw [Ceremony.play, if_pos hunfinished, hnext, Option.bind_eq_bind, Option.bind_some] at hplay
      obtain ⟨later, _, heq⟩ := Option.bind_eq_some_iff.mp hplay
      cases heq

omit [DecidableEq κ] in
theorem Page.replay_append {done : List Step} : p.replay (done ++ [step]) = (p.replay done).after step := by
  rw [Page.replay, List.foldl_append]
  rfl

/-! ## The tail of the board -/

/-- No reveal of the row worsens its sort key. -/
def RevealRow.Improves (row : RevealRow κ) (precision : ℕ) (intermediateTotals : RevealRow κ → List κ → Totals) :
    Prop :=
  ∀ opened column left, row.pending = opened ++ column :: left →
    sortKey (row.shownTotals intermediateTotals (opened ++ [column])) precision ≤
      sortKey (row.shownTotals intermediateTotals opened) precision

/-- The finalized rows, the last of them first, are the tail of the order. -/
structure Page.Tail (p : Page) : Prop where
  nodup : p.order.Nodup
  le : p.closed.length ≤ p.order.length
  tail : p.closed.reverse = p.order.drop (p.order.length - p.closed.length)

omit [DecidableEq κ] in
/-- The lowest row that is not finalized is the one above the tail. -/
theorem Page.Tail.lowest {index position : ℕ} (h : p.Tail) (hlowest : p.Lowest index position) :
    position + 1 + p.closed.length = p.order.length := by
  obtain ⟨hlt, hget⟩ := List.getElem?_eq_some_iff.mp hlowest.here
  have hle := h.le
  have habove : position < p.order.length - p.closed.length := by
    by_contra hbelow
    -- it would be in the tail
    have hmem : index ∈ p.closed.reverse := by
      rw [h.tail, ← hget]
      exact List.mem_drop_iff_getElem.mpr ⟨position - (p.order.length - p.closed.length), by omega,
        by congr 1; omega⟩
    exact hlowest.unclosed (List.mem_reverse.mp hmem)
  by_contra hne
  have hnext : position + 1 < p.order.length := by omega
  have hclosed := hlowest.below (position + 1) (Nat.lt_succ_self _) _ (List.getElem?_eq_getElem hnext)
  rw [← List.mem_reverse, h.tail] at hclosed
  obtain ⟨i, hi, heq⟩ := List.mem_drop_iff_getElem.mp hclosed
  have := (List.Nodup.getElem_inj_iff h.nodup).mp heq
  omega

theorem Page.Tail.reveal {c c' : Ceremony κ} {index column position toPosition : ℕ} {totals : Totals}
    {order ranks : Option (List ℕ)} (h : p.Tail)
    (hacts : p.Acts b precision intermediateTotals (.reveal index column totals position toPosition order ranks))
    (hshows : c.Shows b precision intermediateTotals p)
    (hshows' : c'.Shows b precision intermediateTotals
      (p.after (.reveal index column totals position toPosition order ranks)))
    (himproves : ∀ row ∈ b.rows, row.Improves precision intermediateTotals) :
    (p.after (.reveal index column totals position toPosition order ranks)).Tail := by
  obtain ⟨hlowest, _, row, hrow, _, htotals⟩ := hacts.does
  obtain ⟨hmem, rfl⟩ := b.mem_of_row? hrow
  have hposition := h.lowest hlowest
  have hsort := hacts.ranked.order
  -- the key of the row is not worse, the other keys are the same
  have hself : keysOf precision (Function.update p.totals row.index totals) row.index ≤
      keysOf precision p.totals row.index := by
    have hpending : row.pending = p.opened row.index ++ column :: c'.left row.index := by
      simpa [Page.after] using hshows'.left row hmem
    have hbefore : p.totals row.index = row.shownTotals intermediateTotals (p.opened row.index) := by
      rw [hshows.totals, hshows.shown row hmem]
    rw [keysOf, keysOf, Function.update_self, htotals, hbefore]
    exact himproves row hmem _ _ _ hpending
  have hothers : ∀ other, other ≠ row.index →
      keysOf precision (Function.update p.totals row.index totals) other = keysOf precision p.totals other := by
    intro other hne
    rw [keysOf, keysOf, Function.update_of_ne hne]
  have hsorted : p.order.Pairwise (keysOf precision p.totals · ≤ keysOf precision p.totals ·) := by
    rw [hshows.order, hshows.totals]
    exact hshows.sorted
  have hsplit : p.order = p.order.take (position + 1) ++ p.closed.reverse := by
    rw [h.tail, show p.order.length - p.closed.length = position + 1 by omega, List.take_append_drop]
  have hopen : ∀ other ∈ p.closed.reverse, other ≠ row.index := by
    rintro other hother rfl
    exact hlowest.unclosed (List.mem_reverse.mp hother)
  rw [hsplit] at hsorted hsort
  obtain ⟨_, htail, hcross⟩ := List.pairwise_append.mp hsorted
  have horder := hsort.append
    (fun other hother below hbelow => by
      have hle := hcross other hother below hbelow
      rw [← hothers below (hopen below hbelow)] at hle
      by_cases heq : other = row.index
      · subst heq
        exact hself.trans hle
      · exact (hothers other heq).le.trans hle)
    (htail.imp_of_mem fun {other below} hother hbelow hle =>
      (hothers other (hopen other hother)).le.trans (hle.trans (hothers below (hopen below hbelow)).ge))
  refine ⟨(hacts.ranked.order.perm.nodup_iff).mpr h.nodup, ?_, ?_⟩
  · rw [hacts.ranked.order.perm.length_eq]
    exact h.le
  · have hclosed : (p.after (.reveal row.index column totals position toPosition order ranks)).closed = p.closed := rfl
    rw [hclosed, horder, List.length_append, List.length_reverse, Nat.add_sub_cancel, List.drop_left]

omit [DecidableEq κ] in
theorem Page.Tail.finalize {index position : ℕ} (h : p.Tail) (hlowest : p.Lowest index position) :
    (p.after (.finalize index position)).Tail := by
  have hposition := h.lowest hlowest
  refine ⟨h.nodup, ?_, ?_⟩
  · simp only [Page.after, List.length_append, List.length_singleton]
    omega
  · obtain ⟨hlt, hget⟩ := List.getElem?_eq_some_iff.mp hlowest.here
    simp only [Page.after, List.length_append, List.length_singleton, List.reverse_append, List.reverse_singleton,
      List.singleton_append]
    rw [show p.order.length - (p.closed.length + 1) = position by omega, List.drop_eq_getElem_cons hlt, hget, h.tail]
    congr 2
    omega

/-! ## The finalized rows and their places -/

/-- The row that a step finalizes, and where. -/
def Step.finalized : Step → Option (ℕ × ℕ)
  | .reveal .. => none
  | .finalize row position => some (row, position)

omit [DecidableEq κ] in
theorem Page.closed_replay : (p.replay steps).closed = p.closed ++ (steps.filterMap Step.finalized).map (·.1) := by
  induction steps generalizing p with
  | nil => simp [Page.replay]
  | cons step steps ih =>
      rw [show p.replay (step :: steps) = (p.after step).replay steps from rfl, ih]
      cases step <;> simp [Page.after, Step.finalized, List.filterMap_cons]

/-- The rows finalized so far have the last places, from the last one up. -/
structure Page.Closing (b : RevealBoard κ) (p : Page) (done : List Step) : Prop where
  tail : (p.replay done).Tail
  length : (p.replay done).order.length = b.rows.length
  places : (done.filterMap Step.finalized).map (·.2) =
    (List.range (done.filterMap Step.finalized).length).map (b.rows.length - 1 - ·)

/-- The ceremony from the last place to the first. -/
structure BottomUp (b : RevealBoard κ) (p : Page) (steps : List Step) : Prop where
  tail : ∀ done rest, steps = done ++ rest → (p.replay done).closed.reverse =
    (p.replay done).order.drop ((p.replay done).order.length - (p.replay done).closed.length)
  lasting : ∀ index position, .finalize index position ∈ steps → (p.replay steps).order[position]? = some index
  gapless : steps.filterMap (fun step => step.finalized.map (·.2)) = (List.range b.rows.length).reverse

theorem Page.Closing.next {c c' : Ceremony κ} {done : List Step} (h : p.Closing b done)
    (hacts : (p.replay done).Acts b precision intermediateTotals step)
    (hshows : c.Shows b precision intermediateTotals (p.replay done))
    (hshows' : c'.Shows b precision intermediateTotals (p.replay (done ++ [step])))
    (hstart : p.closed = []) (himproves : ∀ row ∈ b.rows, row.Improves precision intermediateTotals) :
    p.Closing b (done ++ [step]) := by
  have hlength : (p.replay (done ++ [step])).order.length = b.rows.length := by
    rw [hshows'.order, hshows'.perm.length_eq, List.length_map]
  rw [Page.replay_append] at hshows'
  cases step with
  | reveal index column totals position toPosition order ranks =>
      refine ⟨?_, hlength, ?_⟩
      · rw [Page.replay_append]
        exact h.tail.reveal hacts hshows hshows' himproves
      · have hnothing : [Step.reveal index column totals position toPosition order ranks].filterMap Step.finalized =
            [] := rfl
        rw [List.filterMap_append, hnothing, List.append_nil]
        exact h.places
  | finalize index position =>
      have hlowest : (p.replay done).Lowest index position := hacts.does.1
      have hposition := h.tail.lowest hlowest
      rw [h.length, Page.closed_replay, hstart, List.nil_append, List.length_map] at hposition
      refine ⟨?_, hlength, ?_⟩
      · rw [Page.replay_append]
        exact h.tail.finalize hlowest
      · have hlast : [Step.finalize index position].filterMap Step.finalized = [(index, position)] := rfl
        rw [List.filterMap_append, hlast, List.map_append, h.places, List.length_append, List.length_singleton,
          List.range_succ, List.map_append, List.map_singleton, List.map_singleton]
        congr 2
        omega

/-- At every step of a plan. -/
theorem Ceremony.Shows.closing {fuel : ℕ} (h : c.Shows b precision intermediateTotals p)
    (hplay : c.play b precision intermediateTotals fuel = some steps)
    (hacts : ∀ done step rest, steps = done ++ step :: rest →
      (p.replay done).Acts b precision intermediateTotals step)
    (hstart : p.closed = []) (himproves : ∀ row ∈ b.rows, row.Improves precision intermediateTotals)
    {done rest : List Step} (hsteps : steps = done ++ rest) : p.Closing b done := by
  induction done using List.reverseRecOn generalizing rest with
  | nil =>
      refine ⟨⟨?_, ?_, ?_⟩, ?_, rfl⟩
      · rw [show p.replay [] = p from rfl, h.order]
        exact h.perm.nodup_iff.mpr b.distinct
      · simp [Page.replay, hstart]
      · simp [Page.replay, hstart]
      · rw [show p.replay [] = p from rfl, h.order, h.perm.length_eq, List.length_map]
  | append_singleton done step ih =>
      rw [List.append_assoc, List.singleton_append] at hsteps
      obtain ⟨c₁, _, hshows, _⟩ := h.onward hplay hsteps
      obtain ⟨c₂, _, hshows', _⟩ := h.onward hplay (hsteps.trans (List.append_cons done step rest))
      exact (ih hsteps).next (hacts done step rest hsteps) hshows hshows' hstart himproves

/-- Rows that a reveal never sets back are finalized from the last place to the first, each in the place it ends at. -/
theorem bottom_up (b : RevealBoard κ) (precision : ℕ) (intermediateTotals : RevealRow κ → List κ → Totals)
    (himproves : ∀ row ∈ b.rows, row.Improves precision intermediateTotals) :
    ∃ order ranks steps,
      (∀ fuel, b.steps < fuel → planReveal b precision intermediateTotals fuel = some (order, ranks, steps)) ∧
      BottomUp b (b.page order ranks) steps := by
  have hstart : (b.start precision).Shows b precision intermediateTotals _ := b.start_shows
  obtain ⟨steps, hplay, hplays⟩ := hstart.plays
  rw [RevealBoard.start_work] at hplay
  refine ⟨(b.start precision).order, (b.start precision).ranks, steps, ?_, ?_⟩
  · intro fuel hfuel
    simp [planReveal, hplay fuel hfuel]
  · have hplay' := hplay (b.steps + 1) (Nat.lt_succ_self _)
    generalize hp : b.page (b.start precision).order (b.start precision).ranks = p at hstart hplays
    have hnone : p.closed = [] := by
      rw [← hp]
      rfl
    have hclosing : ∀ done rest, steps = done ++ rest → p.Closing b done := fun done rest hsteps =>
      hstart.closing hplay' hplays.acts hnone himproves hsteps
    obtain ⟨htail, hlength, hplaces⟩ := hclosing steps [] (List.append_nil steps).symm
    -- at the end every row is finalized
    have hall : (p.replay steps).closed.reverse = (p.replay steps).order := by
      obtain ⟨last, fuel, hshows, hover⟩ := hstart.onward hplay' (List.append_nil steps).symm
      have hsub := hshows.all_closed hover
      have hle := (htail.nodup.subperm fun index hindex => hsub index hindex).length_le
      rw [htail.tail, Nat.sub_eq_zero_of_le hle, List.drop_zero]
    have hcount : (steps.filterMap Step.finalized).length = b.rows.length := by
      rw [← hlength, ← hall, List.length_reverse, Page.closed_replay, hnone, List.nil_append, List.length_map]
    refine ⟨fun done rest hsteps => (hclosing done rest hsteps).tail.tail, ?_, ?_⟩
    · intro index position hmem
      obtain ⟨done, rest, hsteps⟩ := List.append_of_mem hmem
      have hlowest : (p.replay done).Lowest index position := (hplays.acts done _ rest hsteps).does.1
      obtain ⟨htail', hlength', _⟩ := hclosing done _ hsteps
      have hposition := htail'.lowest hlowest
      have hclosed : (p.replay steps).closed =
          (p.replay done).closed ++ index :: (rest.filterMap Step.finalized).map (·.1) := by
        rw [Page.closed_replay, Page.closed_replay, hsteps, List.filterMap_append, List.map_append,
          List.append_assoc]
        rfl
      have hlast : (p.replay steps).closed.length = (p.replay steps).order.length := by
        rw [← hall, List.length_reverse]
      rw [← hall, List.getElem?_reverse (by omega), hclosed]
      rw [hclosed] at hlast
      rw [show ((p.replay done).closed ++ index :: (rest.filterMap Step.finalized).map (·.1)).length - 1 - position =
        (p.replay done).closed.length by omega]
      simp
    · rw [show (fun step : Step => step.finalized.map (·.2)) = fun step => (step.finalized).map Prod.snd from rfl,
        ← List.map_filterMap, hplaces, hcount]
      apply List.ext_getElem
      · simp
      · intro i hi _
        simp

/-- The first team had one problem when the scoreboard froze, the second had none and then solved both. -/
def climbing : RevealBoard ℕ where
  rows := [⟨0, [1, 0], [1, 0], ⟨some 1, some 30, none⟩, ⟨some 1, some 30, none⟩, [0, 0], rfl, rfl⟩,
    ⟨1, [0, 0], [1, 1], ⟨some 0, some 0, none⟩, ⟨some 2, some 90, none⟩, [1, 1], rfl, rfl⟩]
  distinct := by decide

theorem climbing_improves :
    ∀ row ∈ climbing.rows, row.Improves 0 fun _ cells => ⟨some cells.sum, some 40, none⟩ := by
  intro row hrow opened column left hpending
  simp only [climbing, List.mem_cons, List.not_mem_nil, or_false] at hrow
  rcases hrow with rfl | rfl
  · -- nothing is hidden
    exact absurd (hpending.symm.trans (show _ = [] by decide)) (by simp)
  · have htwo : opened ++ column :: left = [0, 1] := hpending.symm.trans (by decide)
    rcases opened with _ | ⟨first, _ | ⟨second, opened⟩⟩
    · obtain ⟨rfl, rfl⟩ := List.cons.inj htwo
      decide +kernel
    · obtain ⟨rfl, hrest⟩ := List.cons.inj htwo
      obtain ⟨rfl, rfl⟩ := List.cons.inj hrest
      decide +kernel
    · simp at htwo

theorem bottom_up_climb :
    planReveal climbing 0 (fun _ cells => ⟨some cells.sum, some 40, none⟩) 5 =
        some ([0, 1], [1, 2], [.reveal 1 0 ⟨some 1, some 40, none⟩ 1 1 none none,
          .reveal 1 1 ⟨some 2, some 90, none⟩ 1 0 (some [1, 0]) none, .finalize 0 1, .finalize 1 0]) ∧
      ∃ order ranks steps,
        (∀ fuel, climbing.steps < fuel →
          planReveal climbing 0 (fun _ cells => ⟨some cells.sum, some 40, none⟩) fuel = some (order, ranks, steps)) ∧
        BottomUp climbing (climbing.page order ranks) steps :=
  ⟨by decide +kernel, bottom_up climbing 0 _ climbing_improves⟩

end Contest
end CpcJudge
