import CpcJudge.Contest.BottomUp

/-!
# `Contest.Awards` — when a row is congratulated

`assemble_reveal` goes over the steps of the plan once more, and notes for each row the last step that changed its
rank or finalized it. A finalized row has nothing left to uncover and stays finalized, so from that step on the
page shows the row as it ends, and one step earlier it does not.
-/

namespace CpcJudge
namespace Contest

open Ranking

/-! ## The last change of a sequence -/

section LastChange
variable {β : Type*} [DecidableEq β] {o : ℕ → β}

/-- The last number up to `n` at which the sequence changes. -/
def lastChange (o : ℕ → β) : ℕ → ℕ
  | 0 => 0
  | n + 1 => if o (n + 1) ≠ o n then n + 1 else lastChange o n

/-- From the last change on the sequence is as it ends, and from no number before it. -/
theorem isLeast_lastChange (n : ℕ) : IsLeast {k | k ≤ n ∧ ∀ j, k ≤ j → j ≤ n → o j = o n} (lastChange o n) := by
  induction n with
  | zero =>
      refine ⟨⟨le_rfl, fun j _ hj => ?_⟩, fun _ _ => Nat.zero_le _⟩
      rw [Nat.le_zero.mp hj]
  | succ n ih =>
      obtain ⟨⟨hle, hsame⟩, hleast⟩ := ih
      by_cases hchange : o (n + 1) = o n
      · rw [lastChange, if_neg (not_not_intro hchange)]
        refine ⟨⟨hle.trans n.le_succ, fun j hj hjn => ?_⟩, fun k hk => ?_⟩
        · rcases Nat.lt_or_eq_of_le hjn with hlt | rfl
          · rw [hchange]
            exact hsame j hj (Nat.le_of_lt_succ hlt)
          · rfl
        · rcases Nat.lt_or_eq_of_le hk.1 with hlt | rfl
          · refine hleast ⟨Nat.le_of_lt_succ hlt, fun j hj hjn => ?_⟩
            rw [← hchange]
            exact hk.2 j hj (hjn.trans n.le_succ)
          · exact hle.trans n.le_succ
      · rw [lastChange, if_pos hchange]
        refine ⟨⟨le_rfl, fun j hj hjn => by rw [le_antisymm hjn hj]⟩, fun k hk => ?_⟩
        by_contra hlt
        exact hchange (hk.2 n (by omega) n.le_succ).symm

end LastChange

/-! ## The loop -/

/-- `dict(zip(order, ranks))`: the order has each row once. -/
def rankIn (order ranks : List ℕ) (row : ℕ) : Option ℕ := (order.zip ranks).lookup row

/-- `step.get('order', award_order)`. -/
def Step.getOrder : Step → List ℕ → List ℕ
  | .reveal _ _ _ _ _ order _, awardOrder => order.getD awardOrder
  | .finalize .., awardOrder => awardOrder

/-- `step.get('ranks', award_ranks)`. -/
def Step.getRanks : Step → List ℕ → List ℕ
  | .reveal _ _ _ _ _ _ ranks, awardRanks => ranks.getD awardRanks
  | .finalize .., awardRanks => awardRanks

/-- The variables of the loop. -/
structure Awards where
  awardOrder : List ℕ
  awardRanks : List ℕ
  awardSteps : ℕ → ℕ

/-- One turn of the inner loop: a row and its new rank. `none` is the `KeyError` of `old_rank[row]`. -/
def Awards.rankRow (a : Awards) (number : ℕ) (awardSteps : ℕ → ℕ) (item : ℕ × ℕ) : Option (ℕ → ℕ) := do
  let oldRank ← rankIn a.awardOrder a.awardRanks item.1
  some (if oldRank ≠ item.2 then Function.update awardSteps item.1 number else awardSteps)

/-- `if step['kind'] == 'finalize'`. -/
def Step.closeRow (step : Step) (number : ℕ) (awardSteps : ℕ → ℕ) : ℕ → ℕ :=
  match step with
  | .finalize row _ => Function.update awardSteps row number
  | .reveal .. => awardSteps

/-- One turn of the loop: a step and its number. -/
def Awards.next (a : Awards) (item : Step × ℕ) : Option Awards := do
  let newOrder := item.1.getOrder a.awardOrder
  let newRanks := item.1.getRanks a.awardRanks
  let awardSteps ← (newOrder.zip newRanks).foldlM (a.rankRow item.2) a.awardSteps
  some ⟨newOrder, newRanks, item.1.closeRow item.2 awardSteps⟩

/-- What the page reads about a row at the end. -/
structure RowAward where
  row : ℕ
  finalRank : ℕ
  finalPosition : ℕ
  awardStep : ℕ
  deriving DecidableEq, Repr

/-- `row_data[row].update(…)`, for every row of the last order. -/
def Awards.rows (a : Awards) : List RowAward :=
  ((a.awardOrder.zip a.awardRanks).zipIdx 1).map fun item => ⟨item.1.1, item.1.2, item.2, a.awardSteps item.1.1⟩

/-- The end of `assemble_reveal`. -/
def assembleAwards (order ranks : List ℕ) (steps : List Step) : Option (List RowAward) :=
  ((steps.zipIdx 1).foldlM Awards.next ⟨order, ranks, fun _ => 0⟩).map Awards.rows

/-! ## What the loop notes -/

/-- The rank that the page shows for a row. -/
def Page.rank? (p : Page) (row : ℕ) : Option ℕ := rankIn p.order p.ranks row

theorem rankIn_map {order : List ℕ} {rank : ℕ → ℕ} {row : ℕ} (h : row ∈ order) :
    rankIn order (order.map rank) row = some (rank row) := by
  induction order with
  | nil => cases h
  | cons first order ih =>
      rw [rankIn, List.map_cons, List.zip_cons_cons, List.lookup_cons]
      by_cases heq : row = first
      · rw [heq, beq_self_eq_true]
      · rw [beq_false_of_ne heq]
        exact ih ((List.mem_cons.mp h).resolve_left heq)

theorem mem_zip_map {order : List ℕ} {rank : ℕ → ℕ} {item : ℕ × ℕ} :
    item ∈ order.zip (order.map rank) ↔ item.1 ∈ order ∧ item.2 = rank item.1 := by
  induction order with
  | nil => simp
  | cons first order ih =>
      rw [List.map_cons, List.zip_cons_cons, List.mem_cons, List.mem_cons, ih]
      constructor
      · rintro (rfl | ⟨hmem, hrank⟩)
        · exact ⟨.inl rfl, rfl⟩
        · exact ⟨.inr hmem, hrank⟩
      · rintro ⟨hmem, hrank⟩
        rcases hmem with hfirst | hmem
        · exact .inl (Prod.ext hfirst (hfirst ▸ hrank))
        · exact .inr ⟨hmem, hrank⟩

theorem Awards.rows_row {a : Awards} {rank : ℕ → ℕ} (h : a.awardRanks = a.awardOrder.map rank) :
    a.rows.map (·.row) = a.awardOrder := by
  have hzip : (a.awardOrder.zip a.awardRanks).map Prod.fst = a.awardOrder :=
    List.map_fst_zip (by rw [h, List.length_map])
  calc a.rows.map (·.row)
      = ((a.awardOrder.zip a.awardRanks).zipIdx 1).map (Prod.fst ∘ Prod.fst) := List.map_map
    _ = (a.awardOrder.zip a.awardRanks).map Prod.fst := by rw [← List.map_map, List.zipIdx_map_fst]
    _ = a.awardOrder := hzip

theorem Awards.of_mem_rows {a : Awards} {award : RowAward} (h : award ∈ a.rows) :
    (award.row, award.finalRank) ∈ a.awardOrder.zip a.awardRanks ∧ award.awardStep = a.awardSteps award.row := by
  obtain ⟨item, hitem, rfl⟩ := List.mem_map.mp h
  have hmem : item.1 ∈ ((a.awardOrder.zip a.awardRanks).zipIdx 1).map Prod.fst := List.mem_map_of_mem hitem
  rw [List.zipIdx_map_fst] at hmem
  exact ⟨hmem, rfl⟩

/-- The inner loop notes the rows whose rank is not the one they had. -/
theorem Awards.foldlM_rankRow {a : Awards} (number : ℕ) {items : List (ℕ × ℕ)} (awardSteps : ℕ → ℕ)
    (h : ∀ item ∈ items, (rankIn a.awardOrder a.awardRanks item.1).isSome) :
    ∃ awardSteps', items.foldlM (a.rankRow number) awardSteps = some awardSteps' ∧ ∀ row, awardSteps' row =
      if ∃ item ∈ items, item.1 = row ∧ rankIn a.awardOrder a.awardRanks row ≠ some item.2 then number
      else awardSteps row := by
  induction items generalizing awardSteps with
  | nil => exact ⟨awardSteps, rfl, fun row => by simp⟩
  | cons item items ih =>
      obtain ⟨oldRank, hold⟩ := Option.isSome_iff_exists.mp (h item List.mem_cons_self)
      have hrow : a.rankRow number awardSteps item =
          some (if oldRank ≠ item.2 then Function.update awardSteps item.1 number else awardSteps) := by
        rw [Awards.rankRow, hold]
        rfl
      obtain ⟨awardSteps', hfold, hnoted⟩ := ih
        (if oldRank ≠ item.2 then Function.update awardSteps item.1 number else awardSteps)
        fun other hother => h other (List.mem_cons_of_mem _ hother)
      refine ⟨awardSteps', by rw [List.foldlM_cons, hrow]; exact hfold, fun row => ?_⟩
      rw [hnoted row]
      by_cases hlater : ∃ item ∈ items, item.1 = row ∧ rankIn a.awardOrder a.awardRanks row ≠ some item.2
      · obtain ⟨other, hother, hchange⟩ := hlater
        rw [if_pos ⟨other, hother, hchange⟩, if_pos ⟨other, List.mem_cons_of_mem _ hother, hchange⟩]
      · rw [if_neg hlater]
        by_cases hself : item.1 = row ∧ oldRank ≠ item.2
        · obtain ⟨rfl, hne⟩ := hself
          rw [if_pos hne, Function.update_self, if_pos ⟨item, List.mem_cons_self, rfl, by simpa [hold] using hne⟩]
        · have hsame : (if oldRank ≠ item.2 then Function.update awardSteps item.1 number else awardSteps) row =
              awardSteps row := by
            by_cases hne : oldRank = item.2
            · rw [if_neg (not_not_intro hne)]
            · rw [if_pos hne, Function.update_of_ne fun heq => hself ⟨heq.symm, hne⟩]
          rw [hsame, if_neg]
          rintro ⟨other, hother, rfl, hchange⟩
          rcases List.mem_cons.mp hother with rfl | hother
          · refine hself ⟨rfl, fun heq => hchange ?_⟩
            rw [hold, heq]
          · exact hlater ⟨other, hother, rfl, hchange⟩

variable {κ : Type} [DecidableEq κ] {b : RevealBoard κ} {row : RevealRow κ} {precision : ℕ}
  {intermediateTotals : RevealRow κ → List κ → Totals} {c : Ceremony κ} {p : Page} {step : Step} {steps : List Step}

/-- What the page shows of the place of a row: its rank, and whether it is finalized. -/
def Page.place (p : Page) (row : ℕ) : Option ℕ × Bool := (p.rank? row, decide (row ∈ p.closed))

/-- The loop has gone over the steps of `done`, from the page `p`. -/
structure Awards.Notes (b : RevealBoard κ) (p : Page) (steps done : List Step) (a : Awards) : Prop where
  order : a.awardOrder = (p.replay done).order
  ranks : a.awardRanks = (p.replay done).ranks
  noted : ∀ row ∈ b.rows,
    a.awardSteps row.index = lastChange (fun k => (p.replay (steps.take k)).place row.index) done.length

theorem Awards.Notes.next {a : Awards} {done rest : List Step} (h : a.Notes b p steps done)
    (hsteps : steps = done ++ step :: rest) (hshows : c.Shows b precision intermediateTotals (p.replay done))
    (hacts : (p.replay done).Acts b precision intermediateTotals step) :
    ∃ a', a.next (step, done.length + 1) = some a' ∧ a'.Notes b p steps (done ++ [step]) := by
  have hbefore : steps.take done.length = done := by rw [hsteps, List.take_left]
  have hafter : steps.take (done.length + 1) = done ++ [step] := by
    rw [hsteps, List.append_cons, show done.length + 1 = (done ++ [step]).length by simp, List.take_left]
  have hreplay : p.replay (done ++ [step]) = (p.replay done).after step := Page.replay_append
  have horder : step.getOrder a.awardOrder = ((p.replay done).after step).order := by
    rw [h.order]
    cases step <;> rfl
  have hranks : step.getRanks a.awardRanks = ((p.replay done).after step).ranks := by
    rw [h.ranks]
    cases step <;> rfl
  -- the row of every item had a rank before
  have hrank : ∀ index ∈ (p.replay done).order, (rankIn a.awardOrder a.awardRanks index).isSome := by
    intro index hindex
    rw [h.order, h.ranks, hshows.ranks, hshows.ranked, ← hshows.order, rankIn_map hindex]
    rfl
  have hitems : ∀ item, item ∈ (step.getOrder a.awardOrder).zip (step.getRanks a.awardRanks) ↔
      item.1 ∈ (p.replay done).order ∧ ((p.replay done).after step).rank? item.1 = some item.2 := by
    intro item
    rw [horder, hranks, hacts.ranked.ranks, mem_zip_map, hacts.ranked.order.mem_iff]
    refine and_congr_right fun hitem => ?_
    rw [Page.rank?, hacts.ranked.ranks, rankIn_map (hacts.ranked.order.mem_iff.mpr hitem), Option.some_inj, eq_comm]
  obtain ⟨awardSteps, hfold, hnoted⟩ := Awards.foldlM_rankRow (done.length + 1) a.awardSteps
    fun item hitem => hrank item.1 ((hitems item).mp hitem).1
  have hnext : a.next (step, done.length + 1) = some
      ⟨step.getOrder a.awardOrder, step.getRanks a.awardRanks, step.closeRow (done.length + 1) awardSteps⟩ := by
    rw [Awards.next, hfold]
    rfl
  refine ⟨_, hnext, ⟨by rw [hreplay]; exact horder, by rw [hreplay]; exact hranks, fun row hrow => ?_⟩⟩
  have hin : row.index ∈ (p.replay done).order := by
    rw [hshows.order, hshows.perm.mem_iff]
    exact List.mem_map_of_mem hrow
  -- a row whose rank changes is noted by the inner loop
  have hchanged : awardSteps row.index =
      if ((p.replay done).after step).rank? row.index ≠ (p.replay done).rank? row.index then done.length + 1
      else lastChange (fun k => (p.replay (steps.take k)).place row.index) done.length := by
    rw [hnoted row.index, h.noted row hrow, Page.rank?, Page.rank?, ← h.order, ← h.ranks, ← Page.rank?]
    refine if_congr ⟨?_, fun hne => ?_⟩ rfl rfl
    · rintro ⟨item, hitem, heq, hne⟩ hsame
      rw [← heq, ((hitems item).mp hitem).2] at hsame
      exact hne (heq ▸ hsame.symm)
    · have hsome : ((p.replay done).after step).rank? row.index =
          some (competitionRank (keysOf precision ((p.replay done).after step).totals)
            ((p.replay done).after step).order row.index) := by
        rw [Page.rank?, hacts.ranked.ranks, rankIn_map (hacts.ranked.order.mem_iff.mpr hin)]
      refine ⟨(row.index, _), (hitems _).mpr ⟨hin, hsome⟩, rfl, fun heq => hne ?_⟩
      rw [hsome]
      exact heq.symm
  rw [List.length_append, List.length_singleton, lastChange, hafter, hbefore, hreplay]
  cases step with
  | reveal index column totals position toPosition order ranks =>
      refine hchanged.trans (if_congr (not_congr ?_) rfl rfl)
      rw [Page.place, Page.place, Prod.mk.injEq]
      exact (and_iff_left rfl).symm
  | finalize index position =>
      have hunclosed : index ∉ (p.replay done).closed := (hacts.does.1 : Page.Lowest _ index position).unclosed
      by_cases hself : row.index = index
      · -- the row is finalized now
        dsimp only [Step.closeRow]
        rw [hself, Function.update_self, if_pos]
        intro hsame
        have hclosed := (Prod.mk.inj hsame).2
        rw [decide_eq_false hunclosed] at hclosed
        simp [Page.after] at hclosed
      · dsimp only [Step.closeRow]
        rw [Function.update_of_ne hself]
        refine hchanged.trans (if_congr (not_congr ?_) rfl rfl)
        rw [Page.place, Page.place, Prod.mk.injEq]
        refine (and_iff_left ?_).symm
        simp [Page.after, hself]

/-- The loop goes over the whole plan. -/
theorem Ceremony.Shows.notes {fuel : ℕ} (h : c.Shows b precision intermediateTotals p)
    (hplay : c.play b precision intermediateTotals fuel = some steps)
    (hacts : ∀ done step rest, steps = done ++ step :: rest →
      (p.replay done).Acts b precision intermediateTotals step)
    {done rest : List Step} (hsteps : steps = done ++ rest) :
    ∃ a, (done.zipIdx 1).foldlM Awards.next ⟨p.order, p.ranks, fun _ => 0⟩ = some a ∧ a.Notes b p steps done := by
  induction done using List.reverseRecOn generalizing rest with
  | nil => exact ⟨_, rfl, rfl, rfl, fun row _ => rfl⟩
  | append_singleton done step ih =>
      rw [List.append_assoc, List.singleton_append] at hsteps
      obtain ⟨a, hfold, hnotes⟩ := ih hsteps
      obtain ⟨c', _, hshows, _⟩ := h.onward hplay hsteps
      obtain ⟨a', hnext, hnotes'⟩ := hnotes.next hsteps hshows (hacts done step rest hsteps)
      refine ⟨a', ?_, hnotes'⟩
      rw [List.zipIdx_append, List.foldlM_append, hfold, Nat.add_comm 1]
      simpa using hnext

/-- What a row must show to be congratulated after `k` steps: all its cells, that it is finalized, and a rank that
stays, the one it ends with. -/
structure Page.Awarded (p : Page) (steps : List Step) (row : RevealRow κ) (finalRank k : ℕ) : Prop where
  le : k ≤ steps.length
  revealed : (p.replay (steps.take k)).opened row.index = row.pending
  finalized : row.index ∈ (p.replay (steps.take k)).closed
  lasts : ∀ j, k ≤ j → j ≤ steps.length → (p.replay (steps.take j)).rank? row.index = some finalRank

theorem Ceremony.Shows.awarded_iff {fuel finalRank k : ℕ} (h : c.Shows b precision intermediateTotals p)
    (hplay : c.play b precision intermediateTotals fuel = some steps) (hrow : row ∈ b.rows)
    (hrank : (p.replay steps).rank? row.index = some finalRank) :
    p.Awarded steps row finalRank k ↔
      k ≤ steps.length ∧ ∀ j, k ≤ j → j ≤ steps.length →
        (p.replay (steps.take j)).place row.index = (p.replay (steps.take steps.length)).place row.index := by
  have hlast : row.index ∈ (p.replay steps).closed := by
    obtain ⟨last, _, hshows, hover⟩ := h.onward hplay (List.append_nil steps).symm
    refine hshows.all_closed hover _ ?_
    rw [hshows.order, hshows.perm.mem_iff]
    exact List.mem_map_of_mem hrow
  rw [List.take_length]
  constructor
  · rintro ⟨hle, _, hfinalized, hlasts⟩
    refine ⟨hle, fun j hj hjn => ?_⟩
    -- what is finalized stays so
    have hclosed : row.index ∈ (p.replay (steps.take j)).closed := by
      rw [Page.closed_replay] at hfinalized ⊢
      refine (List.mem_append.mp hfinalized).elim (List.mem_append_left _) fun hmem => List.mem_append_right _ ?_
      exact ((((List.take_prefix_take_left hj).sublist.filterMap _).map _).subset hmem)
    rw [Page.place, Page.place, hlasts j hj hjn, hrank, decide_eq_true hclosed, decide_eq_true hlast]
  · rintro ⟨hle, hsame⟩
    have hclosed : row.index ∈ (p.replay (steps.take k)).closed := by
      have hseen := (Prod.mk.inj (hsame k le_rfl hle)).2
      rw [decide_eq_true hlast] at hseen
      exact of_decide_eq_true hseen
    refine ⟨hle, ?_, hclosed, fun j hj hjn => (Prod.mk.inj (hsame j hj hjn)).1.trans hrank⟩
    obtain ⟨c', _, hshows, _⟩ := h.onward hplay (List.take_append_drop k steps).symm
    have hnothing := (hshows.finalized _ ((hshows.closed _).mp hclosed)).2
    rw [hshows.left row hrow, hnothing, List.append_nil]

/-- Every row is congratulated at the first step after which it is complete, finalized and in the rank it ends with. -/
theorem award_step (b : RevealBoard κ) (precision : ℕ) (intermediateTotals : RevealRow κ → List κ → Totals) :
    ∃ order ranks steps awards,
      (∀ fuel, b.steps < fuel → planReveal b precision intermediateTotals fuel = some (order, ranks, steps)) ∧
      assembleAwards order ranks steps = some awards ∧
      (awards.map (·.row)).Perm (b.rows.map (·.index)) ∧
      ∀ award ∈ awards, ∀ row ∈ b.rows, row.index = award.row →
        IsLeast {k | (b.page order ranks).Awarded steps row award.finalRank k} award.awardStep := by
  have hstart : (b.start precision).Shows b precision intermediateTotals _ := b.start_shows
  obtain ⟨steps, hplay, hplays⟩ := hstart.plays
  rw [RevealBoard.start_work] at hplay
  have hplay' := hplay (b.steps + 1) (Nat.lt_succ_self _)
  obtain ⟨a, hfold, hnotes⟩ := hstart.notes hplay' hplays.acts (List.append_nil steps).symm
  obtain ⟨last, _, hshows, _⟩ := hstart.onward hplay' (List.append_nil steps).symm
  have hranks : a.awardRanks = a.awardOrder.map (competitionRank (keysOf precision last.totals) a.awardOrder) := by
    rw [hnotes.ranks, hnotes.order, hshows.ranks, hshows.ranked, hshows.order]
  refine ⟨(b.start precision).order, (b.start precision).ranks, steps, a.rows, ?_, ?_, ?_, ?_⟩
  · intro fuel hfuel
    simp [planReveal, hplay fuel hfuel]
  · exact congrArg (Option.map Awards.rows) hfold
  · rw [Awards.rows_row hranks, hnotes.order, hshows.order]
    exact hshows.perm
  · intro award haward row hrow hindex
    obtain ⟨hitem, hstep⟩ := Awards.of_mem_rows haward
    rw [hranks, mem_zip_map] at hitem
    have hrank : ((b.page (b.start precision).order (b.start precision).ranks).replay steps).rank? row.index =
        some award.finalRank := by
      rw [Page.rank?, ← hnotes.order, ← hnotes.ranks, hranks, hindex, rankIn_map hitem.1]
      exact congrArg some hitem.2.symm
    rw [hstep, ← hindex, hnotes.noted row hrow, Set.ext fun k => hstart.awarded_iff hplay' hrow hrank]
    exact isLeast_lastChange steps.length

end Contest
end CpcJudge
