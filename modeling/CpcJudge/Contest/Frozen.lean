import CpcJudge.Contest.Freeze

/-!
# `Contest.Frozen` — the frozen board shows the start of the freeze

The copy of a participation is its live totals just before the recomputation that took it. So the public row
shows the totals at the start of the freeze window as long as the copy was taken by the first recomputation
since that start, and there is none when there was no such recomputation. Recomputations and verdicts keep
this. A change of the freeze may not: it moves the start and leaves the copy where it was.
-/

namespace CpcJudge
namespace Contest

variable {c : ContestRow} {p q : ContestParticipation} {b : Board} {events : List Timed} {e : Timed} {start t : Time}

/-! ## A participation by itself -/

/-- A participation at the end of a history of its contest. -/
def ContestParticipation.run (p : ContestParticipation) (c : ContestRow) : List Timed → ContestParticipation
  | [] => p
  | e :: events => (p.after c e).run (c.after e.event) events

def ContestRow.run (c : ContestRow) (events : List Timed) : ContestRow := events.foldl (fun c e => c.after e.event) c

theorem Board.run_eq : ∀ (events : List Timed) (b : Board),
    b.run events = { contest := b.contest.run events, rows := b.rows.map (·.run b.contest events) } := by
  intro events
  induction events with
  | nil => intro b; simp [Board.run, ContestRow.run, ContestParticipation.run]
  | cons e events ih =>
      intro b
      have htail : b.run (e :: events) = (b.after e).run events := rfl
      rw [htail, ih]
      simp [Board.after, ContestRow.run, ContestParticipation.run, Function.comp_def]

theorem ContestParticipation.run_append (p : ContestParticipation) : ∀ (events more : List Timed) (c : ContestRow),
    p.run c (events ++ more) = (p.run c events).run (c.run events) more := by
  intro events
  induction events generalizing p with
  | nil => intro more c; rfl
  | cons e events ih =>
      intro more c
      exact ih (p.after c e) more (c.after e.event)

theorem ContestParticipation.run_concat : p.run c (events ++ [e]) = (p.run c events).after (c.run events) e :=
  p.run_append events [e] c

theorem ContestRow.run_concat : c.run (events ++ [e]) = (c.run events).after e.event := by simp [ContestRow.run]

/-- What no event changes: who takes part, when they started, and as what. -/
structure ContestParticipation.SamePlace (p q : ContestParticipation) : Prop where
  id : q.id = p.id
  realStart : q.realStart = p.realStart
  virtual : q.virtual = p.virtual
  team : q.team = p.team
  isDisqualified : q.isDisqualified = p.isDisqualified

theorem ContestParticipation.freezeScoreboard_same (p : ContestParticipation) (c : ContestRow) (now : Time) :
    p.SamePlace (p.freezeScoreboard c now) := by
  unfold ContestParticipation.freezeScoreboard
  split <;> exact ⟨rfl, rfl, rfl, rfl, rfl⟩

theorem ContestParticipation.after_same (p : ContestParticipation) (c : ContestRow) (e : Timed) :
    p.SamePlace (p.after c e) := by
  unfold ContestParticipation.after
  split
  · split
    · obtain ⟨h1, h2, h3, h4, h5⟩ := p.freezeScoreboard_same c e.now
      exact ⟨h1, h2, h3, h4, h5⟩
    · exact ⟨rfl, rfl, rfl, rfl, rfl⟩
  · split <;> exact ⟨rfl, rfl, rfl, rfl, rfl⟩
  · exact ⟨rfl, rfl, rfl, rfl, rfl⟩

theorem ContestParticipation.run_same : ∀ (events : List Timed) (p : ContestParticipation) (c : ContestRow),
    p.SamePlace (p.run c events) := by
  intro events
  induction events with
  | nil => intro p c; exact ⟨rfl, rfl, rfl, rfl, rfl⟩
  | cons e events ih =>
      intro p c
      obtain ⟨h1, h2, h3, h4, h5⟩ := p.after_same c e
      obtain ⟨g1, g2, g3, g4, g5⟩ := ih (p.after c e) (c.after e.event)
      exact ⟨g1.trans h1, g2.trans h2, g3.trans h3, g4.trans h4, g5.trans h5⟩

theorem ContestParticipation.SamePlace.freezeStartsAt (h : p.SamePlace q) (c : ContestRow) :
    q.freezeStartsAt c = p.freezeStartsAt c := by
  simp only [ContestParticipation.freezeStartsAt, ContestParticipation.endTime, h.realStart, h.virtual]

/-! ## Histories -/

/-- The events happen in the order of the list. -/
def InOrder (events : List Timed) : Prop := events.Pairwise fun e f => e.now ≤ f.now

/-- The events before a moment. -/
def before (t : Time) (events : List Timed) : List Timed := events.filter (·.now < t)

/-- The moment of an event that recomputes a participation. -/
def Timed.recomputes (id : ℕ) (e : Timed) : Option Time :=
  match e.event with
  | .recompute other => if other = id then some e.now else none
  | _ => none

/-- The moments at which a participation was recomputed. -/
def recomputed (id : ℕ) (events : List Timed) : List Time := events.filterMap (Timed.recomputes id)

theorem Timed.recomputes_eq {id : ℕ} (h : e.recomputes id = some t) : e.event = .recompute id ∧ e.now = t := by
  unfold Timed.recomputes at h
  split at h
  · rename_i other hevent
    split at h
    · rename_i heq
      exact ⟨heq ▸ hevent, Option.some.inj h⟩
    · exact absurd h (by simp)
  · exact absurd h (by simp)

theorem mem_recomputed {id : ℕ} : t ∈ recomputed id events ↔ ∃ e ∈ events, e.event = .recompute id ∧ e.now = t := by
  simp only [recomputed, List.mem_filterMap]
  constructor
  · rintro ⟨e, he, h⟩
    exact ⟨e, he, Timed.recomputes_eq h⟩
  · rintro ⟨e, he, hevent, rfl⟩
    exact ⟨e, he, by simp [Timed.recomputes, hevent]⟩

/-- What happened before a moment is how the history begins. -/
theorem InOrder.split (h : InOrder events) (t : Time) : events = before t events ++ events.filter (t ≤ ·.now) := by
  induction events with
  | nil => rfl
  | cons e events ih =>
      obtain ⟨hfirst, hrest⟩ := List.pairwise_cons.mp h
      by_cases hlt : e.now < t
      · have hnot : ¬ t ≤ e.now := not_le.mpr hlt
        rw [before, List.filter_cons_of_pos (by simpa using hlt), List.filter_cons_of_neg (by simpa using hnot),
          List.cons_append]
        exact congrArg _ (ih hrest)
      · have hlate : ∀ f ∈ e :: events, t ≤ f.now := by
          intro f hf
          rcases List.mem_cons.mp hf with rfl | hf
          · exact not_lt.mp hlt
          · exact (not_lt.mp hlt).trans (hfirst f hf)
        have hnone : before t (e :: events) = [] := by
          rw [before, List.filter_eq_nil_iff]
          intro f hf
          simpa using hlate f hf
        have hall : (e :: events).filter (t ≤ ·.now) = e :: events := by
          rw [List.filter_eq_self]
          intro f hf
          simpa using hlate f hf
        rw [hnone, hall, List.nil_append]

theorem InOrder.before (h : InOrder events) : InOrder (before t events) := h.filter _

theorem before_before {s : Time} (hst : s ≤ t) : before s (before t events) = before s events := by
  rw [before, before, before, List.filter_filter]
  apply List.filter_congr
  intro e _
  by_cases hs : e.now < s
  · simp [hs, hs.trans_le hst]
  · simp [hs]

theorem before_concat (h : t ≤ e.now) : before t (events ++ [e]) = before t events := by
  simp [before, not_lt.mpr h]

/-- Only a recomputation changes the live totals of a participation. -/
theorem ContestParticipation.after_live (h : e.recomputes p.id = none) : (p.after c e).live = p.live := by
  unfold ContestParticipation.after
  split
  · rename_i id hevent
    by_cases heq : p.id = id
    · simp [Timed.recomputes, hevent, heq] at h
    · rw [if_neg heq]
  · split <;> rfl
  · rfl

theorem ContestParticipation.run_live : ∀ (events : List Timed) (p : ContestParticipation) (c : ContestRow),
    recomputed p.id events = [] → (p.run c events).live = p.live := by
  intro events
  induction events with
  | nil => intro p c _; rfl
  | cons e events ih =>
      intro p c h
      have hnone : e.recomputes p.id = none := by
        cases hr : e.recomputes p.id with
        | none => rfl
        | some t => simp [recomputed, hr] at h
      have hrest : recomputed p.id events = [] := by
        simpa [recomputed, List.filterMap_cons, hnone] using h
      have hid := (p.after_same c e).id
      rw [ContestParticipation.run, ih _ _ (by rwa [hid]), ContestParticipation.after_live hnone]

/-- With no recomputation between two moments, the live totals at both are the same. -/
theorem live_before_eq {s : Time} (hevents : InOrder events) (hst : s ≤ t)
    (hnone : ∀ r ∈ recomputed p.id events, s ≤ r → t ≤ r) :
    (p.run c (before t events)).live = (p.run c (before s events)).live := by
  have hsplit := (hevents.before (t := t)).split s
  rw [before_before hst] at hsplit
  rw [hsplit, ContestParticipation.run_append]
  apply ContestParticipation.run_live
  rw [(ContestParticipation.run_same _ _ _).id, List.eq_nil_iff_forall_not_mem]
  intro r hr
  obtain ⟨e, he, hevent, rfl⟩ := mem_recomputed.mp hr
  obtain ⟨hin, hs⟩ := List.mem_filter.mp he
  obtain ⟨hin, ht⟩ := List.mem_filter.mp hin
  have hle : t ≤ e.now := hnone e.now (mem_recomputed.mpr ⟨e, hin, hevent, rfl⟩) (by simpa using hs)
  exact absurd (by simpa using ht) (not_lt.mpr hle)

/-- With no recomputation since a moment, the live totals are still those of that moment. -/
theorem live_since_eq (hevents : InOrder events) (hnone : ∀ r ∈ recomputed p.id events, ¬ start ≤ r) :
    (p.run c events).live = (p.run c (before start events)).live := by
  conv_lhs => rw [hevents.split start, ContestParticipation.run_append]
  apply ContestParticipation.run_live
  rw [(ContestParticipation.run_same _ _ _).id, List.eq_nil_iff_forall_not_mem]
  intro r hr
  obtain ⟨e, he, hevent, rfl⟩ := mem_recomputed.mp hr
  obtain ⟨hin, hs⟩ := List.mem_filter.mp he
  exact hnone e.now (mem_recomputed.mpr ⟨e, hin, hevent, rfl⟩) (by simpa using hs)

/-! ## The copy -/

/-- The copy of some live totals. -/
def Standing.copy (s : Standing) (t : Time) : FrozenCopy :=
  { score := some s.score, cumtime := some s.cumtime, tiebreaker := some s.tiebreaker, formatData := s.formatData
    at? := some t }

/-- The first moment since `start` at which a participation was recomputed. -/
def firstRecomputed (id : ℕ) (start : Time) (events : List Timed) : Option Time :=
  ((recomputed id events).filter (start ≤ ·)).head?

/-- The copy of a participation is the totals just before the recomputation that took it, and while the freeze is on
that was the first recomputation since the start of its window. -/
structure Kept (c : ContestRow) (p : ContestParticipation) (events : List Timed) : Prop where
  none : (p.run c events).frozen.at? = none → (p.run c events).frozen = {}
  copy : ∀ t, (p.run c events).frozen.at? = some t → t ∈ recomputed p.id events ∧
    (p.run c events).frozen = (p.run c (before t events)).live.copy t
  first : (c.run events).freezeActive = true → ∀ start, p.freezeStartsAt (c.run events) = some start →
    (p.run c events).frozen.at? = firstRecomputed p.id start events

/-- Before anything happens a new participation has no copy. -/
theorem Kept.nil (h : p.frozen = {}) : Kept c p [] where
  none _ := h
  copy t ht := by
    have hnone : p.frozen.at? = Option.none := by rw [h]
    exact absurd (hnone.symm.trans ht) (by simp)
  first _ start _ := by
    have hnone : p.frozen.at? = Option.none := by rw [h]
    exact hnone

/-- What an event does to the copy: a recomputation inside the freeze takes one if there is none. -/
theorem ContestParticipation.after_frozen (p : ContestParticipation) (c : ContestRow) (e : Timed) :
    (p.after c e).frozen = p.frozen ∨
      p.frozen.at? = none ∧ e.recomputes p.id = some e.now ∧ p.isFrozen c e.now = true ∧
        (p.after c e).frozen = p.live.copy e.now := by
  unfold ContestParticipation.after
  split
  · rename_i id hevent
    by_cases heq : p.id = id
    · rw [if_pos heq]
      by_cases hskip : (p.frozen.at?.isSome || !p.isFrozen c e.now) = true
      · left
        simp [ContestParticipation.recomputeResults, ContestParticipation.freezeScoreboard, hskip]
      · right
        have hskip' := hskip
        simp only [Bool.or_eq_true, Bool.not_eq_true', not_or, Bool.not_eq_true, Option.isSome_eq_false_iff,
          Option.isNone_iff_eq_none, Bool.not_eq_false] at hskip'
        refine ⟨hskip'.1, by simp [Timed.recomputes, hevent, heq], hskip'.2, ?_⟩
        simp [ContestParticipation.recomputeResults, ContestParticipation.freezeScoreboard, hskip, Standing.copy]
    · left
      rw [if_neg heq]
  · left
    split <;> rfl
  · exact .inl rfl

theorem recomputed_concat {id : ℕ} :
    recomputed id (events ++ [e]) = recomputed id events ++ (e.recomputes id).toList := by
  simp only [recomputed, List.filterMap_append]
  cases h : e.recomputes id <;> simp [h]

/-- An event that does not change the freeze leaves the contest alone. -/
theorem ContestRow.after_of_not_setting {event : Event} (h : event.isSetting = false) : c.after event = c := by
  cases event <;> first | rfl | exact absurd h (by simp [Event.isSetting])

theorem ContestParticipation.isFrozen_iff {now : Time} :
    p.isFrozen c now = true ↔ c.freezeActive = true ∧ ∃ start, p.freezeStartsAt c = some start ∧ start ≤ now := by
  simp [ContestParticipation.isFrozen, Option.any_eq_true]

theorem firstRecomputed_eq_none {id : ℕ} : firstRecomputed id start events = none ↔
    ∀ r ∈ recomputed id events, ¬ start ≤ r := by
  rw [firstRecomputed, List.head?_eq_none_iff, List.filter_eq_nil_iff]
  simp

/-- One event keeps it, if a change of the freeze leaves the copy with the first recomputation. -/
theorem Kept.concat (h : Kept c p events) (horder : InOrder (events ++ [e]))
    (hsetting : e.event.isSetting = true → (c.run (events ++ [e])).freezeActive = true →
      ∀ start, p.freezeStartsAt (c.run (events ++ [e])) = some start →
        (p.run c (events ++ [e])).frozen.at? = firstRecomputed p.id start events) :
    Kept c p (events ++ [e]) := by
  have hlast : ∀ r ∈ recomputed p.id events, r ≤ e.now := by
    intro r hr
    obtain ⟨f, hf, _, rfl⟩ := mem_recomputed.mp hr
    exact (List.pairwise_append.mp horder).2.2 f hf e (by simp)
  have hsame := p.run_same events c
  rcases (p.run c events).after_frozen (c.run events) e with hfrozen | ⟨hnone, hrec, hisFrozen, hfrozen⟩
  · -- the copy stays
    rw [← ContestParticipation.run_concat] at hfrozen
    refine ⟨?_, ?_, ?_⟩
    · intro hat
      rw [hfrozen] at hat ⊢
      exact h.none hat
    · intro t hat
      rw [hfrozen] at hat ⊢
      obtain ⟨hmem, hcopy⟩ := h.copy t hat
      refine ⟨?_, ?_⟩
      · rw [recomputed_concat]
        exact List.mem_append_left _ hmem
      · rw [before_concat (hlast t hmem)]
        exact hcopy
    · intro hactive start hstart
      by_cases hset : e.event.isSetting = true
      · rw [hsetting hset hactive start hstart]
        -- a change of the freeze recomputes nothing
        have hrec : e.recomputes p.id = Option.none := by
          unfold Timed.recomputes
          split
          · rename_i hevent
            rw [hevent] at hset
            exact absurd hset (by simp [Event.isSetting])
          · rfl
        simp [firstRecomputed, recomputed_concat, hrec]
      · rw [ContestRow.run_concat, ContestRow.after_of_not_setting (by simpa using hset)] at hactive hstart
        have hfirst := h.first hactive start hstart
        rw [hfrozen, hfirst]
        cases hr : e.recomputes p.id with
        | none => simp [firstRecomputed, recomputed_concat, hr]
        | some t =>
            obtain ⟨hevent, rfl⟩ := Timed.recomputes_eq hr
            by_cases hle : start ≤ e.now
            · -- inside the freeze the copy was there already
              cases hat : firstRecomputed p.id start events with
              | some t =>
                  rw [firstRecomputed] at hat
                  rw [firstRecomputed, recomputed_concat, List.filter_append, List.head?_append, hat]
                  rfl
              | none =>
                  have hfree : (p.run c events).frozen.at? = Option.none := hfirst.trans hat
                  have hin : (p.run c events).isFrozen (c.run events) e.now = true := by
                    rw [ContestParticipation.isFrozen_iff, hsame.freezeStartsAt]
                    exact ⟨hactive, start, hstart, hle⟩
                  have htaken : (p.run c (events ++ [e])).frozen = (p.run c events).live.copy e.now := by
                    rw [ContestParticipation.run_concat, ContestParticipation.after, hevent]
                    simp [hsame.id, ContestParticipation.recomputeResults, ContestParticipation.freezeScoreboard, hfree,
                      hin, Standing.copy]
                  rw [htaken] at hfrozen
                  rw [← hfrozen] at hfree
                  exact absurd hfree (by simp [Standing.copy])
            · simp [firstRecomputed, recomputed_concat, hr, List.filter_append, hle]
  · -- the copy is taken now
    rw [hsame.id] at hrec
    rw [ContestParticipation.isFrozen_iff, hsame.freezeStartsAt] at hisFrozen
    obtain ⟨hactive, start, hstart, hle⟩ := hisFrozen
    obtain ⟨hevent, _⟩ := Timed.recomputes_eq hrec
    rw [← ContestParticipation.run_concat] at hfrozen
    have hfirst := h.first hactive start hstart
    rw [hnone] at hfirst
    have hfresh := firstRecomputed_eq_none.mp hfirst.symm
    have hcontest : c.run (events ++ [e]) = c.run events := by
      rw [ContestRow.run_concat, hevent]
      rfl
    have hbefore : (p.run c events).live = (p.run c (before e.now events)).live := by
      apply live_since_eq (List.pairwise_append.mp horder).1
      intro r hr hler
      exact hfresh r hr (hle.trans hler)
    refine ⟨?_, ?_, ?_⟩
    · intro hat
      rw [hfrozen] at hat
      exact absurd hat (by simp [Standing.copy])
    · intro t hat
      rw [hfrozen] at hat ⊢
      obtain rfl : e.now = t := by simpa [Standing.copy] using hat
      refine ⟨?_, ?_⟩
      · rw [recomputed_concat, hrec]
        simp
      · rw [before_concat (le_refl _), hbefore]
    · intro _ start' hstart'
      rw [hcontest, hstart] at hstart'
      obtain rfl := Option.some.inj hstart'
      have hempty : (recomputed p.id events).filter (start ≤ ·) = [] := by
        rw [List.filter_eq_nil_iff]
        intro r hr
        simpa using hfresh r hr
      rw [hfrozen, firstRecomputed, recomputed_concat, hrec, List.filter_append, hempty]
      simp [Standing.copy, hle]

/-! ## The public row -/

/-- While the freeze is on, the totals a participation shows are the live ones of the start of its window. -/
theorem Kept.shown (h : Kept c p events) (horder : InOrder events) (hactive : (c.run events).freezeActive = true)
    (hstart : p.freezeStartsAt (c.run events) = some start) :
    (p.run c events).publicRow =
      ({ p.run c (before start events) with frozen := {} } : ContestParticipation).publicRow := by
  have hfirst := h.first hactive start hstart
  have hend := p.run_same events c
  have hbegin := p.run_same (before start events) c
  have hplace : (p.run c events).id = (p.run c (before start events)).id ∧
      (p.run c events).isDisqualified = (p.run c (before start events)).isDisqualified :=
    ⟨hend.id.trans hbegin.id.symm, hend.isDisqualified.trans hbegin.isDisqualified.symm⟩
  cases hat : (p.run c events).frozen.at? with
  | none =>
      -- not recomputed since the start: the live totals are still those
      have hempty := h.none hat
      have hlive : (p.run c events).live = (p.run c (before start events)).live := by
        apply live_since_eq horder
        exact firstRecomputed_eq_none.mp (hfirst.symm.trans hat)
      simp [ContestParticipation.publicRow, ContestParticipation.shown, hempty, hlive, hplace]
  | some t =>
      obtain ⟨hmem, hcopy⟩ := h.copy t hat
      -- `t` is the first recomputation since the start, so nothing was recomputed in between
      have hhead : ((recomputed p.id events).filter (start ≤ ·)).head? = some t := hfirst.symm.trans hat
      have hle : start ≤ t := by
        have hin := List.mem_of_mem_head? hhead
        simpa using (List.mem_filter.mp hin).2
      have hsorted : (recomputed p.id events).Pairwise (· ≤ ·) := by
        rw [recomputed, List.pairwise_filterMap]
        apply horder.imp
        intro e f hef r hr s hs
        obtain ⟨_, rfl⟩ := Timed.recomputes_eq hr
        obtain ⟨_, rfl⟩ := Timed.recomputes_eq hs
        exact hef
      have hgap : ∀ r ∈ recomputed p.id events, start ≤ r → t ≤ r := by
        intro r hr hsr
        obtain ⟨rest, hrest⟩ := List.head?_eq_some_iff.mp hhead
        have hin : r ∈ (recomputed p.id events).filter (start ≤ ·) := List.mem_filter.mpr ⟨hr, by simpa using hsr⟩
        have hsorted' := hsorted.filter (start ≤ ·)
        rw [hrest] at hin hsorted'
        rcases List.mem_cons.mp hin with rfl | hin
        · exact le_refl _
        · exact (List.pairwise_cons.mp hsorted').1 r hin
      have hlive := live_before_eq (c := c) horder hle hgap
      rw [hlive] at hcopy
      simp [ContestParticipation.publicRow, ContestParticipation.shown, hcopy, Standing.copy, Standing.shown, hplace]

/-! ## Whole boards -/

/-- Every change of the freeze that leaves it on finds the copies where it wants them: each participation has the one
its first recomputation since the new start of its window took, or has none and was not recomputed since. -/
def Careful (b : Board) (events : List Timed) : Prop :=
  ∀ done e rest, events = done ++ e :: rest → e.event.isSetting = true →
    (b.run (done ++ [e])).contest.freezeActive = true →
      ∀ p ∈ (b.run (done ++ [e])).rows, ∀ start, p.freezeStartsAt (b.run (done ++ [e])).contest = some start →
        p.frozen.at? = firstRecomputed p.id start done

theorem Board.run_contest : (b.run events).contest = b.contest.run events := by rw [Board.run_eq]

theorem Board.run_rows : (b.run events).rows = b.rows.map (·.run b.contest events) := by rw [Board.run_eq]

theorem Careful.left {more : List Timed} (h : Careful b (events ++ more)) : Careful b events := by
  intro done e rest heq
  apply h done e (rest ++ more)
  rw [heq, List.append_assoc, List.cons_append]

theorem InOrder.left {more : List Timed} (h : InOrder (events ++ more)) : InOrder events :=
  (List.pairwise_append.mp h).1

/-- Along a careful history every participation keeps its copy. -/
theorem Careful.kept (hnew : ∀ p ∈ b.rows, p.frozen = {}) (horder : InOrder events) (hcareful : Careful b events)
    (hp : p ∈ b.rows) : Kept b.contest p events := by
  induction events using List.reverseRecOn with
  | nil => exact .nil (hnew p hp)
  | append_singleton events e ih =>
      apply (ih horder.left hcareful.left).concat horder
      intro hset hactive start hstart
      have hmem : p.run b.contest (events ++ [e]) ∈ (b.run (events ++ [e])).rows := by
        rw [Board.run_rows]
        exact List.mem_map_of_mem hp
      have hsame := p.run_same (events ++ [e]) b.contest
      rw [← Board.run_contest] at hactive hstart
      have hfirst := hcareful events e [] rfl hset hactive _ hmem start (by rw [hsame.freezeStartsAt]; exact hstart)
      rwa [hsame.id] at hfirst

/-- A history of recomputations and verdicts only. -/
structure Scoring (events : List Timed) : Prop where
  inOrder : InOrder events
  noSetting : ∀ e ∈ events, e.event.isSetting = false

theorem Scoring.careful (h : Scoring events) : Careful b events := by
  intro done e rest heq hset
  have hnot := h.noSetting e (by simp [heq])
  rw [hnot] at hset
  exact absurd hset (by simp)

/-- A history is careful if it was before its last event, and that event is no change of the freeze or a careful one. -/
theorem Careful.concat (h : Careful b events)
    (hlast : e.event.isSetting = true → (b.run (events ++ [e])).contest.freezeActive = true →
      ∀ p ∈ (b.run (events ++ [e])).rows, ∀ start, p.freezeStartsAt (b.run (events ++ [e])).contest = some start →
        p.frozen.at? = firstRecomputed p.id start events) : Careful b (events ++ [e]) := by
  intro done f rest heq hset
  rcases List.eq_nil_or_concat rest with rfl | ⟨rest, g, rfl⟩
  · obtain ⟨rfl, hlist⟩ := List.append_inj' heq rfl
    obtain rfl : e = f := (List.cons.inj hlist).1
    exact hlast hset
  · have heq' : events ++ [e] = (done ++ f :: rest) ++ [g] := by
      rw [heq, List.concat_eq_append]
      simp
    exact h done f rest (List.append_inj' heq' rfl).1 hset

/-- Along a careful history, whenever the board is frozen each public row is the row of the start of the current
freeze window. -/
theorem freeze_survives (b : Board) (hnew : ∀ p ∈ b.rows, p.frozen = {}) (events : List Timed)
    (horder : InOrder events) (hcareful : Careful b events) :
    ∀ done rest, events = done ++ rest → (b.run done).contest.freezeActive = true →
      ∀ (i : ℕ) (p : ContestParticipation) (start : Time),
        (b.run done).rows[i]? = some p → p.freezeStartsAt (b.run done).contest = some start →
        ∃ q, (b.run (before start done)).rows[i]? = some q ∧
          p.publicRow = ({ q with frozen := {} } : ContestParticipation).publicRow := by
  intro done rest heq hactive i p start hrow hstart
  subst heq
  rw [Board.run_rows, List.getElem?_map, Option.map_eq_some_iff] at hrow
  obtain ⟨p0, hp0, rfl⟩ := hrow
  have hkept := hcareful.left.kept hnew horder.left (List.mem_of_getElem? hp0)
  rw [Board.run_contest] at hactive hstart
  rw [(p0.run_same done b.contest).freezeStartsAt] at hstart
  refine ⟨p0.run b.contest (before start done), ?_, hkept.shown horder.left hactive hstart⟩
  rw [Board.run_rows, List.getElem?_map, hp0]
  rfl

/-- A contest of two hours that freezes over the last one, with one participation. -/
def hourFreeze : Board where
  contest :=
    { startTime := 0, endTime := 7200000000, timeLimit := none, freezeMinutes := some 60, scoreboardRevealed := false
      format := .default, formatConfig := {}, pointsPrecision := 3, problems := fun _ => { points := 100 } }
  rows := [{ id := 1, realStart := 0, virtual := 0, team := none, isDisqualified := false }]

/-- An accepted submission to a problem, judged and recomputed at once. -/
def accepted (problem : ℕ) (date : Time) : ContestSubmission :=
  { submission := problem, problem, points := 100, date, status := .D, result := some .AC, testCases := [] }

/-- Two problems solved, one in the open and one in the freeze; then the contest is extended by an hour, and a third
problem is solved before the new freeze. -/
def extended : List Timed :=
  [⟨600000000, .judged 1 [accepted 1 600000000]⟩, ⟨600000000, .recompute 1⟩,
    ⟨4200000000, .judged 1 [accepted 1 600000000, accepted 2 4200000000]⟩, ⟨4200000000, .recompute 1⟩,
    ⟨4800000000, .setEndTime 10800000000⟩,
    ⟨6000000000, .judged 1 [accepted 1 600000000, accepted 2 4200000000, accepted 3 6000000000]⟩,
    ⟨6000000000, .recompute 1⟩]

/-- At the start of the new window the participation has three problems, and the frozen board shows one. -/
theorem extended_board :
    (hourFreeze.run extended).contest.freezeActive = true ∧
      (hourFreeze.run extended).rows.map (·.freezeStartsAt (hourFreeze.run extended).contest) = [some 7200000000] ∧
      (hourFreeze.run extended).rows.map (·.shown.score) = [some 100] ∧
      (hourFreeze.run (before 7200000000 extended)).rows.map (·.live.score) = [300] := by
  decide +kernel

/-- The contest is extended before anybody submits in the freeze. -/
def extendedEarly : List Timed :=
  [⟨600000000, .judged 1 [accepted 1 600000000]⟩, ⟨600000000, .recompute 1⟩] ++ [⟨3000000000, .setEndTime 10800000000⟩]

theorem freeze_survives_early :
    ∃ p q, (hourFreeze.run extendedEarly).rows[0]? = some p ∧
      (hourFreeze.run (before 7200000000 extendedEarly)).rows[0]? = some q ∧
        p.publicRow = ({ q with frozen := {} } : ContestParticipation).publicRow := by
  have hscoring : Scoring [⟨600000000, .judged 1 [accepted 1 600000000]⟩, ⟨600000000, .recompute 1⟩] :=
    ⟨by simp [InOrder], by decide⟩
  have hwindow : ∀ p ∈ (hourFreeze.run extendedEarly).rows,
      p.freezeStartsAt (hourFreeze.run extendedEarly).contest = some 7200000000 ∧
        p.frozen.at? = firstRecomputed p.id 7200000000 extendedEarly := by decide +kernel
  have hcareful : Careful hourFreeze extendedEarly := by
    apply hscoring.careful.concat
    intro _ _ p hp start hstart
    obtain ⟨hstart', hfirst⟩ := hwindow p hp
    have heq : start = 7200000000 := Option.some.inj (hstart.symm.trans hstart')
    rw [heq, hfirst]
    rfl
  obtain ⟨p, hp⟩ := Option.isSome_iff_exists.mp (show (hourFreeze.run extendedEarly).rows[0]?.isSome by decide +kernel)
  obtain ⟨q, hq, hrow⟩ := freeze_survives hourFreeze (by simp [hourFreeze]) extendedEarly
    (by simp [InOrder, extendedEarly]) hcareful extendedEarly [] (by simp) (by decide) 0 p 7200000000 hp
    (hwindow p (List.mem_of_getElem? hp)).1
  exact ⟨p, q, hp, hq, hrow⟩

theorem Scoring.run_contest (h : Scoring events) (c : ContestRow) : c.run events = c := by
  have hall := h.noSetting
  clear h
  induction events with
  | nil => rfl
  | cons e events ih =>
      have hfirst : c.after e.event = c := ContestRow.after_of_not_setting (hall e (by simp))
      rw [ContestRow.run, List.foldl_cons, hfirst]
      exact ih fun f hf => hall f (by simp [hf])

/-- Through the freeze each public row is the row of its start, and two histories that agree before the freeze show the
same public board. -/
theorem frozen_board (b : Board) (hnew : ∀ p ∈ b.rows, p.frozen = {}) (hactive : b.contest.freezeActive = true)
    (events events' : List Timed) (hevents : Scoring events) (hevents' : Scoring events') :
    (∀ (i : ℕ) (p : ContestParticipation) (start : Time),
      (b.run events).rows[i]? = some p → p.freezeStartsAt b.contest = some start →
        ∃ q, (b.run (before start events)).rows[i]? = some q ∧
          p.publicRow = ({ q with frozen := {} } : ContestParticipation).publicRow) ∧
      ((∀ (i : ℕ) (p : ContestParticipation) (start : Time),
          b.rows[i]? = some p → p.freezeStartsAt b.contest = some start →
            (b.run (before start events)).rows[i]?.map (·.live) = (b.run (before start events')).rows[i]?.map (·.live)) →
        ∀ teams, (b.run events).frozenRanking teams = (b.run events').frozenRanking teams) := by
  have hrow : ∀ {events : List Timed}, Scoring events → ∀ p ∈ b.rows, ∀ start, p.freezeStartsAt b.contest = some start →
      (p.run b.contest events).publicRow =
        ({ p.run b.contest (before start events) with frozen := {} } : ContestParticipation).publicRow := by
    intro events hevents p hp start hstart
    have hkept := (hevents.careful (b := b)).kept hnew hevents.inOrder hp
    apply hkept.shown hevents.inOrder
    · rw [hevents.run_contest]
      exact hactive
    · rw [hevents.run_contest]
      exact hstart
  constructor
  · intro i p start hget hstart
    rw [Board.run_rows, List.getElem?_map, Option.map_eq_some_iff] at hget
    obtain ⟨p0, hp0, rfl⟩ := hget
    rw [(p0.run_same events b.contest).freezeStartsAt] at hstart
    refine ⟨p0.run b.contest (before start events), ?_, hrow hevents p0 (List.mem_of_getElem? hp0) start hstart⟩
    rw [Board.run_rows, List.getElem?_map, hp0]
    rfl
  · intro hagree teams
    -- the freeze is on, so every participation has a window
    have hwindow : ∀ p : ContestParticipation, ∃ start, p.freezeStartsAt b.contest = some start := by
      intro p
      have hdelta : b.contest.freezeDelta.isSome = true := by
        rw [ContestRow.freezeActive, Bool.and_eq_true] at hactive
        exact hactive.1
      obtain ⟨delta, hdelta⟩ := Option.isSome_iff_exists.mp hdelta
      exact ⟨p.endTime b.contest - delta, by simp [ContestParticipation.freezeStartsAt, hdelta]⟩
    have hsame : ∀ p ∈ b.rows, (p.run b.contest events).publicRow = (p.run b.contest events').publicRow := by
      intro p hp
      obtain ⟨start, hstart⟩ := hwindow p
      obtain ⟨i, hi⟩ := List.mem_iff_getElem?.mp hp
      have hlive := hagree i p start hi hstart
      simp only [Board.run_rows, List.getElem?_map, hi, Option.map_some, Option.some.injEq] at hlive
      have h1 := p.run_same (before start events) b.contest
      have h2 := p.run_same (before start events') b.contest
      rw [hrow hevents p hp start hstart, hrow hevents' p hp start hstart]
      simp [ContestParticipation.publicRow, ContestParticipation.shown, hlive, h1.id, h2.id, h1.isDisqualified,
        h2.isDisqualified]
    have hfilter : ∀ events : List Timed,
        ((b.run events).rows.filter fun p => p.virtual = 0 && p.team.isSome == teams).map (·.publicRow) =
          (b.rows.filter fun p => p.virtual = 0 && p.team.isSome == teams).map
            fun p => (p.run b.contest events).publicRow := by
      intro events
      rw [Board.run_rows, List.filter_map, List.map_map]
      congr 1
      apply List.filter_congr
      intro p _
      have h := p.run_same events b.contest
      simp [h.virtual, h.team]
    rw [Board.frozenRanking, Board.frozenRanking, hfilter, hfilter]
    congr 1
    apply List.map_congr_left
    intro p hp
    exact hsame p (List.mem_of_mem_filter hp)

/-- One problem solved in the open, and one in the freeze. -/
def solvedInFreeze : List Timed :=
  [⟨600000000, .judged 1 [accepted 1 600000000]⟩, ⟨600000000, .recompute 1⟩,
    ⟨4200000000, .judged 1 [accepted 1 600000000, accepted 2 4200000000]⟩, ⟨4200000000, .recompute 1⟩]

/-- The same, and nothing in the freeze. -/
def quietFreeze : List Timed := [⟨600000000, .judged 1 [accepted 1 600000000]⟩, ⟨600000000, .recompute 1⟩]

theorem frozen_board_solved :
    (hourFreeze.run solvedInFreeze).frozenRanking false = (hourFreeze.run quietFreeze).frozenRanking false ∧
      (hourFreeze.run solvedInFreeze).rows.map (·.live.score) ≠ (hourFreeze.run quietFreeze).rows.map (·.live.score) := by
  have hsolved : Scoring solvedInFreeze := ⟨by simp [InOrder, solvedInFreeze], by decide⟩
  have hquiet : Scoring quietFreeze := ⟨by simp [InOrder, quietFreeze], by decide⟩
  refine ⟨(frozen_board hourFreeze (by simp [hourFreeze]) (by decide) solvedInFreeze quietFreeze hsolved hquiet).2
    ?_ false, by decide +kernel⟩
  intro i p start hp hstart
  have hwindow : ∀ p ∈ hourFreeze.rows, p.freezeStartsAt hourFreeze.contest = some 3600000000 := by decide +kernel
  have heq : start = 3600000000 := Option.some.inj (hstart.symm.trans (hwindow p (List.mem_of_getElem? hp)))
  have hbefore : before 3600000000 solvedInFreeze = before 3600000000 quietFreeze := by
    simp [before, solvedInFreeze, quietFreeze]
  rw [heq, hbefore]

end Contest
end CpcJudge
