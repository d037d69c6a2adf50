import CpcJudge.Bridge.Grading
import CpcJudge.Lib.Limiter

/-!
# `Bridge.Posts` — how often a page is told of a grading

Whatever a judge reports, the pages that follow a submission are told of its cases a few times a second at most, and
are never more than half a second behind.
-/

namespace CpcJudge
namespace Bridge
namespace Grading

/-- The counting of the handler is that of the library. -/
theorem count_eq (counter : Option (ℕ × Moment)) (now : Moment) :
    count counter now = Limiter.take updateRateLimit updateRateTime counter now := rfl

/-- When an event tells of new cases of a submission. -/
def Event.tells (id : ℕ) (e : Event) : Option Moment :=
  match e.packet with
  | .testCase id' cases => if id' = id ∧ cases ≠ [] then some e.now else none
  | _ => none

/-- When a post says that there are new cases of a submission. -/
def caseTime (id : ℕ) (post : Moment × ℕ × Post) : Option Moment :=
  match post with
  | (now, id', .testCase _) => if id' = id then some now else none
  | _ => none

/-- The times of the posts about the cases of a submission. -/
def Gradings.caseTimes (s : Gradings) (id : ℕ) : List Moment := s.posted.filterMap (caseTime id)

section
variable {s s' : Gradings} {j k id id' : ℕ} {now : Moment} {packet : Packet} {e : Event}

/-- Nothing was told of a submission: its row is where it was, its counter on a connection and its posts unchanged. -/
structure Gradings.Quiet (s s' : Gradings) (j id : ℕ) : Prop where
  row : (s'.rows id).isSome = (s.rows id).isSome
  counter : (s'.handlers j).updateCounter id = (s.handlers j).updateCounter id
  posts : s'.caseTimes id = s.caseTimes id

theorem Gradings.Quiet.refl (s : Gradings) (j id : ℕ) : s.Quiet s j id := ⟨rfl, rfl, rfl⟩

theorem Gradings.Quiet.setRow {f : Row → Row} (h : s.Quiet s' j id) : s.Quiet (s'.setRow id' f) j id where
  row := by
    rw [← h.row]
    by_cases hid : id = id'
    · subst hid
      simp only [Gradings.setRow, Function.update_self, Option.isSome_map]
    · simp only [Gradings.setRow, Function.update_of_ne hid]
  counter := h.counter
  posts := h.posts

theorem Gradings.Quiet.setHandler {f : Handler → Handler} (h : s.Quiet s' j id)
    (hf : (f (s'.handlers k)).updateCounter id = (s'.handlers k).updateCounter id) : s.Quiet (s'.setHandler k f) j id where
  row := h.row
  counter := by
    rw [← h.counter]
    by_cases hk : j = k
    · subst hk
      simpa only [Gradings.setHandler, Function.update_self] using hf
    · simp only [Gradings.setHandler, Function.update_of_ne hk]
  posts := h.posts

theorem Gradings.Quiet.post {post : Post} (h : s.Quiet s' j id) (hpost : caseTime id (now, id', post) = none) :
    s.Quiet (s'.post now id' post) j id where
  row := h.row
  counter := h.counter
  posts := by
    rw [← h.posts]
    simp only [Gradings.caseTimes, Gradings.post, List.filterMap_append, List.filterMap_cons, hpost, List.filterMap_nil,
      List.append_nil]

/-- A packet that tells of no new cases of a submission. -/
theorem quiet_handle (h : e.tells id = none) : s.Quiet (s.handle e.judge e.now e.packet) j id := by
  have hrefl := Gradings.Quiet.refl s j id
  obtain ⟨k, now, packet⟩ := e
  cases packet with
  | gradingBegin id' pretested =>
      simp only [Gradings.handle, Gradings.onGradingBegin]
      split
      · exact ((hrefl.setHandler rfl).setRow).post rfl
      · exact hrefl.setHandler rfl
  | batchBegin id' =>
      simp only [Gradings.handle, Gradings.onBatchBegin]
      split
      · exact (((hrefl.setHandler rfl).setHandler rfl).setRow).setHandler rfl
      · exact (hrefl.setHandler rfl).setHandler rfl
  | testCase id' cases =>
      have hother : id' ≠ id ∨ cases = [] := by
        by_contra hne
        rw [not_or, not_not] at hne
        simp [Event.tells, hne.1, hne.2] at h
      simp only [Gradings.handle, Gradings.onTestCase]
      split
      · rename_i hmax hrow
        have hid : id' ≠ id := by
          refine hother.resolve_right fun hnone => ?_
          rw [hnone] at hmax
          cases hmax
        have htold : ∀ {s' : Gradings} {maxPosition : ℤ}, s.Quiet s' j id →
            s.Quiet (s'.tell k now id' maxPosition) j id := by
          intro s' maxPosition h'
          have hcounted : ∀ counter, s.Quiet (s'.setHandler k
              ({ · with updateCounter := Function.update (s'.handlers k).updateCounter id' counter })) j id :=
            fun counter => h'.setHandler (by simp only [Function.update_of_ne hid.symm])
          simp only [Gradings.tell]
          split
          · exact (hcounted _).post (by simp [caseTime, hid])
          · exact hcounted _
        split
        · exact (htold hrefl.setRow).setRow
        · exact htold hrefl.setRow
      · exact hrefl
  | batchEnd id' =>
      simp only [Gradings.handle, Gradings.onBatchEnd]
      exact hrefl.setHandler rfl
  | gradingEnd id' =>
      simp only [Gradings.handle, Gradings.onGradingEnd]
      split
      · exact hrefl.setHandler rfl
      · exact ((hrefl.setHandler rfl).setRow).post rfl

/-- An update is counted on its connection, and posted if the limit lets it through. -/
theorem tell_spec {maxPosition : ℤ} : ((s.tell k now id maxPosition).rows id).isSome = (s.rows id).isSome ∧
    ((s.tell k now id maxPosition).handlers k).updateCounter id =
      some (count ((s.handlers k).updateCounter id) now).2 ∧
    (s.tell k now id maxPosition).caseTimes id =
      s.caseTimes id ++ if (count ((s.handlers k).updateCounter id) now).1 then [now] else [] := by
  simp only [Gradings.tell]
  split
  · refine ⟨rfl, ?_, ?_⟩
    · simp only [Gradings.post, Gradings.setHandler, Function.update_self]
    · simp only [Gradings.caseTimes, Gradings.post, Gradings.setHandler, List.filterMap_append, List.filterMap_cons,
        List.filterMap_nil, caseTime, if_true]
  · refine ⟨rfl, ?_, ?_⟩
    · simp only [Gradings.setHandler, Function.update_self]
    · simp only [Gradings.caseTimes, Gradings.setHandler, List.append_nil]

/-- So is a packet that tells of new cases. -/
theorem tells_handle (h : e.tells id = some now) (here : (s.rows id).isSome = true) :
    ((s.handle e.judge e.now e.packet).rows id).isSome = true ∧
      ((s.handle e.judge e.now e.packet).handlers e.judge).updateCounter id =
        some (count ((s.handlers e.judge).updateCounter id) now).2 ∧
      (s.handle e.judge e.now e.packet).caseTimes id =
        s.caseTimes id ++ if (count ((s.handlers e.judge).updateCounter id) now).1 then [now] else [] := by
  obtain ⟨k, now', packet⟩ := e
  cases packet with
  | testCase id' cases =>
      simp only [Event.tells] at h
      split at h
      · rename_i htells
        obtain ⟨rfl, hfull⟩ := htells
        obtain rfl := Option.some.inj h
        obtain ⟨maxPosition, hmax⟩ : ∃ t, (cases.map CaseReport.position).max? = some t := by
          rw [← Option.isSome_iff_exists, List.isSome_max?_iff]
          simpa using hfull
        obtain ⟨row, hrow⟩ := Option.isSome_iff_exists.mp here
        have hcase : s.Quiet (s.setRow id' ({ · with currentTestcase := maxPosition + 1 })) k id' :=
          (Gradings.Quiet.refl s k id').setRow
        obtain ⟨hsome, hcounter, hposts⟩ :=
          @tell_spec (s.setRow id' ({ · with currentTestcase := maxPosition + 1 })) k id' now' maxPosition
        rw [hcase.row] at hsome
        rw [hcase.counter] at hcounter hposts
        rw [hcase.posts] at hposts
        simp only [Gradings.handle, Gradings.onTestCase, hmax, hrow]
        split
        · have hwritten := @Gradings.Quiet.setRow _ _ k id' id'
            (fun row => { row with cases := row.cases ++ cases.map (CaseReport.row (s.handlers k).openBatch) })
            (Gradings.Quiet.refl ((s.setRow id' ({ · with currentTestcase := maxPosition + 1 })).tell k now' id'
              maxPosition) k id')
          exact ⟨hwritten.row.trans (hsome.trans here), hwritten.counter.trans hcounter, hwritten.posts.trans hposts⟩
        · exact ⟨hsome.trans here, hcounter, hposts⟩
      · cases h
  | gradingBegin _ _ => cases h
  | batchBegin _ => cases h
  | batchEnd _ => cases h
  | gradingEnd _ => cases h

/-- The posts of a run are what the limiter lets through of its packets. -/
theorem run_caseTimes {events : List Event} (here : (s.rows id).isSome = true)
    (hown : ∀ e ∈ events, (e.tells id).isSome = true → e.judge = j) :
    (s.run events).caseTimes id = s.caseTimes id ++
      Limiter.taken updateRateLimit updateRateTime ((s.handlers j).updateCounter id)
        (events.filterMap (Event.tells id)) := by
  induction events generalizing s with
  | nil => exact (List.append_nil _).symm
  | cons e events ih =>
      have hrest := fun e' he' => hown e' (List.mem_cons_of_mem e he')
      rw [run_cons]
      cases htells : e.tells id with
      | none =>
          have hquiet : s.Quiet (s.handle e.judge e.now e.packet) j id := quiet_handle htells
          rw [ih (hquiet.row.trans here) hrest, hquiet.posts, hquiet.counter, List.filterMap_cons_none htells]
      | some now =>
          obtain rfl := hown e List.mem_cons_self (by rw [htells]; rfl)
          obtain ⟨hrow, hcounter, hposts⟩ := tells_handle htells here
          rw [ih hrow hrest, hcounter, hposts, List.filterMap_cons_some htells, Limiter.taken, count_eq, List.append_assoc]

end

/-- **A page is told of a grading neither too often nor too late.** However a judge reports the cases of a submission on
a new connection, in any half second no more than ten posts tell of them, and whenever the judge tells of some there is a
post not more than half a second old. -/
theorem updates_posted {s : Gradings} {events : List Event} {j id : ℕ} (here : (s.rows id).isSome = true)
    (hnew : (s.handlers j).updateCounter id = none) (hnone : s.caseTimes id = [])
    (hown : ∀ e ∈ events, (e.tells id).isSome = true → e.judge = j)
    (hsorted : (events.map Event.now).Pairwise (· ≤ ·)) :
    (∀ start, (((s.run events).caseTimes id).filter fun t => start ≤ t ∧ t ≤ start + updateRateTime).length ≤
      2 * updateRateLimit) ∧
    ∀ e ∈ events, (e.tells id).isSome = true →
      ∃ t ∈ (s.run events).caseTimes id, e.now - updateRateTime ≤ t ∧ t ≤ e.now := by
  have htells : ∀ {e : Event} {now : Moment}, e.tells id = some now → now = e.now := by
    intro e now h
    unfold Event.tells at h
    split at h
    · split at h
      · exact (Option.some.inj h).symm
      · cases h
    · cases h
  have htimes : (events.filterMap (Event.tells id)).Pairwise (· ≤ ·) := by
    rw [List.pairwise_map] at hsorted
    refine List.pairwise_filterMap.mpr (hsorted.imp fun hle now hnow now' hnow' => ?_)
    rw [htells hnow, htells hnow']
    exact hle
  rw [run_caseTimes here hown, hnone, hnew, List.nil_append]
  refine ⟨Limiter.taken_le (by decide) htimes, fun e he hsome => ?_⟩
  obtain ⟨now, hnow⟩ := Option.isSome_iff_exists.mp hsome
  obtain rfl := htells hnow
  exact Limiter.taken_recent (by decide) htimes (List.mem_filterMap.mpr ⟨e, he, hnow⟩)

/-- Nine cases in nine packets, a twentieth of a second apart: the last ones are held back. -/
theorem updates_posted_nine :
    (((cutShort.run ((List.range 9).map fun i => ⟨1, 50000 * i, .testCase 7 [tenPoints i 10 0]⟩)).caseTimes 7).filter
      fun t => 0 ≤ t ∧ t ≤ 0 + updateRateTime).length ≤ 10 := by
  refine (updates_posted (j := 1) rfl rfl rfl ?_ ?_).1 0
  · decide
  · decide

end Grading
end Bridge
end CpcJudge
