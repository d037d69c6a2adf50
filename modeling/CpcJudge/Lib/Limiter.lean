import Mathlib.Tactic

/-!
# `Lib.Limiter` — letting through so many in a while

Two ways of counting. A window may begin with the first event after the last window has passed (`take`), or windows may
be cut out of time beforehand, one after the other (`fits`). In either, a span of time touches two windows at most, so
no more than twice the limit gets through in it.
-/

namespace CpcJudge
namespace Limiter

variable (limit : ℕ) (span : ℤ)

/-! ## Windows that begin with an event -/

/-- Whether an event gets through, and the counter after it: the events of the window, and when it began. -/
def take (counter : Option (ℕ × ℤ)) (now : ℤ) : Bool × ℕ × ℤ :=
  match counter with
  | none => (true, 1, now)
  | some (count, since) => if span < now - since then (true, 1, now) else (count + 1 ≤ limit, count + 1, since)

/-- The times of the events that get through. -/
def taken (counter : Option (ℕ × ℤ)) : List ℤ → List ℤ
  | [] => []
  | now :: later =>
    (if (take limit span counter now).1 then [now] else []) ++ taken (some (take limit span counter now).2) later

variable {limit : ℕ} {span : ℤ} {counter : Option (ℕ × ℤ)} {count : ℕ} {since start now : ℤ} {times : List ℤ}

theorem mem_of_mem_taken (h : now ∈ taken limit span counter times) : now ∈ times := by
  induction times generalizing counter with
  | nil => exact h
  | cons first later ih =>
      rcases List.mem_append.mp h with h | h
      · split at h
        · rw [List.mem_singleton.mp h]
          exact List.mem_cons_self
        · cases h
      · exact List.mem_cons_of_mem _ (ih h)

/-- What is left of a window. -/
theorem taken_window (hsorted : times.Pairwise (· ≤ ·)) :
    ((taken limit span (some (count, since)) times).filter (· ≤ since + span)).length ≤ limit - count := by
  induction times generalizing count with
  | nil => exact Nat.zero_le _
  | cons now later ih =>
      obtain ⟨hfirst, hlater⟩ := List.pairwise_cons.mp hsorted
      by_cases hpassed : span < now - since
      · -- every event after the window is past its end
        have hnone : (taken limit span (some (count, since)) (now :: later)).filter (· ≤ since + span) = [] := by
          rw [List.filter_eq_nil_iff]
          intro time htime
          have hle : now ≤ time := by
            rcases List.mem_cons.mp (mem_of_mem_taken htime) with rfl | hmem
            · exact le_refl _
            · exact hfirst time hmem
          simp only [decide_eq_true_eq, not_le]
          omega
        rw [hnone]
        exact Nat.zero_le _
      · have hrest := @ih (count + 1) hlater
        simp only [taken, take, if_neg hpassed]
        rw [List.filter_append, List.length_append]
        split
        · rename_i hfits
          have hone := List.length_filter_le (· ≤ since + span) [now]
          simp only [decide_eq_true_eq, List.length_singleton] at hfits hone
          omega
        · simp only [List.filter_nil, List.length_nil]
          omega

/-- A window that begins at `now`, with the event that begins it. -/
theorem taken_first (hlimit : 0 < limit) (hsorted : times.Pairwise (· ≤ ·)) (hstart : start ≤ now) :
    (([now] ++ taken limit span (some (1, now)) times).filter (· ≤ start + span)).length ≤ limit := by
  have hone := List.length_filter_le (· ≤ start + span) [now]
  have hsub : ((taken limit span (some (1, now)) times).filter (· ≤ start + span)).length ≤
      ((taken limit span (some (1, now)) times).filter (· ≤ now + span)).length :=
    (List.monotone_filter_right _ fun time htime => by
      simp only [decide_eq_true_eq] at htime ⊢
      omega).length_le
  have hrest := hsub.trans (taken_window hsorted)
  rw [List.filter_append, List.length_append]
  simp only [List.length_singleton] at hone
  omega

/-- From some moment on: what is left of the window under way, and the next one. -/
theorem taken_after (hlimit : 0 < limit) (hsorted : times.Pairwise (· ≤ ·)) (hstart : ∀ time ∈ times, start ≤ time) :
    ((taken limit span (some (count, since)) times).filter (· ≤ start + span)).length ≤ limit - count + limit := by
  induction times generalizing count with
  | nil => exact Nat.zero_le _
  | cons now later ih =>
      obtain ⟨hnow, hlater⟩ := List.forall_mem_cons.mp hstart
      have hsorted' := hsorted.tail
      by_cases hpassed : span < now - since
      · simp only [taken, take, if_pos hpassed, if_true]
        exact (taken_first hlimit hsorted' hnow).trans (Nat.le_add_left _ _)
      · have hrest := @ih (count + 1) hsorted' hlater
        simp only [taken, take, if_neg hpassed]
        rw [List.filter_append, List.length_append]
        split
        · rename_i hfits
          have hone := List.length_filter_le (· ≤ start + span) [now]
          simp only [decide_eq_true_eq, List.length_singleton] at hfits hone
          omega
        · simp only [List.filter_nil, List.length_nil]
          omega

/-- No more than twice the limit gets through in any span of time. -/
theorem taken_le (hlimit : 0 < limit) (hsorted : times.Pairwise (· ≤ ·)) (start : ℤ) :
    ((taken limit span counter times).filter fun time => start ≤ time ∧ time ≤ start + span).length ≤ 2 * limit := by
  induction times generalizing counter with
  | nil => exact Nat.zero_le _
  | cons now later ih =>
      by_cases hstart : start ≤ now
      · have hall : ∀ time ∈ now :: later, start ≤ time := by
          intro time htime
          rcases List.mem_cons.mp htime with rfl | hmem
          · exact hstart
          · exact hstart.trans ((List.pairwise_cons.mp hsorted).1 time hmem)
        have hsame : (taken limit span counter (now :: later)).filter (fun time => start ≤ time ∧ time ≤ start + span) =
            (taken limit span counter (now :: later)).filter (· ≤ start + span) := by
          refine List.filter_congr fun time htime => ?_
          simp only [hall time (mem_of_mem_taken htime), true_and]
        rw [hsame]
        cases counter with
        | none =>
            simp only [taken, take, if_true]
            have hfirst : (([now] ++ taken limit span (some (1, now)) later).filter (· ≤ start + span)).length ≤ limit :=
              taken_first hlimit (List.pairwise_cons.mp hsorted).2 hstart
            omega
        | some window =>
            obtain ⟨count, since⟩ := window
            have hafter : ((taken limit span (some (count, since)) (now :: later)).filter (· ≤ start + span)).length ≤
                limit - count + limit := taken_after hlimit hsorted hall
            omega
      · -- an event before the span
        have hskip : (if (take limit span counter now).1 then [now] else []).filter
            (fun time => start ≤ time ∧ time ≤ start + span) = [] := by
          split
          · simp [hstart]
          · rfl
        rw [taken, List.filter_append, hskip, List.nil_append]
        exact ih hsorted.tail

theorem taken_since (hspan : 0 ≤ span) (hsorted : times.Pairwise (· ≤ ·)) (hnow : now ∈ times) :
    now - since ≤ span ∨ ∃ time ∈ taken limit span (some (count, since)) times, now - span ≤ time ∧ time ≤ now := by
  induction times generalizing count since with
  | nil => cases hnow
  | cons first later ih =>
      obtain ⟨hfirst, hlater⟩ := List.pairwise_cons.mp hsorted
      by_cases hpassed : span < first - since
      · right
        simp only [taken, take, if_pos hpassed, if_true, List.singleton_append, List.exists_mem_cons_iff]
        rcases List.mem_cons.mp hnow with rfl | hnow
        · exact .inl ⟨by omega, le_refl _⟩
        · rcases @ih 1 first hlater hnow with hnear | hlet
          · exact .inl ⟨by omega, hfirst now hnow⟩
          · exact .inr hlet
      · rcases List.mem_cons.mp hnow with rfl | hnow
        · exact .inl (not_lt.mp hpassed)
        · refine (@ih (count + 1) since hlater hnow).imp_right fun hlet => ?_
          obtain ⟨time, htime, hbounds⟩ := hlet
          simp only [taken, take, if_neg hpassed]
          exact ⟨time, List.mem_append_right _ htime, hbounds⟩

/-- An event that is held back has had one get through, no more than a span before. -/
theorem taken_recent (hspan : 0 ≤ span) (hsorted : times.Pairwise (· ≤ ·)) (hnow : now ∈ times) :
    ∃ time ∈ taken limit span none times, now - span ≤ time ∧ time ≤ now := by
  cases times with
  | nil => cases hnow
  | cons first later =>
      obtain ⟨hfirst, hlater⟩ := List.pairwise_cons.mp hsorted
      simp only [taken, take, if_true, List.singleton_append, List.exists_mem_cons_iff]
      rcases List.mem_cons.mp hnow with rfl | hnow
      · exact .inl ⟨by omega, le_refl _⟩
      · have hsince : now - first ≤ span ∨
            ∃ time ∈ taken limit span (some (1, first)) later, now - span ≤ time ∧ time ≤ now :=
          taken_since hspan hlater hnow
        rcases hsince with hnear | hlet
        · exact .inl ⟨by omega, hfirst now hnow⟩
        · exact .inr hlet

/-! ## Windows cut out of time -/

/-- Whether an event gets through: there are not yet `limit` of its window among the events before it. -/
def fits (limit : ℕ) (span : ℤ) (before : List ℤ) (now : ℤ) : Bool :=
  before.countP (fun time => time / span = now / span) < limit

/-- The times of the events that get through, after those before. -/
def fitting (limit : ℕ) (span : ℤ) (before : List ℤ) : List ℤ → List ℤ
  | [] => []
  | now :: later =>
    (if fits limit span before now then [now] else []) ++ fitting limit span (before ++ [now]) later

/-- The events of one window that get through. -/
theorem fitting_window (before : List ℤ) (window : ℤ) :
    ((fitting limit span before times).filter fun time => time / span = window).length ≤
      limit - before.countP fun time => time / span = window := by
  induction times generalizing before with
  | nil => exact Nat.zero_le _
  | cons now later ih =>
      have hrest := ih (before ++ [now])
      rw [List.countP_append, List.countP_singleton] at hrest
      rw [fitting, List.filter_append, List.length_append]
      by_cases hwindow : now / span = window
      · simp only [hwindow, decide_true, if_true] at hrest
        split
        · rename_i hfits
          have hroom := of_decide_eq_true hfits
          simp only [hwindow] at hroom
          have hone := List.length_filter_le (fun time : ℤ => decide (time / span = window)) [now]
          simp only [List.length_singleton] at hone
          omega
        · simp only [List.filter_nil, List.length_nil]
          omega
      · simp only [hwindow, decide_false, Bool.false_eq_true, if_false] at hrest
        have hskip : (if fits limit span before now then [now] else []).filter
            (fun time => decide (time / span = window)) = [] := by
          split
          · simp [hwindow]
          · rfl
        rw [hskip]
        simpa using hrest

theorem window_or (hspan : 0 < span) (hstart : start ≤ now) (hstop : now < start + span) :
    now / span = start / span ∨ now / span = start / span + 1 := by
  have hlow : start / span ≤ now / span := Int.ediv_le_ediv hspan hstart
  have hhigh : now / span ≤ (start + span * 1) / span := Int.ediv_le_ediv hspan (by omega)
  rw [Int.add_mul_ediv_left _ _ hspan.ne'] at hhigh
  omega

/-- No more than twice the limit gets through in any span of time. -/
theorem fitting_le (hspan : 0 < span) (start : ℤ) :
    ((fitting limit span [] times).filter fun time => start ≤ time ∧ time < start + span).length ≤ 2 * limit := by
  have hwindows : ∀ l : List ℤ, l.countP (fun time => start ≤ time ∧ time < start + span) ≤
      l.countP (fun time => time / span = start / span) + l.countP fun time => time / span = start / span + 1 := by
    intro l
    induction l with
    | nil => simp
    | cons time l ih =>
        have hor := fun h : start ≤ time ∧ time < start + span => window_or hspan h.1 h.2
        simp only [List.countP_cons, decide_eq_true_eq]
        split_ifs <;> omega
  have hfirst := @fitting_window limit span times [] (start / span)
  have hsecond := @fitting_window limit span times [] (start / span + 1)
  simp only [List.countP_nil, Nat.sub_zero, ← List.countP_eq_length_filter] at hfirst hsecond ⊢
  have hboth := hwindows (fitting limit span [] times)
  omega

end Limiter
end CpcJudge
