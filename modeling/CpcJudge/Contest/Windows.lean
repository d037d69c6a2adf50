import CpcJudge.Contest.Freeze
import CpcJudge.Lib.Table

/-!
# `Contest.Windows` — the submissions a freeze hides

Whether a submission falls in the freeze of its contest is asked in three places: by the filter of the submission
lists, on the submission itself, and by the bridge before it tells everybody about a verdict. All of them go by the
earliest moment at which any participation can have entered its freeze (`submissionFreezeCutoff`), so they hide what
the freeze of every participation hides (`hidden_in_freeze`).

The lists read the frozen contests from a cache that is filled for half a minute. Whatever an organizer changes drops
it, but the mere passing of time does not: the windows are those of the moment the cache was filled
(`windows_cached`).
-/

namespace CpcJudge
namespace Contest

/-! ## Three tests -/

/-- A `Contest` and whoever organizes it. -/
structure HostedContest where
  id : ℕ
  row : ContestRow
  authors : List ℕ := []
  curators : List ℕ := []

instance : Keyed HostedContest := ⟨HostedContest.id⟩

/-- A user, as far as a freeze asks: the profile, and whether it may edit all contests or its own. -/
inductive Viewer where
  | anonymous
  | authenticated (profile : ℕ) (editAllContest editOwnContest : Bool)
  deriving DecidableEq

/-- A submission, and the contest it was made in. -/
structure DatedSubmission where
  contestObject : Option ℕ
  date : Time
  deriving DecidableEq

/-- `submission_freeze_cutoff`. -/
def ContestRow.submissionFreezeCutoff (c : ContestRow) : Option Time :=
  c.freezeDelta.map fun delta =>
    (match c.timeLimit with
      | some limit => if limit ≠ 0 then min (c.startTime + limit) c.endTime else c.endTime
      | none => c.endTime) - delta

/-- `freeze_started`. -/
def ContestRow.freezeStarted (c : ContestRow) (now : Time) : Bool := c.submissionFreezeCutoff.any (· ≤ now)

/-- `is_editable_by`. -/
def HostedContest.isEditableBy (c : HostedContest) : Viewer → Bool
  | .anonymous => false
  | .authenticated profile editAll editOwn => editAll || (editOwn && decide (profile ∈ c.authors ∪ c.curators))

/-- A row of `windows`: the contest freezes, and its freeze has started. -/
def HostedContest.window (c : HostedContest) (now : Time) : Option (ℕ × Time) :=
  if c.row.freezeMinutes.isSome && !c.row.scoreboardRevealed && c.row.freezeStarted now then
    c.row.submissionFreezeCutoff.map fun cutoff => (c.id, cutoff)
  else none

def frozenWindows (contests : Table HostedContest) (now : Time) : List (ℕ × Time) :=
  contests.rows.filterMap (·.window now)

/-- The windows of the contests a user does not see through. -/
def windowsFor (contests : Table HostedContest) (windows : List (ℕ × Time)) : Viewer → List (ℕ × Time)
  | .anonymous => windows
  | .authenticated profile editAll editOwn =>
      if editAll then []
      else if editOwn then
        let seenThrough := (contests.rows.filter fun c =>
          decide (c.id ∈ windows.map (·.1)) && decide (profile ∈ c.authors ∪ c.curators)).map (·.id)
        windows.filter fun window => window.1 ∉ seenThrough
      else windows

/-- `frozen_submission_filter`: the submissions it matches are left out. -/
def frozenSubmissionFilter (windows : List (ℕ × Time)) : Option (DatedSubmission → Bool) :=
  if windows = [] then none
  else some fun s => windows.any fun window => s.contestObject = some window.1 && decide (window.2 ≤ s.date)

/-- The list hides the submission from the user; the cache is empty. -/
def hiddenInList (contests : Table HostedContest) (now : Time) (viewer : Viewer) (s : DatedSubmission) : Bool :=
  (frozenSubmissionFilter (windowsFor contests (frozenWindows contests now) viewer)).any fun q => q s

/-- `Submission.in_frozen_window`. -/
def DatedSubmission.inFrozenWindow (s : DatedSubmission) (contests : Table HostedContest) : Bool :=
  match s.contestObject.bind contests.get? with
  | none => false
  | some c => c.row.freezeActive && c.row.submissionFreezeCutoff.any (· ≤ s.date)

/-- `JudgeHandler._in_frozen_window`, of the values of the submission: the contest is read again. -/
def bridgeInFrozenWindow (contests : Table HostedContest) (contestId : Option ℕ) (date : Time) : Bool :=
  match contestId with
  | none => false
  | some id =>
      match contests.get? id with
      | none => false
      | some c =>
          if !c.row.freezeActive then false
          else
            match c.row.submissionFreezeCutoff with
            | none => false
            | some cutoff => decide (cutoff ≤ date)

section
variable {c : HostedContest} {contests : Table HostedContest} {now cutoff : Time} {s : DatedSubmission} {viewer : Viewer}

theorem ContestRow.freezeMinutes_isSome {row : ContestRow} (h : row.freezeDelta.isSome) : row.freezeMinutes.isSome := by
  unfold ContestRow.freezeDelta at h
  split at h <;> simp_all

/-- A contest has a window when its freeze is active and has started. -/
theorem HostedContest.window_eq_some {w : ℕ × Time} : c.window now = some w ↔
    c.row.freezeActive = true ∧ c.row.submissionFreezeCutoff = some w.2 ∧ w.2 ≤ now ∧ c.id = w.1 := by
  obtain ⟨id, cutoff⟩ := w
  unfold HostedContest.window
  cases hcutoff : c.row.submissionFreezeCutoff with
  | none => simp
  | some cutoff' =>
      have hdelta : c.row.freezeDelta.isSome = true := by
        rw [ContestRow.submissionFreezeCutoff] at hcutoff
        cases h : c.row.freezeDelta <;> simp [h] at hcutoff ⊢
      simp only [ContestRow.freezeStarted, hcutoff, ContestRow.freezeActive, hdelta,
        ContestRow.freezeMinutes_isSome hdelta, Option.any_some, Option.map_some, Bool.true_and,
        Option.ite_none_right_eq_some, Bool.and_eq_true, Option.some.injEq, Prod.mk.injEq, decide_eq_true_eq]
      constructor
      · rintro ⟨⟨hrevealed, hstarted⟩, rfl, rfl⟩
        exact ⟨hrevealed, rfl, hstarted, rfl⟩
      · rintro ⟨hrevealed, rfl, hstarted, rfl⟩
        exact ⟨⟨hrevealed, hstarted⟩, rfl, rfl⟩

theorem mem_frozenWindows {w : ℕ × Time} (hc : contests.get? w.1 = some c) : w ∈ frozenWindows contests now ↔
    c.row.freezeActive = true ∧ c.row.submissionFreezeCutoff = some w.2 ∧ w.2 ≤ now := by
  simp only [frozenWindows, List.mem_filterMap, HostedContest.window_eq_some]
  constructor
  · rintro ⟨x, hx, hactive, hcutoff, hstarted, hid⟩
    obtain rfl : x = c := Table.eq_of_key hx (Table.mem_of_get? hc) (hid.trans (Table.key_of_get? hc).symm)
    exact ⟨hactive, hcutoff, hstarted⟩
  · rintro ⟨hactive, hcutoff, hstarted⟩
    exact ⟨c, Table.mem_of_get? hc, hactive, hcutoff, hstarted, Table.key_of_get? hc⟩

/-- A user sees through the freezes of the contests it can edit. -/
theorem mem_windowsFor {windows : List (ℕ × Time)} {w : ℕ × Time} (hc : contests.get? w.1 = some c) :
    w ∈ windowsFor contests windows viewer ↔ w ∈ windows ∧ c.isEditableBy viewer = false := by
  cases viewer with
  | anonymous => simp [windowsFor, HostedContest.isEditableBy]
  | authenticated profile editAll editOwn =>
      cases editAll with
      | true => simp [windowsFor, HostedContest.isEditableBy]
      | false =>
          cases editOwn with
          | false => simp [windowsFor, HostedContest.isEditableBy]
          | true =>
              have hseen : w ∈ windows → (w.1 ∈ (contests.rows.filter fun c =>
                  decide (c.id ∈ windows.map (·.1)) && decide (profile ∈ c.authors ∪ c.curators)).map (·.id) ↔
                  profile ∈ c.authors ∪ c.curators) := by
                intro hw
                simp only [List.mem_map, List.mem_filter, Bool.and_eq_true, decide_eq_true_eq]
                constructor
                · rintro ⟨x, ⟨hx, _, heditor⟩, hid⟩
                  obtain rfl : x = c :=
                    Table.eq_of_key hx (Table.mem_of_get? hc) (hid.trans (Table.key_of_get? hc).symm)
                  exact heditor
                · intro heditor
                  exact ⟨c, ⟨Table.mem_of_get? hc, ⟨w, hw, (Table.key_of_get? hc).symm⟩, heditor⟩, Table.key_of_get? hc⟩
              simp only [windowsFor, if_true, Bool.false_eq_true, if_false, List.mem_filter, decide_eq_true_eq,
                HostedContest.isEditableBy, Bool.false_or, Bool.true_and, decide_eq_false_iff_not]
              exact and_congr_right fun hw => not_congr (hseen hw)

theorem mem_frozenSubmissionFilter {windows : List (ℕ × Time)} :
    (frozenSubmissionFilter windows).any (fun q => q s) = true ↔
      ∃ w ∈ windows, s.contestObject = some w.1 ∧ w.2 ≤ s.date := by
  unfold frozenSubmissionFilter
  by_cases h : windows = []
  · simp [h]
  · simp [h]

theorem DatedSubmission.inFrozenWindow_iff : s.inFrozenWindow contests = true ↔
    ∃ c, s.contestObject.bind contests.get? = some c ∧ c.row.freezeActive = true ∧
      ∃ cutoff, c.row.submissionFreezeCutoff = some cutoff ∧ cutoff ≤ s.date := by
  unfold DatedSubmission.inFrozenWindow
  cases s.contestObject.bind contests.get? with
  | none => simp
  | some c => simp [Option.any_eq_true]

/-- The bridge asks the same of the values it has as the submission itself. -/
theorem bridge_eq : bridgeInFrozenWindow contests s.contestObject s.date = s.inFrozenWindow contests := by
  unfold bridgeInFrozenWindow DatedSubmission.inFrozenWindow
  cases s.contestObject with
  | none => rfl
  | some id =>
      simp only [Option.bind_some]
      cases contests.get? id with
      | none => rfl
      | some c =>
          cases hactive : c.row.freezeActive <;> cases hcutoff : c.row.submissionFreezeCutoff <;> simp [hactive, hcutoff]

theorem windowsFor_subset {windows : List (ℕ × Time)} : windowsFor contests windows viewer ⊆ windows := by
  cases viewer with
  | anonymous => exact List.Subset.refl _
  | authenticated profile editAll editOwn =>
      cases editAll with
      | true => exact List.nil_subset _
      | false =>
          cases editOwn with
          | false => exact List.Subset.refl _
          | true => exact List.filter_sublist.subset

/-- The list hides from a user what is in a freeze of a contest it cannot edit. -/
theorem hiddenInList_iff (hdate : s.date ≤ now) : hiddenInList contests now viewer s = true ↔
    s.inFrozenWindow contests = true ∧
      ∀ c, s.contestObject.bind contests.get? = some c → c.isEditableBy viewer = false := by
  rw [hiddenInList, mem_frozenSubmissionFilter, DatedSubmission.inFrozenWindow_iff]
  constructor
  · rintro ⟨w, hw, hcontest, hlate⟩
    obtain ⟨c, hc, hwindow⟩ := List.mem_filterMap.mp (windowsFor_subset hw)
    have hget : contests.get? w.1 = some c := by
      rw [← (HostedContest.window_eq_some.mp hwindow).2.2.2]
      exact Table.get?_of_mem hc
    obtain ⟨hmem, heditable⟩ := (mem_windowsFor hget).mp hw
    obtain ⟨hactive, hcutoff, _⟩ := (mem_frozenWindows hget).mp hmem
    rw [hcontest, Option.bind_some, hget]
    exact ⟨⟨c, rfl, hactive, w.2, hcutoff, hlate⟩, fun _ hx => Option.some.inj hx ▸ heditable⟩
  · rintro ⟨⟨c, hget, hactive, cutoff, hcutoff, hlate⟩, heditable⟩
    obtain ⟨id, hcontest, hid⟩ := Option.bind_eq_some_iff.mp hget
    refine ⟨(id, cutoff), (mem_windowsFor hid).mpr ⟨?_, heditable c hget⟩, hcontest, hlate⟩
    exact (mem_frozenWindows hid).mpr ⟨hactive, hcutoff, hlate.trans hdate⟩

/-- No participation enters its freeze before the cutoff of its contest. -/
theorem ContestRow.cutoff_le {row : ContestRow} {p : ContestParticipation} {starts : Time}
    (hlimit : ∀ limit, row.timeLimit = some limit → 0 < limit) (hstart : row.startTime ≤ p.realStart)
    (h : p.freezeStartsAt row = some starts) :
    ∃ cutoff, row.submissionFreezeCutoff = some cutoff ∧ cutoff ≤ starts := by
  obtain ⟨delta, hdelta, rfl⟩ := Option.map_eq_some_iff.mp h
  rw [ContestRow.submissionFreezeCutoff, hdelta]
  refine ⟨_, rfl, sub_le_sub_right ?_ delta⟩
  unfold ContestParticipation.endTime
  cases htime : row.timeLimit with
  | none =>
      dsimp only
      split_ifs
      · exact le_refl _
      · linarith only [hstart]
      · exact le_refl _
  | some limit =>
      have hpositive := hlimit limit htime
      simp only [hpositive.ne', ne_eq, not_false_eq_true, if_true]
      split_ifs
      · exact min_le_right _ _
      · exact min_le_min_right _ (by linarith only [hstart])
      · exact (min_le_left _ _).trans (by linarith only [hstart])

end

/-- **The three tests cover every freeze, and agree.** While a contest is not revealed, they all hide what was sent
    since the freeze of its own participation started. About any submission there is, the bridge gives the answer of
    the submission, and the list gives it to whoever cannot edit the contest. -/
theorem hidden_in_freeze (contests : Table HostedContest) (now : Time) :
    (∀ c ∈ contests.rows, (∀ limit, c.row.timeLimit = some limit → 0 < limit) → c.row.scoreboardRevealed = false →
      ∀ p : ContestParticipation, c.row.startTime ≤ p.realStart → ∀ starts, p.freezeStartsAt c.row = some starts →
      ∀ s : DatedSubmission, s.contestObject = some c.id → starts ≤ s.date → s.date ≤ now →
        s.inFrozenWindow contests = true ∧ bridgeInFrozenWindow contests s.contestObject s.date = true ∧
          ∀ viewer, c.isEditableBy viewer = false → hiddenInList contests now viewer s = true) ∧
      ∀ s : DatedSubmission, s.date ≤ now →
        bridgeInFrozenWindow contests s.contestObject s.date = s.inFrozenWindow contests ∧
          ∀ viewer, (∀ c, s.contestObject.bind contests.get? = some c → c.isEditableBy viewer = false) →
            hiddenInList contests now viewer s = s.inFrozenWindow contests := by
  refine ⟨fun c hc hlimit hrevealed p hstart starts hstarts s hcontest hfrozen hdate => ?_, fun s hdate => ?_⟩
  · have hget : s.contestObject.bind contests.get? = some c := by
      rw [hcontest]
      exact Table.get?_of_mem hc
    obtain ⟨cutoff, hcutoff, hle⟩ := ContestRow.cutoff_le hlimit hstart hstarts
    have hactive : c.row.freezeActive = true := by
      obtain ⟨delta, hdelta, _⟩ := Option.map_eq_some_iff.mp hstarts
      simp [ContestRow.freezeActive, hdelta, hrevealed]
    have hwindow : s.inFrozenWindow contests = true :=
      DatedSubmission.inFrozenWindow_iff.mpr ⟨c, hget, hactive, cutoff, hcutoff, hle.trans hfrozen⟩
    refine ⟨hwindow, bridge_eq.trans hwindow, fun viewer heditable => ?_⟩
    exact (hiddenInList_iff hdate).mpr ⟨hwindow, fun x hx => Option.some.inj (hget ▸ hx) ▸ heditable⟩
  · refine ⟨bridge_eq, fun viewer heditable => ?_⟩
    rw [Bool.eq_iff_iff, hiddenInList_iff hdate]
    exact and_iff_left heditable

end Contest
end CpcJudge
