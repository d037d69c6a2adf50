import CpcJudge.Contest.Windows

/-!
# `Contest.WindowCache` — the frozen contests, remembered for half a minute

`frozen_windows_for` asks the database for the frozen contests only when its cache is empty, and then fills it for half
a minute. Revealing a scoreboard, freezing it again and saving a contest with other dates or another freeze drop the
cache, so what it holds always goes by the contests as they are now (`Site.Current`). But it goes by the moment it was
filled: a freeze that starts in between hides nothing until the cache expires.
-/

namespace CpcJudge
namespace Contest

/-- The contests, the clock, and the cache of windows with the moment it expires. -/
structure Site where
  contests : Table HostedContest := .empty
  now : Time := 0
  cache : Option (List (ℕ × Time) × Time) := none

/-- How long the cache is kept: half a minute. -/
def cacheTime : Time := 30000000

/-- `cache.get`. -/
def Site.cached (s : Site) : Option (List (ℕ × Time)) :=
  (s.cache.filter fun entry => s.now < entry.2).map (·.1)

/-- The windows in the cache, which is filled if it has none. -/
def Site.readWindows (s : Site) : List (ℕ × Time) × Site :=
  match s.cached with
  | some windows => (windows, s)
  | none =>
      let windows := frozenWindows s.contests s.now
      (windows, { s with cache := some (windows, s.now + cacheTime) })

/-- `frozen_windows_for`. -/
def Site.frozenWindowsFor (s : Site) (viewer : Viewer) : List (ℕ × Time) × Site :=
  let (windows, s) := s.readWindows
  (if windows = [] then [] else windowsFor s.contests windows viewer, s)

/-- `save_model` drops the cache when one of these fields changed. -/
def HostedContest.windowFields (c : HostedContest) : Option ℕ × Bool × Time × Time × Option Time :=
  (c.row.freezeMinutes, c.row.scoreboardRevealed, c.row.startTime, c.row.endTime, c.row.timeLimit)

/-- What can happen: time passes, somebody asks for a list of submissions, and an organizer reveals some contests,
freezes them again, or saves one. -/
inductive SiteEvent where
  | pass (delta : ℕ)
  | request (viewer : Viewer)
  | reveal (ids : List ℕ)
  | freezeAgain (ids : List ℕ)
  | save (contest : HostedContest)

def HostedContest.setRevealed (c : HostedContest) (revealed : Bool) : HostedContest :=
  { c with row := { c.row with scoreboardRevealed := revealed } }

/-- `reveal_scoreboard`, `contest_reveal_publish` and `hide_scoreboard`: the contests with a freeze that are not like
that yet. -/
def Site.setRevealed (s : Site) (ids : List ℕ) (revealed : Bool) : Site :=
  { s with
    contests := s.contests.modify
      (fun c => decide (c.id ∈ ids) && c.row.freezeMinutes.isSome && c.row.scoreboardRevealed != revealed)
      (·.setRevealed revealed) fun _ => rfl
    cache := none }

/-- `save_model`, of a contest there is or of a new one. -/
def Site.save (s : Site) (c : HostedContest) : Site :=
  match s.contests.get? c.id with
  | none => { s with contests := s.contests.add c, cache := none }
  | some old =>
      { s with
        contests := s.contests.put c
        cache := if c.windowFields = old.windowFields then s.cache else none }

def Site.after (s : Site) : SiteEvent → Site
  | .pass delta => { s with now := s.now + delta }
  | .request viewer => (s.frozenWindowsFor viewer).2
  | .reveal ids => s.setRevealed ids true
  | .freezeAgain ids => s.setRevealed ids false
  | .save contest => s.save contest

def Site.run (s : Site) (events : List SiteEvent) : Site := events.foldl Site.after s

/-- The moment the windows go by: the one the cache was filled at, or this one if there is nothing in it. -/
def Site.asOf (s : Site) : Time :=
  match s.cache with
  | some (_, expires) => if s.now < expires then expires - cacheTime else s.now
  | none => s.now

/-! ## The cache is current -/

/-- What the cache holds are the windows of the contests as they are now, at the moment it was filled. -/
def Site.Current (s : Site) : Prop :=
  ∀ windows expires, s.cache = some (windows, expires) →
    expires - cacheTime ≤ s.now ∧ windows = frozenWindows s.contests (expires - cacheTime)

section
variable {s : Site} {c : HostedContest}

theorem HostedContest.window_congr {old : HostedContest} (hid : c.id = old.id) (h : c.windowFields = old.windowFields)
    (now : Time) : c.window now = old.window now := by
  simp only [HostedContest.windowFields, Prod.mk.injEq] at h
  obtain ⟨hminutes, hrevealed, hstart, hend, hlimit⟩ := h
  have hdelta : c.row.freezeDelta = old.row.freezeDelta := by
    rw [ContestRow.freezeDelta, ContestRow.freezeDelta, hminutes]
  have hcutoff : c.row.submissionFreezeCutoff = old.row.submissionFreezeCutoff := by
    rw [ContestRow.submissionFreezeCutoff, ContestRow.submissionFreezeCutoff, hdelta, hstart, hend, hlimit]
  unfold HostedContest.window ContestRow.freezeStarted
  rw [hid, hminutes, hrevealed, hcutoff]

/-- Saving a contest with the same dates and freeze leaves the windows. -/
theorem frozenWindows_put {contests : Table HostedContest} {old : HostedContest} (hold : contests.get? c.id = some old)
    (h : c.windowFields = old.windowFields) (now : Time) :
    frozenWindows (contests.put c) now = frozenWindows contests now := by
  obtain ⟨l, r, hrows, hput⟩ := Table.rows_put (a := c) hold
  rw [frozenWindows, frozenWindows, hrows, hput]
  simp only [List.filterMap_append, List.filterMap_cons,
    HostedContest.window_congr (Table.key_of_get? hold).symm h now]

theorem Site.current_of_empty (h : s.cache = none) : s.Current := fun _ _ hcache => by
  rw [h] at hcache
  cases hcache

theorem Site.Current.readWindows (h : s.Current) : s.readWindows.1 = frozenWindows s.contests s.asOf ∧
    s.readWindows.2.Current ∧ s.readWindows.2.contests = s.contests := by
  have hfills : s.cached = none → s.asOf = s.now → s.readWindows.1 = frozenWindows s.contests s.asOf ∧
      s.readWindows.2.Current ∧ s.readWindows.2.contests = s.contests := by
    intro hcached hnow
    have hread : s.readWindows = (frozenWindows s.contests s.now,
        { s with cache := some (frozenWindows s.contests s.now, s.now + cacheTime) }) := by
      simp only [Site.readWindows, hcached]
    rw [hread, hnow]
    refine ⟨rfl, fun windows expires hcache => ?_, rfl⟩
    obtain ⟨rfl, rfl⟩ := Prod.mk.inj (Option.some.inj hcache)
    rw [add_sub_cancel_right]
    exact ⟨le_refl _, rfl⟩
  cases hcache : s.cache with
  | none => exact hfills (by simp [Site.cached, hcache]) (by simp [Site.asOf, hcache])
  | some entry =>
      obtain ⟨windows, expires⟩ := entry
      by_cases hfresh : s.now < expires
      · have hcached : s.cached = some windows := by simp [Site.cached, hcache, hfresh]
        have hasOf : s.asOf = expires - cacheTime := by simp only [Site.asOf, hcache, if_pos hfresh]
        have hread : s.readWindows = (windows, s) := by simp only [Site.readWindows, hcached]
        rw [hread, hasOf]
        exact ⟨(h windows expires hcache).2, h, rfl⟩
      · exact hfills (by simp [Site.cached, hcache, not_lt.mp hfresh]) (by simp only [Site.asOf, hcache, if_neg hfresh])

theorem Site.Current.after (h : s.Current) (e : SiteEvent) : (s.after e).Current := by
  cases e with
  | pass delta =>
      intro windows expires hcache
      obtain ⟨hfilled, hwindows⟩ := h windows expires hcache
      exact ⟨hfilled.trans (le_add_of_nonneg_right (Int.natCast_nonneg delta)), hwindows⟩
  | request viewer => exact h.readWindows.2.1
  | reveal ids => exact Site.current_of_empty rfl
  | freezeAgain ids => exact Site.current_of_empty rfl
  | save c =>
      simp only [Site.after, Site.save]
      split
      · exact Site.current_of_empty rfl
      · rename_i old hold
        by_cases hfields : c.windowFields = old.windowFields
        · intro windows expires hcache
          obtain ⟨hfilled, hwindows⟩ := h windows expires (by simpa only [if_pos hfields] using hcache)
          exact ⟨hfilled, hwindows.trans (frozenWindows_put hold hfields _).symm⟩
        · exact Site.current_of_empty (if_neg hfields)

theorem Site.Current.run (h : s.Current) (events : List SiteEvent) : (s.run events).Current := by
  induction events generalizing s with
  | nil => exact h
  | cons e events ih => exact ih (h.after e)

/-- The cache is never older than half a minute. -/
theorem Site.Current.asOf_le (h : s.Current) : s.now - cacheTime < s.asOf ∧ s.asOf ≤ s.now := by
  have hkept : (0 : Time) < cacheTime := by decide
  unfold Site.asOf
  split
  · rename_i windows expires hcache
    split
    · rename_i hfresh
      exact ⟨sub_lt_sub_right hfresh _, (h windows expires hcache).1⟩
    · exact ⟨sub_lt_self _ hkept, le_refl _⟩
  · exact ⟨sub_lt_self _ hkept, le_refl _⟩

end

/-- **The windows of the freezes are those of the moment the cache was filled.** Whatever happens, at every moment and
    for every user who cannot edit a contest, its window with its current cutoff is among those of the user exactly when
    its freeze is active and had started at that moment, less than half a minute ago; so it is when the freeze started
    half a minute ago, or the cache has nothing, and a revealed contest is never among them. -/
theorem windows_cached (s : Site) (hcache : s.cache = none) (events : List SiteEvent) (viewer : Viewer)
    (c : HostedContest) (hc : (s.run events).contests.get? c.id = some c) (heditable : c.isEditableBy viewer = false) :
    (∀ cutoff, (c.id, cutoff) ∈ ((s.run events).frozenWindowsFor viewer).1 ↔
        c.row.freezeActive = true ∧ c.row.submissionFreezeCutoff = some cutoff ∧ cutoff ≤ (s.run events).asOf) ∧
      (s.run events).now - cacheTime < (s.run events).asOf ∧
      ((s.run events).cached = none → (s.run events).asOf = (s.run events).now) ∧
      (c.row.scoreboardRevealed = true →
        ∀ cutoff, (c.id, cutoff) ∉ ((s.run events).frozenWindowsFor viewer).1) := by
  have hcurrent : (s.run events).Current := (Site.current_of_empty hcache).run events
  generalize s.run events = t at hc hcurrent ⊢
  obtain ⟨hwindows, _, hcontests⟩ := hcurrent.readWindows
  have hiff : ∀ cutoff, (c.id, cutoff) ∈ (t.frozenWindowsFor viewer).1 ↔
      c.row.freezeActive = true ∧ c.row.submissionFreezeCutoff = some cutoff ∧ cutoff ≤ t.asOf := by
    intro cutoff
    have hin : (c.id, cutoff) ∈ (t.frozenWindowsFor viewer).1 ↔
        (c.id, cutoff) ∈ windowsFor t.contests (frozenWindows t.contests t.asOf) viewer := by
      simp only [Site.frozenWindowsFor, hcontests, hwindows]
      split
      · rename_i hempty
        rw [hempty]
        exact iff_of_false List.not_mem_nil fun hmem => List.not_mem_nil (windowsFor_subset hmem)
      · rfl
    rw [hin, mem_windowsFor hc, mem_frozenWindows hc]
    exact and_iff_left heditable
  refine ⟨hiff, hcurrent.asOf_le.1, fun hnone => ?_, fun hrevealed cutoff hmem => ?_⟩
  · unfold Site.asOf
    split
    · rename_i windows expires hfilled
      refine if_neg fun hfresh => ?_
      have hexpired : expires ≤ t.now := by simpa [Site.cached, hfilled] using hnone
      exact absurd hfresh (not_lt.mpr hexpired)
    · rfl
  · have hactive := ((hiff cutoff).mp hmem).1
    simp [ContestRow.freezeActive, hrevealed] at hactive

/-- A contest of five hours that freezes over its last hour, one second before its freeze starts. -/
def almostFrozen : HostedContest where
  id := 1
  row :=
    { startTime := 0, endTime := 18000000000, timeLimit := none, freezeMinutes := some 60, scoreboardRevealed := false
      format := .icpc, formatConfig := {}, pointsPrecision := 3, problems := fun _ => { points := 1 } }

def beforeFreeze : Site where
  contests := Table.empty.add almostFrozen
  now := 14399000000

/-- Somebody asks for the submissions just before the freeze starts, and two seconds pass. -/
def secondBefore : List SiteEvent := [.request .anonymous, .pass 2000000]

/-- The freeze has started, and hides nothing. -/
theorem windows_late : ¬ ∀ (s : Site), s.cache = none → ∀ (events : List SiteEvent) (viewer : Viewer)
    (c : HostedContest), (s.run events).contests.get? c.id = some c → c.isEditableBy viewer = false →
    ∀ cutoff, c.row.freezeActive = true → c.row.submissionFreezeCutoff = some cutoff →
      cutoff ≤ (s.run events).now → (c.id, cutoff) ∈ ((s.run events).frozenWindowsFor viewer).1 := by
  intro h
  have hnone : ((beforeFreeze.run secondBefore).frozenWindowsFor .anonymous).1 = [] := by decide +kernel
  have hmem := h beforeFreeze rfl secondBefore .anonymous almostFrozen rfl rfl 14400000000 (by decide +kernel)
    (by decide +kernel) (by decide +kernel)
  rw [hnone] at hmem
  exact List.not_mem_nil hmem

/-- Once the cache expired, it does. -/
theorem windows_cached_expired :
    (1, 14400000000) ∈ ((beforeFreeze.run (secondBefore ++ [.pass 30000000])).frozenWindowsFor .anonymous).1 :=
  ((windows_cached beforeFreeze rfl (secondBefore ++ [.pass 30000000]) .anonymous almostFrozen rfl rfl).1
    14400000000).mpr (by decide +kernel)

end Contest
end CpcJudge
