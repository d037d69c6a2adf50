import CpcJudge.Clarifications.Page

/-!
# The two tables in step

`InStep` is what `syncAnnouncement` is for: one visible announcement for a public answer, in its contest,
and none for any other clarification. A request stores the row as it was when it read it, changed as it was
asked, and synchronizes with what it stores, so the row that lasts is always the one the announcements were
made to match. The announcements of the other clarifications are left alone.
-/

namespace CpcJudge.Clarifications
open Table
/-- The clarification a request has read and will save. -/
def Request.read : Request → Option ContestClarification
  | .answer c _ _ _ => some c
  | .save c _ _ _ _ _ _ _ => c
  | .delete _ _ => none

namespace Site

/-- A visible announcement of the clarification with this key. -/
def Announces (s : Site) (clarification : ℕ) (a : Announcement) : Prop :=
  a ∈ s.announcements.rows ∧ a.clarification = some clarification ∧ a.isVisible = true

structure InStep (s : Site) (c : ContestClarification) : Prop where
  once : ∀ a b, s.Announces c.id a → s.Announces c.id b → a = b
  published : (∃ a, s.Announces c.id a) ↔ c.isPublished = true
  own : ∀ a, s.Announces c.id a → a.contest = some c.contest
  dated : c.answer ≠ [] → c.answered.isSome = true

/-- No row has a key that is still to be given out, nor does anything point at one; and what a deletion has
withdrawn was of the clarifications it deletes. -/
structure Numbered (s : Site) : Prop where
  clarifications : ∀ c ∈ s.clarifications.rows, c.id < s.nextId
  announcements : ∀ a ∈ s.announcements.rows, a.id < s.nextId
  points : ∀ a ∈ s.announcements.rows, ∀ id, a.clarification = some id → id < s.nextId
  reads : ∀ r ∈ s.requests, ∀ c, r.read = some c → c.id < s.nextId
  deletes : ∀ pks withdrawn, .delete pks withdrawn ∈ s.requests → ∀ w ∈ withdrawn, w < s.nextId ∧
    ∀ a ∈ s.announcements.rows, a.id = w → ∀ id, a.clarification = some id → id ∈ pks

structure Steady (s : Site) : Prop extends s.Numbered where
  inStep : ∀ c ∈ s.clarifications.rows, s.InStep c

section
variable {s t : Site} {c d : ContestClarification} {a : Announcement} {id author now : ℕ}

/-- Only the announcements of a clarification matter to it. -/
theorem InStep.of_same (h : s.InStep c) (hsame : ∀ a, t.Announces c.id a ↔ s.Announces c.id a) : t.InStep c where
  once a b ha hb := h.once a b ((hsame a).mp ha) ((hsame b).mp hb)
  published := (exists_congr hsame).trans h.published
  own a ha := h.own a ((hsame a).mp ha)
  dated := h.dated

/-! ## Withdrawing and refreshing -/

theorem announces_withdraw {p : Announcement → Bool} :
    (s.withdraw p).Announces id a ↔ s.Announces id a ∧ p a = false := by
  simp only [Announces, withdraw, mem_modify]
  constructor
  · rintro ⟨⟨r, hr, rfl⟩, hid, hvisible⟩
    by_cases hp : (p r && r.isVisible) = true
    · simp [hp] at hvisible
    · rw [if_neg hp] at hid hvisible ⊢
      exact ⟨⟨hr, hid, hvisible⟩, by simpa [hvisible] using hp⟩
  · rintro ⟨⟨ha, hid, hvisible⟩, hp⟩
    exact ⟨⟨a, ha, by simp [hp]⟩, hid, hvisible⟩

theorem refresh_spec (s : Site) (c : ContestClarification) (current : Announcement) :
    (s.refresh c current).id = current.id ∧
    (s.refresh c current).clarification = current.clarification ∧
    (s.refresh c current).isVisible = true ∧ (s.refresh c current).contest = some c.contest := by
  unfold refresh
  cases hvisible : current.isVisible <;> by_cases hcontest : current.contest = some c.contest <;>
    by_cases hexpires : current.expires = some (s.endTime c.contest) <;> simp [hvisible, hcontest, hexpires]

theorem firstAnnouncement_some (h : s.firstAnnouncement id = some a) :
    a ∈ s.announcements.rows ∧ a.clarification = some id := by
  simpa using List.argmin_mem h

theorem firstAnnouncement_none (h : s.firstAnnouncement id = none) : ¬ s.Announces id a := by
  rintro ⟨ha, hid, _⟩
  have hnil := List.argmin_eq_none.mp h
  exact List.not_mem_nil (hnil ▸ List.mem_filter.mpr ⟨ha, by simpa using hid⟩)

theorem InStep.of_none (hpublished : c.isPublished = false) (hdated : c.answer ≠ [] → c.answered.isSome = true)
    (hnone : ∀ a, ¬ s.Announces c.id a) : s.InStep c where
  once a b ha := absurd ha (hnone a)
  published := by
    rw [hpublished]
    exact iff_of_false (fun h => h.elim hnone) (by simp)
  own a ha := absurd ha (hnone a)
  dated := hdated

theorem InStep.of_one (hpublished : c.isPublished = true) (hdated : c.answer ≠ [] → c.answered.isSome = true)
    (hone : ∀ b, s.Announces c.id b ↔ b = a) (hcontest : a.contest = some c.contest) : s.InStep c where
  once b b' hb hb' := ((hone b).mp hb).trans ((hone b').mp hb').symm
  published := iff_of_true ⟨a, (hone a).mpr rfl⟩ hpublished
  own b hb := (hone b).mp hb ▸ hcontest
  dated := hdated

/-- The new announcement is the only one, its key being new. -/
theorem announces_new (hnew : s.announcements.get? s.nextId = none) :
    ({ s with
      announcements := s.announcements.add (s.newAnnouncement c author now)
      nextId := s.nextId + 1 } : Site).Announces id a ↔
      (id = c.id ∧ a = s.newAnnouncement c author now) ∨ s.Announces id a := by
  have hrows := rows_add (a := s.newAnnouncement c author now) hnew
  simp only [Announces, hrows, List.mem_append, List.mem_singleton]
  constructor
  · rintro ⟨ha | rfl, hid, hvisible⟩
    · exact .inr ⟨ha, hid, hvisible⟩
    · exact .inl ⟨(Option.some.inj hid).symm, rfl⟩
  · rintro (⟨rfl, rfl⟩ | ⟨ha, hid, hvisible⟩)
    · exact ⟨.inr rfl, rfl, rfl⟩
    · exact ⟨.inl ha, hid, hvisible⟩

/-- The announcement that was there is the one that is left. -/
theorem announces_refresh {current : Announcement} (hmem : current ∈ s.announcements.rows)
    (hid : current.clarification = some c.id) :
    (({ s with announcements := s.announcements.put (s.refresh c current) } : Site).withdraw
        fun a => a.clarification = some c.id && a.id ≠ current.id).Announces id a ↔
      (id = c.id ∧ a = s.refresh c current) ∨ (id ≠ c.id ∧ s.Announces id a) := by
  obtain ⟨hkey, hsame, hvisible, -⟩ := s.refresh_spec c current
  rw [announces_withdraw]
  constructor
  · rintro ⟨⟨ha, haid, havisible⟩, hkept⟩
    rcases mem_put ha with rfl | ⟨ha, hne⟩
    · exact .inl ⟨Option.some.inj (haid.symm.trans (hsame.trans hid)), rfl⟩
    · refine .inr ⟨?_, ha, haid, havisible⟩
      rintro rfl
      -- another announcement of the same clarification has just been withdrawn
      have hother : a.id ≠ current.id := fun heq => hne (heq.trans hkey.symm)
      simp [haid, hother] at hkept
  · rintro (⟨rfl, rfl⟩ | ⟨hc, ha, haid, havisible⟩)
    · have hget : s.announcements.get? (s.refresh c current).id = some current :=
        get?_eq_some_iff.mpr ⟨hmem, hkey.symm⟩
      exact ⟨⟨mem_of_get? (get?_put_self hget), hsame.trans hid, hvisible⟩, by simp [hkey]⟩
    · refine ⟨⟨mem_put_of_ne ha fun heq => hc ?_, haid, havisible⟩, by simp [haid, hc]⟩
      obtain rfl := eq_of_key ha hmem (heq.trans hkey)
      exact Option.some.inj (haid.symm.trans hid)

/-- What the announcements of `c` are afterwards, and that nobody else's changed. -/
theorem sync_spec (author now : ℕ) (hbelow : ∀ a ∈ s.announcements.rows, a.id < s.nextId)
    (hdated : c.answer ≠ [] → c.answered.isSome = true) :
    (s.syncAnnouncement c author now).InStep c ∧
      ∀ id ≠ c.id, ∀ a, (s.syncAnnouncement c author now).Announces id a ↔ s.Announces id a := by
  cases hpublished : c.isPublished with
  | false =>
      have hsync : s.syncAnnouncement c author now = s.withdraw (·.clarification = some c.id) := by
        simp [syncAnnouncement, hpublished]
      rw [hsync]
      refine ⟨.of_none hpublished hdated fun a => ?_, fun id hid a => ?_⟩
      · rw [announces_withdraw]
        rintro ⟨⟨_, hid, _⟩, hp⟩
        simp [hid] at hp
      · rw [announces_withdraw]
        refine and_iff_left_of_imp fun ha => ?_
        simp [ha.2.1, hid]
  | true =>
      cases hfirst : s.firstAnnouncement c.id with
      | none =>
          have hsync : s.syncAnnouncement c author now =
              { s with
                announcements := s.announcements.add (s.newAnnouncement c author now)
                nextId := s.nextId + 1 } := by
            simp [syncAnnouncement, hpublished, hfirst]
          have hnew : s.announcements.get? s.nextId = none :=
            get?_eq_none_iff.mpr fun a ha => (hbelow a ha).ne
          rw [hsync]
          refine ⟨.of_one (a := s.newAnnouncement c author now) hpublished hdated (fun b => ?_) rfl,
            fun id hid a => ?_⟩
          · rw [announces_new hnew, or_iff_left (firstAnnouncement_none hfirst), and_iff_right rfl]
          · rw [announces_new hnew, or_iff_right fun h => hid h.1]
      | some current =>
          obtain ⟨hmem, hid⟩ := firstAnnouncement_some hfirst
          have hsync : s.syncAnnouncement c author now =
              ({ s with announcements := s.announcements.put (s.refresh c current) } : Site).withdraw
                fun a => a.clarification = some c.id && a.id ≠ current.id := by
            simp [syncAnnouncement, hpublished, hfirst]
          rw [hsync]
          refine ⟨.of_one (a := s.refresh c current) hpublished hdated (fun b => ?_)
            (s.refresh_spec c current).2.2.2, fun id hne a => ?_⟩
          · rw [announces_refresh hmem hid]
            simp
          · rw [announces_refresh hmem hid]
            simp [hne]

/-! ## Saving -/

theorem mem_save (h : d ∈ (s.save c).clarifications.rows) : d = c ∨ (d ∈ s.clarifications.rows ∧ d.id ≠ c.id) := by
  unfold save at h
  split at h
  · exact mem_put h
  · next hnone =>
    rcases mem_add h with rfl | h
    · exact .inl rfl
    · exact .inr ⟨h, get?_eq_none_iff.mp hnone d h⟩

theorem save_frame : (s.save c).announcements = s.announcements ∧ (s.save c).nextId = s.nextId ∧
    (s.save c).requests = s.requests := by
  unfold save
  split
  · exact ⟨rfl, rfl, rfl⟩
  · exact ⟨rfl, rfl, rfl⟩

/-- An announcement of `t` was there in `s` and points nowhere else, or has a key given out since. -/
structure Grows (s t : Site) : Prop where
  next : s.nextId ≤ t.nextId
  rows : ∀ b ∈ t.announcements.rows,
    (∃ a ∈ s.announcements.rows, b.id = a.id ∧ ∀ id, b.clarification = some id → a.clarification = some id) ∨
    (s.nextId ≤ b.id ∧ b.id < t.nextId ∧ ∀ id, b.clarification = some id → id < t.nextId)

theorem Grows.refl (s : Site) : s.Grows s :=
  ⟨le_rfl, fun b hb => .inl ⟨b, hb, rfl, fun _ hid => hid⟩⟩

theorem Grows.trans {u : Site} (h : s.Grows t) (h' : t.Grows u) : s.Grows u := by
  refine ⟨h.next.trans h'.next, fun b hb => ?_⟩
  rcases h'.rows b hb with ⟨a, ha, hkey, hpoints⟩ | ⟨hlow, hhigh, hpoints⟩
  · rcases h.rows a ha with ⟨r, hr, hkey', hpoints'⟩ | ⟨hlow, hhigh, hpoints'⟩
    · exact .inl ⟨r, hr, hkey.trans hkey', fun id hid => hpoints' id (hpoints id hid)⟩
    · exact .inr ⟨hkey ▸ hlow, hkey ▸ hhigh.trans_le h'.next,
        fun id hid => (hpoints' id (hpoints id hid)).trans_le h'.next⟩
  · exact .inr ⟨h.next.trans hlow, hhigh, hpoints⟩

theorem Numbered.grows (h : s.Numbered) (hgrows : s.Grows t)
    (hclarifications : ∀ c ∈ t.clarifications.rows, c.id < t.nextId)
    (hrequests : ∀ r ∈ t.requests, r ∈ s.requests) : t.Numbered where
  clarifications := hclarifications
  announcements b hb := by
    rcases hgrows.rows b hb with ⟨a, ha, hkey, -⟩ | ⟨-, hhigh, -⟩
    · exact hkey ▸ (h.announcements a ha).trans_le hgrows.next
    · exact hhigh
  points b hb id hid := by
    rcases hgrows.rows b hb with ⟨a, ha, -, hpoints⟩ | ⟨-, -, hpoints⟩
    · exact (h.points a ha id (hpoints id hid)).trans_le hgrows.next
    · exact hpoints id hid
  reads r hr c hc := (h.reads r (hrequests r hr) c hc).trans_le hgrows.next
  deletes pks withdrawn hmem w hw := by
    obtain ⟨hbelow, hof⟩ := h.deletes pks withdrawn (hrequests _ hmem) w hw
    refine ⟨hbelow.trans_le hgrows.next, fun b hb hkey id hid => ?_⟩
    rcases hgrows.rows b hb with ⟨a, ha, hsame, hpoints⟩ | ⟨hlow, -, -⟩
    · exact hof a ha (hsame.symm.trans hkey) id (hpoints id hid)
    · omega

theorem grows_withdraw (s : Site) (p : Announcement → Bool) : s.Grows (s.withdraw p) := by
  refine ⟨le_rfl, fun b hb => ?_⟩
  obtain ⟨a, ha, rfl⟩ := by simpa only [withdraw, mem_modify] using hb
  refine .inl ⟨a, ha, ?_⟩
  split <;> exact ⟨rfl, fun _ hid => hid⟩

theorem grows_sync (hc : c.id < s.nextId) : s.Grows (s.syncAnnouncement c author now) := by
  unfold syncAnnouncement
  split
  · exact s.grows_withdraw _
  · split
    · refine ⟨Nat.le_succ _, fun b hb => ?_⟩
      rcases mem_add hb with rfl | hb
      · exact .inr ⟨le_rfl, Nat.lt_succ_self _, fun id hid => Option.some.inj hid ▸ hc.trans (Nat.lt_succ_self _)⟩
      · exact .inl ⟨b, hb, rfl, fun _ hid => hid⟩
    · next current hfirst =>
      obtain ⟨hmem, -⟩ := firstAnnouncement_some hfirst
      obtain ⟨hkey, hsame, -⟩ := s.refresh_spec c current
      refine Grows.trans (t := { s with announcements := s.announcements.put (s.refresh c current) })
        ⟨le_rfl, fun b hb => ?_⟩ (grows_withdraw _ _)
      rcases mem_put hb with rfl | ⟨hb, -⟩
      · exact .inl ⟨current, hmem, hkey, fun id hid => hsame ▸ hid⟩
      · exact .inl ⟨b, hb, rfl, fun _ hid => hid⟩

theorem sync_clarifications : (s.syncAnnouncement c author now).clarifications = s.clarifications := by
  unfold syncAnnouncement
  split
  · rfl
  · split <;> rfl

theorem sync_requests : (s.syncAnnouncement c author now).requests = s.requests := by
  unfold syncAnnouncement
  split
  · rfl
  · split <;> rfl

theorem grows_store (author now : ℕ) (hc : c.id < s.nextId) : s.Grows (s.store c author now) := by
  obtain ⟨hannouncements, hnext, -⟩ := s.save_frame (c := c)
  refine Grows.trans (t := s.save c) ⟨hnext.ge, fun b hb => ?_⟩ (grows_sync (hnext ▸ hc))
  exact .inl ⟨b, hannouncements ▸ hb, rfl, fun _ hid => hid⟩

/-- A row stored with its answer dated is in step, and so are the others as before. -/
theorem Steady.store (h : s.Steady) (hc : c.id < s.nextId) (hdated : c.answer ≠ [] → c.answered.isSome = true) :
    (s.store c author now).Steady := by
  obtain ⟨hannouncements, hnext, hrequests⟩ := s.save_frame (c := c)
  obtain ⟨hown, hothers⟩ := sync_spec (s := s.save c) author now
    (by rw [hannouncements, hnext]; exact h.announcements) hdated
  have hgrows := grows_store author now hc
  have hrows : ∀ d ∈ (s.store c author now).clarifications.rows, d = c ∨ (d ∈ s.clarifications.rows ∧ d.id ≠ c.id) :=
    fun d hd => mem_save (by rwa [Site.store, sync_clarifications] at hd)
  refine ⟨h.grows hgrows (fun d hd => ?_) fun r hr => ?_, fun d hd => ?_⟩
  · rcases hrows d hd with rfl | ⟨hd, -⟩
    · exact hc.trans_le hgrows.next
    · exact (h.clarifications d hd).trans_le hgrows.next
  · rwa [Site.store, sync_requests, hrequests] at hr
  · rcases hrows d hd with rfl | ⟨hd, hne⟩
    · exact hown
    · refine (h.inStep d hd).of_same fun a => (hothers d.id hne a).trans ?_
      rw [Announces, Announces, hannouncements]

/-! ## Deleting -/

theorem mem_erase {pks withdrawn : List ℕ} (h : a ∈ (s.erase pks withdrawn).announcements.rows) :
    ∃ r ∈ s.announcements.rows, a.id = r.id ∧ (∀ id, a.clarification = some id → r.clarification = some id) ∧
      (a.isVisible = true → ∀ id, a.clarification = some id → a = r) := by
  simp only [erase, mem_modify] at h
  obtain ⟨b, ⟨r, hr, rfl⟩, rfl⟩ := h
  refine ⟨r, hr, ?_⟩
  by_cases hw : r.id ∈ withdrawn <;> by_cases hp : r.clarification.any (· ∈ pks) = true <;> simp [hw, hp]

/-- The announcements of a clarification that stays are left as they were. -/
theorem announces_erase {pks withdrawn : List ℕ} (hid : id ∉ pks)
    (hwithdrawn : ∀ a ∈ s.announcements.rows, a.id ∈ withdrawn → a.clarification ≠ some id) :
    (s.erase pks withdrawn).Announces id a ↔ s.Announces id a := by
  constructor
  · rintro ⟨ha, hpoints, hvisible⟩
    obtain ⟨r, hr, -, -, hsame⟩ := mem_erase ha
    obtain rfl := hsame hvisible id hpoints
    exact ⟨hr, hpoints, hvisible⟩
  · rintro ⟨ha, hpoints, hvisible⟩
    have hkept : a.id ∉ withdrawn := fun hw => hwithdrawn a ha hw hpoints
    refine ⟨?_, hpoints, hvisible⟩
    simp only [erase, mem_modify]
    exact ⟨a, ⟨a, ha, by simp [hkept]⟩, by simp [hpoints, hid]⟩

theorem Steady.erase {pks withdrawn : List ℕ} (h : s.Steady) (hmem : .delete pks withdrawn ∈ s.requests) :
    (s.erase pks withdrawn).Steady := by
  have hgrows : s.Grows (s.erase pks withdrawn) := by
    refine ⟨le_rfl, fun b hb => ?_⟩
    obtain ⟨r, hr, hkey, hpoints, -⟩ := mem_erase hb
    exact .inl ⟨r, hr, hkey, hpoints⟩
  refine ⟨h.grows hgrows (fun c hc => ?_) fun r hr => hr, fun c hc => ?_⟩
  · exact h.clarifications c (Table.mem_filter.mp hc).1
  · obtain ⟨hc, hstays⟩ := Table.mem_filter.mp hc
    have hstays : c.id ∉ pks := by simpa using hstays
    refine (h.inStep c hc).of_same fun a => announces_erase hstays fun a ha hw hpoints => hstays ?_
    exact (h.deletes pks withdrawn hmem a.id hw).2 a ha rfl c.id hpoints

/-! ## Every step -/

theorem answered_dated {answer : Text} {isPublic : Bool} {profile : ℕ} :
    (answered c answer isPublic profile now).answer ≠ [] →
      (answered c answer isPublic profile now).answered.isSome = true := fun _ => rfl

theorem dated_spec {profile : ℕ} : (dated c profile now).id = c.id ∧
    ((dated c profile now).answer ≠ [] → (dated c profile now).answered.isSome = true) := by
  unfold dated
  split
  · exact ⟨rfl, fun _ => rfl⟩
  · next hdated =>
    refine ⟨rfl, fun hanswer => ?_⟩
    have hempty : c.answer.isEmpty = false := by simpa using hanswer
    exact Option.isSome_iff_ne_none.mpr (by simpa [hempty] using hdated)

/-- Nothing happens to the clarifications, nor to the announcements of any. -/
theorem Steady.of_same (h : s.Steady) (hgrows : s.Grows t) (hclarifications : t.clarifications = s.clarifications)
    (hrequests : ∀ r ∈ t.requests, r ∈ s.requests) (hsame : ∀ id a, t.Announces id a ↔ s.Announces id a) :
    t.Steady := by
  refine ⟨h.grows hgrows (fun c hc => ?_) hrequests, fun c hc => ?_⟩
  · exact (h.clarifications c (hclarifications ▸ hc)).trans_le hgrows.next
  · exact (h.inStep c (hclarifications ▸ hc)).of_same (hsame c.id)

theorem Steady.next (h : s.Steady) : ({ s with nextId := s.nextId + 1 } : Site).Steady :=
  h.of_same ⟨Nat.le_succ _, fun b hb => .inl ⟨b, hb, rfl, fun _ hid => hid⟩⟩ rfl (fun _ hr => hr)
    fun _ _ => Iff.rfl

theorem Steady.commit (h : s.Steady) {r : Request} (hr : r ∈ s.requests) : (s.commit now r).Steady := by
  cases r with
  | answer c answer isPublic profile => exact h.store (h.reads _ hr c rfl) answered_dated
  | save read contest problem user question answer isPublic profile =>
      cases read with
      | some c =>
          refine h.store ?_ dated_spec.2
          rw [dated_spec.1]
          exact h.reads _ hr c rfl
      | none =>
          refine h.next.store ?_ dated_spec.2
          rw [dated_spec.1]
          exact Nat.lt_succ_self _
  | delete pks withdrawn => exact h.erase hr

theorem commit_requests {r : Request} : (s.commit now r).requests = s.requests := by
  have hstore (s : Site) (c : ContestClarification) (profile : ℕ) :
      (s.store c profile now).requests = s.requests := sync_requests.trans s.save_frame.2.2
  cases r with
  | answer c answer isPublic profile => exact hstore _ _ _
  | save read contest problem user question answer isPublic profile =>
      cases read with
      | some c => exact hstore _ _ _
      | none => exact hstore { s with nextId := s.nextId + 1 } _ _
  | delete pks withdrawn => rfl

theorem Steady.fewer {requests : List Request} (h : s.Steady) (hsub : ∀ r ∈ requests, r ∈ s.requests) :
    ({ s with requests := requests } : Site).Steady :=
  h.of_same ⟨le_rfl, fun b hb => .inl ⟨b, hb, rfl, fun _ hid => hid⟩⟩ rfl hsub fun _ _ => Iff.rfl

theorem Steady.request {r : Request} (h : s.Steady) (hread : ∀ c, r.read = some c → c.id < s.nextId)
    (hdeletes : ∀ pks withdrawn, r = .delete pks withdrawn → ∀ w ∈ withdrawn, w < s.nextId ∧
      ∀ a ∈ s.announcements.rows, a.id = w → ∀ id, a.clarification = some id → id ∈ pks) : (s.request r).Steady where
  clarifications := h.clarifications
  announcements := h.announcements
  points := h.points
  reads r' hr' := by
    rcases List.mem_append.mp hr' with hr' | hr'
    · exact h.reads r' hr'
    · exact List.mem_singleton.mp hr' ▸ hread
  deletes pks withdrawn hmem := by
    rcases List.mem_append.mp hmem with hmem | hmem
    · exact h.deletes pks withdrawn hmem
    · exact hdeletes pks withdrawn (List.mem_singleton.mp hmem).symm
  inStep c hc := (h.inStep c hc).of_same fun _ => Iff.rfl

/-- A deletion withdraws what is visible of the clarifications it deletes, and nothing else. -/
theorem Steady.delete (h : s.Steady) (pks : List ℕ) : (s.step (.delete pks)).Steady := by
  refine h.request (fun c hc => by cases hc) ?_
  rintro _ _ heq w hw
  cases heq
  obtain ⟨a, ha, rfl⟩ := List.mem_map.mp hw
  obtain ⟨ha, hof⟩ := List.mem_filter.mp ha
  refine ⟨h.announcements a ha, fun b hb hkey id hid => ?_⟩
  obtain rfl := eq_of_key hb ha hkey
  simpa [hid] using (Bool.and_eq_true_iff.mp hof).1

theorem Steady.ask {contest : ℕ} {problem : Option ContestProblem} {user : ℕ} {team : Option ℕ} {question : Text}
    (h : s.Steady) : (s.step (.ask contest problem user team question)).Steady := by
  have hgrows : s.Grows (s.step (.ask contest problem user team question)) :=
    ⟨Nat.le_succ _, fun b hb => .inl ⟨b, hb, rfl, fun _ hid => hid⟩⟩
  refine ⟨h.grows hgrows (fun c hc => ?_) fun _ hr => hr, fun c hc => ?_⟩
  · rcases mem_add hc with rfl | hc
    · exact Nat.lt_succ_self _
    · exact (h.clarifications c hc).trans (Nat.lt_succ_self _)
  · rcases mem_add hc with rfl | hc
    · refine .of_none rfl (fun hanswer => absurd rfl hanswer) ?_
      rintro a ⟨ha, hid, -⟩
      exact (h.points a ha _ hid).ne rfl
    · exact (h.inStep c hc).of_same fun _ => Iff.rfl

theorem Steady.announce {announcement : Announcement} (h : s.Steady) : (s.step (.announce announcement)).Steady := by
  simp only [Site.step]
  split
  · next old hold =>
    obtain ⟨hmem, hkey⟩ := get?_eq_some_iff.mp hold
    split
    case isFalse => exact h
    case isTrue hfree =>
      have hfree : old.clarification = none := by simpa using hfree
      refine h.of_same ⟨le_rfl, fun b hb => ?_⟩ rfl (fun _ hr => hr) fun id a => ⟨?_, ?_⟩
      · rcases mem_put hb with rfl | ⟨hb, -⟩
        · exact .inl ⟨old, hmem, hkey.symm, fun _ hid => by cases hid⟩
        · exact .inl ⟨b, hb, rfl, fun _ hid => hid⟩
      · rintro ⟨ha, hid, hvisible⟩
        rcases mem_put ha with rfl | ⟨ha, -⟩
        · cases hid
        · exact ⟨ha, hid, hvisible⟩
      · rintro ⟨ha, hid, hvisible⟩
        refine ⟨mem_put_of_ne ha fun heq => ?_, hid, hvisible⟩
        obtain rfl := eq_of_key ha hmem (heq.trans hkey.symm)
        rw [hfree] at hid
        cases hid
  · refine h.of_same ⟨Nat.le_succ _, fun b hb => ?_⟩ rfl (fun _ hr => hr) fun id a => ⟨?_, ?_⟩
    · rcases mem_add hb with rfl | hb
      · exact .inr ⟨le_rfl, Nat.lt_succ_self _, fun _ hid => by cases hid⟩
      · exact .inl ⟨b, hb, rfl, fun _ hid => hid⟩
    · rintro ⟨ha, hid, hvisible⟩
      rcases mem_add ha with rfl | ha
      · cases hid
      · exact ⟨ha, hid, hvisible⟩
    · rintro ⟨ha, hid, hvisible⟩
      exact ⟨mem_add_of_mem ha, hid, hvisible⟩

theorem Steady.step (h : s.Steady) (e : Event) : (s.step e).Steady := by
  cases e with
  | ask contest problem user team question => exact h.ask
  | answer canEdit contest pk answer isPublic profile =>
      simp only [Site.step]
      split
      · next c hc =>
        split
        · refine h.request (fun d hd => ?_) fun _ _ heq => by cases heq
          cases hd
          exact h.clarifications c (mem_of_get? hc)
        · exact h
      · exact h
  | save editable pk contest problem user question answer isPublic profile =>
      simp only [Site.step]
      split
      case isFalse => exact h
      cases pk with
      | none => exact h.request (fun d hd => by cases hd) fun _ _ heq => by cases heq
      | some pk =>
          dsimp only
          split
          · next c hc =>
            split
            · refine h.request (fun d hd => ?_) fun _ _ heq => by cases heq
              cases hd
              exact h.clarifications c (mem_of_get? hc)
            · exact h
          · exact h
  | delete pks => exact h.delete pks
  | commit place now =>
      simp only [Site.step]
      split
      · next r hr =>
        refine (h.commit (List.mem_of_getElem? hr)).fewer fun r' hr' => ?_
        rw [commit_requests]
        exact List.mem_of_mem_eraseIdx hr'
      · exact h
  | abort place => exact h.fewer fun r hr => List.mem_of_mem_eraseIdx hr
  | announce announcement => exact h.announce
  | elsewhere endTime teamEntries =>
      exact h.of_same ⟨le_rfl, fun b hb => .inl ⟨b, hb, rfl, fun _ hid => hid⟩⟩ rfl (fun _ hr => hr)
        fun _ _ => Iff.rfl

theorem initial_steady : initial.Steady where
  clarifications _ hc := absurd hc List.not_mem_nil
  announcements _ ha := absurd ha List.not_mem_nil
  points _ ha := absurd ha List.not_mem_nil
  reads _ hr := absurd hr List.not_mem_nil
  deletes _ _ hr := absurd hr List.not_mem_nil
  inStep _ hc := absurd hc List.not_mem_nil

/-- Whatever is asked, answered, edited, moved and deleted, and however the requests interleave. -/
theorem run_steady (events : List Event) : (initial.run events).Steady := by
  suffices hall : ∀ s : Site, s.Steady → (s.run events).Steady from hall initial initial_steady
  induction events with
  | nil => exact fun s h => h
  | cons e events ih => exact fun s h => ih (s.step e) (h.step e)

/-! ## On the page and in the box -/

/-- Where a clarification is shown, and to whom. -/
structure Shown (s : Site) (c : ContestClarification) : Prop where
  published : c.isPublished = true → ∀ contest profile canEdit,
    (s.page contest profile canEdit).count c.id = if contest = c.contest then 1 else 0
  personal : c.isPublished = false → ∀ contest profile canEdit, c.id ∈ s.page contest profile canEdit →
    contest = c.contest ∧ (canEdit = true ∨ ∃ p, profile = some p ∧ s.owns p c = true)
  box : c.isPublished = false → ∀ profile contest now, ∀ item ∈ s.activeAnnouncements profile contest now,
    item.Prints c → ∃ p, profile = some p ∧ s.owns p c = true

/-- What prints a clarification out of an announcement checks that its answer is public, and where. -/
theorem hasSomethingToSay_spec (hc : c ∈ s.clarifications.rows) (hid : a.clarification = some c.id) :
    s.hasSomethingToSay a = true ↔ c.isPublished = true ∧ a.contest = some c.contest := by
  have hget : s.clarifications.get? c.id = some c := get?_of_mem hc
  simp [hasSomethingToSay, carriesPublicAnswer, clarificationOf, hid, hget, ContestClarification.isPublished,
    and_assoc]

theorem mem_pageAnnouncements {contest : ℕ} : a ∈ s.pageAnnouncements contest ↔
    a ∈ s.announcements.rows ∧ a.contest = some contest ∧ a.isVisible = true ∧ s.hasSomethingToSay a = true := by
  simp [pageAnnouncements, and_assoc]

theorem mem_visibleClarifications {contest : ℕ} {profile : Option ℕ} {canEdit : Bool} :
    c ∈ s.visibleClarifications contest profile canEdit ↔
      (c ∈ s.clarifications.rows ∧ c.contest = contest ∧
        (c.isPublic && c.answered.isSome && s.isAnnounced c) = false) ∧
      (canEdit = true ∨ ∃ p, profile = some p ∧ s.owns p c = true) := by
  have hqueryset : c ∈ s.clarifications.rows.filter (fun c =>
        c.contest = contest && !(c.isPublic && c.answered.isSome && s.isAnnounced c)) ↔
      c ∈ s.clarifications.rows ∧ c.contest = contest ∧
        (c.isPublic && c.answered.isSome && s.isAnnounced c) = false := by
    rw [List.mem_filter, Bool.and_eq_true, decide_eq_true_eq, Bool.not_eq_true']
  rw [← hqueryset]
  unfold visibleClarifications
  cases canEdit with
  | true => simp only [if_true, true_or, and_true]
  | false =>
      cases profile with
      | none => simp
      | some p =>
          dsimp only
          rw [if_neg Bool.false_ne_true, List.mem_filter]
          simp

/-- How often the announcements of a page print a clarification. -/
theorem count_pageAnnouncements {contest : ℕ} (hc : c ∈ s.clarifications.rows) (h : s.InStep c)
    (hpublished : c.isPublished = true) :
    ((s.pageAnnouncements contest).filterMap (·.clarification)).count c.id = if contest = c.contest then 1 else 0 := by
  obtain ⟨a, ha⟩ := h.published.mpr hpublished
  rw [List.count_filterMap]
  split
  · next hcontest =>
    have hperm : (s.pageAnnouncements contest).countP (·.clarification == some c.id) =
        s.announcements.rows.countP fun b => b.clarification == some c.id && s.hasSomethingToSay b &&
          (b.contest = some contest && b.isVisible) := by
      rw [pageAnnouncements, List.countP_filter, (List.perm_insertionSort _ _).countP_eq, List.countP_filter]
    rw [hperm]
    refine countP_eq_one ha.1 fun b hb => ?_
    constructor
    · intro hprints
      simp only [Bool.and_eq_true, beq_iff_eq, decide_eq_true_eq] at hprints
      exact h.once b a ⟨hb, hprints.1.1, hprints.2.2⟩ ha
    · rintro rfl
      have hsays := (hasSomethingToSay_spec hc ha.2.1).mpr ⟨hpublished, h.own b ha⟩
      simp [ha.2.1, ha.2.2, hsays, h.own b ha, hcontest]
  · next hcontest =>
    refine List.countP_eq_zero.mpr fun b hb hprints => hcontest ?_
    obtain ⟨hb, hof, hvisible, -⟩ := mem_pageAnnouncements.mp hb
    have hown := h.own b ⟨hb, by simpa using hprints, hvisible⟩
    exact Option.some.inj (hof.symm.trans hown)

/-- A row of the list with the key of `c` is `c`. -/
theorem mem_map_visibleClarifications {contest : ℕ} {profile : Option ℕ} {canEdit : Bool}
    (hc : c ∈ s.clarifications.rows) (h : c.id ∈ (s.visibleClarifications contest profile canEdit).map (·.id)) :
    c ∈ s.visibleClarifications contest profile canEdit := by
  obtain ⟨d, hd, hkey⟩ := List.mem_map.mp h
  obtain rfl := eq_of_key (mem_visibleClarifications.mp hd).1.1 hc hkey
  exact hd

theorem InStep.isAnnounced (h : s.InStep c) (hpublished : c.isPublished = true) : s.isAnnounced c = true := by
  obtain ⟨a, ha⟩ := h.published.mpr hpublished
  exact List.any_eq_true.mpr ⟨a, ha.1, by simp [ha.2.1, ha.2.2, h.own a ha]⟩

theorem InStep.shown (h : s.InStep c) (hc : c ∈ s.clarifications.rows) : s.Shown c where
  published hpublished contest profile canEdit := by
    rw [page, List.count_append, count_pageAnnouncements hc h hpublished, List.count_eq_zero_of_not_mem, add_zero]
    intro hmem
    obtain ⟨hpublic, hanswer⟩ := Bool.and_eq_true_iff.mp hpublished
    have hlisted := (mem_visibleClarifications.mp (mem_map_visibleClarifications hc hmem)).1.2.2
    rw [hpublic, h.dated (by simpa using hanswer), h.isAnnounced hpublished] at hlisted
    cases hlisted
  personal hpublished contest profile canEdit hmem := by
    rcases List.mem_append.mp hmem with hmem | hmem
    · obtain ⟨a, ha, hid⟩ := List.mem_filterMap.mp hmem
      obtain ⟨-, -, -, hsays⟩ := mem_pageAnnouncements.mp ha
      rw [hasSomethingToSay_spec hc hid, hpublished] at hsays
      cases hsays.1
    · obtain ⟨⟨-, hcontest, -⟩, hwho⟩ := mem_visibleClarifications.mp (mem_map_visibleClarifications hc hmem)
      exact ⟨hcontest.symm, hwho⟩
  box hpublished profile contest now item hitem hprints := by
    rcases List.mem_append.mp hitem with hitem | hitem
    · obtain ⟨a, ha, rfl⟩ := List.mem_map.mp hitem
      have hsays := (List.mem_filter.mp ha).2
      rw [hasSomethingToSay_spec hc hprints, hpublished] at hsays
      cases hsays.1
    · obtain ⟨d, hd, rfl⟩ := List.mem_map.mp hitem
      cases contest with
      | none => simp at hd
      | some contest =>
          cases profile with
          | none => simp at hd
          | some p =>
              have hrow := (List.perm_insertionSort _ _).mem_iff.mp (List.mem_of_mem_take hd)
              obtain ⟨hrow, hconditions⟩ := List.mem_filter.mp hrow
              obtain rfl := eq_of_key hrow hc hprints
              simp only [Bool.and_eq_true] at hconditions
              exact ⟨p, rfl, hconditions.1.1.1.1⟩

end

/-! ## Clarifications and their announcements -/

/-- After any sequence of questions, answers, edits, moves and deletions, each of them read at one moment and
saved at a later one, every clarification is in step with its announcements and shown where it has to be. -/
theorem clarifications_in_step (events : List Event) :
    ∀ c ∈ (initial.run events).clarifications.rows, (initial.run events).InStep c ∧ (initial.run events).Shown c :=
  fun c hc => ⟨(run_steady events).inStep c hc, ((run_steady events).inStep c hc).shown hc⟩

/-- A question asked, answered in public, and moved to another contest by a request of the admin that had read
it before the answer. -/
def crossed : List Event :=
  [.ask 1 none 7 none ['q'], .save [1, 2] (some 1) 2 none 7 ['q'] ['n', 'o'] true 9,
    .answer true 1 1 ['y', 'e', 's'] true 8, .commit 1 30, .commit 0 40]

def crossedQuestion : ContestClarification where
  id := 1
  contest := 2
  problem := none
  user := 7
  teamParticipation := none
  question := ['q']
  answer := ['n', 'o']
  answeredBy := some 9
  answered := some 40
  isPublic := true

theorem clarifications_in_step_crossed :
    (initial.run crossed).InStep crossedQuestion ∧ (initial.run crossed).Shown crossedQuestion :=
  clarifications_in_step crossed crossedQuestion (by decide)

end Site
end CpcJudge.Clarifications
