import CpcJudge.Mail.Steady

/-!
# `Mail.Once` — nobody gets an email twice

Each step keeps the site steady, if a task writes down the segment it made only while the email is still its: `_save`
does not look. A task that is superseded while `create_segment` is on its way puts its segment in the place of the one
that the newer task fills.
-/

namespace CpcJudge
namespace Mail

variable {s : Site} {t e i b row segment : ℕ} {a : Answer} {mail other : MassEmail} {stage : Stage} {status : Status}
  {todo : List ℕ} {point : Point} {event : Event} {events : List Event}

/-- Where nothing is about to be saved or deleted. -/
def Point.Plain : Point → Prop
  | .made _ | .deleting _ _ => False
  | _ => True

theorem Steady.pass (h : Steady (fun _ => False) s) (ht : t < s.nextTask) (hplain : point.Plain)
    (hstanding : Standing s t (s.tasks t) (s.tasks t).point → Standing s t { s.tasks t with point } point) :
    Steady (fun _ => False) (s.goTo t point) := by
  have hok := h.tasks t ht id
  refine (h.pause t).goTo ht hok.broadcast (hstanding hok.standing) (fun i hpoint => ?_) (fun i todo hpoint => ?_)
  · rw [hpoint] at hplain
    exact hplain.elim
  · rw [hpoint] at hplain
    exact hplain.elim

theorem Steady.stop (h : Steady (fun _ => False) s) (ht : t < s.nextTask) : Steady (fun _ => False) (s.goTo t .stopped) :=
  h.pass ht trivial fun _ => trivial

theorem Steady.err (h : Steady (fun _ => False) s) (ht : t < s.nextTask) : Steady (fun _ => False) (s.goTo t .failing) :=
  h.pass ht trivial fun _ => trivial

theorem Steady.started (h : Steady (fun _ => False) s) (hpoint : (s.tasks t).point ≠ .unqueued) : t < s.nextTask := by
  by_contra hge
  exact hpoint (h.idle t (not_lt.mp hge))

/-! ## The start -/

theorem Steady.start (h : Steady (fun _ => False) s) (ht : t < s.nextTask) : Steady (fun _ => False) (s.start t) := by
  unfold Site.start
  split_ifs
  · exact (h.pause t).setTask ht ⟨fun _ hb => hb, fun _ => rfl⟩ nofun nofun
  · exact h.stop ht

theorem Steady.openMail (h : Steady (fun _ => False) s) (ht : t < s.nextTask) (hpoint : (s.tasks t).point = .opened) :
    Steady (fun _ => False) (s.openMail t a) := by
  have hbroadcast := (h.tasks t ht id).broadcast
  have hcontacts : Steady (fun _ => False) (s.goTo t .contacts) := h.pass ht trivial (by rw [hpoint]; exact id)
  unfold Site.openMail
  split
  · exact hcontacts
  · rename_i b hb
    split_ifs with ha hdraft
    · exact h.err ht
    · exact hcontacts
    · refine h.pass ht trivial fun _ _ => ⟨b, hbroadcast b hb, hdraft, ?_⟩
      rintro (hstage | hstage) <;> simp [hstage, Stage.Unsent]

/-! ## Freeing segments -/

theorem freed_claimable (hlooking : other.status = .sent ∨ other.status = .scheduled → ∀ b,
      other.broadcastId = some b → s.Has (s.segments i).name b ∧ (s.broadcasts b).stage ≠ .draft)
    (hfreed : s.freed a other = some status) : Claimable s i other status := by
  have hunsent : ∀ b, (s.broadcasts b).stage ∈ [Stage.sent, .canceled, .deleted] → ¬ (s.broadcasts b).stage.Unsent := by
    intro b hb
    cases hstage : (s.broadcasts b).stage <;> simp_all [Stage.Unsent]
  unfold Site.freed at hfreed
  split at hfreed
  case h_1 hcancelled =>
    exact .inl ⟨hcancelled, (Option.some.inj hfreed).symm⟩
  case h_2 hfailed =>
    split_ifs at hfreed
    exact .inr (.inl ⟨hfailed, (Option.some.inj hfreed).symm⟩)
  case h_3 b hsent hb =>
    split_ifs at hfreed with hdone
    exact .inr (.inr ⟨.inl hsent, .inl (Option.some.inj hfreed).symm, b, (hlooking (.inl hsent) b hb).1, hunsent b hdone.2⟩)
  case h_4 b hscheduled hb =>
    obtain ⟨hhas, hdraft⟩ := hlooking (.inr hscheduled) b hb
    split_ifs at hfreed with hanswer hsent hdone
    · exact .inr (.inr ⟨.inr hscheduled, .inl (Option.some.inj hfreed).symm, b, hhas, hunsent b (by simp [hsent])⟩)
    · refine .inr (.inr ⟨.inr hscheduled, .inr (Option.some.inj hfreed).symm, b, hhas, hunsent b ?_⟩)
      -- the broadcast of an email that was scheduled is a draft no more
      simp only [List.mem_cons, List.not_mem_nil, or_false] at hdone ⊢
      tauto
  case h_5 => cases hfreed

/-- What the claim writes. -/
theorem MassEmail.release_fields (mail : MassEmail) (segment : ℕ) (status : Status) :
    (mail.release segment status).status = status ∧ (mail.release segment status).broadcastId = mail.broadcastId ∧
      (mail.release segment status).broadcastRequested = mail.broadcastRequested ∧
      (mail.release segment status).segmentId = (if mail.segmentId = some segment then none else mail.segmentId) := by
  unfold MassEmail.release
  split_ifs <;> exact ⟨rfl, rfl, rfl, rfl⟩

theorem Claimable.statuses (h : Claimable s i other status) :
    (status = .cancelled ∨ status = .failed ∨ status = .sent) ∧
      (status = .failed ↔ other.status = .failed) ∧ other.status ≠ .draft := by
  rcases h with ⟨hother, hstatus⟩ | ⟨hother, hstatus⟩ | ⟨hother | hother, hstatus | hstatus, -⟩ <;>
    simp [hother, hstatus]

/-- The broadcasts of an email that is claimed are over. -/
theorem Claimable.ended (h : Steady (fun _ => False) s) (hclaim : Claimable s i other status)
    (hmatches : (s.emails (s.segments i).name).Matches other) (hhas : s.Has (s.segments i).name b) :
    other.status ≠ .failed ∧ ¬ (s.broadcasts b).stage.Unsent := by
  have hmail := h.mails (s.segments i).name
  rcases hclaim with ⟨hother, -⟩ | ⟨hother, -⟩ | ⟨hother, -, b', hhas', hended⟩
  · have hcancelled := hmatches.1.trans hother
    obtain ⟨b', hb', -⟩ := hmail.ended (.inr (.inr hcancelled))
    obtain rfl := h.once _ b b' hhas (hmail.recorded b' hb')
    exact ⟨by simp [hother], hmail.cancelled b hcancelled hb'⟩
  · have hrequested := (hmatches.2.2 hother).1
    rw [hmail.requested b hhas] at hrequested
    cases hrequested
  · obtain rfl := h.once _ b b' hhas hhas'
    exact ⟨by rcases hother with hother | hother <;> simp [hother], hended⟩

/-- A claimed email whose broadcast was made keeps it written down. -/
theorem Claimable.recorded (h : Steady (fun _ => False) s) (hclaim : Claimable s i other status)
    (hmatches : (s.emails (s.segments i).name).Matches other) (hstatus : status ≠ .failed) :
    ∃ b, (s.emails (s.segments i).name).broadcastId = some b ∧ (s.broadcasts b).stage ≠ .draft := by
  refine (h.mails (s.segments i).name).ended ?_
  rw [hmatches.1]
  rcases hclaim with ⟨hother, -⟩ | ⟨-, hfailed⟩ | ⟨hother, -⟩
  · exact .inr (.inr hother)
  · exact absurd hfailed hstatus
  · exact hother.elim (fun hsent => .inr (.inl hsent)) .inl

theorem Claimable.released (h : Steady (fun _ => False) s) (hclaim : Claimable s i other status)
    (hmatches : (s.emails (s.segments i).name).Matches other) :
    MailOk s (s.segments i).name ((s.emails (s.segments i).name).release i status) := by
  obtain ⟨hstatus, hbroadcast, hrequested, hsegment⟩ :=
    MassEmail.release_fields (s.emails (s.segments i).name) i status
  have hmail := h.mails (s.segments i).name
  have hfailed := hclaim.statuses.2.1
  refine ⟨fun j hj => ?_, fun b hb => ?_, fun b hb => ?_, fun b hb hunwritten => ?_, fun hstage => ?_, fun b _ hb => ?_⟩
  · rw [hsegment] at hj
    split_ifs at hj
    exact hmail.segment j hj
  · exact hmail.recorded b (hbroadcast ▸ hb)
  · rw [hrequested]
    exact hmail.requested b hb
  · have hne : status ≠ .failed := fun hno => (Claimable.ended h hclaim hmatches hb).1 (hfailed.mp hno)
    obtain ⟨b', hb', -⟩ := Claimable.recorded h hclaim hmatches hne
    rw [hbroadcast, hb'] at hunwritten
    cases hunwritten
  · rw [hbroadcast]
    refine Claimable.recorded h hclaim hmatches fun hno => ?_
    rw [hstatus, hno] at hstage
    simp at hstage
  · exact (Claimable.ended h hclaim hmatches (hmail.recorded b (hbroadcast ▸ hb))).2

theorem Claimable.rests (hclaim : Claimable s i other status) : (mail.release i status).status ≠ .sending := by
  rw [(MassEmail.release_fields mail i status).1]
  rcases hclaim.statuses.1 with hstatus | hstatus | hstatus <;> simp [hstatus]

theorem Steady.release (h : Steady (fun _ => False) s) (hclaim : Claimable s i other status)
    (hmatches : (s.emails (s.segments i).name).Matches other) :
    Steady (fun _ => False) (s.setMail (s.segments i).name fun mail => mail.release i status) := by
  obtain ⟨-, hbroadcast, -, hsegment⟩ := MassEmail.release_fields (s.emails (s.segments i).name) i status
  refine h.setMail (Claimable.released h hclaim hmatches) (fun b hb => hbroadcast.trans hb) (fun j hj => .inl ?_)
    (fun hsending => absurd hsending hclaim.rests) fun hsending => absurd hsending hclaim.rests
  rw [hsegment] at hj
  split_ifs at hj
  exact hj

/-- The segment was of this email only, which is not being sent now, and its broadcast is over. -/
theorem Claimable.dead (h : Steady (fun _ => False) s) (hclaim : Claimable s i other status)
    (hmatches : (s.emails (s.segments i).name).Matches other) :
    Dead (s.setMail (s.segments i).name fun mail => mail.release i status) i := by
  have hnew := h.release hclaim hmatches
  refine ⟨fun e he => ?_, fun t hholds hmade => ?_, fun b hb htarget => ?_⟩
  · have hname : e = (s.segments i).name := ((hnew.mails e).segment i he).2.symm
    subst hname
    simp only [Site.setMail, Function.update_self] at he
    rw [(MassEmail.release_fields (s.emails (s.segments i).name) i status).2.2.2] at he
    split_ifs at he with hmine
    exact hmine he
  · have ht : t < s.nextTask := hnew.started (by rw [hmade]; simp)
    have hstanding := (hnew.tasks t ht id).standing
    rw [hmade] at hstanding
    obtain ⟨-, -, -, hname⟩ := hstanding
    have hsending := hholds.1
    rw [← hname] at hsending
    simp only [Site.setMail, Function.update_self] at hsending
    exact hclaim.rests hsending
  · refine (Claimable.ended h hclaim hmatches ⟨hb, ?_⟩).2
    rw [← show (s.broadcasts b).segmentId = i from htarget]
    exact (h.targets b hb).2.symm

theorem Steady.claim (h : Steady (fun _ => False) s) (ht : t < s.nextTask)
    (hpoint : (s.tasks t).point = .claiming i other status todo) :
    Steady (fun _ => False) (s.claim t i other status todo) := by
  have hstanding := (h.tasks t ht id).standing
  rw [hpoint] at hstanding
  obtain ⟨hhand, hnone, htodo, hi, hclaim⟩ := hstanding
  unfold Site.claim
  dsimp only
  split_ifs with hmatches
  · have hnew := h.release hclaim hmatches
    have hok := hnew.tasks t ht id
    have hkept := hok.standing
    rw [show ((s.setMail (s.segments i).name fun mail => mail.release i status).tasks t).point = _ from hpoint] at hkept
    refine (hnew.pause t).goTo ht hok.broadcast ⟨hkept.1, hkept.2.1, htodo⟩ nofun fun j todo' hj => ?_
    cases hj
    exact ⟨hi, Claimable.dead h hclaim hmatches⟩
  · exact h.pass ht trivial fun _ => ⟨hhand, hnone, htodo⟩

theorem Steady.delete (h : Steady (fun _ => False) s) (ht : t < s.nextTask)
    (hpoint : (s.tasks t).point = .deleting i todo) : Steady (fun _ => False) (s.delete t a i todo) := by
  have hgone : Steady (fun _ => False) (s.dropSegment i) := h.setSegment rfl fun _ => .inr ⟨t, todo, hpoint⟩
  have hfree : ∀ s', Steady (fun _ => False) s' → s'.tasks = s.tasks → t < s'.nextTask →
      Steady (fun _ => False) (s'.goTo t (.freeing todo)) := by
    intro s' h' htasks ht'
    refine h'.pass ht' trivial ?_
    rw [htasks, hpoint]
    exact id
  cases a with
  | ok | lost => exact hfree _ hgone rfl ht
  | killed => exact hgone.stop ht
  | refused | unsubscribed | draft => exact hfree s h rfl ht

/-! ## The segment of the task -/

theorem Steady.makeSegment (h : Steady (fun _ => False) s) (ht : t < s.nextTask)
    (hpoint : (s.tasks t).point = .making) : Steady (fun _ => False) (s.makeSegment t a) := by
  have hnew := h.addSegment (s.tasks t).mailId
  cases a with
  | ok =>
      have hok := hnew.tasks t ht id
      have hstanding := hok.standing
      rw [show ((s.addSegment (s.tasks t).mailId).tasks t).point = _ from hpoint] at hstanding
      refine (hnew.pause t).goTo ht hok.broadcast ⟨hstanding.1, hstanding.2, Nat.lt_succ_self _, ?_⟩ (fun i hi => ?_) nofun
      · simp [Site.addSegment]
      · -- nobody has heard of the new segment yet
        cases hi
        rintro ⟨-, hkept | ⟨t', todo, hdeleting⟩⟩
        · simp [Site.addSegment] at hkept
        · exact absurd (h.deleting t' _ todo hdeleting) (lt_irrefl _)
  | lost => exact hnew.err ht
  | killed => exact hnew.stop ht
  | refused | unsubscribed | draft => exact h.err ht

theorem Steady.save (h : Steady (fun _ => False) s) (ht : t < s.nextTask) (hpoint : (s.tasks t).point = .made i)
    (hmine : s.StillMine t) : Steady (fun _ => False) (s.save t i) := by
  have hok := h.tasks t ht id
  have hstanding := hok.standing
  rw [hpoint] at hstanding
  obtain ⟨hhand, hnone, hi, hname⟩ := hstanding
  have hmail := h.mails (s.tasks t).mailId
  -- the task read no segment, so none is replaced, and no broadcast was made for another one
  have hunset : (s.emails (s.tasks t).mailId).segmentId = none := (hhand hmine).symm.trans hnone
  have hfine : ¬ Doomed s i := fun hdoomed => (h.doomed i hdoomed).made t hmine hpoint
  have hnew : Steady (· = t) (s.setMail (s.tasks t).mailId fun mail => { mail with segmentId := some i }) := by
    refine (h.pause t).setMail ⟨fun j hj => ?_, hmail.recorded, hmail.requested, fun b hb hunwritten => ?_, hmail.ended,
      hmail.cancelled⟩ (fun _ => id) (fun j hj => ?_) (fun hsending _ => ⟨hsending, rfl⟩) fun _ _ hfree => ?_
    · cases hj
      exact ⟨hi, hname⟩
    · have hfound := hmail.found b hb hunwritten
      rw [hunset] at hfound
      cases hfound
    · cases hj
      exact .inr hfine
    · exact absurd hmine.2 hfree
  refine hnew.setTask ht ⟨fun b hb => ?_, fun _ => ?_⟩ nofun nofun
  · simp only [Site.setMail, Function.update_self]
    exact hok.broadcast b hb
  · simp only [Site.setMail, Function.update_self]

theorem Steady.join (h : Steady (fun _ => False) s) : Steady (fun _ => False) (s.join segment row) := by
  refine h.setSegment ?_ fun hkept => .inl ?_
  · split_ifs <;> rfl
  · split_ifs at hkept <;> exact hkept

theorem Steady.setRow {state : State} (h : Steady (fun _ => False) s) : Steady (fun _ => False) (s.setRow t row state) := by
  have hmail := h.mails (s.tasks t).mailId
  exact h.setMail ⟨hmail.segment, hmail.recorded, hmail.requested, hmail.found, hmail.ended, hmail.cancelled⟩ (fun _ => id)
    (fun _ => .inl) (fun hsending _ => ⟨hsending, rfl⟩) fun _ _ _ => ⟨rfl, id⟩

theorem Steady.handOver (h : Steady (fun _ => False) s) (ht : t < s.nextTask)
    (hpoint : (s.tasks t).point = .giving row todo) : Steady (fun _ => False) (s.handOver t a segment row todo) := by
  have hnext : ∀ s', Steady (fun _ => False) s' → s'.tasks = s.tasks → t < s'.nextTask →
      Steady (fun _ => False) (s'.goTo t (.handing todo)) := by
    intro s' h' htasks ht'
    refine h'.pass ht' trivial ?_
    rw [htasks, hpoint]
    exact id
  unfold Site.handOver
  split
  · cases a with
    | ok =>
        dsimp only
        split_ifs
        · exact hnext _ h.join.setRow rfl ht
        · exact hnext _ h.setRow rfl ht
    | lost => exact hnext _ h.join.setRow rfl ht
    | killed => exact h.join.stop ht
    | unsubscribed | refused | draft => exact hnext _ h.setRow rfl ht
  · exact hnext s h rfl ht

/-! ## The broadcast -/

theorem Steady.mark (h : Steady (fun _ => False) s) (ht : t < s.nextTask) (hpoint : (s.tasks t).point = .marking) :
    Steady (fun _ => False) (s.mark t) := by
  have hok := h.tasks t ht id
  have hstanding := hok.standing
  rw [hpoint] at hstanding
  have hmail := h.mails (s.tasks t).mailId
  unfold Site.mark
  split
  · rename_i hmine
    set f : MassEmail → MassEmail :=
      fun mail => if mail.broadcastId = none then { mail with broadcastRequested := true } else mail with hf
    have hfields : ∀ mail, (f mail).status = mail.status ∧ (f mail).taskId = mail.taskId ∧
        (f mail).segmentId = mail.segmentId ∧ (f mail).broadcastId = mail.broadcastId := fun mail => by
      simp only [hf]
      split_ifs <;> exact ⟨rfl, rfl, rfl, rfl⟩
    have hasked : ∀ mail, mail.broadcastRequested = true → (f mail).broadcastRequested = true := fun mail hmail => by
      simp only [hf]
      split_ifs
      · rfl
      · exact hmail
    obtain ⟨hstatus, htask, hsegment, hbroadcast⟩ := hfields (s.emails (s.tasks t).mailId)
    have hnew : Steady (· = t) (s.setMail (s.tasks t).mailId f) := by
      refine (h.pause t).setMail ⟨?_, ?_, fun b hb => hasked _ (hmail.requested b hb), ?_, ?_, ?_⟩
        (fun b hb => hbroadcast.trans hb) (fun i hi => .inl (hsegment ▸ hi)) (fun hsending _ => ⟨hstatus ▸ hsending, htask⟩)
        (fun _ _ _ => ⟨hsegment, hasked _⟩)
      · rw [hsegment]
        exact hmail.segment
      · rw [hbroadcast]
        exact hmail.recorded
      · rw [hbroadcast, hsegment]
        exact hmail.found
      · rw [hstatus, hbroadcast]
        exact hmail.ended
      · rw [hstatus, hbroadcast]
        exact hmail.cancelled
    refine hnew.setTask ht ⟨fun b hb => ?_, fun hholds => ?_, fun _ => ⟨fun hnone => ?_, fun hbefore b hhas => ?_⟩⟩ nofun nofun
    · simp only [Site.setMail, Function.update_self]
      exact hbroadcast.trans (hok.broadcast b hb)
    · simp only [Site.setMail, Function.update_self]
      exact (hstanding hmine).trans hsegment.symm
    · simp only [Site.setMail, Function.update_self] at hnone ⊢
      simp only [hf, if_pos (hbroadcast.symm.trans hnone)]
    · -- nobody asked before, so there is no broadcast
      have hfirst : (s.emails (s.tasks t).mailId).broadcastRequested = false := hbefore
      rw [hmail.requested b hhas] at hfirst
      cases hfirst
  · exact h.stop ht

theorem madeBefore_some (hb : s.madeBefore e = some b) : s.Has e b := by
  have hmem := List.mem_of_find?_eq_some hb
  have hfound := List.find?_some hb
  exact ⟨List.mem_range.mp hmem, (decide_eq_true_iff.mp hfound).1⟩

theorem Steady.sendDraft (h : Steady (fun _ => False) s) : Steady (fun _ => False) (s.sendDraft e b) := by
  unfold Site.sendDraft
  split_ifs with hdraft
  · refine h.setBroadcast rfl rfl (fun hstage => absurd hdraft hstage) fun hended => ?_
    rw [hdraft] at hended
    exact absurd trivial hended
  · exact h

theorem Steady.record {busy : ℕ → Prop} (h : Steady busy s) (hhas : s.Has e b)
    (hold : ∀ b', (s.emails e).broadcastId = some b' → b' = b) : Steady busy (s.record e b) := by
  have hmail := h.mails e
  refine h.setMail ⟨hmail.segment, fun b' hb' => ?_, hmail.requested, nofun, fun hstage => ?_, fun b' hstage hb' => ?_⟩
    (fun b' hb' => ?_) (fun _ => .inl) (fun hsending _ => ⟨hsending, rfl⟩) fun _ _ _ => ⟨rfl, id⟩
  · cases hb'
    exact hhas
  · obtain ⟨b', hb', hdraft⟩ := hmail.ended hstage
    obtain rfl := hold b' hb'
    exact ⟨b', rfl, hdraft⟩
  · cases hb'
    obtain ⟨b', hb', -⟩ := hmail.ended (.inr (.inr hstage))
    obtain rfl := hold b' hb'
    exact hmail.cancelled b' hstage hb'
  · rw [hold b' hb']

theorem stageOf_ne_draft (s : Site) (e : ℕ) : s.stageOf e ≠ .draft := by
  unfold Site.stageOf
  split_ifs <;> simp

theorem sendDraft_stage (s : Site) (e b : ℕ) : ((s.sendDraft e b).broadcasts b).stage ≠ .draft := by
  unfold Site.sendDraft
  split_ifs with hdraft
  · simpa only [Site.setBroadcast, Function.update_self] using stageOf_ne_draft s e
  · exact hdraft

theorem record_self (s : Site) (e b : ℕ) : ((s.record e b).emails e).broadcastId = some b := by
  simp only [Site.record, Site.setMail, Function.update_self]

/-- The task writes a broadcast down, and what it is by now. -/
theorem Steady.finishing {busy : ℕ → Prop} (h : Steady busy s) (hbusy : ∀ t', busy t' → t' = t) (ht : t < s.nextTask)
    (hbroadcast : ∀ b', (s.tasks t).broadcastId = some b' → b' = b) (hhas : s.Has (s.tasks t).mailId b)
    (hold : ∀ b', (s.emails (s.tasks t).mailId).broadcastId = some b' → b' = b) (hdraft : stage ≠ .draft)
    (hstage : (s.broadcasts b).stage = stage) :
    Steady (fun _ => False) ((s.record (s.tasks t).mailId b).goTo t (.finishing stage)) := by
  have hnew := h.record hhas hold
  have hpaused : Steady (· = t) (s.record (s.tasks t).mailId b) :=
    ⟨hnew.mails, hnew.once, hnew.targets, fun t' ht' hne => hnew.tasks t' ht' fun hb => hne (hbusy t' hb), hnew.idle,
      hnew.deleting, hnew.doomed⟩
  refine hpaused.goTo ht (fun b' hb' => ?_) (fun _ => ⟨b, record_self s _ b, ?_, fun hend => ?_⟩) nofun nofun
  · rw [hbroadcast b' hb']
    exact record_self s _ b
  · rw [show ((s.record (s.tasks t).mailId b).broadcasts b).stage = _ from hstage]
    exact hdraft
  · rw [show ((s.record (s.tasks t).mailId b).broadcasts b).stage = _ from hstage]
    rcases hend with rfl | rfl <;> exact not_false

theorem sendDraft_frame (s : Site) (e b : ℕ) :
    (s.sendDraft e b).emails = s.emails ∧ (s.sendDraft e b).tasks = s.tasks ∧
      (s.sendDraft e b).nextTask = s.nextTask ∧ ((s.sendDraft e b).Has e b ↔ s.Has e b) := by
  unfold Site.sendDraft
  split_ifs
  · refine ⟨rfl, rfl, rfl, ?_⟩
    simp only [Site.Has, Site.setBroadcast, Function.update_self]
  · exact ⟨rfl, rfl, rfl, .rfl⟩

theorem Steady.resume (h : Steady (fun _ => False) s) (ht : t < s.nextTask) (hhas : s.Has (s.tasks t).mailId b)
    (hold : ∀ b', (s.emails (s.tasks t).mailId).broadcastId = some b' → b' = b) :
    Steady (fun _ => False) (s.resume t a b) := by
  have hbroadcast : ∀ b', (s.tasks t).broadcastId = some b' → b' = b :=
    fun b' hb' => hold b' ((h.tasks t ht id).broadcast b' hb')
  have hsent := h.sendDraft (e := (s.tasks t).mailId) (b := b)
  have hdraft := sendDraft_stage s (s.tasks t).mailId b
  obtain ⟨hemails, htasks, hnext, hsame⟩ := sendDraft_frame s (s.tasks t).mailId b
  have hlt : t < (s.sendDraft (s.tasks t).mailId b).nextTask := hnext ▸ ht
  have hwritten : Steady (fun _ => False) ((s.sendDraft (s.tasks t).mailId b).record (s.tasks t).mailId b) :=
    hsent.record (hsame.mpr hhas) (by rwa [hemails])
  unfold Site.resume
  cases a with
  | ok =>
      have hfinished := hsent.finishing nofun hlt (by rwa [htasks]) (by rw [htasks]; exact hsame.mpr hhas)
        (by rwa [htasks, hemails]) hdraft rfl
      rwa [htasks] at hfinished
  | lost => exact hwritten.err hlt
  | killed => exact hsent.stop hlt
  | draft | unsubscribed => exact (h.record hhas hold).err ht
  | refused => exact h.err ht

theorem Steady.create (h : Steady (fun _ => False) s) (ht : t < s.nextTask) (hmine : s.StillMine t)
    (hsegment : (s.mail t).segmentId = some segment) (hrequested : (s.mail t).broadcastRequested = true)
    (hnone : ∀ b, ¬ s.Has (s.tasks t).mailId b) : Steady (fun _ => False) (s.create t a segment) := by
  set e := (s.tasks t).mailId with he
  have hunwritten : ∀ b, (s.emails e).broadcastId ≠ some b := fun b hb => hnone b ((h.mails e).recorded b hb)
  have hadd : ∀ stage, Steady (· = t) (s.addBroadcast e segment stage) := fun stage =>
    (h.pause t).addBroadcast hnone hsegment hrequested hmine.1 hmine.2
  have hpass : ∀ stage point, point = .failing ∨ point = .stopped →
      Steady (fun _ => False) ((s.addBroadcast e segment stage).goTo t point) := by
    intro stage point hpoint
    refine (hadd stage).goTo ht (h.tasks t ht id).broadcast ?_ ?_ ?_ <;> rcases hpoint with rfl | rfl
    · trivial
    · trivial
    all_goals nofun
  unfold Site.create
  cases a with
  | ok =>
      refine (hadd _).finishing (fun _ => id) ht (fun b' hb' => ?_) ⟨Nat.lt_succ_self _, ?_⟩ (fun b' hb' => ?_)
        (stageOf_ne_draft s e) ?_
      · exact absurd ((h.tasks t ht id).broadcast b' hb') (hunwritten b')
      · simp only [Site.addBroadcast, Function.update_self, he]
      · exact absurd hb' (hunwritten b')
      · simp only [Site.addBroadcast, Function.update_self, he]
  | lost => exact hpass _ _ (.inl rfl)
  | killed => exact hpass _ _ (.inr rfl)
  | draft => exact hpass _ _ (.inl rfl)
  | refused | unsubscribed => exact h.err ht

theorem Steady.ask (h : Steady (fun _ => False) s) (ht : t < s.nextTask) (hpoint : (s.tasks t).point = .asking) :
    Steady (fun _ => False) (s.ask t a) := by
  have hstanding := (h.tasks t ht id).standing
  rw [hpoint] at hstanding
  obtain ⟨hhand, hasked⟩ := hstanding
  have hmail := h.mails (s.tasks t).mailId
  unfold Site.ask
  split
  · rename_i hmine
    obtain ⟨hrequested, hfirst⟩ := hasked hmine
    dsimp only
    split
    · rename_i b hb
      rcases Option.or_eq_some_iff.mp hb with hwritten | ⟨hunwritten, hmade⟩
      · exact h.resume ht (hmail.recorded b hwritten) fun b' hb' => Option.some.inj (hb'.symm.trans hwritten)
      · split_ifs at hmade
        exact h.resume ht (madeBefore_some hmade) fun b' hb' => absurd (hb'.symm.trans hunwritten) (by simp)
    · rename_i hnothing
      obtain ⟨hunwritten, hlook⟩ := Option.or_eq_none_iff.mp hnothing
      split
      · rename_i segment hsegment
        have hsaved : (s.mail t).segmentId = some segment := (hhand hmine).symm.trans hsegment
        refine h.create ht hmine hsaved (hrequested hunwritten) fun b hhas => ?_
        split_ifs at hlook with hlooked
        · -- a broadcast that exists would have been found by its segment
          refine absurd (List.find?_eq_none.mp hlook b (List.mem_range.mpr hhas.1)) ?_
          simp only [not_not, decide_eq_true_iff]
          exact ⟨hhas.2, (hmail.found b hhas hunwritten).symm⟩
        · have hbefore : (s.tasks t).askedBefore = false := by
            rw [Bool.not_eq_true, Bool.or_eq_false_iff] at hlooked
            exact hlooked.1
          exact hfirst hbefore b hhas
      · exact h.err ht
  · exact h.stop ht

/-! ## The end -/

theorem Steady.setStatus (h : Steady (fun _ => False) s) (hrest : status ≠ .sending)
    (hended : status = .scheduled ∨ status = .sent ∨ status = .cancelled →
      ∃ b, (s.emails e).broadcastId = some b ∧ (s.broadcasts b).stage ≠ .draft)
    (hcancelled : ∀ b, status = .cancelled → (s.emails e).broadcastId = some b → ¬ (s.broadcasts b).stage.Unsent) :
    Steady (fun _ => False) (s.setMail e fun mail => { mail with status }) := by
  have hmail := h.mails e
  exact h.setMail ⟨hmail.segment, hmail.recorded, hmail.requested, hmail.found, hended, hcancelled⟩ (fun _ => id)
    (fun _ => .inl) (fun hsending => absurd hsending hrest) fun hsending => absurd hsending hrest

theorem Steady.fail (h : Steady (fun _ => False) s) (ht : t < s.nextTask) : Steady (fun _ => False) (s.fail t) := by
  unfold Site.fail
  split_ifs
  · exact (h.setStatus (by simp) (by simp) (by simp)).stop ht
  · exact h.stop ht

theorem Steady.finish (h : Steady (fun _ => False) s) (ht : t < s.nextTask)
    (hpoint : (s.tasks t).point = .finishing stage) : Steady (fun _ => False) (s.finish t stage) := by
  have hstanding := (h.tasks t ht id).standing
  rw [hpoint] at hstanding
  unfold Site.finish
  split
  · rename_i hmine
    obtain ⟨b, hb, hdraft, hend⟩ := hstanding hmine
    refine (h.setStatus ?_ (fun _ => ⟨b, hb, hdraft⟩) fun b' hstage hb' => ?_).stop ht
    · cases stage <;> simp
    · obtain rfl : b' = b := Option.some.inj (hb'.symm.trans hb)
      exact hend (by cases stage <;> simp_all)
  · exact h.stop ht

/-! ## Runs -/

/-- The segment a task is about to save. -/
def Point.madeSegment : Point → Option ℕ
  | .made i => some i
  | _ => none

/-- When a task writes down the segment it made, the email is still its. -/
def Site.Prompt (s : Site) : Event → Prop
  | .proceed t _ => ∀ i ∈ (s.tasks t).point.madeSegment, s.StillMine t
  | _ => True

instance (s : Site) : DecidablePred s.Prompt
  | .proceed t _ => inferInstanceAs (Decidable (∀ i ∈ (s.tasks t).point.madeSegment, s.StillMine t))
  | .startSending .. | .retry _ | .publish _ | .enqueued .. | .die _ | .goOut _ => inferInstanceAs (Decidable True)

/-- It is so in a whole run. -/
def AllPrompt (s : Site) : List Event → Prop
  | [] => True
  | event :: events => s.Prompt event ∧ AllPrompt (s.step event) events

instance AllPrompt.decide : (s : Site) → (events : List Event) → Decidable (AllPrompt s events)
  | _, [] => inferInstanceAs (Decidable True)
  | s, event :: events =>
      have := AllPrompt.decide (s.step event) events
      inferInstanceAs (Decidable (_ ∧ _))

theorem Steady.proceed (h : Steady (fun _ => False) s) (hprompt : s.Prompt (.proceed t a)) :
    Steady (fun _ => False) (s.proceed t a) := by
  by_cases hidle : (s.tasks t).point = .unqueued
  · unfold Site.proceed
    rwa [hidle]
  have ht := h.started hidle
  have hstay : ∀ point, (Standing s t (s.tasks t) (s.tasks t).point → Standing s t { s.tasks t with point } point) →
      point.Plain → Steady (fun _ => False) (s.goTo t point) := fun point hstanding hplain => h.pass ht hplain hstanding
  have hstanding := (h.tasks t ht id).standing
  unfold Site.proceed
  cases hpoint : (s.tasks t).point with
  | unqueued => exact absurd hpoint hidle
  | stopped => exact h
  | queued => exact h.start ht
  | opened => exact h.openMail ht hpoint
  | contacts =>
      dsimp only
      split_ifs with ha hsegment
      · exact h.err ht
      · exact hstay _ (by rw [hpoint]; exact id) trivial
      · refine hstay _ (fun hhand => ?_) trivial
        rw [hpoint] at hhand
        exact ⟨hhand, by simpa using hsegment⟩
  | segments =>
      dsimp only
      split_ifs
      · exact h.err ht
      · refine hstay _ (fun hold => ?_) trivial
        rw [hpoint] at hold
        exact ⟨hold.1, hold.2, fun i hi => List.mem_range.mp (List.mem_filter.mp hi).1⟩
  | freeing todo =>
      rw [hpoint] at hstanding
      obtain ⟨hhand, hnone, htodo⟩ := hstanding
      cases todo with
      | nil => exact hstay _ (fun _ => ⟨hhand, hnone⟩) trivial
      | cons i todo =>
          -- an email that was sent or scheduled has its broadcast written down, and it is no draft
          refine hstay _ (fun _ => ⟨hhand, hnone, fun j hj => htodo j (.tail _ hj), htodo i (.head _), ?_⟩) trivial
          intro hstatus b hb
          have hmail := h.mails (s.segments i).name
          obtain ⟨b', hb', hdraft⟩ := hmail.ended (hstatus.elim (fun hsent => .inr (.inl hsent)) .inl)
          obtain rfl := Option.some.inj (hb'.symm.trans hb)
          exact ⟨hmail.recorded _ hb, hdraft⟩
  | looking i other todo =>
      rw [hpoint] at hstanding
      obtain ⟨hhand, hnone, htodo, hi, hlooking⟩ := hstanding
      dsimp only
      split
      · rename_i status hfreed
        exact hstay _ (fun _ => ⟨hhand, hnone, htodo, hi, freed_claimable hlooking hfreed⟩) trivial
      · exact hstay _ (fun _ => ⟨hhand, hnone, htodo⟩) trivial
  | claiming i other status todo => exact h.claim ht hpoint
  | deleting i todo => exact h.delete ht hpoint
  | beating =>
      dsimp only
      split_ifs
      · exact hstay _ (by rw [hpoint]; exact id) trivial
      · exact h.stop ht
  | making => exact h.makeSegment ht hpoint
  | made i => exact h.save ht hpoint (hprompt i (by rw [hpoint]; exact rfl))
  | rows => exact hstay _ (by rw [hpoint]; exact id) trivial
  | handing todo =>
      cases todo with
      | nil => exact hstay _ (by rw [hpoint]; exact id) trivial
      | cons row todo =>
          dsimp only
          split_ifs
          · exact hstay _ (by rw [hpoint]; exact id) trivial
          · exact h.stop ht
  | giving row todo =>
      dsimp only
      split
      · exact h.handOver ht hpoint
      · exact h.err ht
  | counting =>
      dsimp only
      split_ifs
      · exact hstay _ (by rw [hpoint]; exact id) trivial
      · exact h.err ht
  | marking => exact h.mark ht hpoint
  | asking => exact h.ask ht hpoint
  | finishing stage => exact h.finish ht hpoint
  | failing => exact h.fail ht

theorem Steady.begin {f : MassEmail → MassEmail} (h : Steady (fun _ => False) s) (htask : ∀ mail, (f mail).taskId = s.nextTask)
    (hstatus : ∀ mail, (f mail).status = .sending) (hsegment : ∀ mail, (f mail).segmentId = mail.segmentId)
    (hbroadcast : ∀ mail, (f mail).broadcastId = mail.broadcastId)
    (hrequested : ∀ mail, (f mail).broadcastRequested = mail.broadcastRequested) :
    Steady (fun _ => False) ((s.setMail e f).addTask e) := by
  have hmail := h.mails e
  refine Steady.addTask (h.setMail ⟨?_, ?_, ?_, ?_, ?_, ?_⟩ ?_ ?_ ?_ ?_) e
  · rw [hsegment]
    exact hmail.segment
  · rw [hbroadcast]
    exact hmail.recorded
  · rw [hrequested]
    exact hmail.requested
  · rw [hbroadcast, hsegment]
    exact hmail.found
  · simp [hstatus]
  · simp [hstatus]
  · rw [hbroadcast]
    exact fun _ => id
  · rw [hsegment]
    exact fun _ => .inl
  -- no task but the new one has the new id
  · exact fun _ hlt => absurd (htask _) hlt.ne
  · exact fun _ hlt => absurd (htask _) hlt.ne

/-- The end of `enqueue` moves no task, and may take the email from it. -/
theorem Steady.enqueued {worked : Bool} (h : Steady (fun _ => False) s) :
    Steady (fun _ => False) (s.enqueued t worked) := by
  unfold Site.enqueued
  split
  · rename_i hqueue
    have hok := h.tasks t hqueue.2 id
    have hanswered : Steady (fun _ => False) (s.setTask t fun task => { task with enqueueing := false }) := by
      refine (h.pause t).setTask hqueue.2 ⟨hok.broadcast, hok.standing⟩ (fun i hholds hmade hdoomed => ?_)
        fun i todo hdeleting => ?_
      · exact (h.doomed i hdoomed).made t hholds hmade
      · have hlt := h.deleting t i todo hdeleting
        exact ⟨hlt, h.doomed i ⟨hlt, .inr ⟨t, todo, hdeleting⟩⟩⟩
    cases worked with
    | true => exact hanswered
    | false => exact hanswered.setStatus (by simp) (by simp) (by simp)
  · exact h

theorem Steady.step (h : Steady (fun _ => False) s) (hprompt : s.Prompt event) : Steady (fun _ => False) (s.step event) := by
  cases event with
  | startSending e scheduled rows =>
      simp only [Site.step, Site.startSending]
      split_ifs
      · exact h.begin (fun _ => rfl) (fun _ => rfl) (fun _ => rfl) (fun _ => rfl) fun _ => rfl
      · exact h
  | retry e =>
      simp only [Site.step, Site.retry]
      split_ifs
      · exact h.begin (fun _ => rfl) (fun _ => rfl) (fun _ => rfl) (fun _ => rfl) fun _ => rfl
      · exact h
  | publish t =>
      simp only [Site.step, Site.publish]
      split_ifs with hqueue
      · exact h.pass hqueue.2.2 trivial fun _ => trivial
      · exact h
  | enqueued t worked =>
      simp only [Site.step]
      exact h.enqueued
  | proceed t a => exact h.proceed hprompt
  | die t =>
      simp only [Site.step]
      split_ifs with hidle
      · exact h
      · exact h.stop (h.started hidle)
  | goOut b =>
      simp only [Site.step, Site.goOut]
      split_ifs
      · exact h.setBroadcast rfl rfl (fun _ => by simp) fun _ => not_false
      · exact h

theorem Steady.run (h : Steady (fun _ => False) s) (hprompt : AllPrompt s events) :
    Steady (fun _ => False) (s.run events) := by
  induction events generalizing s with
  | nil => exact h
  | cons event events ih => exact ih (h.step hprompt.1) hprompt.2

theorem steady_empty : Steady (fun _ => False) {} where
  mails e := ⟨nofun, nofun, nofun, nofun, fun hdone => by simp at hdone, nofun⟩
  once e b b' hhas := absurd hhas.1 (Nat.not_lt_zero b)
  targets b hb := absurd hb (Nat.not_lt_zero b)
  tasks t ht := absurd ht (Nat.not_lt_zero t)
  idle t ht := rfl
  deleting t i todo hpoint := by cases hpoint
  doomed i hi := absurd hi.1 (Nat.not_lt_zero i)

/-! ## What it is for -/

namespace Site

/-- Nobody is reached by two broadcasts of one email. -/
def MailedOnce (s : Site) : Prop :=
  ∀ e b b' row, s.Has e b → s.Has e b' → row ∈ (s.broadcasts b).reached → row ∈ (s.broadcasts b').reached → b = b'

/-- No broadcast that has yet to go out is for a segment that was deleted, and a segment that a task is about to delete
is not the one of an email that is being sent, or that is scheduled and has yet to go out. -/
def SegmentsUnneeded (s : Site) : Prop :=
  (∀ b < s.nextBroadcast, (s.segments (s.broadcasts b).segmentId).kept = false → ¬ (s.broadcasts b).stage.Unsent) ∧
    ∀ t i todo e, (s.tasks t).point = .deleting i todo → (s.emails e).segmentId = some i →
      (s.emails e).status ≠ .sending ∧
        ¬ ((s.emails e).status = .scheduled ∧ ∃ b, s.Has e b ∧ (s.broadcasts b).stage.Unsent)

end Site

theorem mailed_once (events : List Event) (hprompt : AllPrompt {} events) : (Site.run {} events).MailedOnce :=
  fun e b b' _ hb hb' _ _ => (steady_empty.run hprompt).once e b b' hb hb'

theorem segments_unneeded (events : List Event) (hprompt : AllPrompt {} events) :
    (Site.run {} events).SegmentsUnneeded := by
  have hsteady := steady_empty.run hprompt
  refine ⟨fun b hb hdeleted => ?_, fun t i todo e hpoint hsegment => ?_⟩
  · have hdoomed : Doomed _ _ := ⟨(hsteady.targets b hb).1, .inl hdeleted⟩
    exact (hsteady.doomed _ hdoomed).broadcasts b hb rfl
  · have hdoomed : Doomed _ i := ⟨hsteady.deleting t i todo hpoint, .inr ⟨t, todo, hpoint⟩⟩
    exact absurd hsegment ((hsteady.doomed i hdoomed).emails e)

/-- The task makes a step for each answer. -/
def Event.proceeds (t : ℕ) (answers : List Answer) : List Event := answers.map (Event.proceed t)

/-- A task dies right after the broadcast was made, and a retry finds it. -/
theorem mailed_once_retried :
    let events := [.startSending 1 false [(10, false)], .publish 0, .enqueued 0 true] ++
      Event.proceeds 0 (.replicate 14 .ok ++ [.killed]) ++ [.goOut 0, .retry 1, .publish 1, .enqueued 1 true] ++
      Event.proceeds 1 (.replicate 9 .ok)
    ((Site.run {} events).broadcasts 0).reached = [10] ∧ (Site.run {} events).nextBroadcast = 1 ∧
      ((Site.run {} events).emails 1).status = .sent ∧ (Site.run {} events).MailedOnce :=
  ⟨by decide +kernel, by decide +kernel, by decide +kernel, mailed_once _ (by decide +kernel)⟩

/-- A task that waits for its segment is superseded, and writes it down after the newer one filled another. The answer
to the first broadcast is lost, and the retry looks for one of the wrong segment. -/
def lateSegment : List Event :=
  [.startSending 1 false [(10, false), (11, false)], .publish 0] ++ Event.proceeds 0 (.replicate 6 .ok) ++
    [.enqueued 0 false, .retry 1, .publish 1, .enqueued 1 true] ++ Event.proceeds 1 (.replicate 8 .ok) ++
    Event.proceeds 0 [.ok, .ok] ++
    Event.proceeds 1 [.ok, .ok, .lost, .ok, .ok, .ok, .ok, .ok, .lost, .ok] ++ [.goOut 0] ++
    [.retry 1, .publish 2, .enqueued 2 true] ++ Event.proceeds 2 (.replicate 11 .ok) ++ [.goOut 1]

theorem mailed_twice : ¬ (Site.run {} lateSegment).MailedOnce := by
  intro h
  have hfirst : (Site.run {} lateSegment).Has 1 0 := ⟨by decide +kernel, by decide +kernel⟩
  have hsecond : (Site.run {} lateSegment).Has 1 1 := ⟨by decide +kernel, by decide +kernel⟩
  exact absurd (h 1 0 1 10 hfirst hsecond (by decide +kernel) (by decide +kernel)) (by simp)

/-- A failed email whose segment was made and never saved: the next email deletes it. -/
theorem segments_unneeded_freed :
    let events := [.startSending 1 false [(10, false)], .publish 0, .enqueued 0 true] ++
      Event.proceeds 0 (.replicate 6 .ok ++ [.lost, .ok]) ++
      [.startSending 2 false [(20, false)], .publish 1, .enqueued 1 true] ++ Event.proceeds 1 (.replicate 8 .ok)
    ((Site.run {} events).segments 0).kept = false ∧ ((Site.run {} events).tasks 1).point = .freeing [] ∧
      (Site.run {} events).SegmentsUnneeded :=
  ⟨by decide +kernel, by decide +kernel, segments_unneeded _ (by decide +kernel)⟩

/-- The segment of a failed email is claimed by another, and then its task writes it down: a retry fills it, and it is
deleted before the broadcast is made. -/
def claimedSegment : List Event :=
  [.startSending 1 false [(10, false)], .publish 0] ++ Event.proceeds 0 (.replicate 7 .ok) ++ [.enqueued 0 false] ++
    [.startSending 2 false [(20, false)], .publish 1, .enqueued 1 true] ++ Event.proceeds 1 (.replicate 7 .ok) ++
    Event.proceeds 0 [.ok] ++ [.retry 1, .publish 2, .enqueued 2 true] ++ Event.proceeds 2 (.replicate 9 .ok) ++
    Event.proceeds 1 [.ok] ++ Event.proceeds 2 [.ok]

theorem segments_needed : ¬ (Site.run {} claimedSegment).SegmentsUnneeded := by
  intro h
  exact absurd (h.1 0 (by decide +kernel) (by decide +kernel)) (by decide +kernel)

end Mail
end CpcJudge
