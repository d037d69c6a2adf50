import CpcJudge.Mail.Sending

/-!
# `Mail.Steady` — what holds between two steps

Only the task that an email belongs to writes the email, so what that task has in hand is what is saved (`Standing`), a
broadcast of the email is written down or can be found by its segment (`MailOk`), and a segment that is deleted, or
about to be, is nobody's any more (`Dead`). Each write keeps this under its own conditions.
-/

namespace CpcJudge
namespace Mail

variable {s s' : Site} {t t' e e' i b : ℕ} {task : Task} {mail : MassEmail} {other : MassEmail} {stage : Stage}
  {status : Status} {todo : List ℕ} {point : Point}

/-- The broadcast has yet to go out. -/
def Stage.Unsent : Stage → Prop
  | .draft | .queued | .scheduled => True
  | .sent | .canceled | .deleted => False

instance : DecidablePred Stage.Unsent
  | .draft | .queued | .scheduled => inferInstanceAs (Decidable True)
  | .sent | .canceled | .deleted => inferInstanceAs (Decidable False)

/-- The broadcasts of an email that exist. -/
def Site.Has (s : Site) (e b : ℕ) : Prop := b < s.nextBroadcast ∧ (s.broadcasts b).name = e

/-- What is saved of an email. -/
structure MailOk (s : Site) (e : ℕ) (mail : MassEmail) : Prop where
  segment : ∀ i, mail.segmentId = some i → i < s.nextSegment ∧ (s.segments i).name = e
  recorded : ∀ b, mail.broadcastId = some b → s.Has e b
  requested : ∀ b, s.Has e b → mail.broadcastRequested = true
  found : ∀ b, s.Has e b → mail.broadcastId = none → mail.segmentId = some (s.broadcasts b).segmentId
  ended : mail.status = .scheduled ∨ mail.status = .sent ∨ mail.status = .cancelled →
    ∃ b, mail.broadcastId = some b ∧ (s.broadcasts b).stage ≠ .draft
  cancelled : ∀ b, mail.status = .cancelled → mail.broadcastId = some b → ¬ (s.broadcasts b).stage.Unsent

/-- The email of the task belongs to it. -/
def Holds (s : Site) (t : ℕ) (task : Task) : Prop :=
  (s.emails task.mailId).status = .sending ∧ (s.emails task.mailId).taskId = t

/-- The segment that the task has in hand is the one saved, if the email still belongs to it. -/
def InHand (s : Site) (t : ℕ) (task : Task) : Prop := Holds s t task → task.segmentId = (s.emails task.mailId).segmentId

/-- What a claim goes by. -/
def Claimable (s : Site) (i : ℕ) (other : MassEmail) (status : Status) : Prop :=
  other.status = .cancelled ∧ status = .cancelled ∨ other.status = .failed ∧ status = .failed ∨
    (other.status = .sent ∨ other.status = .scheduled) ∧ (status = .sent ∨ status = .cancelled) ∧
      ∃ b, s.Has (s.segments i).name b ∧ ¬ (s.broadcasts b).stage.Unsent

/-- What holds where a task stands. -/
def Standing (s : Site) (t : ℕ) (task : Task) : Point → Prop
  | .unqueued | .queued | .stopped | .failing => True
  | .opened | .contacts | .rows | .handing _ | .giving _ _ | .counting | .marking => InHand s t task
  | .segments | .beating | .making => InHand s t task ∧ task.segmentId = none
  | .freeing todo | .deleting _ todo => InHand s t task ∧ task.segmentId = none ∧ ∀ i ∈ todo, i < s.nextSegment
  | .looking i other todo => InHand s t task ∧ task.segmentId = none ∧ (∀ i ∈ todo, i < s.nextSegment) ∧ i < s.nextSegment ∧
      (other.status = .sent ∨ other.status = .scheduled → ∀ b, other.broadcastId = some b →
        s.Has (s.segments i).name b ∧ (s.broadcasts b).stage ≠ .draft)
  | .claiming i other status todo => InHand s t task ∧ task.segmentId = none ∧ (∀ i ∈ todo, i < s.nextSegment) ∧
      i < s.nextSegment ∧ Claimable s i other status
  | .made i => InHand s t task ∧ task.segmentId = none ∧ i < s.nextSegment ∧ (s.segments i).name = task.mailId
  | .asking => InHand s t task ∧ (Holds s t task →
      ((s.emails task.mailId).broadcastId = none → (s.emails task.mailId).broadcastRequested = true) ∧
      (task.askedBefore = false → ∀ b, ¬ s.Has task.mailId b))
  | .finishing stage => Holds s t task → ∃ b, (s.emails task.mailId).broadcastId = some b ∧
      (s.broadcasts b).stage ≠ .draft ∧ (stage = .canceled ∨ stage = .deleted → ¬ (s.broadcasts b).stage.Unsent)

structure TaskOk (s : Site) (t : ℕ) (task : Task) : Prop where
  broadcast : ∀ b, task.broadcastId = some b → (s.emails task.mailId).broadcastId = some b
  standing : Standing s t task task.point

/-- The segment is deleted, or about to be. -/
def Doomed (s : Site) (i : ℕ) : Prop :=
  i < s.nextSegment ∧ ((s.segments i).kept = false ∨ ∃ t todo, (s.tasks t).point = .deleting i todo)

/-- Nobody needs the segment: it is no email's, no task is about to save it, and no broadcast of it has yet to go out. -/
structure Dead (s : Site) (i : ℕ) : Prop where
  emails : ∀ e, (s.emails e).segmentId ≠ some i
  made : ∀ t, Holds s t (s.tasks t) → (s.tasks t).point ≠ .made i
  broadcasts : ∀ b < s.nextBroadcast, (s.broadcasts b).segmentId = i → ¬ (s.broadcasts b).stage.Unsent

/-- What holds between two steps; or in the middle of one, but for the task that makes it. -/
structure Steady (busy : ℕ → Prop) (s : Site) : Prop where
  mails : ∀ e, MailOk s e (s.emails e)
  once : ∀ e b b', s.Has e b → s.Has e b' → b = b'
  targets : ∀ b < s.nextBroadcast, (s.broadcasts b).segmentId < s.nextSegment ∧
    (s.segments (s.broadcasts b).segmentId).name = (s.broadcasts b).name
  tasks : ∀ t < s.nextTask, ¬ busy t → TaskOk s t (s.tasks t)
  idle : ∀ t, s.nextTask ≤ t → (s.tasks t).point = .unqueued
  deleting : ∀ t i todo, (s.tasks t).point = .deleting i todo → i < s.nextSegment
  doomed : ∀ i, Doomed s i → Dead s i

theorem Steady.pause (h : Steady (fun _ => False) s) (t : ℕ) : Steady (· = t) s :=
  ⟨h.mails, h.once, h.targets, fun t' ht' _ => h.tasks t' ht' id, h.idle, h.deleting, h.doomed⟩

variable {busy : ℕ → Prop}

/-! ## What a change leaves of a task -/

/-- The site changed in no way that other tasks can tell: nothing is forgotten, and stages only go on. -/
structure Follows (s s' : Site) : Prop where
  segments : s.nextSegment ≤ s'.nextSegment
  names : ∀ i < s.nextSegment, (s'.segments i).name = (s.segments i).name
  has : ∀ e b, s.Has e b → s'.Has e b
  targets : ∀ b < s.nextBroadcast, (s'.broadcasts b).segmentId = (s.broadcasts b).segmentId
  drafts : ∀ b < s.nextBroadcast, (s.broadcasts b).stage ≠ .draft → (s'.broadcasts b).stage ≠ .draft
  ended : ∀ b < s.nextBroadcast, ¬ (s.broadcasts b).stage.Unsent → ¬ (s'.broadcasts b).stage.Unsent
  recorded : ∀ e b, (s.emails e).broadcastId = some b → (s'.emails e).broadcastId = some b

theorem Follows.refl (s : Site) : Follows s s :=
  ⟨le_rfl, fun _ _ => rfl, fun _ _ h => h, fun _ _ => rfl, fun _ _ h => h, fun _ _ h => h, fun _ _ h => h⟩

/-- If the email still belongs to the task, nothing that concerns the task changed. -/
def Apart (s s' : Site) (t : ℕ) (task : Task) : Prop :=
  Holds s' t task → Holds s t task ∧ (s'.emails task.mailId).segmentId = (s.emails task.mailId).segmentId ∧
    ((s.emails task.mailId).broadcastRequested = true → (s'.emails task.mailId).broadcastRequested = true) ∧
    ∀ b, s'.Has task.mailId b → s.Has task.mailId b

theorem MailOk.follows (h : MailOk s e mail) (hfollows : Follows s s') (hnew : ∀ b, s'.Has e b → s.Has e b) :
    MailOk s' e mail where
  segment i hi := by
    obtain ⟨hlt, hname⟩ := h.segment i hi
    exact ⟨hlt.trans_le hfollows.segments, (hfollows.names i hlt).trans hname⟩
  recorded b hb := hfollows.has e b (h.recorded b hb)
  requested b hb := h.requested b (hnew b hb)
  found b hb hnone := by
    rw [hfollows.targets b (hnew b hb).1]
    exact h.found b (hnew b hb) hnone
  ended hstatus := by
    obtain ⟨b, hb, hdraft⟩ := h.ended hstatus
    exact ⟨b, hb, hfollows.drafts b (h.recorded b hb).1 hdraft⟩
  cancelled b hstatus hb := hfollows.ended b (h.recorded b hb).1 (h.cancelled b hstatus hb)

theorem InHand.follows (h : InHand s t task) (hapart : Apart s s' t task) : InHand s' t task := by
  intro hholds
  obtain ⟨hheld, hsegment, -, -⟩ := hapart hholds
  rw [hsegment]
  exact h hheld

theorem Follows.claimable (hfollows : Follows s s') (hi : i < s.nextSegment) (h : Claimable s i other status) :
    Claimable s' i other status := by
  rcases h with hcancelled | hfailed | ⟨hother, hstatus, b, hhas, hended⟩
  · exact .inl hcancelled
  · exact .inr (.inl hfailed)
  · refine .inr (.inr ⟨hother, hstatus, b, ?_, hfollows.ended b hhas.1 hended⟩)
    rw [hfollows.names i hi]
    exact hfollows.has _ b hhas

theorem TaskOk.follows (h : TaskOk s t task) (hmails : ∀ e, MailOk s e (s.emails e)) (hfollows : Follows s s')
    (hapart : Apart s s' t task) : TaskOk s' t task := by
  obtain ⟨hbroadcast, hstanding⟩ := h
  have htodo : ∀ todo : List ℕ, (∀ i ∈ todo, i < s.nextSegment) → ∀ i ∈ todo, i < s'.nextSegment :=
    fun todo hold i hi => (hold i hi).trans_le hfollows.segments
  refine ⟨fun b hb => hfollows.recorded _ b (hbroadcast b hb), ?_⟩
  generalize task.point = point at hstanding
  cases point with
  | unqueued | queued | stopped | failing => trivial
  | opened | contacts | rows | handing | giving | counting | marking => exact InHand.follows hstanding hapart
  | segments | beating | making => exact ⟨hstanding.1.follows hapart, hstanding.2⟩
  | freeing | deleting => exact ⟨hstanding.1.follows hapart, hstanding.2.1, htodo _ hstanding.2.2⟩
  | looking i other todo =>
      obtain ⟨hhand, hnone, hold, hi, hother⟩ := hstanding
      -- the email it looks at is the one it read, so only what Resend has of it can have changed
      refine ⟨hhand.follows hapart, hnone, htodo _ hold, hi.trans_le hfollows.segments, fun hstatus b hb => ?_⟩
      obtain ⟨hhas, hdraft⟩ := hother hstatus b hb
      rw [hfollows.names i hi]
      exact ⟨hfollows.has _ b hhas, hfollows.drafts b hhas.1 hdraft⟩
  | claiming i other status todo =>
      obtain ⟨hhand, hnone, hold, hi, hclaim⟩ := hstanding
      exact ⟨hhand.follows hapart, hnone, htodo _ hold, hi.trans_le hfollows.segments, hfollows.claimable hi hclaim⟩
  | made i =>
      obtain ⟨hhand, hnone, hi, hname⟩ := hstanding
      exact ⟨hhand.follows hapart, hnone, hi.trans_le hfollows.segments, (hfollows.names i hi).trans hname⟩
  | asking =>
      obtain ⟨hhand, hasked⟩ := hstanding
      refine ⟨hhand.follows hapart, fun hholds => ?_⟩
      obtain ⟨hheld, -, hrequested, hhas⟩ := hapart hholds
      obtain ⟨hmarked, hnone⟩ := hasked hheld
      refine ⟨fun hb => hrequested (hmarked ?_), fun hbefore b hnew => hnone hbefore b (hhas b hnew)⟩
      cases hold : (s.emails task.mailId).broadcastId with
      | none => rfl
      | some b => exact absurd (hb.symm.trans (hfollows.recorded _ b hold)) (by simp)
  | finishing stage =>
      intro hholds
      obtain ⟨hheld, -⟩ := hapart hholds
      obtain ⟨b, hb, hdraft, hended⟩ := hstanding hheld
      have hlt : b < s.nextBroadcast := ((hmails _).recorded b hb).1
      exact ⟨b, hfollows.recorded _ b hb, hfollows.drafts b hlt hdraft, fun hstage => hfollows.ended b hlt (hended hstage)⟩

/-! ## The writes -/

theorem Holds.of_setMail {f : MassEmail → MassEmail}
    (hheld : (f (s.emails e)).status = .sending → (f (s.emails e)).taskId < s.nextTask →
      (s.emails e).status = .sending ∧ (f (s.emails e)).taskId = (s.emails e).taskId)
    (ht : t < s.nextTask) (h : Holds (s.setMail e f) t task) : Holds s t task := by
  by_cases hmail : task.mailId = e
  · subst hmail
    simp only [Holds, Site.setMail, Function.update_self] at h
    obtain ⟨hstatus, htask⟩ := hheld h.1 (h.2.trans_lt ht)
    exact ⟨hstatus, htask.symm.trans h.2⟩
  · simpa only [Holds, Site.setMail, Function.update_of_ne hmail] using h

/-- The tasks are as they were, and the rest changed as they need. -/
theorem Steady.share (h : Steady busy s) (hfollows : Follows s s') (htasks : s'.tasks = s.tasks)
    (hnext : s'.nextTask = s.nextTask) (hmails : ∀ e, MailOk s' e (s'.emails e))
    (honce : ∀ e b b', s'.Has e b → s'.Has e b' → b = b')
    (htargets : ∀ b < s'.nextBroadcast, (s'.broadcasts b).segmentId < s'.nextSegment ∧
      (s'.segments (s'.broadcasts b).segmentId).name = (s'.broadcasts b).name)
    (hapart : ∀ t < s.nextTask, ¬ busy t → Apart s s' t (s.tasks t)) (hdoomed : ∀ i, Doomed s' i → Dead s' i) :
    Steady busy s' where
  mails := hmails
  once := honce
  targets := htargets
  tasks t ht hbusy := by
    rw [hnext] at ht
    rw [htasks]
    exact (h.tasks t ht hbusy).follows h.mails hfollows (hapart t ht hbusy)
  idle t ht := by
    rw [htasks]
    exact h.idle t (hnext ▸ ht)
  deleting t i todo ht := by
    rw [htasks] at ht
    exact (h.deleting t i todo ht).trans_le hfollows.segments
  doomed := hdoomed

theorem Steady.setMail (h : Steady busy s) {f : MassEmail → MassEmail} (hok : MailOk s e (f (s.emails e)))
    (hrecorded : ∀ b, (s.emails e).broadcastId = some b → (f (s.emails e)).broadcastId = some b)
    (hsegment : ∀ i, (f (s.emails e)).segmentId = some i → (s.emails e).segmentId = some i ∨ ¬ Doomed s i)
    (hheld : (f (s.emails e)).status = .sending → (f (s.emails e)).taskId < s.nextTask →
      (s.emails e).status = .sending ∧ (f (s.emails e)).taskId = (s.emails e).taskId)
    (hkept : (f (s.emails e)).status = .sending → (f (s.emails e)).taskId < s.nextTask →
      ¬ busy (f (s.emails e)).taskId → (f (s.emails e)).segmentId = (s.emails e).segmentId ∧
        ((s.emails e).broadcastRequested = true → (f (s.emails e)).broadcastRequested = true)) :
    Steady busy (s.setMail e f) := by
  have hfollows : Follows s (s.setMail e f) :=
    ⟨le_rfl, fun _ _ => rfl, fun _ _ hhas => hhas, fun _ _ => rfl, fun _ _ hstage => hstage, fun _ _ hstage => hstage,
      fun e' b hb => by
        by_cases hmail : e' = e
        · subst hmail
          simpa only [Site.setMail, Function.update_self] using hrecorded b hb
        · simpa only [Site.setMail, Function.update_of_ne hmail] using hb⟩
  refine h.share hfollows rfl rfl (fun e' => ?_) h.once h.targets (fun t' ht' hbusy hholds => ?_) (fun i hi => ?_)
  · by_cases hmail : e' = e
    · subst hmail
      have := hok.follows hfollows fun _ hhas => hhas
      simpa only [Site.setMail, Function.update_self] using this
    · have := (h.mails e').follows hfollows fun _ hhas => hhas
      simpa only [Site.setMail, Function.update_of_ne hmail] using this
  · -- a task whose email this is lost it, or the segment and the request are as they were
    refine ⟨hholds.of_setMail hheld ht', ?_⟩
    by_cases hmail : (s.tasks t').mailId = e
    · subst hmail
      simp only [Holds, Site.setMail, Function.update_self] at hholds ⊢
      obtain ⟨hsame, hrequested⟩ := hkept hholds.1 (hholds.2.trans_lt ht') (by rwa [hholds.2])
      exact ⟨hsame, hrequested, fun _ hhas => hhas⟩
    · simp only [Site.setMail, Function.update_of_ne hmail]
      exact ⟨trivial, id, fun _ hhas => hhas⟩
  · have hdead := h.doomed i hi
    refine ⟨fun e' he' => ?_, fun t' hholds hpoint => ?_, hdead.broadcasts⟩
    · by_cases hmail : e' = e
      · subst hmail
        simp only [Site.setMail, Function.update_self] at he'
        rcases hsegment i he' with hold | hfine
        · exact hdead.emails e' hold
        · exact hfine hi
      · simp only [Site.setMail, Function.update_of_ne hmail] at he'
        exact hdead.emails e' he'
    · have ht' : t' < s.nextTask := by
        by_contra hge
        have hidle := h.idle t' (not_lt.mp hge)
        exact absurd (hpoint.symm.trans hidle) (by simp)
      exact hdead.made t' (hholds.of_setMail hheld ht') hpoint

theorem Follows.setTask (s : Site) (t : ℕ) (f : Task → Task) : Follows s (s.setTask t f) :=
  ⟨le_rfl, fun _ _ => rfl, fun _ _ h => h, fun _ _ => rfl, fun _ _ h => h, fun _ _ h => h, fun _ _ h => h⟩

theorem Apart.of_emails (hemails : s'.emails = s.emails) (hhas : ∀ e b, s'.Has e b → s.Has e b) :
    Apart s s' t task := by
  intro hholds
  rw [Holds, hemails] at hholds
  rw [hemails]
  exact ⟨hholds, rfl, id, fun b => hhas _ b⟩

/-- The end of a step: the task goes on to where what it needs holds. -/
theorem Steady.setTask (h : Steady (· = t) s) {f : Task → Task} (ht : t < s.nextTask)
    (hok : TaskOk s t (f (s.tasks t)))
    (hmade : ∀ i, Holds s t (f (s.tasks t)) → (f (s.tasks t)).point = .made i → ¬ Doomed s i)
    (hdeleting : ∀ i todo, (f (s.tasks t)).point = .deleting i todo → i < s.nextSegment ∧ Dead s i) :
    Steady (fun _ => False) (s.setTask t f) := by
  have hself : (s.setTask t f).tasks t = f (s.tasks t) := Function.update_self ..
  have hother : ∀ t' ≠ t, (s.setTask t f).tasks t' = s.tasks t' := fun t' hne => Function.update_of_ne hne ..
  have hkeep : ∀ t' task, TaskOk s t' task → TaskOk (s.setTask t f) t' task := fun t' task htask =>
    htask.follows h.mails (Follows.setTask s t f) (Apart.of_emails rfl fun _ _ => id)
  refine ⟨fun e => (h.mails e).follows (Follows.setTask s t f) fun _ => id, h.once, h.targets, fun t' ht' _ => ?_,
    fun t' ht' => ?_, fun t' i todo hpoint => ?_, fun i hi => ?_⟩
  · by_cases hne : t' = t
    · rw [hne, hself]
      exact hkeep t _ hok
    · rw [hother t' hne]
      exact hkeep t' _ (h.tasks t' ht' hne)
  · rw [hother t' (ht.trans_le ht').ne']
    exact h.idle t' ht'
  · by_cases hne : t' = t
    · rw [hne, hself] at hpoint
      exact (hdeleting i todo hpoint).1
    · rw [hother t' hne] at hpoint
      exact h.deleting t' i todo hpoint
  · obtain ⟨hlt, hcases⟩ := hi
    -- the segment was doomed before, or this step is the one that is about to delete it
    have hwas : Doomed s i ∨ ∃ todo, (f (s.tasks t)).point = .deleting i todo := by
      rcases hcases with hkept | ⟨t', todo, hpoint⟩
      · exact .inl ⟨hlt, .inl hkept⟩
      · by_cases hne : t' = t
        · rw [hne, hself] at hpoint
          exact .inr ⟨todo, hpoint⟩
        · rw [hother t' hne] at hpoint
          exact .inl ⟨hlt, .inr ⟨t', todo, hpoint⟩⟩
    have hdead : Dead s i := by
      rcases hwas with hdoomed | ⟨todo, hpoint⟩
      · exact h.doomed i hdoomed
      · exact (hdeleting i todo hpoint).2
    refine ⟨hdead.emails, fun t' hholds hpoint => ?_, hdead.broadcasts⟩
    by_cases hne : t' = t
    · rw [hne, hself] at hpoint hholds
      rcases hwas with hdoomed | ⟨todo, hnew⟩
      · exact hmade i hholds hpoint hdoomed
      · exact absurd (hpoint.symm.trans hnew) (by simp)
    · rw [hother t' hne] at hpoint hholds
      exact hdead.made t' hholds hpoint

theorem Steady.goTo (h : Steady (· = t) s) (ht : t < s.nextTask)
    (hbroadcast : ∀ b, (s.tasks t).broadcastId = some b → (s.mail t).broadcastId = some b)
    (hstanding : Standing s t { s.tasks t with point } point) (hmade : ∀ i, point = .made i → ¬ Doomed s i)
    (hdeleting : ∀ i todo, point = .deleting i todo → i < s.nextSegment ∧ Dead s i) :
    Steady (fun _ => False) (s.goTo t point) :=
  h.setTask ht ⟨hbroadcast, hstanding⟩ (fun i _ => hmade i) hdeleting

theorem Steady.addTask (h : Steady (fun _ => False) s) (e : ℕ) : Steady (fun _ => False) (s.addTask e) := by
  have hself : (s.addTask e).tasks s.nextTask = { mailId := e } := Function.update_self ..
  have hother : ∀ t ≠ s.nextTask, (s.addTask e).tasks t = s.tasks t := fun t hne => Function.update_of_ne hne ..
  have hfollows : Follows s (s.addTask e) :=
    ⟨le_rfl, fun _ _ => rfl, fun _ _ hhas => hhas, fun _ _ => rfl, fun _ _ hstage => hstage, fun _ _ hstage => hstage,
      fun _ _ hb => hb⟩
  refine ⟨fun e' => (h.mails e').follows hfollows fun _ => id, h.once, h.targets, fun t ht _ => ?_, fun t ht => ?_,
    fun t i todo hpoint => ?_, fun i hi => ?_⟩
  · by_cases hne : t = s.nextTask
    · rw [hne, hself]
      exact ⟨nofun, trivial⟩
    · rw [hother t hne]
      exact (h.tasks t (by simp only [Site.addTask] at ht; omega) id).follows h.mails hfollows
        (Apart.of_emails rfl fun _ _ => id)
  · simp only [Site.addTask] at ht
    rw [hother t (by omega)]
    exact h.idle t (by omega)
  · by_cases hne : t = s.nextTask
    · rw [hne, hself] at hpoint
      cases hpoint
    · rw [hother t hne] at hpoint
      exact h.deleting t i todo hpoint
  · obtain ⟨hlt, hcases⟩ := hi
    have hdoomed : Doomed s i := by
      refine ⟨hlt, hcases.imp id fun ⟨t, todo, hpoint⟩ => ⟨t, todo, ?_⟩⟩
      by_cases hne : t = s.nextTask
      · rw [hne, hself] at hpoint
        cases hpoint
      · rwa [hother t hne] at hpoint
    have hdead := h.doomed i hdoomed
    refine ⟨hdead.emails, fun t hholds hpoint => ?_, hdead.broadcasts⟩
    by_cases hne : t = s.nextTask
    · rw [hne, hself] at hpoint
      cases hpoint
    · rw [hother t hne] at hpoint hholds
      exact hdead.made t hholds hpoint

/-! ## The writes to Resend -/

theorem Steady.setSegment (h : Steady busy s) {f : Segment → Segment} (hname : (f (s.segments i)).name = (s.segments i).name)
    (hkept : (f (s.segments i)).kept = false →
      (s.segments i).kept = false ∨ ∃ t todo, (s.tasks t).point = .deleting i todo) :
    Steady busy (s.setSegment i f) := by
  have hnames : ∀ j, ((s.setSegment i f).segments j).name = (s.segments j).name := by
    intro j
    by_cases hj : j = i
    · subst hj
      simpa only [Site.setSegment, Function.update_self] using hname
    · simp only [Site.setSegment, Function.update_of_ne hj]
  have hfollows : Follows s (s.setSegment i f) :=
    ⟨le_rfl, fun j _ => hnames j, fun _ _ hhas => hhas, fun _ _ => rfl, fun _ _ hstage => hstage,
      fun _ _ hstage => hstage, fun _ _ hb => hb⟩
  refine h.share hfollows rfl rfl (fun e => (h.mails e).follows hfollows fun _ => id) h.once (fun b hb => ?_)
    (fun t _ _ => Apart.of_emails rfl fun _ _ => id) (fun j hj => ?_)
  · rw [hnames]
    exact h.targets b hb
  · obtain ⟨hlt, hcases⟩ := hj
    have hdoomed : Doomed s j := by
      refine ⟨hlt, ?_⟩
      rcases hcases with hnot | hpoint
      · by_cases hji : j = i
        · subst hji
          simp only [Site.setSegment, Function.update_self] at hnot
          exact hkept hnot
        · simp only [Site.setSegment, Function.update_of_ne hji] at hnot
          exact .inl hnot
      · exact .inr hpoint
    obtain ⟨hemails, hmade, hbroadcasts⟩ := h.doomed j hdoomed
    exact ⟨hemails, hmade, hbroadcasts⟩

theorem Steady.addSegment (h : Steady busy s) (e : ℕ) : Steady busy (s.addSegment e) := by
  have hother : ∀ j < s.nextSegment, (s.addSegment e).segments j = s.segments j :=
    fun j hj => Function.update_of_ne hj.ne ..
  have hfollows : Follows s (s.addSegment e) :=
    ⟨Nat.le_succ _, fun j hj => by rw [hother j hj], fun _ _ hhas => hhas, fun _ _ => rfl, fun _ _ hstage => hstage,
      fun _ _ hstage => hstage, fun _ _ hb => hb⟩
  refine h.share hfollows rfl rfl (fun e' => (h.mails e').follows hfollows fun _ => id) h.once (fun b hb => ?_)
    (fun t _ _ => Apart.of_emails rfl fun _ _ => id) (fun j hj => ?_)
  · obtain ⟨hlt, hname⟩ := h.targets b hb
    exact ⟨Nat.lt_succ_of_lt hlt, (congrArg Segment.name (hother _ hlt)).trans hname⟩
  · obtain ⟨hlt, hcases⟩ := hj
    -- the new segment is kept, and nobody deletes it
    have hold : j < s.nextSegment := by
      rcases hcases with hnot | ⟨t, todo, hpoint⟩
      · refine lt_of_le_of_ne (Nat.le_of_lt_succ hlt) fun hj => ?_
        subst hj
        simp [Site.addSegment] at hnot
      · exact h.deleting t j todo hpoint
    have hdoomed : Doomed s j := ⟨hold, hcases.imp (by rw [hother j hold]; exact id) id⟩
    obtain ⟨hemails, hmade, hbroadcasts⟩ := h.doomed j hdoomed
    exact ⟨hemails, hmade, hbroadcasts⟩

theorem Steady.setBroadcast (h : Steady busy s) {f : Broadcast → Broadcast}
    (hname : (f (s.broadcasts b)).name = (s.broadcasts b).name)
    (htarget : (f (s.broadcasts b)).segmentId = (s.broadcasts b).segmentId)
    (hdraft : (s.broadcasts b).stage ≠ .draft → (f (s.broadcasts b)).stage ≠ .draft)
    (hended : ¬ (s.broadcasts b).stage.Unsent → ¬ (f (s.broadcasts b)).stage.Unsent) :
    Steady busy (s.setBroadcast b f) := by
  have hself : (s.setBroadcast b f).broadcasts b = f (s.broadcasts b) := Function.update_self ..
  have hother : ∀ b' ≠ b, (s.setBroadcast b f).broadcasts b' = s.broadcasts b' :=
    fun b' hne => Function.update_of_ne hne ..
  have hnames : ∀ b', ((s.setBroadcast b f).broadcasts b').name = (s.broadcasts b').name := by
    intro b'
    by_cases hne : b' = b
    · rw [hne, hself, hname]
    · rw [hother b' hne]
  have htargets : ∀ b', ((s.setBroadcast b f).broadcasts b').segmentId = (s.broadcasts b').segmentId := by
    intro b'
    by_cases hne : b' = b
    · rw [hne, hself, htarget]
    · rw [hother b' hne]
  have hhas : ∀ e b', (s.setBroadcast b f).Has e b' ↔ s.Has e b' := fun e b' => by
    unfold Site.Has
    rw [hnames]
    rfl
  have hstage : ∀ b', ¬ (s.broadcasts b').stage.Unsent → ¬ ((s.setBroadcast b f).broadcasts b').stage.Unsent := by
    intro b' hb'
    by_cases hne : b' = b
    · subst hne
      rw [hself]
      exact hended hb'
    · rwa [hother b' hne]
  have hfollows : Follows s (s.setBroadcast b f) := by
    refine ⟨le_rfl, fun _ _ => rfl, fun e b' => (hhas e b').mpr, fun b' _ => htargets b', fun b' _ hb' => ?_,
      fun b' _ => hstage b', fun _ _ hb => hb⟩
    by_cases hne : b' = b
    · subst hne
      rw [hself]
      exact hdraft hb'
    · rwa [hother b' hne]
  refine h.share hfollows rfl rfl (fun e => (h.mails e).follows hfollows fun b' => (hhas e b').mp)
    (fun e b₁ b₂ h₁ h₂ => h.once e b₁ b₂ ((hhas e b₁).mp h₁) ((hhas e b₂).mp h₂)) (fun b' hb' => ?_)
    (fun t _ _ => Apart.of_emails rfl fun e b' => (hhas e b').mp) (fun j hj => ?_)
  · rw [htargets, hnames]
    exact h.targets b' hb'
  · obtain ⟨hemails, hmade, hbroadcasts⟩ := h.doomed j hj
    refine ⟨hemails, hmade, fun b' hb' hj' => hstage b' (hbroadcasts b' hb' ?_)⟩
    rwa [htargets] at hj'

/-- A broadcast is made for an email that has none, by the task that the email belongs to. -/
theorem Steady.addBroadcast (h : Steady busy s) (hnone : ∀ b, ¬ s.Has e b) (hsegment : (s.emails e).segmentId = some i)
    (hrequested : (s.emails e).broadcastRequested = true) (hstatus : (s.emails e).status = .sending)
    (hbusy : busy (s.emails e).taskId) : Steady busy (s.addBroadcast e i stage) := by
  have hself : (s.addBroadcast e i stage).broadcasts s.nextBroadcast = { name := e, segmentId := i, stage } :=
    Function.update_self ..
  have hother : ∀ b < s.nextBroadcast, (s.addBroadcast e i stage).broadcasts b = s.broadcasts b :=
    fun b hb => Function.update_of_ne hb.ne ..
  have hhas : ∀ e' b, (s.addBroadcast e i stage).Has e' b → s.Has e' b ∨ e' = e ∧ b = s.nextBroadcast := by
    rintro e' b ⟨hlt, hname⟩
    rcases Nat.lt_succ_iff_lt_or_eq.mp hlt with hb | rfl
    · rw [hother b hb] at hname
      exact .inl ⟨hb, hname⟩
    · rw [hself] at hname
      exact .inr ⟨hname.symm, rfl⟩
  have hold : ∀ e' ≠ e, ∀ b, (s.addBroadcast e i stage).Has e' b → s.Has e' b :=
    fun e' hne b hb => (hhas e' b hb).resolve_right fun hnew => hne hnew.1
  have hfollows : Follows s (s.addBroadcast e i stage) :=
    ⟨le_rfl, fun _ _ => rfl, fun e' b hb => ⟨Nat.lt_succ_of_lt hb.1, by rw [hother b hb.1]; exact hb.2⟩,
      fun b hb => by rw [hother b hb], fun b hb => by rw [hother b hb]; exact id,
      fun b hb => by rw [hother b hb]; exact id, fun _ _ hb => hb⟩
  have hmail := h.mails e
  refine h.share hfollows rfl rfl (fun e' => ?_) (fun e' b₁ b₂ h₁ h₂ => ?_) (fun b hb => ?_)
    (fun t ht hfree hholds => ?_) (fun j hj => ?_)
  · by_cases hne : e' = e
    · subst hne
      refine ⟨hmail.segment, fun b hb => absurd (hmail.recorded b hb) (hnone b), fun _ _ => hrequested,
        fun b hb _ => ?_, fun hdone => ?_, fun b hdone => ?_⟩
      · rcases hhas e' b hb with hwas | ⟨-, rfl⟩
        · exact absurd hwas (hnone b)
        · rw [hself]
          exact hsegment
      · rw [show (s.addBroadcast e' i stage).emails e' = s.emails e' from rfl, hstatus] at hdone
        simp at hdone
      · rw [show (s.addBroadcast e' i stage).emails e' = s.emails e' from rfl, hstatus] at hdone
        cases hdone
    · exact (h.mails e').follows hfollows (hold e' hne)
  · by_cases hne : e' = e
    · subst hne
      have hnew : ∀ b, (s.addBroadcast e' i stage).Has e' b → b = s.nextBroadcast :=
        fun b hb => ((hhas e' b hb).resolve_left (hnone b)).2
      rw [hnew b₁ h₁, hnew b₂ h₂]
    · exact h.once e' b₁ b₂ (hold e' hne b₁ h₁) (hold e' hne b₂ h₂)
  · rcases Nat.lt_succ_iff_lt_or_eq.mp hb with hlt | rfl
    · rw [hother b hlt]
      exact h.targets b hlt
    · rw [hself]
      exact hmail.segment i hsegment
  · refine ⟨hholds, rfl, id, fun b hb => ?_⟩
    by_cases hne : (s.tasks t).mailId = e
    · -- only the task that makes the broadcast holds the email
      have howner : (s.emails e).taskId = t := hne ▸ hholds.2
      exact absurd (howner ▸ hbusy) hfree
    · exact hold _ hne b hb
  · obtain ⟨hemails, hmade, hbroadcasts⟩ := h.doomed j hj
    refine ⟨hemails, hmade, fun b hb htarget => ?_⟩
    rcases Nat.lt_succ_iff_lt_or_eq.mp hb with hlt | rfl
    · rw [hother b hlt] at htarget ⊢
      exact hbroadcasts b hlt htarget
    · -- the segment of the new broadcast is an email's, so it is not doomed
      rw [hself] at htarget
      exact absurd (htarget ▸ hsegment) (hemails e)

end Mail
end CpcJudge
