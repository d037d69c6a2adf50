import CpcJudge.Submissions.Submit

/-!
# The submission limit

A team counts its submissions again under the lock, so it never goes past the limit. One person is counted before
the transaction only: what is checked while others of theirs are on their way has to leave room for all of them.
-/

namespace CpcJudge.Submissions
open ContestTeams (ContestParticipation)

variable {s s' : Site} {k : State} {a : Checked} {r : Request} {p q : ContestParticipation} {cp : ContestProblem}
  {max : ℤ} {now place participation : ℕ}

/-- The submissions of a participation to a problem, other than internal errors. -/
def Site.submitted (s : Site) (participation contestProblem : ℕ) : ℕ :=
  s.submissions.rows.countP fun b =>
    b.status ≠ .ie && b.contest = some { problem := contestProblem, participation := participation }

/-- The request is in this participation, to this problem. -/
def Checked.isFor (a : Checked) (participation contestProblem : ℕ) : Bool :=
  a.participation.any (·.id = participation) && a.contestProblem.any (·.id = contestProblem)

/-- How many such requests are between their two parts. -/
def State.waiting (k : State) (participation contestProblem : ℕ) : ℕ :=
  k.pending.countP (·.isFor participation contestProblem)

theorem State.waiting_cons {pending : List Checked} {contestProblem : ℕ} :
    State.waiting { site := s, pending := a :: pending } participation contestProblem =
      State.waiting { site := s, pending } participation contestProblem +
        if a.isFor participation contestProblem then 1 else 0 := List.countP_cons

/-! ## The check -/

namespace Site

theorem submitted_le_count (hp : s.participations.get? p.id = some q) (hcp : s.contestProblems.get? cp.id = some cp) :
    s.submitted p.id cp.id ≤ s.contestSubmissionCount p.id cp.problem q.virtual := by
  refine List.countP_mono_left fun b _ hb => ?_
  simp only [Bool.and_eq_true, decide_eq_true_iff] at hb ⊢
  refine ⟨hb.1, ?_⟩
  simp [hb.2, counts, hp, hcp]

theorem check_ok (h : s.check r = .ok a) : s.remainingSubmissionCount r ≠ some 0 ∧
    a = { request := r, participation := s.currentContest r, contestProblem := s.contestProblem r } := by
  rw [check] at h
  cases hproblem : s.problems.get? r.problem with
  | none =>
      rw [hproblem] at h
      cases h
  | some problem =>
      rw [hproblem] at h
      simp only at h
      split_ifs at h with hmany hlanguage hbanned hremaining
      cases h
      exact ⟨hremaining, rfl⟩

theorem contestProblem_problem (h : s.contestProblem r = some cp) :
    cp ∈ s.contestProblems.rows ∧ cp.problem = r.problem := by
  obtain ⟨p, -, hfind⟩ := Option.bind_eq_some_iff.mp h
  have hcond := List.find?_some hfind
  simp only [Bool.and_eq_true, decide_eq_true_iff] at hcond
  exact ⟨List.mem_of_find?_eq_some hfind, hcond.1⟩

theorem currentContest_get? (h : s.currentContest r = some p) :
    r.currentContest = some p.id ∧ s.participations.get? p.id = some p := by
  obtain ⟨i, hi, hget⟩ := Option.bind_eq_some_iff.mp h
  obtain rfl : p.id = i := Table.key_of_get? hget
  exact ⟨hi, hget⟩

/-- Whoever passes the check is below the limit. -/
theorem remaining_room (hp : s.currentContest r = some p) (hcp : s.contestProblem r = some cp)
    (hmax : cp.maxSubmissions = some max) (h : s.remainingSubmissionCount r ≠ some 0) :
    s.contestSubmissionCount p.id r.problem p.virtual < max := by
  rw [remainingSubmissionCount, hp, hcp] at h
  simp only [Option.bind_some, hmax, ne_eq, Option.some.injEq] at h
  omega

/-! ## The transaction -/

theorem save_submitted {contestProblem : ℕ} : (s.save a).submitted participation contestProblem ≤
    s.submitted participation contestProblem + if a.isFor participation contestProblem then 1 else 0 := by
  rw [submitted, save, Table.add]
  split
  · exact Nat.le_add_right _ _
  · rw [List.countP_append, submitted]
    refine Nat.add_le_add_left ?_ _
    rw [List.countP_singleton]
    split
    · rename_i hcounted
      rw [if_pos]
      simp only [Bool.and_eq_true, decide_eq_true_iff, newSubmission, Option.bind_eq_some_iff,
        Option.map_eq_some_iff] at hcounted
      obtain ⟨-, q, hq, c, hc, hrow⟩ := hcounted
      cases hrow
      simp [Checked.isFor, hq, hc]
    · exact Nat.zero_le _

/-- What goes in is saved, and of a team only after it was counted under the lock. -/
theorem insert_ok (h : s.insert a now = .ok s') :
    s' = s.save a ∧ ∀ p, a.participation = some p → p.team = none ∨ s.lockedRefusal a p now = none := by
  rw [insert] at h
  cases hp : a.participation with
  | none =>
      rw [hp] at h
      cases h
      exact ⟨rfl, by simp⟩
  | some p =>
      rw [hp] at h
      simp only at h
      split at h
      · rename_i hteam
        cases h
        refine ⟨rfl, fun q hq => .inl ?_⟩
        cases hq
        simpa using hteam
      · cases hlocked : s.lockedRefusal a p now with
        | some refusal =>
            rw [hlocked] at h
            cases h
        | none =>
            rw [hlocked] at h
            cases h
            refine ⟨rfl, fun q hq => .inr ?_⟩
            cases hq
            exact hlocked

theorem locked_room (hp : s.participations.get? p.id = some q) (hcp : a.contestProblem = some cp)
    (hmax : cp.maxSubmissions = some max) (hne : max ≠ 0) (h : s.lockedRefusal a p now = none) :
    s.contestSubmissionCount p.id a.request.problem q.virtual < max := by
  have hid : q.id = p.id := Table.key_of_get? hp
  rw [lockedRefusal, hp] at h
  simp only at h
  split at h
  · cases h
  · rw [hcp, Option.bind_some, hmax] at h
    simp only at h
    split at h
    · cases h
    · rename_i hroom
      rw [hid] at hroom
      by_contra hfull
      exact hroom ⟨hne, not_lt.mp hfull⟩

/-! ## The rest -/

theorem judged_submitted {submission contestProblem : ℕ} {status : Status} {rejudged : Bool} :
    (s.judged submission status rejudged).submitted participation contestProblem ≤
      s.submitted participation contestProblem := by
  rw [submitted, judged, Table.modify, List.countP_map, submitted]
  refine List.countP_mono_left fun b _ hb => ?_
  by_cases hjudged : (b.id = submission && b.status ≠ .ie) = true
  · simp only [Bool.and_eq_true, decide_eq_true_iff] at hjudged
    simp only [Function.comp, hjudged.1, hjudged.2, ne_eq, not_false_eq_true, decide_true, Bool.and_self,
      if_true, Bool.and_eq_true, decide_eq_true_iff] at hb ⊢
    exact ⟨trivial, hb.2⟩
  · rw [Function.comp, if_neg hjudged] at hb
    exact hb

theorem putParticipation_get? (hp : s.participations.get? p.id = some p) :
    ∃ p', (s.putParticipation q).participations.get? p.id = some p' ∧ p'.team = p.team ∧ p'.virtual = p.virtual := by
  rw [putParticipation]
  cases hold : s.participations.get? q.id with
  | none =>
      refine ⟨p, ?_, rfl, rfl⟩
      rw [Table.get?_add_of_ne (fun heq => ?_), hp]
      have heq : p.id = q.id := heq
      rw [← heq, hp] at hold
      cases hold
  | some old =>
      simp only
      split
      · rename_i hsame
        by_cases heq : p.id = q.id
        · rw [← heq, hp] at hold
          cases hold
          refine ⟨q, ?_, hsame.2.1.symm, hsame.2.2.symm⟩
          rw [heq] at hp ⊢
          exact Table.get?_put_self hp
        · refine ⟨p, ?_, rfl, rfl⟩
          rw [Table.get?_put_of_ne heq, hp]
      · exact ⟨p, hp, rfl, rfl⟩

end Site

/-! ## Requests in any order -/

namespace State

/-- What is checked of one person leaves room for those of theirs on their way, if there is any left. -/
def Room (k : State) (p : ContestParticipation) (cp : ContestProblem) (max : ℤ) : Event → Prop
  | .check r => r.currentContest = some p.id → r.problem = cp.problem → p.team = none →
      k.site.submitted p.id cp.id < max → (k.site.submitted p.id cp.id + k.waiting p.id cp.id : ℤ) < max
  | _ => True

/-- It is so in a whole run. -/
def AllRoom (p : ContestParticipation) (cp : ContestProblem) (max : ℤ) : State → List Event → Prop
  | _, [] => True
  | k, event :: events => k.Room p cp max event ∧ AllRoom p cp max (k.step event) events

/-- The limit is kept, also once those of one person that are on their way are in. -/
structure Within (k : State) (p : ContestParticipation) (cp : ContestProblem) (max : ℤ) : Prop where
  participation : ∃ q, k.site.participations.get? p.id = some q ∧ q.team = p.team
  contestProblem : k.site.contestProblems.get? cp.id = some cp
  pending : ∀ a ∈ k.pending, a.isFor p.id cp.id = true →
    (∃ q, a.participation = some q ∧ q.id = p.id ∧ q.team = p.team) ∧ a.contestProblem = some cp ∧
      a.request.problem = cp.problem ∧ max ≠ 0
  limit : (k.site.submitted p.id cp.id : ℤ) ≤ max
  waiting : p.team = none → (k.site.submitted p.id cp.id + k.waiting p.id cp.id : ℤ) ≤ max

namespace Within

/-- A step with no new requests and no new submissions. -/
theorem of_le (h : k.Within p cp max) (hparticipation : ∃ q, s.participations.get? p.id = some q ∧ q.team = p.team)
    (hproblems : s.contestProblems = k.site.contestProblems) (hle : s.submitted p.id cp.id ≤ k.site.submitted p.id cp.id)
    {pending : List Checked} (hsub : pending.Sublist k.pending) : Within { site := s, pending } p cp max where
  participation := hparticipation
  contestProblem := by
    rw [hproblems]
    exact h.contestProblem
  pending a ha := h.pending a (hsub.subset ha)
  limit := (Int.ofNat_le.mpr hle).trans h.limit
  waiting hone := by
    have hwaiting : State.waiting { site := s, pending } p.id cp.id ≤ k.waiting p.id cp.id := hsub.countP_le
    have := h.waiting hone
    simp only
    omega

theorem check (h : k.Within p cp max) (hmax : cp.maxSubmissions = some max) (hroom : k.Room p cp max (.check r)) :
    (k.step (.check r)).Within p cp max := by
  rw [step]
  cases hcheck : k.site.check r with
  | error refusal => exact h
  | ok a =>
      obtain ⟨hremaining, rfl⟩ := Site.check_ok hcheck
      simp only
      set a : Checked :=
        { request := r, participation := k.site.currentContest r, contestProblem := k.site.contestProblem r } with ha
      by_cases hfor : a.isFor p.id cp.id = true
      · -- it is one of those counted, so the check found room for it
        rw [Checked.isFor, Bool.and_eq_true, Option.any_eq_true, Option.any_eq_true] at hfor
        obtain ⟨⟨q, hq, hqid⟩, c, hc, hcid⟩ := hfor
        simp only [decide_eq_true_iff] at hqid hcid
        obtain ⟨hcurrent, hget⟩ := Site.currentContest_get? hq
        rw [hqid] at hcurrent hget
        obtain ⟨hmem, hproblem⟩ := Site.contestProblem_problem hc
        obtain rfl : c = cp := Table.eq_of_key hmem (Table.mem_of_get? h.contestProblem) hcid
        obtain ⟨q', hq', hteam⟩ := h.participation
        rw [hget] at hq'
        cases hq'
        have hbelow := Site.remaining_room hq hc hmax hremaining
        have hcount := Site.submitted_le_count hget h.contestProblem
        rw [hqid, ← hproblem] at hbelow
        have hsubmitted : (k.site.submitted p.id c.id : ℤ) < max := by omega
        refine ⟨h.participation, h.contestProblem, ?_, h.limit, fun hone => ?_⟩
        · intro b hb hbfor
          rcases List.mem_cons.mp hb with rfl | hb
          · exact ⟨⟨q, hq, hqid, hteam⟩, hc, hproblem.symm, by omega⟩
          · exact h.pending b hb hbfor
        · have hleft := hroom hcurrent hproblem.symm hone hsubmitted
          have hcons : State.waiting { site := k.site, pending := a :: k.pending } p.id c.id ≤ k.waiting p.id c.id + 1 := by
            rw [State.waiting_cons]
            split
            · exact le_rfl
            · exact Nat.le_succ _
          simp only at hleft ⊢
          omega
      · refine ⟨h.participation, h.contestProblem, ?_, h.limit, fun hone => ?_⟩
        · intro b hb hbfor
          rcases List.mem_cons.mp hb with rfl | hb
          · exact absurd hbfor hfor
          · exact h.pending b hb hbfor
        · have := h.waiting hone
          rwa [State.waiting_cons, if_neg hfor]

theorem insert (h : k.Within p cp max) (hmax : cp.maxSubmissions = some max) :
    (k.step (.insert place now)).Within p cp max := by
  rw [step]
  cases hat : k.pending[place]? with
  | none => exact h
  | some a =>
      have hsub : (k.pending.eraseIdx place).Sublist k.pending := List.eraseIdx_sublist _ _
      simp only
      cases hinsert : k.site.insert a now with
      | error refusal => exact h.of_le h.participation rfl le_rfl hsub
      | ok site =>
          obtain ⟨rfl, hcounted⟩ := Site.insert_ok hinsert
          have hsaved := @Site.save_submitted k.site a p.id cp.id
          by_cases hfor : a.isFor p.id cp.id = true
          · obtain ⟨hlt, rfl⟩ := List.getElem?_eq_some_iff.mp hat
            obtain ⟨⟨q, hq, hqid, hteam⟩, hcp, hproblem, hne⟩ := h.pending _ (List.getElem_mem hlt) hfor
            rw [if_pos hfor] at hsaved
            have herase : (k.pending.eraseIdx place).countP (·.isFor p.id cp.id) + 1 =
                k.pending.countP (·.isFor p.id cp.id) := by
              rw [← (List.getElem_cons_eraseIdx_perm hlt).countP_eq, List.countP_cons, if_pos hfor]
            refine ⟨h.participation, h.contestProblem, fun b hb => h.pending b (hsub.subset hb), ?_, fun hone => ?_⟩
            · rcases hcounted q hq with hone | hlocked
              · -- one person: there was room for it since its check
                have := h.waiting (hteam.symm.trans hone)
                rw [State.waiting] at this
                simp only
                omega
              · obtain ⟨q', hq', -⟩ := h.participation
                have hcount := Site.submitted_le_count hq' h.contestProblem
                rw [← hqid] at hq'
                have hbelow := Site.locked_room hq' hcp hmax hne hlocked
                rw [hqid, hproblem] at hbelow
                simp only
                omega
            · have := h.waiting hone
              rw [State.waiting] at this ⊢
              simp only
              omega
          · rw [if_neg hfor, Nat.add_zero] at hsaved
            exact h.of_le (s := k.site.save a) h.participation rfl hsaved hsub

theorem step (h : k.Within p cp max) (hmax : cp.maxSubmissions = some max) {event : Event}
    (hroom : k.Room p cp max event) : (k.step event).Within p cp max := by
  cases event with
  | check r => exact h.check hmax hroom
  | insert place now => exact h.insert hmax
  | fail place => exact h.of_le h.participation rfl le_rfl (List.eraseIdx_sublist _ _)
  | participation q =>
      obtain ⟨p', hp', hteam⟩ := h.participation
      have hid : p'.id = p.id := Table.key_of_get? hp'
      rw [← hid] at hp'
      obtain ⟨p'', hp'', hteam', -⟩ := Site.putParticipation_get? (q := q) hp'
      rw [hid] at hp''
      have hrest : (k.site.putParticipation q).submissions = k.site.submissions ∧
          (k.site.putParticipation q).contestProblems = k.site.contestProblems := by
        rw [Site.putParticipation]
        cases k.site.participations.get? q.id with
        | none => exact ⟨rfl, rfl⟩
        | some old =>
            simp only
            split
            · exact ⟨rfl, rfl⟩
            · exact ⟨rfl, rfl⟩
      refine h.of_le ⟨p'', hp'', hteam'.trans hteam⟩ hrest.2 ?_ (List.Sublist.refl _)
      rw [Site.submitted, hrest.1, Site.submitted]
  | roster members => exact h.of_le (s := { k.site with teamRoster := members }) h.participation rfl le_rfl (List.Sublist.refl _)
  | judged submission status rejudged =>
      exact h.of_le (s := k.site.judged submission status rejudged) h.participation rfl Site.judged_submitted (List.Sublist.refl _)

theorem run (h : k.Within p cp max) (hmax : cp.maxSubmissions = some max) {events : List Event}
    (hroom : AllRoom p cp max k events) : (k.run events).Within p cp max := by
  induction events generalizing k with
  | nil => exact h
  | cons event events ih => exact ih (h.step hmax hroom.1) hroom.2

end Within

/-- The submissions of a participation to a problem never exceed its limit, in every run in which what is checked of
one person leaves room for what of theirs is on its way. -/
theorem limit_kept (hp : k.site.participations.get? p.id = some p) (hcp : k.site.contestProblems.get? cp.id = some cp)
    (hmax : cp.maxSubmissions = some max) (hpending : k.pending = [])
    (hstart : (k.site.submitted p.id cp.id : ℤ) ≤ max) (events : List Event) (hroom : AllRoom p cp max k events) :
    ((k.run events).site.submitted p.id cp.id : ℤ) ≤ max := by
  have hwithin : k.Within p cp max := by
    refine ⟨⟨p, hp, rfl⟩, hcp, ?_, hstart, fun _ => ?_⟩
    · rw [hpending]
      simp
    · rw [State.waiting, hpending]
      simpa using hstart
  exact (hwithin.run hmax hroom).limit

/-! ## Two tabs -/

instance Room.decide (k : State) (p : ContestParticipation) (cp : ContestProblem) (max : ℤ) (event : Event) :
    Decidable (k.Room p cp max event) :=
  match event with
  | .check r => inferInstanceAs (Decidable (r.currentContest = some p.id → r.problem = cp.problem → p.team = none →
      k.site.submitted p.id cp.id < max → (k.site.submitted p.id cp.id + k.waiting p.id cp.id : ℤ) < max))
  | .insert _ _ | .fail _ | .participation _ | .roster _ | .judged _ _ _ => .isTrue trivial

instance AllRoom.decide (p : ContestParticipation) (cp : ContestProblem) (max : ℤ) :
    (k : State) → (events : List Event) → Decidable (AllRoom p cp max k events)
  | _, [] => .isTrue trivial
  | k, event :: events =>
      have := AllRoom.decide p cp max (k.step event) events
      inferInstanceAs (Decidable (_ ∧ _))

/-- A participation of one person, or of their team. -/
def entry (team : Option ℕ) : ContestParticipation where
  id := 1
  contest := 1
  user := 1
  team := team
  teamName := ""
  virtual := 0
  realStart := 0
  isDisqualified := false

def round : ContestTeams.Contest where
  id := 1
  startTime := 0
  endTime := 100
  timeLimit := none
  arenaGame := false
  editorIds := []
  testerIds := []
  bannedUsers := []
  accessCode := ""
  participationMode := .both
  isPrivate := false
  privateTeams := []
  limitJoinOrganizations := false
  teamMinSize := 1
  teamMaxSize := 3

def onlyOnce : ContestProblem := { id := 1, problem := 1, contest := 1, maxSubmissions := some 1 }

def beforeAny (team : Option ℕ) : State where
  site :=
    { problems := ⟨[⟨1, [1], []⟩], by decide⟩
      contests := ⟨[round], List.nodup_singleton _⟩
      contestProblems := ⟨[onlyOnce], by decide⟩
      participations := ⟨[entry team], List.nodup_singleton _⟩
      teamRoster := [⟨1, 1, ""⟩]
      submissions := ⟨[], by decide⟩
      nextId := 1 }
  pending := []

/-- The same form sent from two tabs at once. -/
def twoTabs : List Event :=
  let form : Request :=
    { profile := 1, spamSubmission := false, isSuperuser := false, problem := 1, language := 1,
      currentContest := some 1 }
  [.check form, .check form, .insert 0 5, .insert 0 5]

theorem limit_kept_team :
    (((beforeAny (some 1)).run twoTabs).site.submitted (entry (some 1)).id onlyOnce.id : ℤ) ≤ 1 :=
  limit_kept (by decide) (by decide) rfl rfl (by decide) twoTabs (by decide)

theorem limit_passed : ¬ ∀ (k : State) (p : ContestParticipation) (cp : ContestProblem) (max : ℤ)
    (events : List Event), k.site.participations.get? p.id = some p → k.site.contestProblems.get? cp.id = some cp →
    cp.maxSubmissions = some max → k.pending = [] → (k.site.submitted p.id cp.id : ℤ) ≤ max →
    ((k.run events).site.submitted p.id cp.id : ℤ) ≤ max := by
  intro h
  have htwo := h (beforeAny none) (entry none) onlyOnce 1 twoTabs (by decide) (by decide) rfl rfl (by decide)
  revert htwo
  decide

end State
end CpcJudge.Submissions
