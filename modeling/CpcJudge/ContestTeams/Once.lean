import CpcJudge.ContestTeams.Join

/-!
# One attempt per person

A participation is only created after every member of it has been looked for in the two tables: among the
official participations while the contest runs, among the virtual attempts still going once it has ended. The
contest is locked meanwhile, so what the checks see is still so when the row is written.
-/

namespace CpcJudge.ContestTeams
open Txn Table

variable {s t : Site} {c : Contest} {r : Join} {p q : ContestParticipation} {x : ℕ}

/-- As its user or on its roster. -/
def Site.Member (s : Site) (p : ContestParticipation) (x : ℕ) : Prop :=
  p.user = x ∨ ∃ m ∈ s.teamRoster, m.participation = p.id ∧ m.profile = x

def Site.rosterOf (s : Site) (p : ContestParticipation) : List ContestTeamMember :=
  s.teamRoster.filter (·.participation = p.id)

/-! ## What each part of a join does -/

/-- The members of a new participation: the caller among them, and for a team as many as the contest admits. -/
structure Fits (c : Contest) (actor : ℕ) (team : Option Team) (members : List Profile) : Prop where
  registrant : ∃ m ∈ members, m.id = actor
  size : team.isSome = true → c.teamMinSize ≤ members.length ∧ members.length ≤ c.teamMaxSize

theorem chosenMembers_ok {members chosen : List Profile} {memberIds : Option (List (Option ℕ))} {actor : ℕ}
    (hactor : ∃ m ∈ members, m.id = actor) (h : chosenMembers members memberIds actor s = .ok chosen t) :
    t = s ∧ ∃ m ∈ chosen, m.id = actor := by
  unfold chosenMembers at h
  cases memberIds with
  | none =>
      obtain ⟨rfl, rfl⟩ := pure_ok.mp h
      exact ⟨rfl, hactor⟩
  | some values =>
      simp only [bind_ok, refuseIf_ok, pure_ok] at h
      obtain ⟨_, _, ⟨-, rfl⟩, _, _, ⟨-, rfl⟩, _, _, ⟨hwanted, rfl⟩, rfl, rfl⟩ := h
      obtain ⟨m, hm, rfl⟩ := hactor
      exact ⟨rfl, m, List.mem_filter.mpr ⟨hm, by simpa using hwanted⟩, rfl⟩

theorem selectTeam_ok {pk : Option ℕ} {selected : Selected} {actor : Profile} (hactor : actor ∈ s.profiles.rows)
    (hid : actor.id = r.actor) (h : selectTeam c r pk s = .ok selected t) :
    t = s ∧ (selected.existing = none → Fits c r.actor selected.team selected.members) := by
  simp only [selectTeam, bind_ok, get_ok, orRefuse_ok, refuseIf_ok] at h
  obtain ⟨_, _, ⟨rfl, rfl⟩, team, _, ⟨hteam, rfl⟩, _, _, ⟨-, rfl⟩, _, _, ⟨-, rfl⟩, _, _, ⟨-, rfl⟩, _, _,
    ⟨-, rfl⟩, h⟩ := h
  have hmember : r.actor ∈ team.members := by
    have := Option.filter_eq_some_iff.mp hteam
    simpa using (Bool.and_eq_true_iff.mp this.2).2
  rcases ite_ok.mp h with ⟨hexisting, h⟩ | ⟨-, h⟩
  · obtain ⟨rfl, rfl⟩ := pure_ok.mp h
    refine ⟨rfl, fun hnone => ?_⟩
    dsimp only at hnone
    rw [hnone] at hexisting
    cases hexisting
  · simp only [bind_ok, refuseIf_ok, pure_ok] at h
    obtain ⟨chosen, _, hchosen, _, _, ⟨hsize, rfl⟩, rfl, rfl⟩ := h
    obtain ⟨rfl, hincluded⟩ := chosenMembers_ok ⟨actor, by simp [hactor, hid, hmember], hid⟩ hchosen
    exact ⟨rfl, fun _ => ⟨hincluded, fun _ => not_not.mp hsize⟩⟩

theorem selectIndividual_ok {selected : Selected} {actor : Profile} (hid : actor.id = r.actor)
    (h : selectIndividual c r actor s = .ok selected t) :
    t = s ∧ (selected.existing = none → Fits c r.actor selected.team selected.members) := by
  simp only [selectIndividual, bind_ok, get_ok, refuseIf_ok, pure_ok] at h
  obtain ⟨_, _, ⟨-, rfl⟩, _, _, ⟨rfl, rfl⟩, _, _, ⟨-, rfl⟩, rfl, rfl⟩ := h
  exact ⟨rfl, fun _ => ⟨⟨actor, List.mem_singleton_self _, hid⟩, fun hsome => by cases hsome⟩⟩

/-- Nothing keeps this profile from a new participation: no official one while the contest runs, no attempt still
going after it. -/
def Free (s : Site) (c : Contest) (now x : ℕ) : Prop :=
  if c.ended now then ∀ p ∈ s.forProfile c.id x, 1 ≤ p.virtual → p.endTime c < now
  else ∀ p ∈ s.forProfile c.id x, p.virtual ≠ 0

theorem activeAttempt_eq_none {now : ℕ} (h : s.activeAttempt c x now = none) :
    ∀ p ∈ s.forProfile c.id x, 1 ≤ p.virtual → p.endTime c < now := by
  intro p hp hvirtual
  have hall := List.find?_eq_none.mp h p ((List.perm_insertionSort _ _).mem_iff.mpr
    (List.mem_filter.mpr ⟨hp, by simpa using hvirtual⟩))
  simpa [ContestParticipation.ended] using hall

/-- The loop over the members: it ends with nothing to return to only if every one of them is free. -/
theorem checkMembers_ok {team : Option Team} {members : List Profile} {existing found : Option ContestParticipation}
    (h : checkMembers c r team members existing s = .ok found t) :
    t = s ∧ (found = none → existing = none ∧ ∀ m ∈ members, Free s c r.now m.id) := by
  induction members generalizing existing with
  | nil =>
      obtain ⟨rfl, rfl⟩ := pure_ok.mp h
      exact ⟨rfl, fun hnone => ⟨hnone, by simp⟩⟩
  | cons member members ih =>
      unfold checkMembers at h
      cases hblocker : memberBlocker c r member with
      | some blocker =>
          rw [hblocker] at h
          exact (throw_ok.mp h).elim
      | none => ?_
      simp only [hblocker, bind_ok, get_ok, refuseIf_ok] at h
      obtain ⟨_, _, ⟨rfl, rfl⟩, _, _, ⟨hofficial, rfl⟩, h⟩ := h
      generalize hactive : (if c.ended r.now = true then _ else _) = active at h
      cases active with
      | none =>
          obtain ⟨rfl, hrest⟩ := ih h
          refine ⟨rfl, fun hnone => ⟨(hrest hnone).1, ?_⟩⟩
          rw [List.forall_mem_cons]
          refine ⟨?_, (hrest hnone).2⟩
          unfold Free
          by_cases hended : c.ended r.now = true
          · rw [if_pos hended] at hactive ⊢
            exact activeAttempt_eq_none hactive
          · rw [if_neg hended]
            simpa [hended] using hofficial
      | some active =>
          rcases ite_ok.mp h with ⟨-, h⟩ | ⟨-, h⟩
          · obtain ⟨rfl, hrest⟩ := ih h
            exact ⟨rfl, fun hnone => by cases (hrest hnone).1⟩
          · exact (throw_ok.mp h).elim

/-- The tables a join leaves: as they were, with an observer, or with a participation whose members were free. -/
inductive Opened (s : Site) (c : Contest) (r : Join) : Site → Prop
  | nothing : Opened s c r s
  | watching : Opened s c r (s.insert (newParticipation s c r none (-1)) [])
  | entering (team : Option Team) (members : List Profile) (fits : Fits c r.actor team members)
      (free : ∀ m ∈ members, Free s c r.now m.id) :
      Opened s c r (s.insert (newParticipation s c r team (attemptNumber s c r.now)) members)

theorem create_ok {team : Option Team} {members : List Profile} {virtual : ℤ}
    (h : create c r team members virtual s = .ok p t) :
    t = s.insert (newParticipation s c r team virtual) members := by
  simp only [create, bind_ok, get_ok, set_ok, pure_ok] at h
  obtain ⟨_, _, ⟨rfl, rfl⟩, _, _, rfl, -, rfl⟩ := h
  rfl

theorem resume_ok {existing : Option ContestParticipation} (h : resume c r s = .ok existing t) : t = s := by
  unfold resume at h
  cases hselection : r.selection with
  | entry pk =>
      simp only [hselection, bind_ok, get_ok, orRefuse_ok, refuseIf_ok, pure_ok] at h
      obtain ⟨_, _, ⟨rfl, rfl⟩, _, _, ⟨-, rfl⟩, _, _, ⟨-, rfl⟩, -, rfl⟩ := h
      rfl
  | _ =>
      rw [hselection] at h
      exact (pure_ok.mp h).2

theorem spectate_ok (h : spectate c r s = .ok p t) : Opened s c r t := by
  simp only [spectate, bind_ok, get_ok, refuseIf_ok] at h
  obtain ⟨_, _, ⟨-, rfl⟩, _, _, ⟨rfl, rfl⟩, h⟩ := h
  generalize List.find? _ _ = watching at h
  cases watching with
  | some existing =>
      obtain ⟨-, rfl⟩ := pure_ok.mp h
      exact .nothing
  | none =>
      simp only [bind_ok, requireAccessCode, refuseIf_ok] at h
      obtain ⟨_, _, ⟨-, rfl⟩, h⟩ := h
      rw [create_ok h]
      exact .watching

theorem select_ok {actor : Profile} {selected : Selected} (hactor : actor ∈ s.profiles.rows) (hid : actor.id = r.actor)
    (h : select c r actor s = .ok selected t) :
    t = s ∧ (selected.existing = none → Fits c r.actor selected.team selected.members) := by
  unfold select at h
  cases hselection : r.selection with
  | team pk =>
      rw [hselection] at h
      exact selectTeam_ok hactor hid h
  | individual =>
      rw [hselection] at h
      exact selectIndividual_ok hid h
  | _ =>
      rw [hselection] at h
      exact (throw_ok.mp h).elim

theorem register_ok {actor : Profile} (hactor : actor ∈ s.profiles.rows) (hid : actor.id = r.actor)
    (h : register c r actor s = .ok p t) : Opened s c r t := by
  simp only [register, bind_ok] at h
  obtain ⟨selected, _, hselected, h⟩ := h
  obtain ⟨rfl, hfits⟩ := select_ok hactor hid hselected
  cases hexisting : selected.existing with
  | some existing =>
      rw [hexisting] at h
      obtain ⟨-, rfl⟩ := pure_ok.mp h
      exact .nothing
  | none =>
      simp only [hexisting, bind_ok, requireAccessCode, refuseIf_ok] at h
      obtain ⟨_, _, ⟨-, rfl⟩, found, _, hfound, h⟩ := h
      obtain ⟨rfl, hfree⟩ := checkMembers_ok hfound
      cases found with
      | some existing =>
          obtain ⟨-, rfl⟩ := pure_ok.mp h
          exact .nothing
      | none =>
          simp only [bind_ok, get_ok] at h
          obtain ⟨_, _, ⟨rfl, rfl⟩, h⟩ := h
          rw [create_ok h]
          exact .entering selected.team selected.members (hfits hexisting) (hfree rfl).2

theorem enter_ok {actor : Profile} {spectator : Bool} (hactor : actor ∈ s.profiles.rows) (hid : actor.id = r.actor)
    (h : enter c r actor spectator s = .ok p t) : Opened s c r t := by
  simp only [enter, bind_ok] at h
  obtain ⟨resumed, _, hresumed, h⟩ := h
  obtain rfl := resume_ok hresumed
  cases resumed with
  | some existing =>
      obtain ⟨-, rfl⟩ := pure_ok.mp h
      exact .nothing
  | none =>
      rcases ite_ok.mp h with ⟨-, h⟩ | ⟨-, h⟩
      · exact spectate_ok h
      · exact register_ok hactor hid h

/-- **A join that is not refused** opens one participation at most. -/
theorem joinAttempt_ok (h : joinAttempt r s = .ok p t) : ∃ c, s.contests.get? r.contest = some c ∧
    ∃ u currentContest, Opened s c r u ∧ t = { u with currentContest := currentContest, now := r.realStart } := by
  simp only [joinAttempt, bind_ok, get_ok, orRefuse_ok, refuseIf_ok, modify_ok, pure_ok] at h
  obtain ⟨_, _, ⟨rfl, rfl⟩, c, _, ⟨hc, rfl⟩, actor, _, ⟨hactor, rfl⟩, _, _, ⟨-, rfl⟩, _, _, ⟨-, rfl⟩,
    _, _, ⟨-, rfl⟩, _, _, ⟨-, rfl⟩, existing, u, hentered, _, _, ⟨-, rfl⟩, _, _, rfl, -, rfl⟩ := h
  exact ⟨c, hc, _, _, enter_ok (mem_of_get? hactor) (key_of_get? hactor) hentered, rfl⟩

/-! ## The invariant -/

/-- Nobody is in two official participations of a contest, nor in two attempts that are still going; and a roster
has as many members as the contest admits, with whoever registered it. -/
structure OneAttempt (s : Site) : Prop where
  official : ∀ p ∈ s.participations.rows, ∀ q ∈ s.participations.rows, ∀ x, p.contest = q.contest →
    p.virtual = 0 → q.virtual = 0 → s.Member p x → s.Member q x → p = q
  going : ∀ now ≥ s.now, ∀ c ∈ s.contests.rows, ∀ p ∈ s.participations.rows, ∀ q ∈ s.participations.rows, ∀ x,
    p.contest = c.id → q.contest = c.id → 1 ≤ p.virtual → 1 ≤ q.virtual →
    p.ended c now = false → q.ended c now = false → s.Member p x → s.Member q x → p = q
  size : ∀ c ∈ s.contests.rows, ∀ p ∈ s.participations.rows, p.contest = c.id → p.team.isSome = true →
    c.teamMinSize ≤ (s.rosterOf p).length ∧ (s.rosterOf p).length ≤ c.teamMaxSize
  registrant : ∀ p ∈ s.participations.rows, p.team.isSome = true → ∃ m ∈ s.rosterOf p, m.profile = p.user

/-- And every key is one that has been given out. -/
structure Sound (s : Site) : Prop extends OneAttempt s where
  below : ∀ p ∈ s.participations.rows, p.id < s.nextId
  rosterBelow : ∀ m ∈ s.teamRoster, m.participation < s.nextId

theorem mem_entriesOf : p.id ∈ s.entriesOf x ↔ ∃ m ∈ s.teamRoster, m.participation = p.id ∧ m.profile = x := by
  simp only [Site.entriesOf, List.mem_map, List.mem_filter, decide_eq_true_eq]
  exact exists_congr fun m => ⟨fun h => ⟨h.1.1, h.2, h.1.2⟩, fun h => ⟨⟨h.1, h.2.2⟩, h.2.1⟩⟩

/-- `for_profile` finds everybody's participations, whoever registered them. -/
theorem Sound.mem_forProfile (h : Sound s) (hp : p ∈ s.participations.rows) {contest : ℕ}
    (hcontest : p.contest = contest) (hx : s.Member p x) : p ∈ s.forProfile contest x := by
  refine List.mem_filter.mpr ⟨hp, ?_⟩
  simp only [hcontest, decide_true, Bool.true_and, Bool.or_eq_true, Bool.and_eq_true, decide_eq_true_eq]
  rcases hx with rfl | hroster
  · cases hteam : p.team with
    | none => exact .inl ⟨rfl, rfl⟩
    | some team =>
        obtain ⟨m, hm, huser⟩ := h.registrant p hp (by simp [hteam])
        obtain ⟨hm, hof⟩ := List.mem_filter.mp hm
        exact .inr (mem_entriesOf.mpr ⟨m, hm, by simpa using hof, huser⟩)
  · exact .inr (mem_entriesOf.mpr hroster)

/-- Time and the rest of the site go by. -/
theorem Sound.later (h : Sound s) {profiles : Table Profile} {teams : Table Team} {currentContest : List (ℕ × ℕ)}
    {now : ℕ} (hnow : s.now ≤ now) :
    Sound { s with profiles := profiles, teams := teams, currentContest := currentContest, now := now } where
  official := h.official
  going now' hnow' := h.going now' (hnow.trans hnow')
  size := h.size
  registrant := h.registrant
  below := h.below
  rosterBelow := h.rosterBelow

section Insert

variable {members : List Profile}

theorem Sound.mem_insert (h : Sound s) (hid : p.id = s.nextId) :
    q ∈ (s.insert p members).participations.rows ↔ q ∈ s.participations.rows ∨ q = p := by
  have hnew : s.participations.get? p.id = none :=
    get?_eq_none_iff.mpr fun q hq => hid ▸ (h.below q hq).ne
  simp [Site.insert, rows_add hnew]

theorem mem_roster_insert {m : ContestTeamMember} (hm : m ∈ (s.insert p members).teamRoster) :
    m ∈ s.teamRoster ∨ (p.team.isSome = true ∧ m.participation = p.id ∧ ∃ x ∈ members, x.id = m.profile) := by
  rcases List.mem_append.mp hm with hm | hm
  · exact .inl hm
  · split at hm
    · next hteam =>
      obtain ⟨x, hx, rfl⟩ := List.mem_map.mp hm
      exact .inr ⟨hteam, rfl, x, hx, rfl⟩
    · cases hm

/-- The others have the members they had. -/
theorem Sound.member_insert (h : Sound s) (hid : p.id = s.nextId) (hq : q ∈ s.participations.rows)
    (hx : (s.insert p members).Member q x) : s.Member q x := by
  rcases hx with hx | ⟨m, hm, hof, hx⟩
  · exact .inl hx
  · rcases mem_roster_insert hm with hm | ⟨-, hnew, -⟩
    · exact .inr ⟨m, hm, hof, hx⟩
    · exact absurd (hof.symm.trans (hnew.trans hid)) (h.below q hq).ne

/-- The members of the new one are those it was opened for. -/
theorem Sound.member_new (h : Sound s) (hid : p.id = s.nextId) (hregistrant : ∃ m ∈ members, m.id = p.user)
    (hx : (s.insert p members).Member p x) : ∃ m ∈ members, m.id = x := by
  rcases hx with rfl | ⟨m, hm, hof, rfl⟩
  · exact hregistrant
  · rcases mem_roster_insert hm with hm | ⟨-, -, hnew⟩
    · exact absurd (hof.trans hid) (h.rosterBelow m hm).ne
    · exact hnew

theorem Sound.rosterOf_insert (h : Sound s) (hid : p.id = s.nextId) (hq : q ∈ s.participations.rows) :
    (s.insert p members).rosterOf q = s.rosterOf q := by
  have hne : p.id ≠ q.id := fun heq => (h.below q hq).ne (heq.symm.trans hid)
  simp only [Site.rosterOf, Site.insert, List.filter_append]
  rw [List.append_right_eq_self.mpr]
  split
  · simp [List.filter_map, hne]
  · rfl

theorem Sound.rosterOf_new (h : Sound s) (hid : p.id = s.nextId) (hteam : p.team.isSome = true) :
    (s.insert p members).rosterOf p = members.map fun m => ⟨p.id, m.id, m.username⟩ := by
  have hnone : s.teamRoster.filter (·.participation = p.id) = [] := by
    refine List.filter_eq_nil_iff.mpr fun m hm => ?_
    simpa using fun heq : m.participation = p.id => (h.rosterBelow m hm).ne (heq.trans hid)
  simp only [Site.rosterOf, Site.insert, List.filter_append, hnone, hteam, if_true, List.nil_append]
  refine List.filter_eq_self.mpr fun m hm => ?_
  obtain ⟨x, -, rfl⟩ := List.mem_map.mp hm
  exact decide_eq_true rfl

end Insert

/-! ## Every join -/

/-- A participation none of whose members is in the way of. -/
theorem Sound.insert {members : List Profile} {now : ℕ} (h : Sound s) (hid : p.id = s.nextId) (hnow : s.now ≤ now)
    (hofficial : p.virtual = 0 → ∀ q ∈ s.participations.rows, q.contest = p.contest → q.virtual = 0 →
      ∀ x, s.Member q x → ¬ (s.insert p members).Member p x)
    (hgoing : 1 ≤ p.virtual → ∀ c ∈ s.contests.rows, p.contest = c.id → ∀ q ∈ s.participations.rows,
      q.contest = p.contest → 1 ≤ q.virtual → ∀ x, s.Member q x → (s.insert p members).Member p x → q.endTime c < now)
    (hsize : p.team.isSome = true → ∀ c ∈ s.contests.rows, p.contest = c.id →
      c.teamMinSize ≤ members.length ∧ members.length ≤ c.teamMaxSize)
    (hregistrant : p.team.isSome = true → ∃ m ∈ members, m.id = p.user) :
    Sound { s.insert p members with now := now } := by
  have hrow (q : ContestParticipation) (hq : q ∈ (s.insert p members).participations.rows) :
      q ∈ s.participations.rows ∨ q = p := (h.mem_insert hid).mp hq
  refine ⟨⟨fun q hq q' hq' x hsame hlive hlive' hx hx' => ?_, ?_, fun c hc q hq hof hteam => ?_, fun q hq hteam => ?_⟩,
    fun q hq => ?_, fun m hm => ?_⟩
  · rcases hrow q hq with hold | rfl <;> rcases hrow q' hq' with hold' | rfl
    · exact h.official q hold q' hold' x hsame hlive hlive' (h.member_insert hid hold hx)
        (h.member_insert hid hold' hx')
    · exact absurd hx' (hofficial hlive' q hold hsame hlive x (h.member_insert hid hold hx))
    · exact absurd hx (hofficial hlive q' hold' hsame.symm hlive' x (h.member_insert hid hold' hx'))
    · rfl
  · intro now' hnow' c hc q hq q' hq' x hof hof' hvirtual hvirtual' hgo hgo' hx hx'
    rcases hrow q hq with hold | rfl <;> rcases hrow q' hq' with hold' | rfl
    · exact h.going now' (hnow.trans hnow') c hc q hold q' hold' x hof hof' hvirtual hvirtual' hgo hgo'
        (h.member_insert hid hold hx) (h.member_insert hid hold' hx')
    · have hover := hgoing hvirtual' c hc hof' q hold (hof.trans hof'.symm) hvirtual x (h.member_insert hid hold hx) hx'
      exact absurd (hover.trans_le hnow') (by simpa [ContestParticipation.ended] using hgo)
    · have hover := hgoing hvirtual c hc hof q' hold' (hof'.trans hof.symm) hvirtual' x
        (h.member_insert hid hold' hx') hx
      exact absurd (hover.trans_le hnow') (by simpa [ContestParticipation.ended] using hgo')
    · rfl
  · rcases hrow q hq with hq | rfl
    · rw [show ({ s.insert p members with now := now } : Site).rosterOf q = s.rosterOf q from h.rosterOf_insert hid hq]
      exact h.size c hc q hq hof hteam
    · rw [show ({ s.insert q members with now := now } : Site).rosterOf q = _ from h.rosterOf_new hid hteam,
        List.length_map]
      exact hsize hteam c hc hof
  · rcases hrow q hq with hq | rfl
    · rw [show ({ s.insert p members with now := now } : Site).rosterOf q = s.rosterOf q from h.rosterOf_insert hid hq]
      exact h.registrant q hq hteam
    · obtain ⟨m, hm, huser⟩ := hregistrant hteam
      rw [show ({ s.insert q members with now := now } : Site).rosterOf q = _ from h.rosterOf_new hid hteam]
      exact ⟨_, List.mem_map_of_mem hm, huser⟩
  · rcases hrow q hq with hq | rfl
    · exact (h.below q hq).trans (Nat.lt_succ_self _)
    · exact hid ▸ Nat.lt_succ_self _
  · rcases mem_roster_insert hm with hm | ⟨-, hof, -⟩
    · exact (h.rosterBelow m hm).trans (Nat.lt_succ_self _)
    · exact hof ▸ hid ▸ Nat.lt_succ_self _

theorem Sound.watching (h : Sound s) (hnow : s.now ≤ r.now) :
    Sound { s.insert (newParticipation s c r none (-1)) [] with now := r.realStart } :=
  h.insert rfl (hnow.trans r.later) (fun hlive => by cases hlive) (fun hvirtual => by cases hvirtual)
    (fun hteam => by cases hteam) fun hteam => by cases hteam

theorem attemptNumber_of_ended {now : ℕ} (h : c.ended now = true) : 1 ≤ attemptNumber s c now := by
  rw [attemptNumber, if_pos h]
  exact le_max_left _ _

theorem attemptNumber_of_running {now : ℕ} (h : c.ended now = false) : attemptNumber s c now = 0 := by
  rw [attemptNumber, if_neg (by simp [h])]

theorem Sound.entering {team : Option Team} {members : List Profile} (h : Sound s) (hnow : s.now ≤ r.now)
    (hc : c ∈ s.contests.rows) (fits : Fits c r.actor team members) (free : ∀ m ∈ members, Free s c r.now m.id) :
    Sound { s.insert (newParticipation s c r team (attemptNumber s c r.now)) members with now := r.realStart } := by
  refine h.insert rfl (hnow.trans r.later) (fun hlive q hq hof hlive' x hx hnew => ?_)
    (fun hvirtual d hd hid q hq hof hvirtual' x hx hnew => ?_) (fun hteam d hd hid => ?_) fun _ => fits.registrant
  · obtain ⟨m, hm, rfl⟩ := h.member_new rfl fits.registrant hnew
    have hrunning : c.ended r.now = false := by
      refine Bool.eq_false_iff.mpr fun hended => ?_
      have hone := attemptNumber_of_ended (s := s) hended
      rw [show attemptNumber s c r.now = 0 from hlive] at hone
      exact absurd hone (by decide)
    have hfree := free m hm
    rw [Free, if_neg (by simp [hrunning])] at hfree
    exact hfree q (h.mem_forProfile hq hof hx) hlive'
  · obtain ⟨m, hm, rfl⟩ := h.member_new rfl fits.registrant hnew
    obtain rfl : c = d := eq_of_key hc hd hid
    have hended : c.ended r.now = true := by
      refine (Bool.eq_false_or_eq_true _).resolve_right fun hrunning => ?_
      rw [show (newParticipation s c r team (attemptNumber s c r.now)).virtual = 0 from
        attemptNumber_of_running hrunning] at hvirtual
      exact absurd hvirtual (by decide)
    have hfree := free m hm
    rw [Free, if_pos hended] at hfree
    exact (hfree q (h.mem_forProfile hq hof hx) hvirtual').trans_le r.later
  · obtain rfl : c = d := eq_of_key hc hd hid
    exact fits.size (by simpa [newParticipation] using hteam)

theorem Sound.step (h : Sound s) (e : Event) : Sound (s.step e) := by
  cases e with
  | elsewhere profiles teams now => exact h.later (le_max_left _ _)
  | join r =>
      unfold Site.step
      dsimp only
      split
      · exact h
      · next hlate =>
        have hnow : s.now ≤ r.now := not_lt.mp hlate
        split
        · next hjoin =>
          obtain ⟨c, hc, u, currentContest, hopened, rfl⟩ := joinAttempt_ok hjoin
          cases hopened with
          | nothing => exact h.later (hnow.trans r.later)
          | watching => exact (h.watching hnow).later le_rfl
          | entering team members fits free =>
              exact (h.entering hnow (mem_of_get? hc) fits free).later le_rfl
        · exact h

theorem initial_sound (contests : Table Contest) : Sound (.initial contests) := by
  have hnone (p : ContestParticipation) : p ∉ (Site.initial contests).participations.rows := List.not_mem_nil
  exact ⟨⟨fun p hp => absurd hp (hnone p), fun _ _ _ _ p hp => absurd hp (hnone p),
    fun _ _ p hp => absurd hp (hnone p), fun p hp => absurd hp (hnone p)⟩, fun p hp => absurd hp (hnone p),
    fun m hm => absurd hm List.not_mem_nil⟩

/-- **One attempt per person**, after any sequence of joins of any contests. -/
theorem one_attempt (contests : Table Contest) (events : List Event) :
    OneAttempt ((Site.initial contests).run events) := by
  suffices hall : ∀ s : Site, Sound s → Sound (s.run events) from (hall _ (initial_sound contests)).toOneAttempt
  induction events with
  | nil => exact fun s h => h
  | cons e events ih => exact fun s h => ih (s.step e) (h.step e)

/-- A contest for teams of two and for individuals. -/
def pairs : Contest where
  id := 1
  startTime := 0
  endTime := 100
  timeLimit := none
  arenaGame := false
  editorIds := []
  testerIds := []
  bannedUsers := []
  accessCode := ""
  participationMode := .both
  isPrivate := false
  privateTeams := []
  limitJoinOrganizations := false
  teamMinSize := 2
  teamMaxSize := 2

/-- A join with every permission. -/
def joins (actor : ℕ) (selection : Selection) : Join where
  contest := 1
  actor := actor
  selection := selection
  accessCode := ""
  memberIds := none
  now := 10
  realStart := 10
  later := le_rfl
  isAccessible := true
  isEditable := false
  isSpectatable := true
  inJoinOrganizations := true
  teamsEnabled := true

/-- The teammate of whoever registered the team is turned away alone, and enters with the team. -/
example : ((Site.initial (Table.empty.add pairs)).run
    [.elsewhere ((Table.empty.add ⟨3, "a", true, false⟩).add ⟨4, "b", true, false⟩)
      (Table.empty.add ⟨5, "t", true, [3, 4]⟩) 10,
      .join (joins 3 (.team (some 5))), .join (joins 4 .individual), .join (joins 4 (.team (some 5)))]).currentContest =
    [(4, 1), (3, 1)] := by decide +kernel

end CpcJudge.ContestTeams
