import CpcJudge.Teams.Services

/-!
# Members, owners and invitations

What the three tables of teams say together, whatever the order of the mutations. An invitation that is pending is to
somebody outside the team, of which it is the only one; that is why accepting it always inserts a member, and why the
two refusals of `invite_member` are enough.
-/

namespace CpcJudge.Teams
open Txn Table

variable {db t : Db} {site : Site}

def Db.IsMember (db : Db) (team profile : ℕ) : Prop := ⟨team, profile⟩ ∈ db.memberships

/-- What the tables say of a team, its members and the invitations to it. -/
structure Consistent (db : Db) : Prop where
  owner : ∀ team ∈ db.teams.rows, team.isActive = true → db.IsMember team.id team.owner
  retired : ∀ team ∈ db.teams.rows, team.isActive = false → ∀ profile, ¬ db.IsMember team.id profile
  quiet : ∀ team ∈ db.teams.rows, team.isActive = false →
    ∀ i ∈ db.invitations.rows, i.team = team.id → i.status ≠ .pending
  once : ∀ i ∈ db.invitations.rows, ∀ j ∈ db.invitations.rows, i.status = .pending → j.status = .pending →
    i.team = j.team → i.recipient = j.recipient → i = j
  outside : ∀ i ∈ db.invitations.rows, i.status = .pending → ¬ db.IsMember i.team i.recipient

/-- No row refers to a team that is not there yet. -/
structure Sound (db : Db) : Prop extends Consistent db where
  teamsBelow : ∀ team ∈ db.teams.rows, team.id < db.nextTeam
  membersBelow : ∀ m ∈ db.memberships, m.team < db.nextTeam
  invitationsBelow : ∀ i ∈ db.invitations.rows, i.id < db.nextInvitation ∧ i.team < db.nextTeam

/-! ## One write at a time -/

theorem Sound.insertTeam (h : Sound db) {team : Team} (hid : team.id = db.nextTeam) (hactive : team.isActive = true) :
    Sound (db.insertTeam team) := by
  have hmember : ∀ {id profile : ℕ}, (db.insertTeam team).IsMember id profile →
      db.IsMember id profile ∨ id = db.nextTeam := by
    intro id profile hm
    rcases List.mem_append.mp hm with hm | hm
    · exact .inl hm
    · obtain ⟨rfl, -⟩ := (TeamMembership.mk.injEq ..).mp (List.mem_singleton.mp hm)
      exact .inr hid
  refine { owner := ?_, retired := ?_, quiet := ?_, once := h.once, outside := ?_, teamsBelow := ?_,
           membersBelow := ?_, invitationsBelow := ?_ }
  · intro other hother ha
    rcases mem_add hother with rfl | hother
    · exact List.mem_append_right _ (List.mem_singleton_self _)
    · exact List.mem_append_left _ (h.owner other hother ha)
  · intro other hother ha profile hm
    rcases mem_add hother with rfl | hother
    · exact absurd (hactive.symm.trans ha) (by decide)
    · rcases hmember hm with hm | heq
      · exact h.retired other hother ha profile hm
      · exact absurd (h.teamsBelow other hother) (by omega)
  · intro other hother ha
    rcases mem_add hother with rfl | hother
    · exact absurd (hactive.symm.trans ha) (by decide)
    · exact h.quiet other hother ha
  · intro i hi hpending hm
    rcases hmember hm with hm | heq
    · exact h.outside i hi hpending hm
    · exact absurd (h.invitationsBelow i hi).2 (by omega)
  · intro other hother
    rcases mem_add hother with rfl | hother
    · exact hid ▸ Nat.lt_succ_self _
    · exact Nat.lt_succ_of_lt (h.teamsBelow other hother)
  · intro m hm
    rcases List.mem_append.mp hm with hm | hm
    · exact Nat.lt_succ_of_lt (h.membersBelow m hm)
    · rw [List.mem_singleton.mp hm]
      exact hid ▸ Nat.lt_succ_self _
  · intro i hi
    exact ⟨(h.invitationsBelow i hi).1, Nat.lt_succ_of_lt (h.invitationsBelow i hi).2⟩

theorem Sound.insertInvitation (h : Sound db) {team : Team} {i : TeamInvitation} (hid : i.id = db.nextInvitation)
    (hteam : team ∈ db.teams.rows) (hactive : team.isActive = true) (hof : i.team = team.id)
    (hmember : ¬ db.IsMember i.team i.recipient)
    (hnone : ∀ j ∈ db.invitations.rows, j.team = i.team → j.recipient = i.recipient → j.status ≠ .pending) :
    Sound (db.insertInvitation i) := by
  refine { owner := h.owner, retired := h.retired, quiet := ?_, once := ?_, outside := ?_,
           teamsBelow := h.teamsBelow, membersBelow := h.membersBelow, invitationsBelow := ?_ }
  · intro other hother ha j hj hjof
    rcases mem_add hj with rfl | hj
    · have hsame : other = team := eq_of_key hother hteam (hjof.symm.trans hof)
      exact absurd (hactive.symm.trans (hsame ▸ ha)) (by decide)
    · exact h.quiet other hother ha j hj hjof
  · intro j hj k hk hjpending hkpending hsame hrecipient
    rcases mem_add hj with rfl | hjold <;> rcases mem_add hk with rfl | hkold
    · rfl
    · exact absurd hkpending (hnone k hkold hsame.symm hrecipient.symm)
    · exact absurd hjpending (hnone j hjold hsame hrecipient)
    · exact h.once j hjold k hkold hjpending hkpending hsame hrecipient
  · intro j hj hpending
    rcases mem_add hj with rfl | hj
    · exact hmember
    · exact h.outside j hj hpending
  · intro j hj
    rcases mem_add hj with rfl | hj
    · exact ⟨hid ▸ Nat.lt_succ_self _, hof ▸ h.teamsBelow team hteam⟩
    · exact ⟨Nat.lt_succ_of_lt (h.invitationsBelow j hj).1, (h.invitationsBelow j hj).2⟩

/-- An invitation that is no longer pending asks for less. -/
theorem Sound.closed (h : Sound db) {i : TeamInvitation} (answered : TeamInvitation) (hi : i ∈ db.invitations.rows)
    (hid : answered.id = i.id) (hteam : answered.team = i.team) (hstatus : answered.status ≠ .pending) :
    Sound { db with invitations := db.invitations.put answered } := by
  refine { owner := h.owner, retired := h.retired, quiet := ?_, once := ?_, outside := ?_,
           teamsBelow := h.teamsBelow, membersBelow := h.membersBelow, invitationsBelow := ?_ }
  · intro other hother ha j hj
    rcases mem_put hj with rfl | ⟨hj, -⟩
    · exact fun _ => hstatus
    · exact h.quiet other hother ha j hj
  · intro j hj k hk hjpending hkpending
    rcases mem_put hj with rfl | ⟨hj, -⟩
    · exact absurd hjpending hstatus
    · rcases mem_put hk with rfl | ⟨hk, -⟩
      · exact absurd hkpending hstatus
      · exact h.once j hj k hk hjpending hkpending
  · intro j hj hpending
    rcases mem_put hj with rfl | ⟨hj, -⟩
    · exact absurd hpending hstatus
    · exact h.outside j hj hpending
  · intro j hj
    rcases mem_put hj with rfl | ⟨hj, -⟩
    · rw [hid, hteam]
      exact h.invitationsBelow i hi
    · exact h.invitationsBelow j hj

/-- A member enters an active team with the invitation that asked for it, now closed. -/
theorem Sound.accepted (h : Sound db) {team : Team} {i : TeamInvitation} (answered : TeamInvitation)
    (hteam : team ∈ db.teams.rows) (hactive : team.isActive = true) (hi : i ∈ db.invitations.rows) (hpending : i.status = .pending)
    (hof : i.team = team.id) (hid : answered.id = i.id) (hsame : answered.team = i.team)
    (hstatus : answered.status ≠ .pending) :
    Sound { db.getOrCreateMembership team.id i.recipient with
      invitations := (db.getOrCreateMembership team.id i.recipient).invitations.put answered } := by
  have hnew : db.getOrCreateMembership team.id i.recipient =
      { db with memberships := db.memberships ++ [⟨team.id, i.recipient⟩] } := if_neg (hof ▸ h.outside i hi hpending)
  have hclosed := h.closed answered hi hid hsame hstatus
  rw [hnew]
  refine { owner := ?_, retired := ?_, quiet := hclosed.quiet, once := hclosed.once, outside := ?_,
           teamsBelow := h.teamsBelow, membersBelow := ?_, invitationsBelow := hclosed.invitationsBelow }
  · intro other hother ha
    exact List.mem_append_left _ (h.owner other hother ha)
  · intro other hother ha profile hm
    rcases List.mem_append.mp hm with hm | hm
    · exact h.retired other hother ha profile hm
    · obtain ⟨heq, -⟩ := (TeamMembership.mk.injEq ..).mp (List.mem_singleton.mp hm)
      have hsame : other = team := eq_of_key hother hteam heq
      exact absurd (hactive.symm.trans (hsame ▸ ha)) (by decide)
  · intro j hj hjpending hm
    rcases List.mem_append.mp hm with hm | hm
    · exact hclosed.outside j hj hjpending hm
    · obtain ⟨heq, hrecipient⟩ := (TeamMembership.mk.injEq ..).mp (List.mem_singleton.mp hm)
      rcases mem_put hj with rfl | ⟨hj, hne⟩
      · exact hstatus hjpending
      · have hsame : j = i := h.once j hj i hi hjpending hpending (heq.trans hof.symm) hrecipient
        exact hne (hsame ▸ hid.symm)
  · intro m hm
    rcases List.mem_append.mp hm with hm | hm
    · exact h.membersBelow m hm
    · rw [List.mem_singleton.mp hm]
      exact h.teamsBelow team hteam

/-- Somebody other than the owner leaves. -/
theorem Sound.without (h : Sound db) {team : Team} {profile : ℕ} (hteam : team ∈ db.teams.rows)
    (hne : profile ≠ team.owner) :
    Sound { db with
      memberships := db.memberships.filter fun m => !(m.team = team.id && m.profile = profile) } := by
  refine { owner := ?_, retired := ?_, quiet := h.quiet, once := h.once, outside := ?_,
           teamsBelow := h.teamsBelow, membersBelow := ?_, invitationsBelow := h.invitationsBelow }
  · intro other hother ha
    refine List.mem_filter.mpr ⟨h.owner other hother ha, ?_⟩
    by_cases heq : other.id = team.id
    · have hsame : other = team := eq_of_key hother hteam heq
      simpa [hsame] using hne.symm
    · simp [heq]
  · exact fun other hother ha profile hm => h.retired other hother ha profile (List.mem_filter.mp hm).1
  · exact fun i hi hpending hm => h.outside i hi hpending (List.mem_filter.mp hm).1
  · exact fun m hm => h.membersBelow m (List.mem_filter.mp hm).1

/-- A member becomes the owner. -/
theorem Sound.owned (h : Sound db) {team : Team} {profile : ℕ} (hteam : team ∈ db.teams.rows)
    (hmember : db.IsMember team.id profile) (hactive : team.isActive = true) :
    Sound { db with teams := db.teams.put { team with owner := profile } } := by
  refine { owner := ?_, retired := ?_, quiet := ?_, once := h.once, outside := h.outside,
           teamsBelow := ?_, membersBelow := h.membersBelow, invitationsBelow := h.invitationsBelow }
  · intro other hother ha
    rcases mem_put hother with rfl | ⟨hother, -⟩
    · exact hmember
    · exact h.owner other hother ha
  · intro other hother ha
    rcases mem_put hother with rfl | ⟨hother, -⟩
    · exact absurd (hactive.symm.trans ha) (by decide)
    · exact h.retired other hother ha
  · intro other hother ha
    rcases mem_put hother with rfl | ⟨hother, -⟩
    · exact absurd (hactive.symm.trans ha) (by decide)
    · exact h.quiet other hother ha
  · intro other hother
    rcases mem_put hother with rfl | ⟨hother, -⟩
    · exact h.teamsBelow team hteam
    · exact h.teamsBelow other hother

/-- Nobody is left in a team that is retired, and no invitation to it pending. -/
theorem Sound.retired_now (h : Sound db) {team : Team} (hteam : team ∈ db.teams.rows) (now : ℕ) :
    Sound (db.retire now team) := by
  have hkept : ∀ {i : TeamInvitation}, i ∈ (db.retire now team).invitations.rows → i.status = .pending →
      i ∈ db.invitations.rows ∧ i.team ≠ team.id := by
    intro i hi hpending
    obtain ⟨j, hj, rfl⟩ := List.mem_map.mp hi
    by_cases hclosing : (j.team = team.id && j.status = .pending) = true
    · rw [if_pos hclosing] at hpending
      cases hpending
    · rw [if_neg hclosing] at hpending ⊢
      exact ⟨hj, fun hof => hclosing (by simp [hof, hpending])⟩
  refine { owner := ?_, retired := ?_, quiet := ?_, once := ?_, outside := ?_,
           teamsBelow := ?_, membersBelow := ?_, invitationsBelow := ?_ }
  · intro other hother ha
    rcases mem_put hother with rfl | ⟨hother, hne⟩
    · cases ha
    · have hne : other.id ≠ team.id := hne
      exact List.mem_filter.mpr ⟨h.owner other hother ha, by simpa using hne⟩
  · intro other hother ha profile hm
    obtain ⟨hm, hof⟩ := List.mem_filter.mp hm
    rcases mem_put hother with rfl | ⟨hother, -⟩
    · simp at hof
    · exact h.retired other hother ha profile hm
  · intro other hother ha i hi hof hpending
    obtain ⟨hi, hne⟩ := hkept hi hpending
    rcases mem_put hother with rfl | ⟨hother, -⟩
    · exact hne hof
    · exact h.quiet other hother ha i hi hof hpending
  · intro i hi j hj hipending hjpending
    exact h.once i (hkept hi hipending).1 j (hkept hj hjpending).1 hipending hjpending
  · intro i hi hpending hm
    exact h.outside i (hkept hi hpending).1 hpending (List.mem_filter.mp hm).1
  · intro other hother
    rcases mem_put hother with rfl | ⟨hother, -⟩
    · exact h.teamsBelow team hteam
    · exact h.teamsBelow other hother
  · exact fun m hm => h.membersBelow m (List.mem_filter.mp hm).1
  · intro i hi
    obtain ⟨j, hj, rfl⟩ := List.mem_map.mp hi
    have hj := h.invitationsBelow j hj
    split <;> exact hj

theorem Sound.deleteCascade (h : Sound db) (team : Team) : Sound (db.deleteCascade team) where
  owner other hother ha := by
    obtain ⟨hother, hne⟩ := mem_filter.mp hother
    exact List.mem_filter.mpr ⟨h.owner other hother ha, hne⟩
  retired other hother ha profile hm :=
    h.retired other (mem_filter.mp hother).1 ha profile (List.mem_filter.mp hm).1
  quiet other hother ha i hi := h.quiet other (mem_filter.mp hother).1 ha i (mem_filter.mp hi).1
  once i hi j hj := h.once i (mem_filter.mp hi).1 j (mem_filter.mp hj).1
  outside i hi hpending hm := h.outside i (mem_filter.mp hi).1 hpending (List.mem_filter.mp hm).1
  teamsBelow other hother := h.teamsBelow other (mem_filter.mp hother).1
  membersBelow m hm := h.membersBelow m (List.mem_filter.mp hm).1
  invitationsBelow i hi := h.invitationsBelow i (mem_filter.mp hi).1

/-- Contests are not part of it. -/
theorem Sound.elsewhere (h : Sound db) (contests : Table ContestTeams.Contest)
    (participations : Table ContestTeams.ContestParticipation) (locations : List ContestTeamLocation) :
    Sound { db with contests, participations, locations } :=
  { h with }

@[simp] theorem invitations_getOrCreate (team profile : ℕ) :
    (db.getOrCreateMembership team profile).invitations = db.invitations := by
  unfold Db.getOrCreateMembership
  split <;> rfl

@[simp] theorem nextInvitation_getOrCreate (team profile : ℕ) :
    (db.getOrCreateMembership team profile).nextInvitation = db.nextInvitation := by
  unfold Db.getOrCreateMembership
  split <;> rfl

/-! ## Invitations stay with their team -/

/-- `t` comes after `db`: its invitations are new, or to the team they were to. -/
structure Later (db t : Db) : Prop where
  next : db.nextInvitation ≤ t.nextInvitation
  same : ∀ i ∈ t.invitations.rows, i.id < db.nextInvitation → ∃ j ∈ db.invitations.rows, j.id = i.id ∧ j.team = i.team

namespace Later

theorem of_eq (hrows : t.invitations = db.invitations) (hnext : t.nextInvitation = db.nextInvitation) : Later db t where
  next := hnext.ge
  same i hi _ := ⟨i, hrows ▸ hi, rfl, rfl⟩

theorem insertInvitation {i : TeamInvitation} (hid : i.id = db.nextInvitation) : Later db (db.insertInvitation i) where
  next := Nat.le_succ _
  same j hj hold := by
    rcases mem_add hj with rfl | hj
    · exact absurd hold (by omega)
    · exact ⟨j, hj, rfl, rfl⟩

theorem closed {i : TeamInvitation} (answered : TeamInvitation) (hi : i ∈ db.invitations.rows) (hid : answered.id = i.id)
    (hteam : answered.team = i.team) (hrows : t.invitations = db.invitations.put answered)
    (hnext : t.nextInvitation = db.nextInvitation) : Later db t where
  next := hnext.ge
  same j hj _ := by
    rw [hrows] at hj
    rcases mem_put hj with rfl | ⟨hj, -⟩
    · exact ⟨i, hi, hid.symm, hteam.symm⟩
    · exact ⟨j, hj, rfl, rfl⟩

theorem retire (now : ℕ) (team : Team) : Later db (db.retire now team) where
  next := le_rfl
  same i hi _ := by
    obtain ⟨j, hj, rfl⟩ := List.mem_map.mp hi
    refine ⟨j, hj, ?_⟩
    split <;> exact ⟨rfl, rfl⟩

theorem deleteCascade (team : Team) : Later db (db.deleteCascade team) where
  next := le_rfl
  same i hi _ := ⟨i, (mem_filter.mp hi).1, rfl, rfl⟩

end Later

/-- What a mutation leaves. -/
def Leaves (db t : Db) : Prop := Sound t ∧ Later db t

/-! ## The mutations -/

theorem lockTeam_ok {id : ℕ} {team : Team} :
    lockTeam id db = .ok team t ↔ db.teams.get? id = some team ∧ t = db := by
  simp only [lockTeam, bind_ok, get_ok, orRefuse_ok]
  constructor
  · rintro ⟨_, _, ⟨rfl, rfl⟩, hteam, rfl⟩
    exact ⟨hteam, rfl⟩
  · rintro ⟨hteam, rfl⟩
    exact ⟨_, _, ⟨rfl, rfl⟩, hteam, rfl⟩

theorem requireOwner_ok {team : Team} {actor : ℕ} {u : Unit} :
    requireOwner team actor db = .ok u t ↔ (team.isActive = true ∧ team.owner = actor) ∧ t = db := by
  rw [requireOwner, refuseIf_ok]
  simp

theorem requireIdle_ok {team : Team} {u : Unit} (h : requireIdle site team db = .ok u t) : t = db := by
  simp only [requireIdle, bind_ok, get_ok, refuseIf_ok] at h
  obtain ⟨_, _, ⟨rfl, rfl⟩, -, rfl⟩ := h
  rfl

theorem requireRemover_ok {team : Team} {actor profile : ℕ} {u : Unit}
    (h : requireRemover team actor profile db = .ok u t) : t = db := by
  rcases ite_ok.mp h with ⟨-, h⟩ | ⟨-, h⟩
  · exact (requireOwner_ok.mp h).2
  · exact (pure_ok.mp h).2

/-- Whoever answers without cancelling is the recipient. -/
theorem requireAnswerer_ok {team : Team} {i : TeamInvitation} {actor : ℕ} {action : Action} {u : Unit}
    (h : requireAnswerer team i actor action db = .ok u t) :
    (action = .accept → i.recipient = actor) ∧ t = db := by
  rcases ite_ok.mp h with ⟨hcancel, h⟩ | ⟨-, h⟩
  · exact ⟨fun haccept => absurd (hcancel.symm.trans haccept) (by decide), (requireOwner_ok.mp h).2⟩
  · obtain ⟨hrecipient, rfl⟩ := refuseIf_ok.mp h
    exact ⟨fun _ => not_not.mp fun hne => hrecipient (.inl hne), rfl⟩

theorem createTeam_leaves (h : Sound db) {actor : ℕ} {name : Text} {team : Team}
    (hrun : createTeam site actor name db = .ok team t) : Leaves db t := by
  simp only [createTeam, cleanTeamName, requireTeamsEnabled, lockProfile, bind_ok, refuseIf_ok, orRefuse_ok, get_ok,
    pure_ok, set_ok] at hrun
  obtain ⟨_, _, ⟨-, rfl⟩, _, _, ⟨-, rfl⟩, _, _, ⟨rfl, rfl⟩, _, _, ⟨-, rfl⟩, _, _, ⟨_, _, ⟨-, rfl⟩, rfl, rfl⟩, _, _, rfl,
    -, rfl⟩ := hrun
  exact ⟨h.insertTeam rfl rfl, .of_eq rfl rfl⟩

theorem inviteMember_leaves (h : Sound db) {actor id : ℕ} {username : Text} {i : TeamInvitation}
    (hrun : inviteMember site actor id username db = .ok i t) : Leaves db t := by
  simp only [inviteMember, requireTeamsEnabled, bind_ok, refuseIf_ok, orRefuse_ok, get_ok, pure_ok, set_ok, lockTeam_ok,
    requireOwner_ok] at hrun
  obtain ⟨_, _, ⟨-, rfl⟩, team, _, ⟨hteam, rfl⟩, _, _, ⟨⟨hactive, -⟩, rfl⟩, recipient, _, ⟨-, rfl⟩, _, _, ⟨rfl, rfl⟩, _, _,
    ⟨hmember, rfl⟩, _, _, ⟨hnone, rfl⟩, _, _, ⟨-, rfl⟩, _, _, ⟨-, rfl⟩, _, _, rfl, -, rfl⟩ := hrun
  refine ⟨h.insertInvitation rfl (mem_of_get? hteam) hactive rfl hmember fun j hj hof hrecipient hpending => ?_,
    .insertInvitation rfl⟩
  exact hnone (List.any_eq_true.mpr ⟨j, hj, by simp [hof, hrecipient, hpending]⟩)

/-- An answer that comes late finds its invitation answered, or its team gone. The team it looked up is that of the
invitation, since an invitation does not move. -/
theorem respondLocked_leaves (h : Sound db) {actor invitation id : ℕ} {action : Action} {team : Team}
    (hof : ∀ i, db.invitations.get? invitation = some i → i.team = id)
    (hrun : respondLocked site actor invitation action id db = .ok team t) : Leaves db t := by
  simp only [respondLocked, bind_ok, refuseIf_ok, orRefuse_ok, get_ok, pure_ok, modify_ok] at hrun
  obtain ⟨_, _, ⟨rfl, rfl⟩, found, _, ⟨hteam, rfl⟩, i, _, ⟨hi, rfl⟩, _, _, hanswerer, _, _, ⟨hpending, rfl⟩, _, entered,
    henter, _, _, rfl, -, rfl⟩ := hrun
  obtain ⟨hrecipient, rfl⟩ := requireAnswerer_ok hanswerer
  obtain ⟨hactive, hpending⟩ := not_or.mp hpending
  have hsame : i.team = found.id := (hof i hi).trans (key_of_get? hteam).symm
  have hstatus : action.status ≠ .pending := by cases action <;> decide
  rcases ite_ok.mp henter with ⟨haccept, henter⟩ | ⟨-, henter⟩
  · simp only [requireTeamsEnabled, lockProfile, bind_ok, refuseIf_ok, orRefuse_ok, modify_ok] at henter
    obtain ⟨_, _, ⟨-, rfl⟩, _, _, ⟨-, rfl⟩, rfl⟩ := henter
    rw [← hrecipient haccept]
    constructor
    · exact h.accepted (i.answer action site.now) (mem_of_get? hteam) (by simpa using hactive) (mem_of_get? hi)
        (not_not.mp hpending) hsame rfl rfl hstatus
    · exact .closed (i.answer action site.now) (mem_of_get? hi) rfl rfl
        (congrArg (Table.put · (i.answer action site.now)) (invitations_getOrCreate found.id i.recipient))
        (nextInvitation_getOrCreate ..)
  · obtain ⟨-, rfl⟩ := pure_ok.mp henter
    exact ⟨h.closed (i.answer action site.now) (mem_of_get? hi) rfl rfl hstatus,
      .closed (i.answer action site.now) (mem_of_get? hi) rfl rfl rfl rfl⟩

theorem removeMember_leaves (h : Sound db) {actor id profile : ℕ} {u : Unit}
    (hrun : removeMember site actor id profile db = .ok u t) : Leaves db t := by
  simp only [removeMember, bind_ok, refuseIf_ok, get_ok, set_ok, lockTeam_ok] at hrun
  obtain ⟨team, _, ⟨hteam, rfl⟩, _, _, ⟨-, rfl⟩, _, _, hremover, _, _, hidle, _, _, ⟨howner, rfl⟩, _, _, ⟨rfl, rfl⟩, _, _,
    ⟨-, rfl⟩, rfl⟩ := hrun
  obtain rfl := requireIdle_ok hidle
  obtain rfl := requireRemover_ok hremover
  exact ⟨h.without (mem_of_get? hteam) howner, .of_eq rfl rfl⟩

theorem transferTeam_leaves (h : Sound db) {actor id profile : ℕ} {u : Unit}
    (hrun : transferTeam site actor id profile db = .ok u t) : Leaves db t := by
  simp only [transferTeam, bind_ok, refuseIf_ok, get_ok, set_ok, lockTeam_ok, requireOwner_ok] at hrun
  obtain ⟨team, _, ⟨hteam, rfl⟩, _, _, ⟨⟨hactive, -⟩, rfl⟩, _, _, hidle, _, _, ⟨rfl, rfl⟩, _, _, ⟨hmember, rfl⟩, rfl⟩ :=
    hrun
  obtain rfl := requireIdle_ok hidle
  exact ⟨h.owned (mem_of_get? hteam) (not_not.mp hmember) hactive, .of_eq rfl rfl⟩

theorem deleteTeam_leaves (h : Sound db) {actor id : ℕ} {u : Unit}
    (hrun : deleteTeam site actor id db = .ok u t) : Leaves db t := by
  simp only [deleteTeam, bind_ok, get_ok, ite_ok, set_ok, lockTeam_ok, requireOwner_ok] at hrun
  obtain ⟨team, _, ⟨hteam, rfl⟩, _, _, ⟨-, rfl⟩, _, _, hidle, _, _, ⟨rfl, rfl⟩, hrun⟩ := hrun
  obtain rfl := requireIdle_ok hidle
  rcases hrun with ⟨-, rfl⟩ | ⟨-, rfl⟩
  · exact ⟨h.retired_now (mem_of_get? hteam) site.now, .retire ..⟩
  · exact ⟨h.deleteCascade team, .deleteCascade team⟩

/-! ## Runs -/

theorem commit_leaves {α : Type} {x : TeamM α} (h : Sound db) (hx : ∀ a t, x db = .ok a t → Leaves db t) :
    Leaves db (commit x db) := by
  unfold commit
  split
  · rename_i a t heq
    exact hx a t heq
  · exact ⟨h, .of_eq rfl rfl⟩

theorem discard_ok {α : Type} {x : TeamM α} {u : PUnit} (h : (discard x) db = .ok u t) : ∃ a, x db = .ok a t := by
  obtain ⟨a, ha, -⟩ := map_ok.mp h
  exact ⟨a, ha⟩

theorem Request.perform_leaves (h : Sound db) (r : Request) : Leaves db (commit (r.perform site) db) := by
  refine commit_leaves h fun u t hrun => ?_
  cases r with
  | create actor name =>
      obtain ⟨_, hrun⟩ := discard_ok hrun
      exact createTeam_leaves h hrun
  | invite actor team username =>
      obtain ⟨_, hrun⟩ := discard_ok hrun
      exact inviteMember_leaves h hrun
  | remove actor team profile => exact removeMember_leaves h hrun
  | transfer actor team profile => exact transferTeam_leaves h hrun
  | delete actor team => exact deleteTeam_leaves h hrun

/-- The tables are sound, and an answer that waits knows the team of its invitation. -/
structure World.Sound (w : World) : Prop where
  db : Teams.Sound w.db
  waiting : ∀ a ∈ w.waiting, a.invitation < w.db.nextInvitation ∧
    ∀ i, w.db.invitations.get? a.invitation = some i → i.team = a.team

namespace World
variable {w : World}

/-- A mutation of the tables leaves the answers that wait as right as they were. -/
theorem Sound.leaves (h : w.Sound) {t : Db} (ht : Leaves w.db t) {waiting : List Answer}
    (hwaiting : ∀ a ∈ waiting, a ∈ w.waiting) : Sound ⟨t, waiting⟩ where
  db := ht.1
  waiting a ha := by
    obtain ⟨hid, hteam⟩ := h.waiting a (hwaiting a ha)
    refine ⟨hid.trans_le ht.2.next, fun i hi => ?_⟩
    have hkey : i.id = a.invitation := key_of_get? hi
    obtain ⟨j, hj, hjid, hjteam⟩ := ht.2.same i (mem_of_get? hi) (hkey ▸ hid)
    exact hjteam.symm.trans (hteam j (get?_eq_some_iff.mpr ⟨hj, hjid.trans hkey⟩))

theorem Sound.step (h : w.Sound) (e : Event) : (w.step e).Sound := by
  cases e with
  | request site r => exact h.leaves (r.perform_leaves h.db) fun _ ha => ha
  | look actor invitation action =>
      cases href : w.db.reference invitation with
      | none => simpa only [World.step, href] using h
      | some team =>
          simp only [World.step, href]
          obtain ⟨i, hi, rfl⟩ := Option.map_eq_some_iff.mp href
          have hkey : i.id = invitation := key_of_get? hi
          refine ⟨h.db, fun a ha => ?_⟩
          rcases List.mem_append.mp ha with ha | ha
          · exact h.waiting a ha
          · obtain rfl := List.mem_singleton.mp ha
            refine ⟨hkey ▸ (h.db.invitationsBelow i (mem_of_get? hi)).1, fun j hj => ?_⟩
            exact congrArg _ (Option.some.inj (hj.symm.trans hi))
  | answer site n =>
      cases hn : w.waiting[n]? with
      | none => simpa only [World.step, hn] using h
      | some a =>
          simp only [World.step, hn]
          have hwaits := h.waiting a (List.mem_of_getElem? hn)
          refine h.leaves (commit_leaves h.db fun _ _ hrun => ?_) fun _ hb => List.mem_of_mem_eraseIdx hb
          exact respondLocked_leaves h.db hwaits.2 hrun
  | elsewhere contests participations locations =>
      exact h.leaves ⟨h.db.elsewhere contests participations locations, .of_eq rfl rfl⟩ fun _ ha => ha

theorem initial_sound : initial.Sound where
  db := by
    refine { owner := ?_, retired := ?_, quiet := ?_, once := ?_, outside := ?_, teamsBelow := ?_, membersBelow := ?_,
             invitationsBelow := ?_ } <;> simp [initial, Table.empty]
  waiting := by simp [initial]

theorem Sound.run (h : w.Sound) (events : List Event) : (w.run events).Sound := by
  induction events generalizing w with
  | nil => exact h
  | cons e events ih => exact ih (h.step e)

/-- Whatever the requests and their order, the owner of an active team is a member of it, a team that is not active
has neither members nor pending invitations, and a pending invitation is the only one to somebody outside its team. -/
theorem run_consistent (events : List Event) : Consistent (initial.run events).db :=
  (initial_sound.run events).db.toConsistent

end World

end CpcJudge.Teams
