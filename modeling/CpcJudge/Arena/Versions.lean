import CpcJudge.Arena.Status

/-!
# `Arena.Versions` — what a version protects

An organizer who acts on a match with the version they saw is refused if another organizer has changed it since, but
for three changes that move no version: a length for a whole round (`set_round` updates its matches in bulk), problems
drawn for a game whose start then stops at a warning, and the empty game that `fill_match` leaves behind when the bank
has nothing for it (`Op.Silent`).
-/

namespace CpcJudge
namespace Arena

open CpcJudge.Txn (bind_ok)

theorem Follows.mono {R S : Match → Match → Prop} {db db' : Db} (h : Follows R db db')
    (hRS : ∀ m m', R m m' → S m m') : Follows S db db' := by
  refine ⟨h.nextId, fun id m hm => ?_, h.fresh⟩
  rcases h.kept id m hm with ⟨m', hm', hR, hstarted⟩ | hgone
  · exact .inl ⟨m', hm', hRS m m' hR, hstarted⟩
  · exact .inr hgone

section
variable {own : MatchId → Prop} {organizer : Bool} {db db' d1 : Db} {m m' : Match} {op : Op} {site : Site}
  {id : MatchId} {allowed : Site → Op → Db → Prop}

/-! ## One operation -/

/-- A match nobody asked for keeps its data, or gets a later version. -/
structure Match.Guarded (own : MatchId → Prop) (m m' : Match) : Prop where
  static : m'.static = m.static
  version : m.version ≤ m'.version
  data : ¬ own m.id → m.version < m'.version ∨ m'.data = m.data

namespace Match.Guarded

theorem refl (m : Match) : m.Guarded own m := ⟨rfl, le_refl _, fun _ => .inr rfl⟩

theorem of_lt (hstatic : m'.static = m.static) (hlt : m.version < m'.version) : m.Guarded own m' :=
  ⟨hstatic, le_of_lt hlt, fun _ => .inl hlt⟩

theorem of_own (h : m.Evolves organizer m') (hown : own m.id) : m.Guarded own m' :=
  ⟨h.static, h.version, fun hother => absurd hown hother⟩

theorem trans (a b c : Match) (h : a.Guarded own b) (h' : b.Guarded own c) : a.Guarded own c := by
  refine ⟨h'.static.trans h.static, h.version.trans h'.version, fun hother => ?_⟩
  have hother' : ¬ own b.id := by rwa [Match.id_of_static h.static]
  rcases h.data hother with hlt | hsame
  · exact .inl (lt_of_lt_of_le hlt h'.version)
  · rcases h'.data hother' with hlt | hsame'
    · exact .inl (lt_of_le_of_lt h.version hlt)
    · exact .inr (hsame'.trans hsame)

/-- The matches an operation is not asked for only receive players. -/
theorem covers : Covers (Match.Guarded own) organizer own where
  refl := refl
  trans := trans
  row _ _ hown step := of_own step.evolves hown
  decide _ _ hown step := of_own step.evolves hown
  receive m slot p seed _ := by
    obtain ⟨status, heq, _⟩ := m.receive_eq slot (some p) seed
    rw [heq]
    exact of_lt rfl (Nat.lt_succ_self _)

theorem coversSpecial (horganizer : op.organizer = true) (hloud : ¬ op.Silent site db) :
    CoversSpecial (Match.Guarded own) op db where
  length actor id version number bestOf rules name draw hop m hm hin := by
    -- the round already has the length, or the operation would be silent
    subst hop
    have hsame : m.bestOf = bestOf := by
      by_contra hne
      exact hloud ⟨m, hm, hin, hne⟩
    rw [← hsame]
    exact refl m
  replace m slot profile display _ _ := by
    obtain ⟨status, heq, _⟩ := m.replace_eq slot profile display
    rw [heq]
    exact of_lt rfl (Nat.lt_succ_self _)
  correct _ _ _ _ _ _ _ _ _ := of_lt rfl (Nat.lt_succ_self _)

end Match.Guarded

/-- An organizer's operation that is not silent moves the version of every match whose data it changes. -/
theorem Op.moved (hdb : WellFormed db) (horganizer : op.organizer = true) (hloud : ¬ op.Silent site db) :
    Moved id db (op.after site db) := by
  intro m m' here here'
  have hid : m.id = id := Table.key_of_get? here
  by_cases htarget : op.target = some id
  · cases hsucceeds : op.succeeds site db with
    | false =>
        rw [Op.after_of_refused hsucceeds, here] at here'
        exact .inr (by rw [Option.some.inj here'])
    | true => exact (Op.refines hsucceeds hdb).moved horganizer hloud id htarget m m' here here'
  · have hguarded : Follows (Match.Guarded (op.scope db)) db (op.after site db) :=
      Op.follows hdb Match.Guarded.covers (Match.Guarded.coversSpecial horganizer hloud)
    refine (hguarded.rel here here').data fun hown => ?_
    unfold Op.scope at hown
    cases hop : op.target with
    | none =>
        rw [hop] at hown
        exact absurd (hdb.below m (Table.mem_of_get? here)) (not_lt.mpr hown)
    | some other =>
        rw [hop] at hown
        exact htarget (by rw [hop, ← hid, hown])

/-- An operation that carries a version is only done if it is the version of the match. -/
theorem Op.version_of_succeeds {actor : ProfileId} {v : ℤ} {action : MatchAction}
    (h : (Op.organize actor (.onMatch id (some v) action)).succeeds site db = true) :
    ∃ m, db.match? id = some m ∧ v = m.version := by
  obtain ⟨u, t, hrun, _⟩ := Op.run_of_succeeds h
  have checked {α : Type} {f : Match → ArenaM α} {a : α} {t : Txn}
      (h : (do let m ← lockMatch id; checkVersion m.version (some v); f m) { db } = .ok a t) :
      ∃ m, db.match? id = some m ∧ v = m.version := by
    obtain ⟨m, s, hlock, h⟩ := bind_ok.mp h
    exact ⟨m, (lockMatch_ok.mp hlock).1, (checkVersion_bind.mp h).1 v rfl⟩
  cases action with
  | start game force =>
      obtain ⟨_, h⟩ := discard_ok.mp hrun
      exact checked h
  | replace slot profile display =>
      obtain ⟨p, _, h⟩ := orRefuse_bind.mp hrun
      exact checked h
  | _ => exact checked hrun

/-! ## Runs -/

/-- The version of a match never moves back, and a match that is gone does not come back. -/
theorem Run.follows_version (hdb : WellFormed db) (h : Run allowed db db') :
    Follows (fun m m' => m.version ≤ m'.version) db db' := by
  induction h with
  | refl => exact .refl (fun m => le_refl m.version) db
  | @step db1 site op hrun _ ih =>
      have hstep : Follows (Match.Lasts op.organizer) db1 (op.after site db1) := Op.lasts (hrun.wellFormed hdb)
      exact ih.trans (fun _ _ _ h h' => h.trans h') hdb.below (hstep.mono fun _ _ hm => hm.version)

/-- A match that is still there at the end of a run was there all along. -/
theorem Follows.here {R : Match → Match → Prop} (h : Follows R db db') (hid : id < db.nextId)
    (here : db'.match? id = some m') : ∃ m, db.match? id = some m ∧ R m m' := by
  cases hold : db.match? id with
  | none =>
      rw [h.fresh id hid hold] at here
      cases here
  | some m => exact ⟨m, rfl, h.rel hold here⟩

end

/-- Whoever acts on a match with the version they saw is refused, or no operation of an organizer since has changed what
    organizers control in it, other than a silent one. -/
theorem version_protects {db d1 d2 : Db} {id : MatchId} {m : Match} {site site' : Site} {op : Op} {actor : ProfileId}
    {action : MatchAction} (h : Reachable db) (here : db.match? id = some m) (hbefore : Run anyStep db d1)
    (horganizer : op.organizer = true) (hloud : ¬ op.Silent site d1) (hafter : Run anyStep (op.after site d1) d2)
    (hdone : (Op.organize actor (.onMatch id (some m.version) action)).succeeds site' d2 = true) :
    ∃ m1 m1', d1.match? id = some m1 ∧ (op.after site d1).match? id = some m1' ∧ m1'.data = m1.data := by
  have hdb := h.wellFormed
  have hd1 := hbefore.wellFormed hdb
  have hstep : Run anyStep d1 (op.after site d1) := .step site op .refl trivial
  obtain ⟨m2, here2, hversion⟩ := Op.version_of_succeeds hdone
  have hid : id < db.nextId := by
    rw [← show m.id = id from Table.key_of_get? here]
    exact hdb.below m (Table.mem_of_get? here)
  -- the versions at the four moments: seen, before the operation, after it, and acted upon
  have hseen := hbefore.follows_version hdb
  have hmoves := hstep.follows_version hd1
  have hacted := hafter.follows_version (hstep.wellFormed hd1)
  have hid1 : id < d1.nextId := lt_of_lt_of_le hid hseen.nextId
  have hid1' : id < (op.after site d1).nextId := lt_of_lt_of_le hid1 hmoves.nextId
  obtain ⟨m1', here1', hle2⟩ := hacted.here hid1' here2
  obtain ⟨m1, here1, hle1'⟩ := hmoves.here hid1 here1'
  have hle1 : m.version ≤ m1.version := hseen.rel here here1
  refine ⟨m1, m1', here1, here1', ?_⟩
  rcases Op.moved hd1 horganizer hloud m1 m1' here1 here1' with hlt | hsame
  · have hversion' : m.version = m2.version := by exact_mod_cast hversion
    omega
  · exact hsame

/-- A new title for the match of two players, by an organizer who saw its first version. -/
def titled : MatchAction := .update none none (some "Final") (.both none)

theorem version_protects_final : ∃ m1 m1', draftFinal.match? 2 = some m1 ∧ startedFinal.match? 2 = some m1' ∧
    m1'.data = m1.data := by
  have hreach : Reachable draftFinal := .step _ _ .refl trivial
  have hloud : ¬ Op.Silent { now := 0 } (.organize 9 (.onTournament 1 none .start)) draftFinal := id
  have hdone : ∃ m ∈ draftFinal.match? 2,
      (Op.organize 8 (.onMatch 2 (some m.version) titled)).succeeds { now := 0 } startedFinal = true := by
    decide +kernel
  obtain ⟨m, here, hdone⟩ := hdone
  exact version_protects hreach here .refl rfl hloud .refl hdone

/-- One organizer makes the first round best of three, and another, who saw best of one, is not refused. -/
theorem silent_length : ∃ db, Reachable db ∧ ∃ op : Op, op.organizer = true ∧ ∃ m ∈ db.match? 2,
    (∃ m' ∈ (op.after { now := 0 } db).match? 2, m'.data ≠ m.data) ∧
      (Op.organize 8 (.onMatch 2 (some m.version) titled)).succeeds { now := 0 } (op.after { now := 0 } db) = true := by
  let longer : Op := .organize 9 (.onTournament 1 none (.round 1 (some 3) none none none))
  have hlonger : ∃ m ∈ draftFinal.match? 2,
      (∃ m' ∈ (longer.after { now := 0 } draftFinal).match? 2, m'.bestOf ≠ m.bestOf) ∧
        (Op.organize 8 (.onMatch 2 (some m.version) titled)).succeeds { now := 0 }
          (longer.after { now := 0 } draftFinal) = true := by decide +kernel
  obtain ⟨m, here, ⟨m', here', hlength⟩, hdone⟩ := hlonger
  exact ⟨draftFinal, .step _ _ .refl trivial, longer, rfl, m, here,
    ⟨m', here', fun hsame => hlength (congrArg (·.2.1) hsame)⟩, hdone⟩

end Arena
end CpcJudge
