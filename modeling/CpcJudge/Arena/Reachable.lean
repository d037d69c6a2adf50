import CpcJudge.Arena.Refine

/-!
# `Arena.Reachable` — what holds along every run

The induction every theorem about runs goes through: an invariant of the changes and of the special requests holds of
every state reached (`Run.invariant`), and whatever relation covers them relates the rows before an operation to the
rows after it (`Op.follows`).
-/

namespace CpcJudge
namespace Arena

/-! ## The special requests -/

section
variable {R : Match → Match → Prop} {organizer : Bool} {scope : MatchId → Prop} {op : Op} {db db' db1 : Db}

/-- `R` holds of whatever the special part of an operation does to a match. -/
structure CoversSpecial (R : Match → Match → Prop) (op : Op) (db : Db) : Prop where
  length : ∀ actor id version number bestOf rules name draw,
    op = .organize actor (.onTournament id version (.round number (some bestOf) rules name draw)) →
    ∀ m ∈ db.battles.rows, inRound id number m = true → R m { m with bestOf }
  replace : ∀ m slot profile display, m.isOver = false → m.started = false → R m (m.replace slot profile display)
  correct : ∀ actor id version slot, op = .organize actor (.onMatch id version (.setWinner slot)) →
    ∀ m now, m.id = id → m.status = .decided → R m (m.correct slot now)

theorem SetsLength.maps {id : TournamentId} {number bestOf : ℕ} (h : SetsLength id number bestOf db db')
    (hrefl : ∀ m, R m m) (hR : ∀ m ∈ db.battles.rows, inRound id number m = true → R m { m with bestOf }) :
    Table.Maps (Match.Still R) db.battles db'.battles := by
  rw [h.battles]
  exact Table.Maps.modify (fun m => ⟨hrefl m, fun h => h⟩) fun m hm hin => ⟨hR m hm hin, fun h => h⟩

theorem Replaces.maps {id : MatchId} {slot : Slot} {profile : ProfileId} {m : Match}
    (h : Replaces id slot profile m db db') (hrefl : ∀ m, R m m)
    (hR : ∀ m slot profile display, m.isOver = false → m.started = false → R m (m.replace slot profile display)) :
    Table.Maps (Match.Still R) db.battles db'.battles := by
  obtain ⟨display, hbattles⟩ := h.battles
  obtain ⟨_, heq, _⟩ := m.replace_eq slot profile display
  rw [hbattles]
  refine Table.Maps.put (b := m) (fun m => ⟨hrefl m, fun h => h⟩) ?_
    ⟨hR m slot profile display h.going h.unplayed, fun hs => ?_⟩
  · rw [show Keyed.key (m.replace slot profile display) = m.id by rw [heq]; rfl,
      show m.id = id from Table.key_of_get? h.here]
    exact h.here
  · rw [h.unplayed] at hs
    cases hs

theorem Corrects.maps {id : MatchId} {slot : Slot} {m : Match} (h : Corrects id slot m db db')
    (hcovers : Covers R organizer scope) (hR : ∀ now, R m (m.correct slot now)) :
    Table.Maps (Match.Still R) db.battles db'.battles := by
  obtain ⟨_, _, now, _, hreopened, hadvanced⟩ := h.moved
  refine Table.Maps.trans hcovers.still_trans ?_ (hadvanced.maps hcovers)
  rw [hreopened.battles]
  refine Table.Maps.put (b := m) hcovers.still_refl ?_ ⟨hR now, fun h => h⟩
  rw [show Keyed.key (m.correct slot now) = id from (Table.key_of_get? h.here : m.id = id)]
  exact h.here

theorem Op.special_maps (h : op.special db db1) (hcovers : Covers R organizer scope)
    (hspecial : CoversSpecial R op db) : Table.Maps (Match.Still R) db.battles db1.battles := by
  unfold Op.special at h
  split at h
  · exact h.maps hcovers.refl (hspecial.length _ _ _ _ _ _ _ _ rfl)
  · exact h.choose_spec.maps hcovers.refl hspecial.replace
  · obtain ⟨m, hcorrects⟩ := h
    exact hcorrects.maps hcovers fun now =>
      hspecial.correct _ _ _ _ rfl m now (Table.key_of_get? hcorrects.here) hcorrects.decided
  · rw [h.choose_spec.battles]
    exact .refl hcovers.still_refl _
  · rw [h]
    exact .refl hcovers.still_refl _

theorem Reopened.nextId {id : TournamentId} (h : Reopened id db db') : db.nextId ≤ db'.nextId := by
  cases h with
  | reopened _ _ _ _ _ _ _ logs => exact logs.nextId
  | same => exact le_refl _

theorem Op.special_nextId (h : op.special db db1) : db.nextId ≤ db1.nextId := by
  unfold Op.special at h
  split at h
  · exact h.logs.nextId
  · exact h.choose_spec.logs.nextId
  · obtain ⟨m, hcorrects⟩ := h
    obtain ⟨_, _, _, _, hreopened, hadvanced⟩ := hcorrects.moved
    exact hreopened.nextId.trans hadvanced.nextId
  · exact h.choose_spec.logs.nextId
  · rw [h]

theorem WellFormed.special (hdb : WellFormed db) (h : op.special db db1) : WellFormed db1 := by
  unfold Op.special at h
  split at h
  · exact hdb.setsLength h
  · exact hdb.replaces h.choose_spec
  · exact hdb.corrects h.choose_spec
  · exact hdb.begins h.choose_spec
  · rwa [h]

/-- What holds of new matches, and is kept by whatever happens to one, holds of every match after a change. -/
theorem Change.rows {P : Match → Prop} (hcovers : Covers (fun m m' => P m → P m') organizer scope)
    (hnew : ∀ m : Match, m.games = .empty → m.wins = .both 0 → m.isOver = false → P m)
    (h : Change organizer scope db db') (hP : ∀ m ∈ db.battles.rows, P m) : ∀ m ∈ db'.battles.rows, P m := by
  cases h with
  | @row m m' _ here own step saves =>
      intro x hx
      rcases Table.mem_put (saves.battles ▸ hx) with rfl | ⟨hx, _⟩
      · exact hcovers.row m x own step (hP m (Table.mem_of_get? here))
      · exact hP x hx
  | @decide m m' db1 _ here own step saves advanced =>
      intro x hx
      obtain ⟨y, hy, _, hyx, _⟩ := (advanced.maps hcovers).back hx
      refine hyx ?_
      rcases Table.mem_put (saves.battles ▸ hy) with rfl | ⟨hy, _⟩
      · exact hcovers.decide m y own step (hP m (Table.mem_of_get? here))
      · exact hP y hy
  | duel _ _ _ games wins going _ _ battles =>
      intro x hx
      rcases Table.mem_add (battles ▸ hx) with rfl | hx
      · exact hnew x games wins going
      · exact hP x hx
  | @bracket d _ _ fits _ _ _ _ battles =>
      intro x hx
      rcases Table.mem_foldl_add (battles ▸ hx) with hx | hx
      · exact hP x (Table.mem_filter.mp hx).1
      · obtain ⟨_, hgames, hwins, hgoing⟩ := d.mem_fresh fits hx
        exact hnew x hgames hwins hgoing
  | tournament _ _ _ _ battles => exact battles ▸ hP
  | newTournament _ _ _ _ battles => exact battles ▸ hP
  | other battles => exact battles ▸ hP

/-! ## Operations and runs -/

variable {site : Site} {allowed : Site → Op → Db → Prop} {I : Db → Prop}

/-- What the changes and the special part of an operation keep, the operation keeps. -/
theorem Op.keeps (hdb : WellFormed db) (hI : I db) (hspecial : ∀ db1, op.special db db1 → I db1)
    (hchange : ∀ {organizer scope db db'}, WellFormed db → I db → Change organizer scope db db' → I db') :
    WellFormed (op.after site db) ∧ I (op.after site db) := by
  cases hsucceeds : op.succeeds site db with
  | false =>
      rw [Op.after_of_refused hsucceeds]
      exact ⟨hdb, hI⟩
  | true =>
      obtain ⟨db1, hop, hpath⟩ := (Op.refines hsucceeds hdb).path
      have hstart : WellFormed db1 ∧ I db1 := ⟨hdb.special hop, hspecial db1 hop⟩
      generalize op.after site db = db2 at hpath
      clear hop
      induction hpath with
      | refl => exact hstart
      | tail _ hstep ih => exact ⟨ih.1.change hstep, hchange ih.1 ih.2 hstep⟩

/-- An invariant of the changes, and of the special requests a run allows, holds of every state the run reaches. -/
theorem Run.invariant (hrun : Run allowed db db') (hdb : WellFormed db) (hI : I db)
    (hchange : ∀ {organizer scope db db'}, WellFormed db → I db → Change organizer scope db db' → I db')
    (hspecial : ∀ {site op db db1}, allowed site op db → WellFormed db → I db → op.special db db1 → I db1) :
    WellFormed db' ∧ I db' :=
  hrun.keeps (I := fun db => WellFormed db ∧ I db) (fun _ _ _ hallowed h =>
    Op.keeps h.1 h.2 (fun _ hop => hspecial hallowed h.1 h.2 hop) hchange) ⟨hdb, hI⟩

theorem Run.wellFormed (hrun : Run allowed db db') (hdb : WellFormed db) : WellFormed db' :=
  (hrun.invariant (I := fun _ => True) hdb trivial (fun _ _ _ => trivial) fun _ _ _ _ => trivial).1

theorem Reachable.wellFormed (h : Reachable db) : WellFormed db := Run.wellFormed h .empty

/-- How an operation leaves the rows that were there. -/
theorem Op.follows (hdb : WellFormed db) (hcovers : Covers R op.organizer (op.scope db))
    (hspecial : CoversSpecial R op db) : Follows R db (op.after site db) := by
  cases hsucceeds : op.succeeds site db with
  | false =>
      rw [Op.after_of_refused hsucceeds]
      exact .refl hcovers.refl db
  | true =>
      obtain ⟨db1, hop, hpath⟩ := (Op.refines hsucceeds hdb).path
      exact (Follows.of_maps (Op.special_nextId hop) (Op.special_maps hop hcovers hspecial)).trans hcovers.trans
        hdb.below (hpath.follows hcovers (hdb.special hop))

/-- How a match lasts: its place, its version, its players and its games as in `Evolves`, and it stays over; a
    decision may be corrected. -/
structure Match.Lasts (organizer : Bool) (m m' : Match) : Prop where
  static : m'.static = m.static
  version : m.version ≤ m'.version
  ended : m.isOver = true → m'.status = m.status
  games : ∀ g ∈ m.games.rows, g.started = true →
    ∃ g' ∈ m'.games.rows, g'.id = g.id ∧ g'.started = true ∧ g.status.Onward organizer g'.status

namespace Match.Lasts
variable {m m' m'' : Match}

theorem of_evolves (h : m.Evolves organizer m') : m.Lasts organizer m' := ⟨h.static, h.version, h.ended, h.games⟩

theorem trans (h : m.Lasts organizer m') (h' : m'.Lasts organizer m'') : m.Lasts organizer m'' := by
  refine ⟨h'.static.trans h.static, h.version.trans h'.version, fun hover => ?_, fun g hg hs => ?_⟩
  · have hstatus := h.ended hover
    have hover' : m'.isOver = true := by rwa [isOver, hstatus]
    rw [h'.ended hover', hstatus]
  · obtain ⟨g', hg', hid, hs', honward⟩ := h.games g hg hs
    obtain ⟨g'', hg'', hid', hs'', honward'⟩ := h'.games g' hg' hs'
    exact ⟨g'', hg'', hid'.trans hid, hs'', honward.trans honward'⟩

theorem of_same (hstatic : m'.static = m.static) (hversion : m.version ≤ m'.version)
    (hover : m.isOver = true → m'.status = m.status) (hgames : m'.games = m.games) : m.Lasts organizer m' :=
  ⟨hstatic, hversion, hover, fun g hg hs => ⟨g, hgames ▸ hg, rfl, hs, .refl _⟩⟩

theorem covers : Covers (Match.Lasts organizer) organizer scope where
  refl _ := .of_same rfl (le_refl _) (fun _ => rfl) rfl
  trans _ _ _ h h' := h.trans h'
  row _ _ _ h := .of_evolves h.evolves
  decide _ _ _ h := .of_evolves h.evolves
  receive m slot p seed _ := .of_evolves (m.receive_evolves slot p seed)

theorem coversSpecial : CoversSpecial (Match.Lasts organizer) op db where
  length _ _ _ _ _ _ _ _ _ _ _ _ := .of_same rfl (le_refl _) (fun _ => rfl) rfl
  replace m slot profile display hgoing _ := by
    obtain ⟨status, heq, _⟩ := m.replace_eq slot profile display
    rw [heq]
    refine .of_same rfl (Nat.le_succ _) (fun hover => ?_) rfl
    rw [hgoing] at hover
    cases hover
  correct _ _ _ _ _ _ _ _ _ := .of_same rfl (Nat.le_succ _) (fun _ => rfl) rfl

end Match.Lasts

/-- Every operation, on every match. -/
theorem Op.lasts (hdb : WellFormed db) : Follows (Match.Lasts op.organizer) db (op.after site db) :=
  Op.follows hdb Match.Lasts.covers Match.Lasts.coversSpecial

end

end Arena
end CpcJudge
