import CpcJudge.Arena.Charted
import CpcJudge.Arena.Podium

/-!
# `Arena.Finale` — the last battles of a bracket

Who plays the final of a bracket whose battles have all been decided, who plays for third place, and where the others
were beaten (`Finale`). The players of the final come from the sides that won the semifinals and those of the match for
third place from the other sides, so nobody is named twice.
-/

namespace CpcJudge
namespace Arena

/-- The battles of the tournament, all but the byes, have been decided between two players. -/
def PlayedOut (db : Db) (id : TournamentId) : Prop :=
  ∀ m ∈ db.battles.rows, m.tournament = some id → m.decidedReason ≠ some .bye → m.status = .decided ∧ m.ready = true

/-- A match decided between two players, won by that of the slot. -/
structure Match.Won (m : Match) (w : Slot) (x y : ProfileId) : Prop where
  decided : m.status = .decided
  winner : m.winnerSlot = some w
  first : m.players.get w = some x
  second : m.players.get w.other = some y

/-- A participant who is not in the final. -/
structure Behind (players : List ProfileId) (x y z : ProfileId) : Prop where
  enrolled : z ∈ players
  first : z ≠ x
  second : z ≠ y

/-- The last battles of a bracket that was played out: `x` won the final against `y`. -/
structure Finale (rows : List Match) (players : List ProfileId) (total : ℕ) (final : Match) (x y : ProfileId) : Prop where
  mem : final ∈ rows
  last : final.isFinal = true
  only : ∀ m ∈ rows, m.isFinal = true → m = final
  won : ∃ w, final.Won w x y
  ne : x ≠ y
  enrolled : x ∈ players ∧ y ∈ players
  one_le : 1 ≤ total
  /-- The other battles are of earlier rounds, the semifinals of the one before. -/
  earlier : ∀ m ∈ rows, m.isFinal = false → m.isThirdPlace = false → ∃ number, m.round = some number ∧
    1 ≤ number ∧ number + 1 ≤ total ∧ (m.nextMatch.any (·.1 = final.id) = true ↔ number + 1 = total)
  third : ∀ m ∈ rows, m.isThirdPlace = true → m.nextMatch = none ∧ (∀ n ∈ rows, n.isThirdPlace = true → n = m) ∧
    ∃ w p q, m.Won w p q ∧ p ≠ q ∧ Behind players x y p ∧ Behind players x y q
  beaten : ∀ m ∈ rows, m.nextMatch.any (·.1 = final.id) = true → m.decidedReason ≠ some .bye →
    ∃ w p q, m.Won w p q ∧ Behind players x y q
  alone : ∀ m ∈ rows, m.decidedReason = some .bye → m.status = .decided → ∀ w, m.winnerSlot = some w →
    m.players.get w.other = none
  shared : ∀ z, Behind players x y z → ∃ m ∈ rows, m.nextMatch.any (·.1 = final.id) = true ∧
    m.decidedReason ≠ some .bye

/-- A match at a place of the bracket. -/
structure Match.At (d : BracketPlan) (back position : ℕ) (m : Match) : Prop where
  within : back < d.rounds
  low : position < 2 ^ back
  static : m.static = (d.blank back position).static

section
variable {db : Db} {t : Tournament} {d : BracketPlan} {m n final : Match} {back position p q : ℕ} {slot s w : Slot}
  {x y z : ProfileId}

namespace Match.At

theorem id (h : m.At d back position) : m.id = d.matchId back position := Match.id_of_static h.static

theorem round (h : m.At d back position) : m.round = some (d.rounds - back) := congrArg (·.2.2.1) h.static

theorem not_third (h : m.At d back position) : m.isThirdPlace = false := congrArg (·.2.2.2.1) h.static

theorem next (h : m.At d (back + 1) position) :
    m.nextMatch = some (d.matchId back (position / 2), BracketPlan.slotOf position) :=
  Match.nextMatch_of_static h.static

theorem isFinal (h : m.At d back position) : m.isFinal = true ↔ back = 0 := by
  rw [Match.isFinal, h.not_third, Match.nextMatch_of_static h.static]
  cases back <;> simp [BracketPlan.blank]

/-- A match leads to the final from the round before. -/
theorem before (h : m.At d back position) (hfinal : final.At d 0 0) :
    m.nextMatch.any (·.1 = final.id) = true ↔ back = 1 := by
  cases back with
  | zero =>
      rw [Match.nextMatch_of_static h.static]
      simp [BracketPlan.blank]
  | succ back =>
      rw [h.next, Option.any_some, decide_eq_true_iff, hfinal.id]
      refine ⟨fun heq => ?_, fun heq => ?_⟩
      · rw [(BracketPlan.matchId_inj (BracketPlan.half_lt_pow h.low) Nat.one_pos heq).1]
      · obtain rfl : back = 0 := by omega
        have hlow := BracketPlan.half_lt_pow h.low
        rw [show position / 2 = 0 by omega]

/-- A place is that of one match. -/
theorem eq (h : m.At d back position) (h' : n.At d back position) (hm : m ∈ db.battles.rows)
    (hn : n ∈ db.battles.rows) : m = n := Table.eq_of_key hm hn (h.id.trans h'.id.symm)

end Match.At

/-- A match that is not a bye has a winner and a loser. -/
theorem PlayedOut.won {id : TournamentId} (hplayed : PlayedOut db id) (hdb : WellFormed db) (hm : m ∈ db.battles.rows)
    (hmine : m.tournament = some id) (hbye : m.decidedReason ≠ some .bye) : ∃ w x y, m.Won w x y := by
  obtain ⟨hdecided, hready⟩ := hplayed m hm hmine hbye
  obtain ⟨w, hw, _⟩ := (hdb.sound m hm).won hdecided
  rw [Match.ready, Bool.and_eq_true] at hready
  obtain ⟨⟨x, hx⟩, y, hy⟩ := hready.imp Option.isSome_iff_exists.mp Option.isSome_iff_exists.mp
  cases w with
  | a => exact ⟨.a, x, y, hdecided, hw, hx, hy⟩
  | b => exact ⟨.b, y, x, hdecided, hw, hy, hx⟩

theorem BracketPlan.slotOf_of_bit (slot : Slot) : slotOf slot.bit = slot ∧ slot.bit / 2 = 0 := by
  cases slot <;> decide

/-- A participant comes from some slot of every round. -/
theorem BracketPlan.exists_under (fits : d.Fits) {y : Participant} (hy : y ∈ d.tournament.participants)
    (hback : back < d.rounds) : ∃ position < 2 ^ back, ∃ slot, d.Under back position slot y.profile := by
  have hcount : d.tournament.participants.length ≤ 2 ^ d.rounds := by
    obtain ⟨k, hk, hle, -⟩ := bracketSize_spec d.tournament.participants.length
    rwa [fits.rounds, ← bracketSize_eq, hk]
  have hseed := List.mem_range'_1.mp (fits.seeded.perm.mem_iff.mpr (List.mem_map_of_mem hy))
  obtain ⟨i, hi, horder⟩ := exists_place (k := d.rounds) hseed.1 (by omega)
  -- the participant sits at the place of the seed
  have hleaf : (d.leaf i).map Participant.profile = some y.profile := by
    obtain ⟨z, hz⟩ := Option.isSome_iff_exists.mp ((d.seat_isSome fits hseed.1).mpr (by omega))
    have hnodup : (d.tournament.participants.map Participant.seed).Nodup :=
      fits.seeded.perm.nodup_iff.mp List.nodup_range'
    obtain rfl : z = y := List.inj_on_of_nodup_map hnodup (List.mem_of_find?_eq_some hz) hy
      (by simpa using List.find?_some hz)
    rw [leaf, fits.size, bracketSize_eq, ← fits.rounds, seedingOrder_pow, horder, Option.bind_some, hz]
    rfl
  have hblock : i / 2 ^ (d.rounds - (back + 1)) < 2 ^ back * 2 := by
    rw [← pow_succ, Nat.div_lt_iff_lt_mul (by positivity), ← pow_add, Nat.add_sub_cancel' hback]
    exact hi
  generalize hk : i / 2 ^ (d.rounds - (back + 1)) = k at hblock
  refine ⟨k / 2, by omega, if k % 2 = 0 then .a else .b, i, ?_, hleaf⟩
  rw [hk]
  split
  · simp only [Slot.bit]
    omega
  · simp only [Slot.bit]
    omega

namespace Charts

variable (h : Charts db t d)
include h

theorem tournament_eq (hmine : m.tournament = some t.id) : m.tournament = some d.tournament.id := h.id ▸ hmine

theorem place (hm : m ∈ db.battles.rows) (hmine : m.tournament = some t.id) :
    (∃ back position, m.At d back position) ∨ (d.third = true ∧ m.static = d.thirdMatch.static) :=
  (h.plotted.place hm (h.tournament_eq hmine)).imp_left fun ⟨back, position, hback, hposition, hstatic⟩ =>
    ⟨back, position, hback, hposition, hstatic.trans (d.node_static back position)⟩

theorem find (hback : back < d.rounds) (hposition : position < 2 ^ back) :
    ∃ m ∈ db.battles.rows, m.tournament = some t.id ∧ m.At d back position := by
  obtain ⟨m, hm, hmine, hstatic⟩ := h.plotted.find hback hposition
  exact ⟨m, hm, h.id ▸ hmine, hback, hposition, hstatic.trans (d.node_static back position)⟩

theorem find_third (hthird : d.third = true) :
    ∃ m ∈ db.battles.rows, m.tournament = some t.id ∧ m.static = d.thirdMatch.static := by
  obtain ⟨m, hm, hstatic⟩ := h.plotted.filled _ ((BracketPlan.mem_allMatches h.plotted.fits).mpr (.inr ⟨hthird, rfl⟩))
  exact ⟨m, hm, (Match.tournament_of_static hstatic).trans (congrArg some h.id), hstatic⟩

theorem under (hm : m ∈ db.battles.rows) (hmine : m.tournament = some t.id) (hat : m.At d back position)
    (hx : m.players.get slot = some x) : d.Under back position slot x := by
  have hside := h.plotted.side hm (h.tournament_eq hmine) hat.not_third hx
  rw [hat.id] at hside
  exact hside.under hat.low

theorem apart (hx : d.Under back p s x) (hx' : d.Under back q w x) : p = q ∧ s = w :=
  hx.apart h.plotted.fits (h.participants ▸ h.distinct) hx'

theorem participant (hx : d.Under back position slot x) : x ∈ t.participants.map Participant.profile := by
  obtain ⟨y, hy, rfl⟩ := hx.participant
  exact List.mem_map_of_mem (h.participants ▸ hy)

end Charts

/-! ## Byes -/

theorem BracketPlan.node_waits (hfirst : back + 1 = d.rounds) (h : (d.node back position).status = .pending) :
    (d.node back position).ready = false := by
  unfold node at h ⊢
  rw [if_pos hfirst] at h ⊢
  unfold seatPlayers at h ⊢
  dsimp only at h ⊢
  split at h
  next => cases h
  next hwaits =>
    rw [if_neg hwaits]
    exact Bool.eq_false_iff.mpr hwaits

namespace Charts
variable (h : Charts db t d)
include h

/-- A bye is a match of the first round that lacks a player. -/
theorem bye (hm : m ∈ db.battles.rows) (hmine : m.tournament = some t.id) (hbye : m.decidedReason = some .bye) :
    ∃ position, m.At d (d.rounds - 1) position ∧ m.players = (d.node (d.rounds - 1) position).players ∧
      m.ready = false := by
  have hrounds := BracketPlan.one_le_rounds h.plotted.fits
  obtain ⟨n, ⟨hn, hpending⟩, hstatic⟩ := h.byes m hm hmine hbye
  rw [BracketPlan.roundMatches_eq h.plotted.fits (by omega)] at hn
  obtain ⟨position, hposition, rfl⟩ := List.mem_map.mp hn
  have hat : m.At d (d.rounds - 1) position :=
    ⟨by omega, List.mem_range.mp hposition, hstatic.trans (d.node_static _ _)⟩
  have hplayers := h.plotted.first m hm (h.tournament_eq hmine) position hat.low hat.id
  refine ⟨position, hat, hplayers, ?_⟩
  rw [Match.ready, hplayers]
  exact BracketPlan.node_waits (by omega) hpending

/-- Nobody loses a bye. -/
theorem bye_alone (hdb : WellFormed db) (hm : m ∈ db.battles.rows) (hmine : m.tournament = some t.id)
    (hbye : m.decidedReason = some .bye) (hdecided : m.status = .decided) (hw : m.winnerSlot = some w) :
    (m.players.get w).isSome = true ∧ m.players.get w.other = none := by
  obtain ⟨_, _, _, hwaits⟩ := h.bye hm hmine hbye
  obtain ⟨v, hv, hwinner⟩ := (hdb.sound m hm).won hdecided
  obtain rfl : v = w := Option.some.inj (hv.symm.trans hw)
  refine ⟨hwinner, Option.not_isSome_iff_eq_none.mp fun hloser => ?_⟩
  rw [Match.ready] at hwaits
  cases v <;> simp_all [Pair.get, Slot.other]

/-- The final has two players from the start, or waits for them. -/
theorem final_played (hm : m ∈ db.battles.rows) (hmine : m.tournament = some t.id) (hat : m.At d 0 0) :
    m.decidedReason ≠ some .bye := by
  intro hbye
  have fits := h.plotted.fits
  obtain ⟨position, hat', hplayers, hwaits⟩ := h.bye hm hmine hbye
  obtain ⟨hback, rfl⟩ := BracketPlan.matchId_inj hat.low hat'.low (hat.id.symm.trans hat'.id)
  have hrounds : d.rounds = 1 := by
    have := BracketPlan.one_le_rounds fits
    omega
  have hseats : ∀ seed, 1 ≤ seed → seed ≤ 2 → (d.seat seed).isSome = true := fun seed hlow hhigh =>
    (d.seat_isSome fits hlow).mpr (hhigh.trans fits.count)
  rw [Match.ready, hplayers, BracketPlan.node_players (by omega), BracketPlan.leaf, BracketPlan.leaf, fits.size,
    bracketSize_eq, ← fits.rounds, hrounds, seedingOrder_pow] at hwaits
  have hfirst := hseats 1 le_rfl (by decide)
  have hsecond := hseats 2 (by decide) le_rfl
  simp [orderOf, spread, hfirst, hsecond] at hwaits

/-! ## Semifinals -/

/-- The semifinal of a side sends its winner to the final, and its loser to the match for third place. -/
theorem semifinal (hrounds : 2 ≤ d.rounds) (slot : Slot) : ∃ m ∈ db.battles.rows, m.tournament = some t.id ∧
    m.At d 1 slot.bit ∧ m.nextMatch = some (d.matchId 0 0, slot) ∧
    (d.third = true → m.loserNextMatch = some (d.thirdId, slot)) := by
  have hlow : slot.bit < 2 ^ 1 := slot.bit_lt
  obtain ⟨m, hm, hmine, hat⟩ := h.find (by omega : 1 < d.rounds) hlow
  obtain ⟨hslot, hhalf⟩ := BracketPlan.slotOf_of_bit slot
  refine ⟨m, hm, hmine, hat, ?_, fun hthird => ?_⟩
  · rw [hat.next, hslot, hhalf]
  · rw [Match.loserNextMatch_of_static hat.static]
    cases slot <;> simp [BracketPlan.blank, hthird, Slot.bit]

/-- Whoever plays the final comes from the side that won the semifinal. -/
theorem finalist (hrounds : 2 ≤ d.rounds) (hm : final ∈ db.battles.rows) (hmine : final.tournament = some t.id)
    (hat : final.At d 0 0) (hx : final.players.get slot = some x) : ∃ m ∈ db.battles.rows,
      m.At d 1 slot.bit ∧ m.status = .decided ∧ ∃ w, m.winnerSlot = some w ∧ d.Under 1 slot.bit w x := by
  obtain ⟨m, hsemi, hsemimine, hsemiat, hnext, _⟩ := h.semifinal hrounds slot
  obtain ⟨hdecided, w, hw, hsent⟩ := h.plotted.sent m hsemi (d.matchId 0 0, slot)
    (Match.mem_targets.mpr (.inl hnext)) final hm hat.id (h.tournament_eq hsemimine) (h.tournament_eq hmine) List.not_mem_nil x hx
  refine ⟨m, hsemi, hsemiat, hdecided, w, hw, ?_⟩
  rcases hsent with ⟨_, hside⟩ | ⟨hloser, _⟩
  · rw [hsemiat.id] at hside
    exact hside.under hsemiat.low
  · rw [Match.loserNextMatch_of_static hsemiat.static] at hloser
    simp only [BracketPlan.blank, true_and] at hloser
    split at hloser
    · have heq := (Prod.mk.inj (Option.some.inj hloser)).1
      exact absurd heq.symm (BracketPlan.matchId_ne_third (by omega) Nat.one_pos)
    · cases hloser

/-- Whoever plays for third place comes from the side that lost it. -/
theorem contender (hthird : d.third = true) (hm : n ∈ db.battles.rows) (hstatic : n.static = d.thirdMatch.static)
    (hx : n.players.get slot = some x) : ∃ m ∈ db.battles.rows,
      m.At d 1 slot.bit ∧ ∃ w, m.winnerSlot = some w ∧ d.Under 1 slot.bit w.other x := by
  obtain ⟨m, hsemi, hsemimine, hsemiat, hnext, hlosernext⟩ := h.semifinal (h.plotted.fits.third hthird) slot
  obtain ⟨_, w, hw, hsent⟩ := h.plotted.sent m hsemi (d.thirdId, slot)
    (Match.mem_targets.mpr (.inr (hlosernext hthird))) n hm (Match.id_of_static hstatic) (h.tournament_eq hsemimine)
    (Match.tournament_of_static hstatic) List.not_mem_nil x hx
  refine ⟨m, hsemi, hsemiat, w, hw, ?_⟩
  rcases hsent with ⟨hwinner, _⟩ | ⟨_, hside⟩
  · rw [hnext] at hwinner
    have heq := (Prod.mk.inj (Option.some.inj hwinner)).1
    exact absurd heq (BracketPlan.matchId_ne_third (BracketPlan.one_le_rounds h.plotted.fits) Nat.one_pos)
  · rw [hsemiat.id] at hside
    exact hside.under hsemiat.low

/-- The side that lost a semifinal is not in the final. -/
theorem beaten_ne (hfinal : final ∈ db.battles.rows) (hmine : final.tournament = some t.id) (hat : final.At d 0 0)
    (hy : final.players.get slot = some y) (hm : m ∈ db.battles.rows) (hsemi : m.At d 1 position)
    (hw : m.winnerSlot = some w) (hx : d.Under 1 position w.other x) : x ≠ y := by
  rintro rfl
  obtain ⟨n, hn, hnat, _, v, hv, hunder⟩ := h.finalist hsemi.within hfinal hmine hat hy
  obtain ⟨rfl, hslots⟩ := h.apart hx hunder
  obtain rfl := hsemi.eq hnat hm hn
  obtain rfl : v = w := Option.some.inj (hv.symm.trans hw)
  exact v.other_ne hslots

/-- Any other participant was in some semifinal with a winner and a loser. -/
theorem shared (hdb : WellFormed db) (hplayed : PlayedOut db t.id) (hfinal : final ∈ db.battles.rows)
    (hmine : final.tournament = some t.id) (hat : final.At d 0 0)
    (hz : z ∈ t.participants.map Participant.profile) (hnot : ∀ slot, final.players.get slot ≠ some z) :
    ∃ m ∈ db.battles.rows, m.tournament = some t.id ∧ (∃ position, m.At d 1 position) ∧
      m.decidedReason ≠ some .bye := by
  have fits := h.plotted.fits
  obtain ⟨row, hrow, rfl⟩ := List.mem_map.mp hz
  rw [← h.participants] at hrow
  have hmore : 2 ≤ d.rounds := by
    by_contra hone
    have hlast : 0 + 1 = d.rounds := by
      have := BracketPlan.one_le_rounds fits
      omega
    -- with two players, both are in the final
    obtain ⟨position, hposition, slot, hunder⟩ := BracketPlan.exists_under fits hrow (by omega : 0 < d.rounds)
    obtain rfl : position = 0 := by omega
    have hseat := hunder.seated hlast
    have hplayers := h.plotted.first final hfinal (h.tournament_eq hmine) 0 (by positivity) (by rw [hat.id, ← hlast])
    rw [← hlast] at hplayers
    exact hnot slot (hplayers ▸ hseat)
  obtain ⟨position, hposition, slot, hunder⟩ := BracketPlan.exists_under fits hrow hmore
  obtain ⟨side, rfl⟩ : ∃ side : Slot, side.bit = position := by
    rcases (by omega : position = 0 ∨ position = 1) with rfl | rfl
    · exact ⟨.a, rfl⟩
    · exact ⟨.b, rfl⟩
  obtain ⟨m, hm, hsemimine, hsemi⟩ := h.find hmore hposition
  refine ⟨m, hm, hsemimine, ⟨_, hsemi⟩, fun hbye => ?_⟩
  -- the only player of a bye is in the final
  obtain ⟨q, hq, hplayers, _⟩ := h.bye hm hsemimine hbye
  obtain ⟨hback, rfl⟩ := BracketPlan.matchId_inj hsemi.low hq.low (hsemi.id.symm.trans hq.id)
  rw [← hback] at hplayers
  obtain ⟨x, hx⟩ : ∃ x, final.players.get side = some x := by
    obtain ⟨w, x, y, hwon⟩ := hplayed.won hdb hfinal hmine (h.final_played hfinal hmine hat)
    by_cases hside : side = w
    · exact ⟨x, hside ▸ hwon.first⟩
    · exact ⟨y, Slot.eq_other_of_ne hside ▸ hwon.second⟩
  obtain ⟨n, hn, hnat, hdecided, w, hw, hunder'⟩ := h.finalist hmore hfinal hmine hat hx
  obtain rfl := hsemi.eq hnat hm hn
  have hrow' := hunder.seated (by omega)
  have hx' := hunder'.seated (by omega)
  rw [← hplayers] at hrow' hx'
  by_cases hslot : slot = w
  · subst hslot
    obtain rfl := Option.some.inj (hrow'.symm.trans hx')
    exact hnot side hx
  · have hnone := (h.bye_alone hdb hm hsemimine hbye hdecided hw).2
    rw [← Slot.eq_other_of_ne hslot, hrow'] at hnone
    cases hnone

/-- The match for third place is the only one of the bracket without a place in it. -/
theorem third_static (hm : m ∈ db.battles.rows) (hmine : m.tournament = some t.id) (hthird : m.isThirdPlace = true) :
    d.third = true ∧ m.static = d.thirdMatch.static :=
  (h.place hm hmine).resolve_left fun ⟨_, _, hat⟩ => by
    rw [hat.not_third] at hthird
    cases hthird

theorem at_of_not_third (hm : m ∈ db.battles.rows) (hmine : m.tournament = some t.id)
    (hthird : m.isThirdPlace = false) : ∃ back position, m.At d back position :=
  (h.place hm hmine).resolve_right fun ⟨_, hstatic⟩ => by
    rw [show m.isThirdPlace = true from congrArg (·.2.2.2.1) hstatic] at hthird
    cases hthird

/-- The match before the final is a semifinal. -/
theorem at_of_before (hat : final.At d 0 0) (hm : m ∈ db.battles.rows) (hmine : m.tournament = some t.id)
    (hnext : m.nextMatch.any (·.1 = final.id) = true) : ∃ position, m.At d 1 position := by
  have hthird : m.isThirdPlace = false := by
    refine h.plotted.not_third hm (h.tournament_eq hmine) ?_
    cases hm' : m.nextMatch with
    | none =>
        rw [hm'] at hnext
        cases hnext
    | some => simp [Match.targets, hm']
  obtain ⟨back, position, hmat⟩ := h.at_of_not_third hm hmine hthird
  obtain rfl := (hmat.before hat).mp hnext
  exact ⟨position, hmat⟩

theorem eq_final (hfinal : final ∈ db.battles.rows) (hat : final.At d 0 0) (hm : m ∈ db.battles.rows)
    (hmine : m.tournament = some t.id) (hlast : m.isFinal = true) : m = final := by
  have hthird : m.isThirdPlace = false := by
    simp only [Match.isFinal, Bool.and_eq_true, Bool.not_eq_true'] at hlast
    exact hlast.2
  obtain ⟨back, position, hmat⟩ := h.at_of_not_third hm hmine hthird
  obtain rfl := hmat.isFinal.mp hlast
  obtain rfl : position = 0 := Nat.lt_one_iff.mp hmat.low
  exact hmat.eq hat hm hfinal

theorem earlier (hat : final.At d 0 0) (hm : m ∈ db.battles.rows) (hmine : m.tournament = some t.id)
    (hlast : m.isFinal = false) (hthird : m.isThirdPlace = false) : ∃ number, m.round = some number ∧ 1 ≤ number ∧
      number + 1 ≤ d.rounds ∧ (m.nextMatch.any (·.1 = final.id) = true ↔ number + 1 = d.rounds) := by
  obtain ⟨back, position, hmat⟩ := h.at_of_not_third hm hmine hthird
  have hback : back ≠ 0 := fun h0 => by
    rw [hmat.isFinal.mpr h0] at hlast
    cases hlast
  have hwithin := hmat.within
  refine ⟨_, hmat.round, by omega, by omega, ?_⟩
  rw [hmat.before hat]
  omega

/-- Who plays for third place. -/
theorem third_played (hdb : WellFormed db) (hplayed : PlayedOut db t.id) (hm : m ∈ db.battles.rows)
    (hmine : m.tournament = some t.id) (hthird : m.isThirdPlace = true) : ∃ w p q, m.Won w p q ∧ p ≠ q := by
  obtain ⟨hthird3, hstatic⟩ := h.third_static hm hmine hthird
  have hbye : m.decidedReason ≠ some .bye := fun hbye => by
    obtain ⟨_, hat, _⟩ := h.bye hm hmine hbye
    rw [hat.not_third] at hthird
    cases hthird
  obtain ⟨w, p, q, hwon⟩ := hplayed.won hdb hm hmine hbye
  obtain ⟨_, _, _, _, _, hp⟩ := h.contender hthird3 hm hstatic hwon.first
  obtain ⟨_, _, _, _, _, hq⟩ := h.contender hthird3 hm hstatic hwon.second
  refine ⟨w, p, q, hwon, fun heq => ?_⟩
  subst heq
  have hbit := (h.apart hp hq).1
  cases w <;> cases hbit

/-- **The end of a bracket.** -/
theorem finale (hdb : WellFormed db) (hplayed : PlayedOut db t.id) : ∃ final x y,
    Finale (battlesOf db t.id) (t.participants.map Participant.profile) t.rounds.length final x y := by
  have hrounds := BracketPlan.one_le_rounds h.plotted.fits
  obtain ⟨final, hfinal, hmine, hat⟩ := h.find (by omega : 0 < d.rounds) (Nat.one_pos : 0 < 2 ^ 0)
  obtain ⟨w, x, y, hwon⟩ := hplayed.won hdb hfinal hmine (h.final_played hfinal hmine hat)
  have hmem : ∀ {m}, m ∈ battlesOf db t.id ↔ m ∈ db.battles.rows ∧ m.tournament = some t.id := fun {m} => by
    simp [battlesOf]
  have hunder := h.under hfinal hmine hat hwon.first
  have hunder' := h.under hfinal hmine hat hwon.second
  -- who comes from the side that lost a semifinal
  have hbehind : ∀ {m position v z}, m ∈ db.battles.rows → m.At d 1 position → m.winnerSlot = some v →
      d.Under 1 position v.other z → Behind (t.participants.map Participant.profile) x y z := fun hm hsemi hv hz =>
    ⟨h.participant hz, h.beaten_ne hfinal hmine hat hwon.first hm hsemi hv hz,
      h.beaten_ne hfinal hmine hat hwon.second hm hsemi hv hz⟩
  refine ⟨final, x, y, hmem.mpr ⟨hfinal, hmine⟩, hat.isFinal.mpr rfl,
    fun m hm => h.eq_final hfinal hat (hmem.mp hm).1 (hmem.mp hm).2, ⟨w, hwon⟩, fun heq => ?_,
    ⟨h.participant hunder, h.participant hunder'⟩, h.rounds ▸ hrounds, fun m hm hlast hthird => ?_,
    fun m hm hthird => ?_, fun m hm hnext hbye => ?_, fun m hm hbye hdecided v hv => ?_, fun z hz => ?_⟩
  · subst heq
    exact w.other_ne (h.apart hunder' hunder).2
  · rw [h.rounds]
    exact h.earlier hat (hmem.mp hm).1 (hmem.mp hm).2 hlast hthird
  · obtain ⟨hm, hmmine⟩ := hmem.mp hm
    obtain ⟨hthird3, hstatic⟩ := h.third_static hm hmmine hthird
    refine ⟨Match.nextMatch_of_static hstatic, fun n hn hn3 => ?_, ?_⟩
    · obtain ⟨hn, hnmine⟩ := hmem.mp hn
      exact Table.eq_of_key hn hm (Match.id_of_static ((h.third_static hn hnmine hn3).2.trans hstatic.symm))
    obtain ⟨v, p, q, hmwon, hne⟩ := h.third_played hdb hplayed hm hmmine hthird
    obtain ⟨semi, hsemi, hsemiat, u, hu, hp⟩ := h.contender hthird3 hm hstatic hmwon.first
    obtain ⟨semi', hsemi', hsemiat', u', hu', hq⟩ := h.contender hthird3 hm hstatic hmwon.second
    exact ⟨v, p, q, hmwon, hne, hbehind hsemi hsemiat hu hp, hbehind hsemi' hsemiat' hu' hq⟩
  · obtain ⟨hm, hmmine⟩ := hmem.mp hm
    obtain ⟨position, hsemi⟩ := h.at_of_before hat hm hmmine hnext
    obtain ⟨v, p, q, hmwon⟩ := hplayed.won hdb hm hmmine hbye
    exact ⟨v, p, q, hmwon, hbehind hm hsemi hmwon.winner (h.under hm hmmine hsemi hmwon.second)⟩
  · exact (h.bye_alone hdb (hmem.mp hm).1 (hmem.mp hm).2 hbye hdecided hv).2
  · have hnot : ∀ slot, final.players.get slot ≠ some z := fun slot hslot => by
      by_cases hside : slot = w
      · rw [hside, hwon.first] at hslot
        exact hz.first (Option.some.inj hslot).symm
      · rw [Slot.eq_other_of_ne hside, hwon.second] at hslot
        exact hz.second (Option.some.inj hslot).symm
    obtain ⟨m, hm, hmmine, ⟨position, hsemi⟩, hbye⟩ := h.shared hdb hplayed hfinal hmine hat hz.enrolled hnot
    exact ⟨m, hmem.mpr ⟨hm, hmmine⟩, (hsemi.before hat).mpr rfl, hbye⟩

end Charts

end
end Arena
end CpcJudge
