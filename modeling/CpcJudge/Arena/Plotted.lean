import CpcJudge.Arena.Drawn
import CpcJudge.Arena.ThirdPlace

/-!
# `Arena.Plotted` — where the players of a bracket come from

The places of the first round are numbered from the left, and each slot of a match has a block of them below it: half
of those of its match. As long as no player is replaced, whoever sits at a slot comes from its block, through a match
that is decided, from the side of its winner; the match for third place takes its players from the other sides of the
semifinals (`Plotted`). A winner corrected late may leave a bracket whose players did not all play each other, but
never on another side.
-/

namespace CpcJudge
namespace Arena

/-- The first or the second slot, as a number. -/
def Slot.bit : Slot → ℕ
  | .a => 0
  | .b => 1

theorem Slot.bit_lt (slot : Slot) : slot.bit < 2 := by cases slot <;> decide

namespace BracketPlan

/-- Who is at a place of the first round. -/
def leaf (d : BracketPlan) (i : ℕ) : Option Participant := (seedingOrder d.size)[i]?.bind d.seat

/-- The player comes from a place below that slot. -/
def Under (d : BracketPlan) (back position : ℕ) (slot : Slot) (x : ProfileId) : Prop :=
  ∃ i, i / 2 ^ (d.rounds - (back + 1)) = 2 * position + slot.bit ∧ (d.leaf i).map Participant.profile = some x

/-- The same, by the key of the match. -/
def Side (d : BracketPlan) (id : MatchId) (slot : Slot) (x : ProfileId) : Prop :=
  ∃ back position, back < d.rounds ∧ position < 2 ^ back ∧ id = d.matchId back position ∧ d.Under back position slot x

section
variable {d : BracketPlan} {back position p q i j : ℕ} {slot s t : Slot} {x : ProfileId} {m n : Match}

/-- Different places have different players. -/
theorem leaf_inj (fits : d.Fits) (hdistinct : (d.tournament.participants.map Participant.profile).Nodup)
    (hi : (d.leaf i).map Participant.profile = some x) (hj : (d.leaf j).map Participant.profile = some x) : i = j := by
  have hseed : ∀ {i : ℕ}, (d.leaf i).map Participant.profile = some x → ∃ y ∈ d.tournament.participants,
      y.profile = x ∧ (seedingOrder d.size)[i]? = some y.seed := by
    intro i h
    obtain ⟨y, hy, rfl⟩ := Option.map_eq_some_iff.mp h
    obtain ⟨seed, horder, hseat⟩ := Option.bind_eq_some_iff.mp hy
    have hfound : y.seed = seed := by simpa using List.find?_some hseat
    exact ⟨y, List.mem_of_find?_eq_some hseat, rfl, hfound ▸ horder⟩
  obtain ⟨y, hy, hyx, hyseed⟩ := hseed hi
  obtain ⟨z, hz, hzx, hzseed⟩ := hseed hj
  obtain rfl : y = z := List.inj_on_of_nodup_map hdistinct hy hz (hyx.trans hzx.symm)
  have hnodup : (seedingOrder d.size).Nodup := by
    rw [fits.size, bracketSize_eq, seedingOrder_pow]
    exact nodup_orderOf _
  exact (List.getElem?_inj (List.getElem?_eq_some_iff.mp hyseed).1 hnodup).mp (hyseed.trans hzseed.symm)

/-- Whoever is at a place is a participant. -/
theorem Under.participant (h : d.Under back position slot x) : ∃ y ∈ d.tournament.participants, y.profile = x := by
  obtain ⟨i, _, hx⟩ := h
  obtain ⟨y, hy, rfl⟩ := Option.map_eq_some_iff.mp hx
  obtain ⟨seed, _, hseat⟩ := Option.bind_eq_some_iff.mp hy
  exact ⟨y, List.mem_of_find?_eq_some hseat, rfl⟩

/-- Nobody comes from two slots of a round. -/
theorem Under.apart (fits : d.Fits) (hdistinct : (d.tournament.participants.map Participant.profile).Nodup)
    (h : d.Under back p s x) (h' : d.Under back q t x) : p = q ∧ s = t := by
  obtain ⟨i, hi, hx⟩ := h
  obtain ⟨j, hj, hx'⟩ := h'
  obtain rfl := leaf_inj fits hdistinct hx hx'
  have hsame := hi.symm.trans hj
  cases s <;> cases t <;> simp only [Slot.bit] at hsame <;> exact ⟨by omega, by first | rfl | omega⟩

/-- The block of a slot is that of the match its player comes from. -/
theorem Under.up (hback : back + 1 < d.rounds) (h : d.Under (back + 1) position slot x) :
    d.Under back (position / 2) (slotOf position) x := by
  obtain ⟨i, hi, hx⟩ := h
  refine ⟨i, ?_, hx⟩
  have hpow : 2 ^ (d.rounds - (back + 1)) = 2 ^ (d.rounds - (back + 1 + 1)) * 2 := by
    rw [← pow_succ]
    congr 1
    omega
  have hslot : (slotOf position).bit = position % 2 := by
    unfold slotOf
    split
    · simp only [Slot.bit]
      omega
    · simp only [Slot.bit]
      omega
  have hbit := slot.bit_lt
  rw [hpow, ← Nat.div_div_eq_div_mul, hi, hslot]
  omega

/-- The players of a match of the first round are those of its two places. -/
theorem node_players (hfirst : back + 1 = d.rounds) : (d.node back position).players =
    ⟨(d.leaf (2 * position)).map Participant.profile, (d.leaf (2 * position + 1)).map Participant.profile⟩ := by
  unfold node
  rw [if_pos hfirst]
  unfold seatPlayers
  dsimp only
  split <;> rfl

theorem under_node (hfirst : back + 1 = d.rounds) (h : (d.node back position).players.get slot = some x) :
    d.Under back position slot x := by
  rw [node_players hfirst] at h
  have hone : d.rounds - (back + 1) = 0 := by omega
  cases slot with
  | a => exact ⟨2 * position, by rw [hone]; simp [Slot.bit], h⟩
  | b => exact ⟨2 * position + 1, by rw [hone]; simp [Slot.bit], h⟩

/-- Whoever comes from a slot of the first round sits at it. -/
theorem Under.seated (hfirst : back + 1 = d.rounds) (h : d.Under back position slot x) :
    (d.node back position).players.get slot = some x := by
  obtain ⟨i, hi, hx⟩ := h
  rw [show d.rounds - (back + 1) = 0 by omega, pow_zero, Nat.div_one] at hi
  rw [node_players hfirst]
  subst hi
  cases slot with
  | a => exact hx
  | b => exact hx

theorem Side.under (h : d.Side (d.matchId back position) slot x) (hposition : position < 2 ^ back) :
    d.Under back position slot x := by
  obtain ⟨b, p, _, hp, hid, hunder⟩ := h
  obtain ⟨rfl, rfl⟩ := matchId_inj hposition hp hid
  exact hunder

theorem slotOf_bit (position : ℕ) (slot : Slot) :
    slotOf (2 * position + slot.bit) = slot ∧ (2 * position + slot.bit) / 2 = position := by
  have hbit := slot.bit_lt
  refine ⟨?_, by omega⟩
  unfold slotOf
  cases slot with
  | a => simp [Slot.bit]
  | b => rw [if_neg (by simp only [Slot.bit]; omega)]

end
end BracketPlan

/-- A decided match sends a player there: the winner comes from the side that won, the loser from the other. -/
def Match.Delivers (d : BracketPlan) (m : Match) (p : MatchId × Slot) (x : ProfileId) : Prop :=
  m.status = .decided ∧ ∃ w, m.winnerSlot = some w ∧
    ((m.nextMatch = some p ∧ d.Side m.id w x) ∨ (m.loserNextMatch = some p ∧ d.Side m.id w.other x))

/-- Whoever sits at a slot of the bracket was sent there; the slots of `awaited` are not settled yet. -/
def Sent (d : BracketPlan) (awaited : List (MatchId × Slot)) (m n : Match) (p : MatchId × Slot) : Prop :=
  m.tournament = some d.tournament.id → n.tournament = some d.tournament.id → p ∉ awaited →
    ∀ x, n.players.get p.2 = some x → m.Delivers d p x

/-- No player of the tournament is replaced. -/
def KeepsPlayers (id : TournamentId) (op : Op) (db : Db) : Prop :=
  match op with
  | .organize _ (.onMatch i _ (.replace _ _ _)) => ∀ m, db.match? i = some m → m.tournament ≠ some id
  | _ => True

/-- The matches of a tournament are those of the plan, the players of its first round are those of its places, and the
    others came up from there. -/
structure Plotted (d : BracketPlan) (awaited : List (MatchId × Slot)) (db : Db) : Prop where
  fits : d.Fits
  rows : ∀ m ∈ db.battles.rows, m.tournament = some d.tournament.id → ∃ n ∈ d.allMatches, m.static = n.static
  filled : ∀ n ∈ d.allMatches, ∃ m ∈ db.battles.rows, m.static = n.static
  first : ∀ m ∈ db.battles.rows, m.tournament = some d.tournament.id → ∀ position < 2 ^ (d.rounds - 1),
    m.id = d.matchId (d.rounds - 1) position → m.players = (d.node (d.rounds - 1) position).players
  sent : Joined (Sent d awaited) db

section
variable {organizer : Bool} {scope : MatchId → Prop} {db db' db1 : Db} {m m' n : Match} {q : MatchId × Slot}
  {seed : Option ℕ} {x : ProfileId} {slot : Slot} {d d' : BracketPlan} {l l' : List (MatchId × Slot)}
  {R : Match → Match → Prop} {site : Site} {op : Op}

theorem BracketPlan.one_le_rounds (fits : d.Fits) : 1 ≤ d.rounds := by
  rw [fits.rounds]
  exact (half_lt fits.count).1

theorem Match.Delivers.of_same (h : m.Delivers d q x) (hstatic : m'.static = m.static)
    (hdecided : m'.status = .decided ↔ m.status = .decided) (hwinner : m'.winnerSlot = m.winnerSlot) :
    m'.Delivers d q x := by
  unfold Match.Delivers
  rw [hdecided, hwinner, Match.id_of_static hstatic, Match.nextMatch_of_static hstatic,
    Match.loserNextMatch_of_static hstatic]
  exact h

namespace Plotted

/-- The places a match of the bracket may have. -/
theorem place (hI : Plotted d l db) (hm : m ∈ db.battles.rows) (hmine : m.tournament = some d.tournament.id) :
    (∃ back position, back < d.rounds ∧ position < 2 ^ back ∧ m.static = (d.node back position).static) ∨
      (d.third = true ∧ m.static = d.thirdMatch.static) := by
  obtain ⟨n, hn, hstatic⟩ := hI.rows m hm hmine
  rcases (BracketPlan.mem_allMatches hI.fits).mp hn with ⟨back, position, hback, hposition, rfl⟩ | ⟨hthird, rfl⟩
  · exact .inl ⟨back, position, hback, hposition, hstatic⟩
  · exact .inr ⟨hthird, hstatic⟩

/-- The match of a place. -/
theorem find (hI : Plotted d l db) {back position : ℕ} (hback : back < d.rounds) (hposition : position < 2 ^ back) :
    ∃ m ∈ db.battles.rows, m.tournament = some d.tournament.id ∧ m.static = (d.node back position).static := by
  have hmem : d.node back position ∈ d.allMatches :=
    (BracketPlan.mem_allMatches hI.fits).mpr (.inl ⟨back, position, hback, hposition, rfl⟩)
  obtain ⟨m, hm, hstatic⟩ := hI.filled _ hmem
  exact ⟨m, hm, (Match.tournament_of_static hstatic).trans (d.mem_fresh hI.fits hmem).1, hstatic⟩

/-- Nobody sits on the wrong side. -/
theorem side (hI : Plotted d [] db) (hm : m ∈ db.battles.rows) (hmine : m.tournament = some d.tournament.id)
    (hthird : m.isThirdPlace = false) (hx : m.players.get slot = some x) : d.Side m.id slot x := by
  rcases hI.place hm hmine with ⟨back, position, hback, hposition, hstatic⟩ | ⟨_, hstatic⟩
  · have hid : m.id = d.matchId back position := (Match.id_of_static hstatic).trans (d.node_id back position)
    refine ⟨back, position, hback, hposition, hid, ?_⟩
    by_cases hfirst : back + 1 = d.rounds
    · obtain rfl : back = d.rounds - 1 := by omega
      rw [hI.first m hm hmine position hposition hid] at hx
      exact BracketPlan.under_node hfirst hx
    · -- the player was sent by the match of that side
      obtain ⟨hslot, hhalf⟩ := BracketPlan.slotOf_bit position slot
      have hbit := slot.bit_lt
      have hlow : 2 * position + slot.bit < 2 ^ (back + 1) := by
        rw [pow_succ]
        omega
      obtain ⟨f, hf, hfmine, hfstatic⟩ := hI.find (by omega : back + 1 < d.rounds) hlow
      have hnext : f.nextMatch = some (m.id, slot) := by
        rw [Match.nextMatch_of_static hfstatic, Match.nextMatch_of_static (d.node_static _ _), hid]
        simp only [BracketPlan.blank, Nat.add_eq_zero_iff, one_ne_zero, and_false, if_false, Nat.add_sub_cancel, hslot,
          hhalf]
      obtain ⟨_, w, _, hsent⟩ := hI.sent f hf (m.id, slot) (Match.mem_targets.mpr (.inl hnext)) m hm rfl hfmine hmine
        List.not_mem_nil x hx
      have hfid : f.id = d.matchId (back + 1) (2 * position + slot.bit) :=
        (Match.id_of_static hfstatic).trans (d.node_id _ _)
      rcases hsent with ⟨_, hside⟩ | ⟨hloser, _⟩
      · rw [hfid] at hside
        have hup := (hside.under hlow).up (by omega)
        rwa [hslot, hhalf] at hup
      · obtain ⟨y, hy, hystatic⟩ := hI.rows f hf hfmine
        rw [Match.loserNextMatch_of_static hystatic] at hloser
        obtain ⟨_, _, _, _, _, heq⟩ := BracketPlan.loser_of_mem hI.fits hy hloser
        exact absurd (hid.symm.trans (Prod.mk.inj heq).1) (BracketPlan.matchId_ne_third hback hposition)
  · rw [show m.isThirdPlace = true from congrArg (·.2.2.2.1) hstatic] at hthird
    cases hthird

/-- A match that leads somewhere is not the one for third place. -/
theorem not_third (hI : Plotted d l db) (hm : m ∈ db.battles.rows) (hmine : m.tournament = some d.tournament.id)
    (htargets : m.targets ≠ []) : m.isThirdPlace = false := by
  rcases hI.place hm hmine with ⟨back, position, _, _, hstatic⟩ | ⟨_, hstatic⟩
  · exact congrArg (·.2.2.2.1) (hstatic.trans (d.node_static back position))
  · exact absurd (Match.targets_of_static hstatic) htargets

/-! ## Rows rewritten -/

theorem mono (hI : Plotted d l db) (h : ∀ q ∈ l, q ∈ l') : Plotted d l' db :=
  ⟨hI.fits, hI.rows, hI.filled, hI.first, fun m hm p hp n hn hid hmine hnmine hnot =>
    hI.sent m hm p hp n hn hid hmine hnmine fun hmem => hnot (h p hmem)⟩

/-- The matches are rewritten where they are, with the players of the first round. -/
theorem maps (hI : Plotted d l db) (hmaps : Table.Maps R db.battles db'.battles)
    (hstatic : ∀ m m', R m m' → m'.static = m.static)
    (hfirst : ∀ m ∈ db.battles.rows, ∀ m', R m m' → m.tournament = some d.tournament.id → d.Far m.id →
      m'.players = m.players) (hsent : Joined (Sent d l') db') : Plotted d l' db' := by
  refine ⟨hI.fits, fun m' hm' hmine => ?_, fun n hn => ?_, fun m' hm' hmine position hposition hid => ?_, hsent⟩
  · obtain ⟨m, hm, _, hmm'⟩ := hmaps.back hm'
    rw [Match.tournament_of_static (hstatic m m' hmm')] at hmine
    rw [hstatic m m' hmm']
    exact hI.rows m hm hmine
  · obtain ⟨m, hm, hmn⟩ := hI.filled n hn
    obtain ⟨m', hm', hmm'⟩ := hmaps.forth (Table.get?_of_mem hm)
    exact ⟨m', Table.mem_of_get? hm', (hstatic m m' hmm').trans hmn⟩
  · obtain ⟨m, hm, _, hmm'⟩ := hmaps.back hm'
    rw [Match.tournament_of_static (hstatic m m' hmm')] at hmine
    rw [Match.id_of_static (hstatic m m' hmm')] at hid
    have hfar : d.Far m.id := hid ▸ BracketPlan.firstRound_far hI.fits (BracketPlan.one_le_rounds hI.fits) hposition
    rw [hfirst m hm m' hmm' hmine hfar]
    exact hI.first m hm hmine position hposition hid

theorem stays (hI : Plotted d l db) (hmaps : Table.Maps Match.Stays db.battles db'.battles) : Plotted d l db' := by
  refine hI.maps hmaps (fun _ _ h => h.static) (fun _ _ _ h _ _ => h.players) (hI.sent.maps (hmaps.mono ?_))
  refine fun m m' _ h => ⟨h.static, fun n p hs hmine hn hp x hx => ?_, fun y p hs hmine hm' hp x hx => ?_⟩
  · rw [Match.tournament_of_static h.static] at hmine
    exact (hs hmine hn hp x hx).of_same h.static h.decided h.winner
  · rw [Match.tournament_of_static h.static] at hm'
    rw [h.players] at hx
    exact hs hmine hm' hp x hx

/-- The rows of the tournament are the same. -/
theorem same_rows (hI : Plotted d l db)
    (h : ∀ m, m.tournament = some d.tournament.id → (m ∈ db'.battles.rows ↔ m ∈ db.battles.rows)) : Plotted d l db' := by
  refine ⟨hI.fits, fun m hm hmine => hI.rows m ((h m hmine).mp hm) hmine, fun n hn => ?_,
    fun m hm hmine => hI.first m ((h m hmine).mp hm) hmine, fun m hm p hp n hn hid hmine hnmine => ?_⟩
  · obtain ⟨m, hm, hstatic⟩ := hI.filled n hn
    have hmine : m.tournament = some d.tournament.id :=
      (Match.tournament_of_static hstatic).trans (d.mem_fresh hI.fits hn).1
    exact ⟨m, (h m hmine).mpr hm, hstatic⟩
  · exact hI.sent m ((h m hmine).mp hm) p hp n ((h n hnmine).mp hn) hid hmine hnmine

theorem same_battles (hI : Plotted d l db) (h : db'.battles = db.battles) : Plotted d l db' :=
  hI.same_rows fun m _ => by rw [h]

/-- A match is saved with its players; nobody sits where it leads, or they are awaited there. -/
theorem saved (hI : Plotted d [] db) (here : db.match? m.id = some m)
    (hstatic : m'.static = m.static) (hplayers : m'.players = m.players) (battles : db'.battles = db.battles.put m')
    (hawaited : ∀ p ∈ m.targets, p ∈ l ∨ m.status ≠ .decided) : Plotted d l db' := by
  have hid : m'.id = m.id := Match.id_of_static hstatic
  have hm := Table.mem_of_get? here
  refine hI.maps (R := fun a b => b.static = a.static ∧ b.players = a.players) ?_ (fun _ _ h => h.1)
    (fun _ _ _ h _ _ => h.2) fun a ha p hp b hb hbp hmine hbmine hnot x hx => ?_
  · rw [battles]
    refine Table.Maps.put (b := m) (fun _ => ⟨rfl, rfl⟩) ?_ ⟨hstatic, hplayers⟩
    rw [show Keyed.key m' = m.id from hid]
    exact here
  -- the players of a row are those it had
  obtain ⟨b0, hb0, hb0b, hb0players⟩ : ∃ b0 ∈ db.battles.rows, b.static = b0.static ∧ b.players = b0.players := by
    rcases Table.mem_put (battles ▸ hb) with rfl | ⟨hb, _⟩
    · exact ⟨m, hm, hstatic, hplayers⟩
    · exact ⟨b, hb, rfl, rfl⟩
  rw [hb0players] at hx
  rw [Match.id_of_static hb0b] at hbp
  rw [Match.tournament_of_static hb0b] at hbmine
  rcases Table.mem_put (battles ▸ ha) with rfl | ⟨ha, _⟩
  · rw [Match.targets_of_static hstatic] at hp
    rw [Match.tournament_of_static hstatic] at hmine
    have hgoing := (hawaited p hp).resolve_left hnot
    exact absurd (hI.sent m hm p hp b0 hb0 hbp hmine hbmine List.not_mem_nil x hx).1 hgoing
  · exact hI.sent a ha p hp b0 hb0 hbp hmine hbmine List.not_mem_nil x hx

end Plotted

/-! ## Players on their way -/

/-- A player arrives who was sent there. -/
theorem Placed.plotted (h : Placed seed db (some q) (some x) db') (hI : Plotted d (q :: l) db) (hdb : WellFormed db)
    (hm : m ∈ db.battles.rows) (hq : q ∈ m.targets) (hx : m.tournament = some d.tournament.id → m.Delivers d q x) :
    Plotted d l db' := by
  refine hI.maps h.seats (fun _ _ h => h.static) (fun a ha b hab hmine hfar => ?_)
    fun a' ha' p hp b' hb' hid hmine hbmine hnot y hy => ?_
  · -- nobody arrives in the first round
    refine Pair.ext_get fun s => (hab.seat s fun heq => ?_).1
    have hqa : a.id = q.1 := congrArg Prod.fst heq
    have hmmine : m.tournament = some d.tournament.id := (hdb.wired.inside m hm q hq a ha hqa).symm.trans hmine
    obtain ⟨n, hn, hstatic⟩ := hI.rows m hm hmmine
    exact hfar n hn q (Match.targets_of_static hstatic ▸ hq) hqa.symm
  · obtain ⟨a, ha, _, haa'⟩ := h.seats.back ha'
    obtain ⟨b, hb, _, hbb'⟩ := h.seats.back hb'
    rw [Match.targets_of_static haa'.static] at hp
    rw [Match.tournament_of_static haa'.static] at hmine
    by_cases hpq : p = q
    · subst hpq
      obtain rfl : a = m := Table.eq_of_key ha hm (hdb.wired.single a ha m hm p hp hq)
      obtain rfl := Option.some.inj ((h.arrives hb' hid).1.symm.trans hy)
      exact (hx hmine).of_same haa'.static haa'.decided haa'.winner
    · rw [Match.id_of_static hbb'.static] at hid
      rw [Match.tournament_of_static hbb'.static] at hbmine
      rw [(hbb'.seat p.2 fun heq => hpq (by rw [← heq, hid])).1] at hy
      have hnot' : p ∉ q :: l := fun hmem => (List.mem_cons.mp hmem).elim hpq hnot
      exact (hI.sent a ha p hp b hb hid hmine hbmine hnot' y hy).of_same haa'.static haa'.decided haa'.winner

/-- A player arrives, if there is one and somewhere to go. -/
theorem Placed.settles {target : Option (MatchId × Slot)} {p : Option ProfileId} (h : Placed seed db target p db')
    (hI : Plotted d l db) (hdb : WellFormed db) (hm : m ∈ db.battles.rows) (htarget : ∀ q, target = some q → q ∈ m.targets)
    (hsent : ∀ q x, target = some q → p = some x → m.tournament = some d.tournament.id → m.Delivers d q x)
    (hl : ∀ q ∈ l, q ∈ l' ∨ (target = some q ∧ p.isSome = true)) : Plotted d l' db' := by
  cases h with
  | nobody => exact hI.mono fun q hq => (hl q hq).resolve_right fun h => by cases h.2
  | nowhere => exact hI.mono fun q hq => (hl q hq).resolve_right fun h => by cases h.1
  | @placed id n slot p here unplayed =>
      refine Placed.plotted (.placed slot p here unplayed) (hI.mono fun q hq => ?_) hdb hm (htarget _ rfl)
        (hsent _ _ rfl rfl)
      rcases hl q hq with hmem | ⟨heq, _⟩
      · exact List.mem_cons_of_mem _ hmem
      · exact Option.some.inj heq ▸ List.mem_cons_self

/-- The players of a decided match go where they are awaited. -/
theorem Advanced.plotted (h : Advanced m db db') (hdb : WellFormed db) (hm : m ∈ db.battles.rows)
    (hdecided : m.status = .decided)
    (hside : m.tournament = some d.tournament.id → m.targets ≠ [] → ∀ slot x, m.players.get slot = some x →
      d.Side m.id slot x) (hI : Plotted d l db)
    (hl : ∀ q ∈ l, m.nextMatch = some q ∨ (m.loserNextMatch = some q ∧ m.ready = true)) : Plotted d [] db' := by
  have htargets : ∀ q, m.nextMatch = some q ∨ m.loserNextMatch = some q → q ∈ m.targets := fun q hq =>
    Match.mem_targets.mpr hq
  cases h with
  | quick hquick =>
      refine hI.mono fun q hq => ?_
      have hmem := htargets q ((hl q hq).imp_right And.left)
      rw [hdb.wired.quick m hm hquick] at hmem
      cases hmem
  | @onward t w db1 db2 _ _ won seated next loser checked =>
      have hI1 : Plotted d (l.filter (m.loserNextMatch = some ·)) db1 := by
        refine next.settles hI hdb hm (fun q hq => htargets q (.inl hq)) (fun q y hq hy hmine => ?_) fun q hq => ?_
        · exact ⟨hdecided, w, won, .inl ⟨hq, hside hmine (List.ne_nil_of_mem (htargets q (.inl hq))) w y hy⟩⟩
        · refine (hl q hq).symm.imp (fun hloser => List.mem_filter.mpr ⟨hq, ?_⟩) fun hnext => ⟨hnext, seated⟩
          simpa using hloser.1
      -- the match is still where it was
      obtain ⟨m1, hm1, hstatic, hdecided1, hwinner⟩ : ∃ m1 ∈ db1.battles.rows, m1.static = m.static ∧
          (m1.status = .decided ↔ m.status = .decided) ∧ m1.winnerSlot = m.winnerSlot := by
        rcases next.cases with rfl | ⟨q, profile, _, _, hplaced⟩
        · exact ⟨m, hm, rfl, Iff.rfl, rfl⟩
        · obtain ⟨m1, here, hseats⟩ := hplaced.seats.forth (Table.get?_of_mem hm)
          exact ⟨m1, Table.mem_of_get? here, hseats.static, hseats.decided, hseats.winner⟩
      have hI2 : Plotted d [] db2 := by
        refine loser.settles hI1 (hdb.placed next) hm1
          (fun q hq => Match.targets_of_static hstatic ▸ htargets q (.inr hq)) (fun q y hq hy hmine => ?_) fun q hq => ?_
        · rw [Match.tournament_of_static hstatic] at hmine
          have hsent : m.Delivers d q y :=
            ⟨hdecided, w, won, .inr ⟨hq, hside hmine (List.ne_nil_of_mem (htargets q (.inr hq))) w.other y hy⟩⟩
          exact hsent.of_same hstatic hdecided1 hwinner
        · obtain ⟨hq, hloser⟩ := List.mem_filter.mp hq
          rcases hl q hq with hnext | ⟨hloser, hready⟩
          · exact absurd rfl (hdb.wired.apart m hm q q hnext (of_decide_eq_true hloser))
          · refine .inr ⟨hloser, ?_⟩
            rw [Match.ready, Bool.and_eq_true] at hready
            cases w with
            | a => exact hready.2
            | b => exact hready.1
      exact hI2.same_battles checked.battles

/-! ## Changes -/

namespace Plotted

/-- A bracket just drawn is plotted. -/
theorem drawn (fits : d.Fits) (hbelow : ∀ m ∈ db.battles.rows, m.id < db.nextId) (base : d.base = db.nextId)
    (battles : db'.battles =
      d.allMatches.foldl Table.add (db.battles.filter fun m => m.tournament ≠ some d.tournament.id)) :
    Plotted d l db' := by
  have hrows : ∀ m ∈ db'.battles.rows, m.tournament = some d.tournament.id → m ∈ d.allMatches := fun m hm hmine => by
    rcases Table.mem_foldl_add (battles ▸ hm) with hold | hnew
    · exact absurd hmine (by simpa using (Table.mem_filter.mp hold).2)
    · exact hnew
  refine ⟨fits, fun m hm hmine => ⟨m, hrows m hm hmine, rfl⟩, fun n hn => ?_,
    fun m hm hmine position hposition hid => ?_, fun m hm p hp n hn hid hmine hnmine _ x hx => ?_⟩
  · have here : db'.match? n.id = some n := by
      rw [Db.match?, battles]
      exact BracketPlan.match?_of_mem fits hbelow base hn rfl
    exact ⟨n, Table.mem_of_get? here, rfl⟩
  · have hmem : d.node (d.rounds - 1) position ∈ d.allMatches :=
      (BracketPlan.mem_allMatches fits).mpr
        (.inl ⟨_, position, by have := BracketPlan.one_le_rounds fits; omega, hposition, rfl⟩)
    rw [BracketPlan.eq_of_id fits (hrows m hm hmine) hmem (hid.trans (d.node_id _ _).symm)]
  · rw [BracketPlan.target_empty fits (hrows m hm hmine) (hrows n hn hnmine) hp hid, Pair.get_both] at hx
    cases hx

/-- A change keeps the bracket, unless it draws another. -/
theorem change (hI : Plotted d [] db) (hdb : WellFormed db) (h : Change organizer scope db db')
    (hkept : ∃ m ∈ db'.battles.rows, m.tournament = some d.tournament.id ∧ m.id < db.nextId) : Plotted d [] db' := by
  cases h with
  | @row m m' _ here _ step saves =>
      refine hI.stays ?_
      rw [saves.battles]
      refine Table.Maps.put (b := m) (fun _ => ⟨rfl, Iff.rfl, rfl, rfl, rfl⟩) ?_ step.stays
      rw [show Keyed.key m' = m.id from Match.id_of_static step.static]
      exact here
  | @decide m m' db1 _ here _ step saves advanced =>
      have hstatic : m'.static = m.static := step.static
      have hplayers : m'.players = m.players := by
        cases step <;> rfl
      have hdecided : m'.status = .decided := by
        cases step <;> rfl
      have hgoing : m.status ≠ .decided := fun hm => by
        have hover : m.isOver = false := by
          cases step <;> assumption
        simp [Match.isOver, hm] at hover
      have hm := Table.mem_of_get? here
      have hdb1 : WellFormed db1 := hdb.saves saves here hstatic fun hm => hm.decides step
      have hmem : m' ∈ db1.battles.rows := by
        rw [saves.battles]
        refine Table.mem_of_get? (Table.get?_put_self (b := m) ?_)
        rw [show Keyed.key m' = m.id from Match.id_of_static hstatic]
        exact here
      have hI1 : Plotted d [] db1 := hI.saved here hstatic hplayers saves.battles fun _ _ => .inr hgoing
      refine advanced.plotted hdb1 hmem hdecided (fun hmine htargets slot x hx => ?_) hI1 fun q hq => by cases hq
      rw [Match.tournament_of_static hstatic] at hmine
      rw [Match.targets_of_static hstatic] at htargets
      rw [hplayers] at hx
      rw [Match.id_of_static hstatic]
      exact hI.side hm hmine (hI.not_third hm hmine htargets) hx
  | @duel m _ quick _ _ _ _ _ _ _ battles =>
      refine hI.same_rows fun x hmine => ?_
      rw [battles]
      refine ⟨fun hx => (Table.mem_add hx).resolve_left fun heq => ?_, Table.mem_add_of_mem⟩
      rw [heq, quick] at hmine
      cases hmine
  | @bracket d' _ _ fits _ _ base _ battles =>
      have hother : d'.tournament.id ≠ d.tournament.id := fun heq => by
        obtain ⟨m, hm, hmine, hlow⟩ := hkept
        rcases Table.mem_foldl_add (battles ▸ hm) with hold | hnew
        · refine absurd hmine ?_
          rw [← heq]
          simpa using (Table.mem_filter.mp hold).2
        · exact absurd hlow (not_lt.mpr (base ▸ (d'.id_bounds fits hnew).1))
      refine hI.same_rows fun m hmine => ?_
      rw [battles]
      refine ⟨fun hm => ?_, fun hm => Table.mem_foldl_add_of_mem (Table.mem_filter.mpr ⟨hm, ?_⟩)⟩
      · rcases Table.mem_foldl_add hm with hold | hnew
        · exact (Table.mem_filter.mp hold).1
        · have hmine' := (d'.mem_fresh fits hnew).1
          exact absurd (Option.some.inj (hmine'.symm.trans hmine)) hother
      · simpa [hmine] using hother.symm
  | tournament _ _ _ _ battles => exact hI.same_battles battles
  | newTournament _ _ _ _ battles => exact hI.same_battles battles
  | other battles => exact hI.same_battles battles

/-- A corrected winner takes the place of the other, and both have somewhere to go. -/
theorem corrects {id : MatchId} (hI : Plotted d [] db) (hdb : WellFormed db) (h : Corrects id slot m db db')
    (hother : m.winnerSlot ≠ some slot) : Plotted d [] db' := by
  obtain ⟨t, db1, now, _, hreopened, hadvanced⟩ := h.moved
  have hid : m.id = id := Table.key_of_get? h.here
  have here : db.match? m.id = some m := by
    rw [hid]
    exact h.here
  have hm := Table.mem_of_get? here
  have hdb1 : WellFormed db1 := (hdb.corrected h now).reopened hreopened
  have hm1 : m.correct slot now ∈ db1.battles.rows := by
    rw [hreopened.battles]
    exact Table.mem_of_get? (Table.get?_put_self (b := m) here)
  have hready : m.ready = true := by
    obtain ⟨w, hw, hwinner⟩ := (hdb.sound m hm).won h.decided
    have hloser := h.seated
    rw [Match.ready, Bool.and_eq_true]
    cases w <;> cases slot
    · exact absurd hw hother
    · exact ⟨hwinner, hloser⟩
    · exact ⟨hloser, hwinner⟩
    · exact absurd hw hother
  have hI1 : Plotted d m.targets db1 :=
    hI.saved here (rfl : (m.correct slot now).static = m.static) rfl hreopened.battles fun p hp => .inl hp
  refine hadvanced.plotted hdb1 hm1 h.decided (fun hmine htargets s x hx => ?_) hI1 fun q hq => ?_
  · exact hI.side (m := m) hm hmine (hI.not_third hm hmine htargets) hx
  · exact (Match.mem_targets.mp hq).imp_right fun hloser => ⟨hloser, hready⟩

/-- A player is replaced in a match that is not of the bracket. -/
theorem replaces {id : MatchId} {profile : ProfileId} (hI : Plotted d l db) (h : Replaces id slot profile m db db')
    (hother : m.tournament ≠ some d.tournament.id) : Plotted d l db' := by
  obtain ⟨display, hbattles⟩ := h.battles
  have hstatic : (m.replace slot profile display).static = m.static := by
    obtain ⟨_, heq, -⟩ := m.replace_eq slot profile display
    rw [heq]
    rfl
  have hm := Table.mem_of_get? h.here
  refine hI.same_rows fun x hmine => ?_
  rw [hbattles]
  have hne : x ≠ m := fun heq => hother (heq ▸ hmine)
  refine ⟨fun hx => ((Table.mem_put hx).resolve_left fun heq => hother ?_).1, fun hx => Table.mem_put_of_ne hx ?_⟩
  · rw [← Match.tournament_of_static hstatic, ← heq]
    exact hmine
  · exact fun hkey => hne (Table.eq_of_key hx hm (hkey.trans (Match.id_of_static hstatic)))

/-- The special requests keep the bracket. -/
theorem special (hI : Plotted d [] db) (hdb : WellFormed db) (hallowed : KeepsPlayers d.tournament.id op db)
    (hsucceeds : op.succeeds site db = true) (h : op.special db db1) : Plotted d [] db1 := by
  unfold Op.special at h
  split at h
  · refine hI.stays ?_
    rw [h.battles]
    exact Table.Maps.modify (fun _ => ⟨rfl, Iff.rfl, rfl, rfl, rfl⟩) fun _ _ _ => ⟨rfl, Iff.rfl, rfl, rfl, rfl⟩
  · obtain ⟨m, hreplaces⟩ := h
    exact hI.replaces hreplaces (hallowed m hreplaces.here)
  · obtain ⟨m, hcorrects⟩ := h
    obtain ⟨_, _, hrun, _⟩ := Op.run_of_succeeds hsucceeds
    obtain ⟨x, hx, hother⟩ := setWinner_other hrun
    obtain rfl : x = m := Option.some.inj (hx.symm.trans hcorrects.here)
    exact hI.corrects hdb hcorrects hother
  · obtain ⟨t, hbegins⟩ := h
    exact hI.same_battles hbegins.battles
  · rwa [h]

/-- A sequence of changes keeps the bracket, if one of its matches is left. -/
theorem path (hI : Plotted d [] db) (hdb : WellFormed db) (h : Path organizer scope db db') (hm : m ∈ db.battles.rows)
    (hmine : m.tournament = some d.tournament.id) (hkept : (db'.match? m.id).isSome = true) : Plotted d [] db' := by
  induction h using Relation.ReflTransGen.head_induction_on generalizing m with
  | refl => exact hI
  | @head _ db1 hstep hpath ih =>
      have hcovers : Covers (Match.Lasts organizer) organizer scope := Match.Lasts.covers
      have hdb1 := hdb.change hstep
      have hfollows := hstep.follows hcovers hdb
      cases here1 : db1.match? m.id with
      | none =>
          have hlow := lt_of_lt_of_le (hdb.below m hm) hfollows.nextId
          rw [(Path.follows hcovers hdb1 hpath).fresh m.id hlow here1] at hkept
          cases hkept
      | some m1 =>
          have hid : m1.id = m.id := Table.key_of_get? here1
          have hmine1 : m1.tournament = some d.tournament.id :=
            (Match.tournament_of_static (hfollows.rel (Table.get?_of_mem hm) here1).static).trans hmine
          have hm1 := Table.mem_of_get? here1
          refine ih (hI.change hdb hstep ⟨m1, hm1, hmine1, hid ▸ hdb.below m hm⟩) hdb1 hm1 hmine1 ?_
          rwa [hid]

end Plotted

end
end Arena
end CpcJudge
