import CpcJudge.Arena.Feeding

/-!
# `Arena.ThirdPlace` — who plays for third place

The loser of a semifinal is sent to the match for third place when the semifinal is decided, if there is a loser by
then. So the match has the right players as long as nobody arrives at the losing slot of a semifinal already decided:
the rival of a player who was given the semifinal before the rival was known, or another one after a correction.
-/

namespace CpcJudge
namespace Arena

/-- The loser of `m`, a match of `kept`, sits where losers go. -/
def LoserSeated (kept : MatchId → Prop) (m n : Match) (p : MatchId × Slot) : Prop :=
  kept m.id → m.loserNextMatch = some p → m.status = .decided → ∀ w loser, m.winnerSlot = some w →
    m.players.get w.other = some loser → n.players.get p.2 = some loser

/-- No player is replaced, and nobody is sent to the losing slot of a semifinal already decided: no match that leads
there is decided, or its winner corrected. -/
def LosersOnce (site : Site) (op : Op) (db : Db) : Prop :=
  NoReplacing site op db ∧ ∀ x ∈ (op.after site db).battles.rows, x.status = .decided →
    (∀ x' ∈ db.match? x.id, x'.status = .decided → x'.winnerSlot ≠ x.winnerSlot) →
    ∀ q ∈ x.nextMatch, ∀ n ∈ (op.after site db).match? q.1, n.loserNextMatch.isSome = true →
      n.status = .decided → n.winnerSlot = some q.2

section
variable {kept : MatchId → Prop} {organizer : Bool} {scope : MatchId → Prop} {db db' db1 : Db} {m m' n n' : Match}
  {p q : MatchId × Slot} {op : Op} {site : Site} {seed : Option ℕ} {profile : ProfileId}

theorem Match.Stays.keepsLosers (h : m.Stays m') : m.KeepsLinks (LoserSeated kept) m' := by
  refine ⟨h.static, fun n p hseated => ?_, fun x p hseated => ?_⟩
  · unfold LoserSeated
    rw [Match.id_of_static h.static, Match.loserNextMatch_of_static h.static, h.decided, h.winner, h.players]
    exact hseated
  · unfold LoserSeated
    rw [h.players]
    exact hseated

/-! ## A player on their way -/

/-- A link that a player arriving at `q` has nothing to do with. -/
theorem LoserSeated.seats (h : LoserSeated kept m n p) (hm : m.Seats q m') (hn : n.Seats q n') (hid : n.id = p.1)
    (hother : p ≠ q) (hfree : kept m.id → m.loserNextMatch = some p → m.status = .decided → ∀ w,
      m.winnerSlot = some w → (m.id, w.other) ≠ q) : LoserSeated kept m' n' p := by
  intro hkept hloser hdecided w loser hw hplayer
  rw [Match.id_of_static hm.static] at hkept
  rw [Match.loserNextMatch_of_static hm.static] at hloser
  rw [hm.decided] at hdecided
  rw [hm.winner] at hw
  rw [(hm.seat w.other (hfree hkept hloser hdecided w hw)).1] at hplayer
  rw [(hn.seat p.2 (by rwa [hid])).1]
  exact h hkept hloser hdecided w loser hw hplayer

/-- The links from the other matches. -/
def LosersBut (kept : MatchId → Prop) (db : Db) (id : MatchId) : Prop :=
  ∀ x ∈ db.battles.rows, x.id ≠ id → ∀ p ∈ x.targets, ∀ n ∈ db.battles.rows, n.id = p.1 → LoserSeated kept x n p

/-- A decided match, with its players. -/
structure Match.SameResult (m m' : Match) : Prop where
  static : m'.static = m.static
  decided : m'.status = .decided ↔ m.status = .decided
  winner : m'.winnerSlot = m.winnerSlot
  players : ∀ slot, m'.players.get slot = m.players.get slot

/-- A player of `m` arrives, and not in the place of a loser who was sent on. -/
theorem Placed.losersBut (hdb : WellFormed db) (hm : m ∈ db.battles.rows) (hq : q ∈ m.targets)
    (hothers : LosersBut kept db m.id)
    (hfree : ∀ n ∈ db.battles.rows, n.id = q.1 → kept n.id → n.loserNextMatch.isSome → n.status = .decided →
      n.winnerSlot = some q.2)
    (h : Placed seed db (some q) (some profile) db') :
    LosersBut kept db' m.id ∧ ∃ m2 ∈ db'.battles.rows, m.SameResult m2 := by
  refine ⟨fun x' hx' hne p hp y' hy' hid' => ?_, ?_⟩
  · obtain ⟨x, hx, _, hxx'⟩ := h.seats.back hx'
    obtain ⟨y, hy, _, hyy'⟩ := h.seats.back hy'
    rw [Match.targets_of_static hxx'.static] at hp
    rw [Match.id_of_static hxx'.static] at hne
    have hid : y.id = p.1 := (Match.id_of_static hyy'.static).symm.trans hid'
    have hother : p ≠ q := by
      rintro rfl
      exact hne (hdb.wired.single x hx m hm p hp hq)
    refine (hothers x hx hne p hp y hy hid).seats hxx' hyy' hid hother fun hkept hloser hdecided w hw heq => ?_
    -- the winner of a semifinal may change, its loser not
    have hwinner := hfree x hx (by rw [← heq]) hkept (by simp [hloser]) hdecided
    rw [hw, ← heq] at hwinner
    cases w <;> cases hwinner
  · obtain ⟨m2, here2, hmm2⟩ := h.seats.forth (Table.get?_of_mem hm)
    refine ⟨m2, Table.mem_of_get? here2, hmm2.static, hmm2.decided, hmm2.winner, fun slot => ?_⟩
    exact (hmm2.seat slot fun heq => hdb.wired.other m hm q hq (by rw [← heq])).1

/-- The players of a match just decided, or decided otherwise, take their places. -/
theorem Advanced.losers (hI : Joined (LoserSeated kept) db) (hdb1 : WellFormed db1) (here : db.match? m.id = some m)
    (hstatic : m'.static = m.static) (hplayers : m'.players = m.players)
    (battles : db1.battles = db.battles.put m')
    (hfree : ∀ q, m.nextMatch = some q → ∀ n ∈ db.battles.rows, n.id = q.1 → kept n.id → n.loserNextMatch.isSome →
      n.status = .decided → n.winnerSlot = some q.2)
    (h : Advanced m' db1 db') : Joined (LoserSeated kept) db' := by
  have hid : m'.id = m.id := Match.id_of_static hstatic
  have hm' : m' ∈ db1.battles.rows := by
    rw [battles]
    refine Table.mem_of_get? (Table.get?_put_self (b := m) ?_)
    rw [show Keyed.key m' = m.id from hid]
    exact here
  have hrows : ∀ x ∈ db1.battles.rows, x = m' ∨ (x ∈ db.battles.rows ∧ x.id ≠ m'.id) := fun x hx =>
    Table.mem_put (battles ▸ hx)
  have hothers : LosersBut kept db1 m'.id := fun x hx hne p hp n hn hnp => by
    have hx : x ∈ db.battles.rows := ((hrows x hx).resolve_left fun heq => hne (by rw [heq])).1
    rcases hrows n hn with rfl | ⟨hn, _⟩
    · have hseated := hI x hx p hp m (Table.mem_of_get? here) (hid.symm.trans hnp)
      unfold LoserSeated at hseated ⊢
      rwa [hplayers]
    · exact hI x hx p hp n hn hnp
  cases h with
  | quick hquick =>
      intro x hx p hp n hn hnp
      by_cases hmine : x.id = m'.id
      · obtain rfl : x = m' := Table.eq_of_key hx hm' hmine
        rw [hdb1.wired.quick x hm' hquick] at hp
        cases hp
      · exact hothers x hx hmine p hp n hn hnp
  | @onward t w d2 d3 _ _ won seated next loser checked =>
      have hdb2 : WellFormed d2 := hdb1.placed next
      have hnext : LosersBut kept d2 m'.id ∧ ∃ m2 ∈ d2.battles.rows, m'.SameResult m2 := by
        rcases next.cases with rfl | ⟨q, profile, hq, hprofile, hplaced⟩
        · exact ⟨hothers, m', hm', rfl, Iff.rfl, rfl, fun _ => rfl⟩
        · refine hplaced.losersBut hdb1 hm' (Match.mem_targets.mpr (.inl hq)) hothers
            fun n hn hnq hkept hleads hdecided => ?_
          rcases hrows n hn with rfl | ⟨hn, _⟩
          · exact absurd hnq.symm (hdb1.wired.other n hm' q (Match.mem_targets.mpr (.inl hq)))
          · exact hfree q (by rw [← Match.nextMatch_of_static hstatic, hq]) n hn hnq hkept hleads hdecided
      obtain ⟨hothers2, m2, hm2, hmm2⟩ := hnext
      have hid2 : m2.id = m'.id := Match.id_of_static hmm2.static
      have hjoined : Joined (LoserSeated kept) d3 := by
        rcases loser.cases with rfl | ⟨q, profile, htarget, hprofile, hplaced⟩
        · -- nobody goes there, so there is no loser
          intro x hx p hp n hn hnp
          by_cases hmine : x.id = m'.id
          · obtain rfl : x = m2 := Table.eq_of_key hx hm2 (hmine.trans hid2.symm)
            intro _ hloser _ v l hv hl
            rw [hmm2.winner, won] at hv
            obtain rfl := Option.some.inj hv
            rw [hmm2.players] at hl
            rw [Match.loserNextMatch_of_static hmm2.static] at hloser
            rw [hloser, hl] at loser
            exact (loser.arrives hn hnp).1
          · exact hothers2 x hx hmine p hp n hn hnp
        · have hloser2 : m2.loserNextMatch = some q := by
            rw [Match.loserNextMatch_of_static hmm2.static, htarget]
          have hq2 : q ∈ m2.targets := Match.mem_targets.mpr (.inr hloser2)
          rw [← hid2] at hothers2
          obtain ⟨hothers3, m3, hm3, hmm3⟩ := hplaced.losersBut hdb2 hm2 hq2 hothers2
            fun n hn hnq _ hleads _ => by
              -- the match for third place leads nowhere
              obtain ⟨p, hp⟩ := Option.isSome_iff_exists.mp hleads
              have hnone := hdb2.wired.last m2 hm2 q hloser2 n hn hnq
              have hp := Match.mem_targets.mpr (.inr hp)
              rw [hnone] at hp
              cases hp
          intro x hx p hp n hn hnp
          by_cases hmine : x.id = m2.id
          · obtain rfl : x = m3 := Table.eq_of_key hx hm3 (hmine.trans (Match.id_of_static hmm3.static).symm)
            intro _ hloser _ v l hv hl
            rw [hmm3.winner, hmm2.winner, won] at hv
            obtain rfl := Option.some.inj hv
            rw [hmm3.players, hmm2.players, hprofile] at hl
            rw [Match.loserNextMatch_of_static hmm3.static, hloser2] at hloser
            obtain rfl := Option.some.inj hloser
            rw [← hl]
            exact (hplaced.arrives hn hnp).1
          · exact hothers3 x hx hmine p hp n hn hnp
      exact hjoined.maps (checked.battles ▸ .refl Match.KeepsLinks.refl _)

/-! ## Matches thrown away -/

/-- A change throws away all the matches of a tournament, or none. -/
theorem Change.together {x n : Match} {i j : MatchId} (hdb : WellFormed db) (h : Change organizer scope db db')
    (hx : db.match? i = some x) (hn : db.match? j = some n) (hsame : x.tournament = n.tournament)
    (hkept : (db'.match? j).isSome = true) : (db'.match? i).isSome = true := by
  have hput {m' : Match} : ((db.battles.put m').get? i).isSome = true := by
    rw [Option.isSome_iff_ne_none, ne_eq, Table.get?_put_eq_none]
    rw [Db.match?] at hx
    simp [hx]
  have hsame_battles (battles : db'.battles = db.battles) : (db'.match? i).isSome = true := by
    rw [Db.match?, battles]
    exact Option.isSome_of_eq_some hx
  cases h with
  | row _ _ _ saves =>
      rw [Db.match?, saves.battles]
      exact hput
  | @decide m m' db1 _ _ _ _ saves advanced =>
      have hcovers : Covers (Match.Lasts organizer) organizer scope := Match.Lasts.covers
      obtain ⟨x1, hx1⟩ := Option.isSome_iff_exists.mp (saves.battles ▸ hput)
      obtain ⟨x2, hx2, _⟩ := (advanced.maps hcovers).forth hx1
      exact Option.isSome_of_eq_some hx2
  | duel _ _ _ _ _ _ _ _ battles =>
      rw [Db.match?, battles]
      exact Option.isSome_of_eq_some
        (Table.get?_eq_some_iff.mpr ⟨Table.mem_add_of_mem (Table.mem_of_get? hx), Table.key_of_get? hx⟩)
  | bracket fits _ _ base _ battles =>
      rw [Db.match?_redrawn hdb fits base battles hn] at hkept
      rw [Db.match?_redrawn hdb fits base battles hx, hsame]
      split at hkept
      · cases hkept
      · rename_i hother
        rw [if_neg hother]
        rfl
  | tournament _ _ _ _ battles => exact hsame_battles battles
  | newTournament _ _ _ _ battles => exact hsame_battles battles
  | other battles => exact hsame_battles battles

theorem Path.together {x n : Match} {i j : MatchId} (hdb : WellFormed db) (h : Path organizer scope db db')
    (hx : db.match? i = some x) (hn : db.match? j = some n) (hsame : x.tournament = n.tournament)
    (hkept : (db'.match? j).isSome = true) : (db'.match? i).isSome = true := by
  induction h using Relation.ReflTransGen.head_induction_on generalizing x n with
  | refl => exact Option.isSome_of_eq_some hx
  | head hstep hpath ih =>
      have hcovers : Covers (Match.Lasts organizer) organizer scope := Match.Lasts.covers
      have hdb1 := hdb.change hstep
      have hfollows := hstep.follows hcovers hdb
      cases hn1 : Db.match? _ j with
      | none =>
          -- a match thrown away does not come back
          have hid : n.id = j := Table.key_of_get? hn
          have hlow := lt_of_lt_of_le (hdb.below n (Table.mem_of_get? hn)) hfollows.nextId
          rw [hid] at hlow
          rw [(Path.follows hcovers hdb1 hpath).fresh j hlow hn1] at hkept
          cases hkept
      | some n1 =>
          obtain ⟨x1, hx1⟩ := Option.isSome_iff_exists.mp
            (hstep.together hdb hx hn hsame (Option.isSome_of_eq_some hn1))
          refine ih hdb1 hx1 hn1 ?_
          rw [Match.tournament_of_static (hfollows.rel hx hx1).static,
            Match.tournament_of_static (hfollows.rel hn hn1).static, hsame]

/-! ## One operation -/

/-- The matches there are at the end. -/
def Remains (db : Db) (id : MatchId) : Prop := (db.match? id).isSome = true

/-- The winner of `m` is sent on in an operation that `LosersOnce` allows, so not to where a loser was. -/
theorem LosersOnce.free {m2 : Match} (hallowed : LosersOnce site op db)
    (here2 : (op.after site db).match? m.id = some m2) (hstatic : m2.static = m.static) (hdecided : m2.status = .decided)
    (hother : ∀ x, db.match? m.id = some x → x.status = .decided → x.winnerSlot ≠ m2.winnerSlot)
    (hnext : m.nextMatch = some q) (hnq : n.id = q.1)
    (hlasts : ∀ n2, (op.after site db).match? n.id = some n2 → n2.static = n.static ∧
      (n.status = .decided → n2.status = .decided ∧ n2.winnerSlot = n.winnerSlot))
    (hkept : Remains (op.after site db) n.id) (hleads : n.loserNextMatch.isSome) (hstatus : n.status = .decided) :
    n.winnerSlot = some q.2 := by
  obtain ⟨n2, hn2⟩ := Option.isSome_iff_exists.mp hkept
  obtain ⟨hnstatic, hnlasts⟩ := hlasts n2 hn2
  obtain ⟨hnstatus, hnwinner⟩ := hnlasts hstatus
  rw [← hnwinner]
  refine hallowed.2 m2 (Table.mem_of_get? here2) hdecided ?_ q ?_ n2 ?_ ?_ hnstatus
  · rw [Match.id_of_static hstatic]
    exact hother
  · rw [Match.nextMatch_of_static hstatic, hnext]
    rfl
  · rw [← hnq]
    exact hn2
  · rw [Match.loserNextMatch_of_static hnstatic]
    exact hleads

theorem Joined.losers_change {start : Db} (hI : Joined (LoserSeated (Remains (op.after site start))) db)
    (hallowed : LosersOnce site op start) (hdb : WellFormed db) (hbefore : Follows (Match.Lasts organizer) start db)
    (h : Change organizer scope db db') (hpath : Path organizer scope db' (op.after site start)) :
    Joined (LoserSeated (Remains (op.after site start))) db' := by
  refine hI.change hdb (fun _ _ step => step.stays.keepsLosers) (fun m n p hgoing _ _ _ hdecided => ?_)
    (fun m m' db1 here step saves advanced => ?_) h
  · simp [Match.isOver, hdecided] at hgoing
  · have hstatic : m'.static = m.static := step.static
    have hgoing : m.isOver = false := by
      cases step <;> assumption
    have hdecided : m'.status = .decided := by
      cases step <;> rfl
    have hplayers : m'.players = m.players := by
      cases step <;> rfl
    have hdb1 : WellFormed db1 := hdb.saves saves here hstatic fun hm => hm.decides step
    have hcovers := Match.Evolves.covers organizer scope
    have hwhole : Path organizer scope db (op.after site start) := .head h hpath
    refine advanced.losers hI hdb1 here hstatic hplayers saves.battles fun q hnext n hn hnq hkept hleads hstatus => ?_
    have hn := Table.get?_of_mem hn
    have hsame := hdb.wired.inside m (Table.mem_of_get? here) q (Match.mem_targets.mpr (.inl hnext)) n
      (Table.mem_of_get? hn) hnq
    obtain ⟨m2, hm2⟩ := Option.isSome_iff_exists.mp (hwhole.together hdb here hn hsame.symm hkept)
    -- the match is decided from here on
    have hput : db1.match? m.id = some m' := by
      rw [Db.match?, saves.battles, ← Match.id_of_static hstatic]
      refine Table.get?_put_self (b := m) ?_
      rw [show Keyed.key m' = m.id from Match.id_of_static hstatic]
      exact here
    obtain ⟨m1, hm1, hm1', _⟩ := (advanced.maps hcovers).forth hput
    have hm1decided : m1.status = .decided := (hm1'.ended (by simp [Match.isOver, hdecided])).trans hdecided
    have hm2' := (Path.follows hcovers (hdb.change h) hpath).rel hm1 hm2
    have hm2decided : m2.status = .decided := (hm2'.ended (by simp [Match.isOver, hm1decided])).trans hm1decided
    refine hallowed.free hm2 (hm2'.static.trans (hm1'.static.trans hstatic)) hm2decided
      (fun x hx hxdecided => ?_) hnext hnq (fun n2 hn2 => ?_) hkept hleads hstatus
    · have hm := (hbefore.rel hx here).ended (by simp [Match.isOver, hxdecided])
      simp [Match.isOver, hm.trans hxdecided] at hgoing
    · have hn2' := (Path.follows hcovers hdb hwhole).rel hn hn2
      exact ⟨hn2'.static, fun hd => ⟨(hn2'.ended (by simp [Match.isOver, hd])).trans hd, hn2'.winner hd⟩⟩

theorem Joined.losers_corrects {start : Db} {id : MatchId} {slot : Slot}
    (hI : Joined (LoserSeated (Remains (op.after site start))) start) (hallowed : LosersOnce site op start)
    (hdb : WellFormed start) (h : Corrects id slot m start db1) (hother : m.winnerSlot ≠ some slot)
    (hpath : Path organizer scope db1 (op.after site start)) :
    Joined (LoserSeated (Remains (op.after site start))) db1 := by
  obtain ⟨tournament, db2, now, _, hreopened, hadvanced⟩ := h.moved
  have hid : m.id = id := Table.key_of_get? h.here
  have here : start.match? m.id = some m := by
    rw [hid]
    exact h.here
  have hdb2 : WellFormed db2 := (hdb.corrected h now).reopened hreopened
  have hdb1 : WellFormed db1 := hdb.corrects h
  have hcovers := Match.Evolves.covers organizer scope
  have hlater := Path.follows hcovers hdb1 hpath
  refine hadvanced.losers hI hdb2 here ?_ ?_ hreopened.battles fun q hnext n hn hnq hkept hleads hstatus => ?_
  · rfl
  · rfl
  have hq := Match.mem_targets.mpr (.inl hnext)
  have hne : n.id ≠ m.id := fun heq => hdb.wired.other m (Table.mem_of_get? here) q hq (hnq.symm.trans heq)
  have hm : db2.match? m.id = some (m.correct slot now) := by
    rw [Db.match?, hreopened.battles]
    exact Db.match?_putMatch here rfl
  have hn2 : db2.match? n.id = some n := by
    rw [Db.match?, hreopened.battles]
    exact (Table.get?_put_of_ne hne).trans (Table.get?_of_mem hn)
  obtain ⟨m1, hm1, hmm1, _⟩ := (hadvanced.maps hcovers).forth hm
  obtain ⟨n1, hn1, hnn1, _⟩ := (hadvanced.maps hcovers).forth hn2
  have hsame := hdb.wired.inside m (Table.mem_of_get? here) q hq n hn hnq
  obtain ⟨m3, hm3⟩ := Option.isSome_iff_exists.mp (hpath.together hdb1 hm1 hn1 (by
    rw [Match.tournament_of_static hmm1.static, Match.tournament_of_static hnn1.static, hsame]
    rfl) hkept)
  have hmm3 := hmm1.trans (hlater.rel hm1 hm3)
  refine hallowed.free hm3 (hmm3.static.trans rfl) ((hmm3.ended ?_).trans h.decided) (fun x hx _ => ?_) hnext hnq
    (fun n3 hn3 => ?_) hkept hleads hstatus
  · simp [Match.isOver, Match.correct, Match.bump, h.decided]
  · obtain rfl := Option.some.inj (here.symm.trans hx)
    rw [hmm3.winner h.decided]
    exact hother
  · have hnn3 := hnn1.trans (hlater.rel hn1 hn3)
    exact ⟨hnn3.static, fun hd => ⟨(hnn3.ended (by simp [Match.isOver, hd])).trans hd, hnn3.winner hd⟩⟩

theorem Joined.losers_special {start : Db} (hI : Joined (LoserSeated (Remains (op.after site start))) start)
    (hallowed : LosersOnce site op start) (hdb : WellFormed start) (hsucceeds : op.succeeds site start = true)
    (h : op.special start db1) (hpath : Path organizer scope db1 (op.after site start)) :
    Joined (LoserSeated (Remains (op.after site start))) db1 := by
  unfold Op.special at h
  split at h
  · refine hI.maps ?_
    rw [h.battles]
    exact Table.Maps.modify Match.KeepsLinks.refl fun _ _ _ => Match.Stays.keepsLosers ⟨rfl, Iff.rfl, rfl, rfl, rfl⟩
  · exact hallowed.1.elim
  · obtain ⟨m, hcorrects⟩ := h
    obtain ⟨_, _, hrun, _⟩ := Op.run_of_succeeds hsucceeds
    obtain ⟨x, hx, hother⟩ := setWinner_other hrun
    obtain rfl : x = m := Option.some.inj (hx.symm.trans hcorrects.here)
    exact hI.losers_corrects hallowed hdb hcorrects hother hpath
  · obtain ⟨t, hbegins⟩ := h
    exact hI.maps (hbegins.battles ▸ .refl Match.KeepsLinks.refl _)
  · rwa [h]

theorem Joined.losers_path {start : Db} (hI : Joined (LoserSeated (Remains (op.after site start))) db)
    (hallowed : LosersOnce site op start) (hdb : WellFormed db) (hstart : WellFormed start)
    (hbefore : Follows (Match.Lasts organizer) start db) (h : Path organizer scope db (op.after site start)) :
    Joined (LoserSeated (Remains (op.after site start))) (op.after site start) := by
  induction h using Relation.ReflTransGen.head_induction_on with
  | refl => exact hI
  | head hstep hpath ih =>
      have hcovers : Covers (Match.Lasts organizer) organizer scope := Match.Lasts.covers
      exact ih (hI.losers_change hallowed hdb hbefore hstep hpath) (hdb.change hstep)
        (hbefore.trans hcovers.trans hstart.below (hstep.follows hcovers hdb))

/-- The losers are where they go, after an operation as before it. -/
theorem Op.losers (hdb : WellFormed db) (hI : Joined (LoserSeated fun _ => True) db) (hallowed : LosersOnce site op db) :
    Joined (LoserSeated fun _ => True) (op.after site db) := by
  cases hsucceeds : op.succeeds site db with
  | false =>
      rw [Op.after_of_refused hsucceeds]
      exact hI
  | true =>
      obtain ⟨db1, hop, hpath⟩ := (Op.refines hsucceeds hdb).path
      have hstart : Joined (LoserSeated (Remains (op.after site db))) db := fun m hm p hp n hn hid _ =>
        hI m hm p hp n hn hid trivial
      have hcovers : Covers (Match.Lasts op.organizer) op.organizer (op.scope db) := Match.Lasts.covers
      have hbefore : Follows (Match.Lasts op.organizer) db db1 := .of_maps (Op.special_nextId hop)
        (Op.special_maps hop hcovers Match.Lasts.coversSpecial)
      have hend := (hstart.losers_special hallowed hdb hsucceeds hop hpath).losers_path hallowed (hdb.special hop) hdb
        hbefore hpath
      exact fun m hm p hp n hn hid _ => hend m hm p hp n hn hid (Option.isSome_of_eq_some (Table.get?_of_mem hm))

end

/-! ## Runs -/

/-- In a run where no player is replaced, and nobody sent to the losing slot of a semifinal already decided: when both
semifinals are decided, with both their players known, the losers play for third place. -/
theorem third_place {db : Db} (h : Run LosersOnce {} db) : ∀ n ∈ db.battles.rows, ∀ m ∈ db.battles.rows,
    ∀ m' ∈ db.battles.rows, m.loserNextMatch = some (n.id, .a) → m'.loserNextMatch = some (n.id, .b) →
      m.status = .decided → m'.status = .decided → m.ready = true → m'.ready = true →
      ∃ w w' loser loser', m.winnerSlot = some w ∧ m'.winnerSlot = some w' ∧ m.players.get w.other = some loser ∧
        m'.players.get w'.other = some loser' ∧ n.players = ⟨some loser, some loser'⟩ := by
  obtain ⟨hdb, hI⟩ : WellFormed db ∧ Joined (LoserSeated fun _ => True) db :=
    Run.keeps (I := fun db => WellFormed db ∧ Joined (LoserSeated fun _ => True) db)
      (fun site op db hallowed h => ⟨(Op.keeps (I := fun _ => True) h.1 trivial (fun _ _ => trivial)
        fun _ _ _ => trivial).1, Op.losers h.1 h.2 hallowed⟩) h ⟨.empty, .empty⟩
  have seated : ∀ m ∈ db.battles.rows, ∀ n ∈ db.battles.rows, ∀ slot, m.loserNextMatch = some (n.id, slot) →
      m.status = .decided → m.ready = true → ∃ w loser, m.winnerSlot = some w ∧
        m.players.get w.other = some loser ∧ n.players.get slot = some loser := by
    intro m hm n hn slot hloser hdecided hready
    obtain ⟨w, hw, _⟩ := (hdb.sound m hm).won hdecided
    obtain ⟨loser, hplayer⟩ : ∃ loser, m.players.get w.other = some loser := by
      rw [Match.ready, Bool.and_eq_true] at hready
      cases w with
      | a => exact Option.isSome_iff_exists.mp hready.2
      | b => exact Option.isSome_iff_exists.mp hready.1
    exact ⟨w, loser, hw, hplayer, hI m hm _ (Match.mem_targets.mpr (.inr hloser)) n hn rfl trivial hloser hdecided w
      loser hw hplayer⟩
  intro n hn m hm m' hm' ha hb hdecided hdecided' hready hready'
  obtain ⟨w, loser, hw, hplayer, hthere⟩ := seated m hm n hn .a ha hdecided hready
  obtain ⟨w', loser', hw', hplayer', hthere'⟩ := seated m' hm' n hn .b hb hdecided' hready'
  refine ⟨w, w', loser, loser', hw, hw', hplayer, hplayer', ?_⟩
  rw [← hthere, ← hthere']
  rfl

/-- Five players, and third place: the only match of the first round, and then the semifinals. -/
def fiveInOrder : List (Site × Op) :=
  ([.organize 9 (.createTournament "Cup" [some 1, some 2, some 3, some 4, some 5] .manual true {} "" none true none
      .pending),
    .organize 9 (.onMatch 6 none (.walkover .a)),
    .organize 9 (.onMatch 3 none (.walkover .a)),
    .organize 9 (.onMatch 4 none (.walkover .b))] : List Op).map fun op => ({ now := 0 }, op)

theorem fiveInOrder_allowed : AllowsAll LosersOnce {} fiveInOrder :=
  ⟨⟨trivial, by decide +kernel⟩, ⟨trivial, by decide +kernel⟩, ⟨trivial, by decide +kernel⟩,
    ⟨trivial, by decide +kernel⟩, trivial⟩

theorem third_place_five : ∃ db, Run LosersOnce {} db ∧ ∃ n ∈ db.battles.rows, n.isThirdPlace = true ∧
    ∃ loser loser', n.players = ⟨some loser, some loser'⟩ := by
  have hrun : Run LosersOnce {} (Db.play {} fiveInOrder) := Run.ofAllowed .refl fiveInOrder_allowed
  have hsemifinals : ∃ n ∈ (Db.play {} fiveInOrder).battles.rows, n.isThirdPlace = true ∧
      ∃ m ∈ (Db.play {} fiveInOrder).battles.rows, ∃ m' ∈ (Db.play {} fiveInOrder).battles.rows,
        m.loserNextMatch = some (n.id, .a) ∧ m'.loserNextMatch = some (n.id, .b) ∧ m.status = .decided ∧
        m'.status = .decided ∧ m.ready = true ∧ m'.ready = true := by decide +kernel
  obtain ⟨n, hn, hthird, m, hm, m', hm', ha, hb, hdecided, hdecided', hready, hready'⟩ := hsemifinals
  obtain ⟨_, _, loser, loser', _, _, _, _, hplayers⟩ :=
    third_place hrun n hn m hm m' hm' ha hb hdecided hdecided' hready hready'
  exact ⟨_, hrun, n, hn, hthird, loser, loser', hplayers⟩

/-- The same matches, but a semifinal is given to its first player before the other is known. -/
def fiveTooSoon : List (Site × Op) :=
  ([.organize 9 (.createTournament "Cup" [some 1, some 2, some 3, some 4, some 5] .manual true {} "" none true none
      .pending),
    .organize 9 (.onMatch 3 none (.walkover .a)),
    .organize 9 (.onMatch 6 none (.walkover .a)),
    .organize 9 (.onMatch 4 none (.walkover .b))] : List Op).map fun op => ({ now := 0 }, op)

/-- The loser of that semifinal is known by now, and plays for nothing. -/
theorem third_missing : ∃ db, Run NoReplacing {} db ∧ ∃ n ∈ db.battles.rows, ∃ m ∈ db.battles.rows,
    ∃ m' ∈ db.battles.rows, m.loserNextMatch = some (n.id, .a) ∧ m'.loserNextMatch = some (n.id, .b) ∧
      m.status = .decided ∧ m'.status = .decided ∧ m.ready = true ∧ m'.ready = true ∧ m.winnerSlot = some .a ∧
      n.players.a ≠ m.players.b := by
  refine ⟨Db.play {} fiveTooSoon, Run.ofSteps _ fun step hstep db => ?_, ?_⟩
  · obtain ⟨op, hop, rfl⟩ := List.mem_map.mp hstep
    fin_cases hop <;> trivial
  · decide +kernel

end Arena
end CpcJudge
