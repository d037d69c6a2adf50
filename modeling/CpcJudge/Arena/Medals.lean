import CpcJudge.Arena.Finale

/-!
# `Arena.Medals` — the three podiums of a tournament agree

From the last battles of a bracket (`Finale`), what the podium of the page shows, what the titles of the ranking count,
and how far each participant got: the champion further than the runner-up, they further than whoever played for third
place, and all of them further than the rest. So the standings place the players of the podium, and nobody else, first,
second and third (`podiums_agree`).
-/

namespace CpcJudge
open Ranking (competitionRank)

namespace Arena

/-- Who lost a match. -/
def Match.loser (m : Match) : Option ProfileId := m.winnerSlot.bind fun w => m.players.get w.other

/-- A match before `final`, won by somebody and not a bye. -/
def Match.isSemifinal (final : MatchId) (m : Match) : Bool :=
  m.nextMatch.any (·.1 = final) && m.winnerSlot.isSome && m.decidedReason ≠ some .bye

/-- The losers of the semifinals, who share third place. -/
def sharedThird (rows : List Match) (final : MatchId) : List ProfileId :=
  (rows.filter (·.isSemifinal final)).filterMap Match.loser

/-- The only item that satisfies `p` is found. -/
theorem find?_eq_some_of_only {α : Type*} {l : List α} {p : α → Bool} {a : α} (ha : a ∈ l) (hp : p a = true)
    (honly : ∀ b ∈ l, p b = true → b = a) : l.find? p = some a := by
  obtain ⟨b, hb⟩ := Option.isSome_iff_exists.mp (List.find?_isSome.mpr ⟨a, ha, hp⟩)
  rw [hb, honly b (List.mem_of_find?_eq_some hb) (List.find?_some hb)]

section
variable {rows : List Match} {players : List ProfileId} {total : ℕ} {final m n : Match} {x y z p q : ProfileId}
  {w v slot : Slot} {db : Db} {t : Tournament} {site : Site} {e depth : ℚ}

theorem Match.Won.loser (h : m.Won w x y) : m.loser = some y := by
  rw [Match.loser, h.winner, Option.bind_some, h.second]

theorem Match.Won.unique (h : m.Won w x y) (h' : m.Won v p q) : w = v ∧ x = p ∧ y = q := by
  obtain rfl : w = v := Option.some.inj (h.winner.symm.trans h'.winner)
  exact ⟨rfl, Option.some.inj (h.first.symm.trans h'.first), Option.some.inj (h.second.symm.trans h'.second)⟩

theorem playerView_eq (h : m.players.get slot = some x) : playerView site m slot =
    some { profile := x, name := shownName site m slot, seed := m.seeds.get slot } := by
  rw [playerView, h, Option.map_some]

theorem matchView_get (slot : Slot) : (matchView site t m).players.get slot = playerView site m slot := by
  cases slot <;> rfl

theorem matchView_loser : ((matchView site t m).loser).map PlayerView.profile = m.loser := by
  unfold MatchView.loser Match.loser
  show (m.winnerSlot.bind fun w => (matchView site t m).players.get w.other).map PlayerView.profile = _
  cases m.winnerSlot with
  | none => rfl
  | some w =>
      rw [Option.bind_some, Option.bind_some, matchView_get, playerView, Option.map_map]
      exact Option.map_id'

theorem matchView_isSemifinal : (matchView site t m).isSemifinal final.id = m.isSemifinal final.id := by
  simp [MatchView.isSemifinal, Match.isSemifinal, matchView]

theorem mem_matchViews {v : MatchView} : v ∈ matchViews site db t ↔ ∃ m ∈ battlesOf db t.id, matchView site t m = v := by
  rw [matchViews, List.mem_map]
  simp only [Ranking.isStableSort_sortBy.mem_iff]

theorem reached_of_going (h : m.status ≠ .decided ∨ m.winnerSlot = none) :
    ((matchView site t m).reached total slot).map Prod.fst = none := by
  have hgoing : (matchView site t m).match.status ≠ .decided ∨ (matchView site t m).match.winnerSlot = none := h
  rw [MatchView.reached, if_pos hgoing]
  rfl

/-- How far the player of a slot gets in a decided match. -/
theorem reached_eq (hdecided : m.status = .decided) (hw : m.winnerSlot = some w) :
    ((matchView site t m).reached total slot).map Prod.fst =
      if m.isThirdPlace = true then some (if slot = w then (total : ℚ) - 1 / 2 else total - 3 / 4)
      else if m.nextMatch = none then some (if slot = w then (total : ℚ) + 1 else total)
      else if slot = w then none else some (m.round.getD 0 : ℚ) := by
  have hgoing : ¬ ((matchView site t m).match.status ≠ .decided ∨ (matchView site t m).match.winnerSlot = none) := by
    simp [matchView, hdecided, hw]
  rw [MatchView.reached, if_neg hgoing]
  simp only [matchView, hw, Option.some.injEq, decide_eq_true_eq, eq_comm (a := w)]
  split
  · split <;> rfl
  · split
    · split <;> rfl
    · split <;> rfl

namespace Finale

/-! ## The podium -/

section
variable (h : Finale (battlesOf db t.id) players total final x y)
include h

theorem find_final : (matchViews site db t).reverse.find? (·.match.isFinal) = some (matchView site t final) := by
  refine find?_eq_some_of_only (List.mem_reverse.mpr (mem_matchViews.mpr ⟨final, h.mem, rfl⟩)) h.last fun v hv hlast => ?_
  obtain ⟨m, hm, rfl⟩ := mem_matchViews.mp (List.mem_reverse.mp hv)
  rw [h.only m hm hlast]

theorem find_third (hm : m ∈ battlesOf db t.id) (hthird : m.isThirdPlace = true) :
    (matchViews site db t).find? (·.match.isThirdPlace) = some (matchView site t m) := by
  refine find?_eq_some_of_only (mem_matchViews.mpr ⟨m, hm, rfl⟩) hthird fun v hv hthird' => ?_
  obtain ⟨n, hn, rfl⟩ := mem_matchViews.mp hv
  rw [(h.third m hm hthird).2.1 n hn hthird']

theorem podium_third (hm : m ∈ battlesOf db t.id) (hthird : m.isThirdPlace = true) (hfinal : final.Won w x y)
    (hwon : m.Won v p q) : podium (matchViews site db t) = some
      { first := playerView site final w, second := playerView site final w.other
        third := [playerView site m v], fourth := playerView site m v.other } := by
  have hwinner : (matchView site t final).winner = some w := hfinal.winner
  have hwinner' : (matchView site t m).winner = some v := hwon.winner
  simp only [podium, h.find_final, h.find_third hm hthird, hwinner, hwinner', Option.bind_eq_bind, Option.bind_some,
    Option.map_some, matchView_get]
  rfl

theorem podium_shared (hnone : ∀ m ∈ battlesOf db t.id, m.isThirdPlace = false) (hfinal : final.Won w x y) :
    ∃ third : List PlayerView, (third.map PlayerView.profile).Perm (sharedThird (battlesOf db t.id) final.id) ∧
      podium (matchViews site db t) = some
        { first := playerView site final w, second := playerView site final w.other, third := third.map some
          fourth := none } := by
  have hwinner : (matchView site t final).winner = some w := hfinal.winner
  have hthird : (matchViews site db t).find? (·.match.isThirdPlace) = none := by
    refine List.find?_eq_none.mpr fun v hv => ?_
    obtain ⟨m, hm, rfl⟩ := mem_matchViews.mp hv
    exact Bool.eq_false_iff.mp (hnone m hm)
  refine ⟨((matchViews site db t).filter (·.isSemifinal final.id)).filterMap MatchView.loser, ?_, ?_⟩
  · rw [List.map_filterMap, matchViews, List.filter_map, List.filterMap_map, sharedThird]
    simp only [Function.comp_def, matchView_loser, matchView_isSemifinal]
    have hperm : (Ranking.sortBy Match.shownOrder (battlesOf db t.id)).Perm (battlesOf db t.id) :=
      Ranking.isStableSort_sortBy.perm
    exact (hperm.filter (·.isSemifinal final.id)).filterMap Match.loser
  · simp only [podium, h.find_final, hthird, hwinner, Option.bind_eq_bind, Option.bind_some, Option.bind_none,
      matchView_get]
    rfl

/-! ## The titles -/

theorem decided_final : (decidedIn db t.id).find? (·.isFinal) = some final := by
  obtain ⟨w, hwon⟩ := h.won
  refine find?_eq_some_of_only (List.mem_filter.mpr ⟨h.mem, decide_eq_true hwon.decided⟩) h.last fun m hm hlast => ?_
  exact h.only m (List.mem_of_mem_filter hm) hlast

theorem honoursOf_third (hm : m ∈ battlesOf db t.id) (hthird : m.isThirdPlace = true) (hwon : m.Won v p q) :
    honoursOf (decidedIn db t.id) = [(some x, .title), (some y, .final), (some p, .third)] := by
  obtain ⟨w, hfinal⟩ := h.won
  have hfind : (decidedIn db t.id).find? (·.isThirdPlace) = some m := by
    refine find?_eq_some_of_only (List.mem_filter.mpr ⟨hm, decide_eq_true hwon.decided⟩) hthird fun n hn hthird' => ?_
    exact (h.third m hm hthird).2.1 n (List.mem_of_mem_filter hn) hthird'
  simp [honoursOf, h.decided_final, hfind, hfinal.winner, hfinal.first, hfinal.second, hwon.winner, hwon.first]

theorem honoursOf_shared (hnone : ∀ m ∈ battlesOf db t.id, m.isThirdPlace = false) :
    honoursOf (decidedIn db t.id) = (some x, .title) :: (some y, .final) ::
      (sharedThird (battlesOf db t.id) final.id).map fun p => (some p, .third) := by
  obtain ⟨w, hfinal⟩ := h.won
  have hfind : (decidedIn db t.id).find? (·.isThirdPlace) = none :=
    List.find?_eq_none.mpr fun m hm => Bool.eq_false_iff.mp (hnone m (List.mem_of_mem_filter hm))
  have hsemis : (decidedIn db t.id).filter (fun m => m.nextMatch.any (·.1 = final.id) && m.decidedReason ≠ some .bye) =
      (battlesOf db t.id).filter (·.isSemifinal final.id) := by
    rw [decidedIn, List.filter_filter]
    refine List.filter_congr fun m hm => ?_
    by_cases hnext : m.nextMatch.any (·.1 = final.id) = true
    · by_cases hbye : m.decidedReason = some .bye
      · simp [Match.isSemifinal, hbye]
      · obtain ⟨v, p, q, hwon, _⟩ := h.beaten m hm hnext hbye
        simp [Match.isSemifinal, hbye, hwon.decided, hwon.winner]
    · simp only [Match.isSemifinal, hnext, Bool.false_and]
  have hlosers : ∀ l : List Match, (∀ m ∈ l, ∃ w p q, m.Won w p q) →
      (l.flatMap fun semi => semi.winnerSlot.toList.map fun v => (semi.players.get v.other, Honour.third)) =
        (l.filterMap Match.loser).map fun p => (some p, Honour.third) := by
    intro l hl
    induction l with
    | nil => rfl
    | cons m l ih =>
        obtain ⟨v, p, q, hwon⟩ := hl m List.mem_cons_self
        rw [List.flatMap_cons, ih fun n hn => hl n (List.mem_cons_of_mem _ hn), List.filterMap_cons, hwon.loser,
          hwon.winner, List.map_cons, ← hwon.second]
        rfl
  simp only [honoursOf, h.decided_final, hfind, hfinal.winner, hfinal.first, hfinal.second, hsemis, Option.bind_some,
    Option.map_some]
  rw [hlosers _ fun m hm => ?_]
  · rfl
  · obtain ⟨hm, hsemi⟩ := List.mem_filter.mp hm
    simp only [Match.isSemifinal, Bool.and_eq_true, decide_eq_true_eq] at hsemi
    obtain ⟨v, p, q, hwon, _⟩ := h.beaten m hm hsemi.1.1 hsemi.2
    exact ⟨v, p, q, hwon⟩

/-- The tournament adds what its battles give. -/
theorem titles {awards : List (ProfileId × Honour)} (ht : t ∈ db.tournaments.rows) (hhonours : t.honours = true)
    (hawards : honoursOf (decidedIn db t.id) = awards.map (Prod.map some id)) (p : ProfileId) (honour : Honour) :
    (Honours.ofPlayer (palmares db) p).get honour =
      (Honours.ofPlayer (palmares (db.without t.id)) p).get honour + awards.count (p, honour) := by
  obtain ⟨w, hwon⟩ := h.won
  have hsome : decidedIn db t.id ≠ [] :=
    List.ne_nil_of_mem (List.mem_filter.mpr ⟨h.mem, decide_eq_true hwon.decided⟩)
  rw [palmares_without ht hhonours hsome, hawards, ← List.count_map_of_injective awards (Prod.map some id)
    ((Option.some_injective _).prodMap Function.injective_id)]
  rfl

/-! ## The standings -/

/-- How far a battle may take a player. -/
theorem reaches (hreaches : Reaches total (matchViews site db t) z e) : (z = x ∧ e = total + 1) ∨ (z = y ∧ e = total) ∨
    (∃ m ∈ battlesOf db t.id, m.isThirdPlace = true ∧ ∃ w p q, m.Won w p q ∧
      ((z = p ∧ e = total - 1 / 2) ∨ (z = q ∧ e = total - 3 / 4))) ∨
    ∃ number : ℕ, e = number ∧ number + 1 ≤ total ∧
      (number + 1 = total → ∃ m ∈ battlesOf db t.id, m.isSemifinal final.id = true ∧ m.loser = some z) := by
  obtain ⟨_, hv, slot, hmine, he⟩ := hreaches
  obtain ⟨m, hm, rfl⟩ := mem_matchViews.mp hv
  have hmine : m.players.get slot = some z := hmine
  by_cases hgoing : m.status ≠ .decided ∨ m.winnerSlot = none
  · rw [reached_of_going hgoing] at he
    cases he
  obtain ⟨hdecided, hwinner⟩ := not_or.mp hgoing
  obtain ⟨w, hw⟩ := Option.ne_none_iff_exists'.mp hwinner
  rw [reached_eq (not_not.mp hdecided) hw] at he
  by_cases hthird : m.isThirdPlace = true
  · rw [if_pos hthird] at he
    obtain ⟨_, _, v, p, q, hwon, _⟩ := h.third m hm hthird
    obtain rfl : w = v := Option.some.inj (hw.symm.trans hwon.winner)
    refine .inr (.inr (.inl ⟨m, hm, hthird, w, p, q, hwon, ?_⟩))
    by_cases hslot : slot = w
    · subst hslot
      rw [if_pos rfl] at he
      exact .inl ⟨Option.some.inj (hmine.symm.trans hwon.first), (Option.some.inj he).symm⟩
    · rw [if_neg hslot] at he
      rw [Slot.eq_other_of_ne hslot] at hmine
      exact .inr ⟨Option.some.inj (hmine.symm.trans hwon.second), (Option.some.inj he).symm⟩
  rw [if_neg hthird] at he
  by_cases hlast : m.nextMatch = none
  · rw [if_pos hlast] at he
    obtain rfl : m = final := h.only m hm (by simp [Match.isFinal, hlast, hthird])
    obtain ⟨v, hwon⟩ := h.won
    obtain rfl : w = v := Option.some.inj (hw.symm.trans hwon.winner)
    by_cases hslot : slot = w
    · subst hslot
      rw [if_pos rfl] at he
      exact .inl ⟨Option.some.inj (hmine.symm.trans hwon.first), (Option.some.inj he).symm⟩
    · rw [if_neg hslot] at he
      rw [Slot.eq_other_of_ne hslot] at hmine
      exact .inr (.inl ⟨Option.some.inj (hmine.symm.trans hwon.second), (Option.some.inj he).symm⟩)
  rw [if_neg hlast] at he
  by_cases hslot : slot = w
  · rw [if_pos hslot] at he
    cases he
  rw [if_neg hslot] at he
  rw [Slot.eq_other_of_ne hslot] at hmine
  obtain ⟨number, hround, _, hle, hsemi⟩ :=
    h.earlier m hm (by simp [Match.isFinal, hlast]) (Bool.eq_false_iff.mpr hthird)
  rw [hround] at he
  refine .inr (.inr (.inr ⟨number, (Option.some.inj he).symm, hle, fun heq => ⟨m, hm, ?_, ?_⟩⟩))
  · -- a bye has no loser
    have hbye : m.decidedReason ≠ some .bye := fun hbye => by
      rw [h.alone m hm hbye (not_not.mp hdecided) w hw] at hmine
      cases hmine
    simp [Match.isSemifinal, hsemi.mpr heq, hw, hbye]
  · rw [Match.loser, hw, Option.bind_some, hmine]

omit h in
theorem reaches_of_won (hm : m ∈ battlesOf db t.id) (hwon : m.Won w p q) {e e' : ℚ}
    (he : ((matchView site t m).reached total w).map Prod.fst = some e)
    (he' : ((matchView site t m).reached total w.other).map Prod.fst = some e') :
    Reaches total (matchViews site db t) p e ∧ Reaches total (matchViews site db t) q e' :=
  ⟨⟨_, mem_matchViews.mpr ⟨m, hm, rfl⟩, w, hwon.first, he⟩, _, mem_matchViews.mpr ⟨m, hm, rfl⟩, _, hwon.second, he'⟩

omit h in
theorem mem_sharedThird : z ∈ sharedThird rows final.id ↔
    ∃ m ∈ rows, m.isSemifinal final.id = true ∧ m.loser = some z := by
  simp only [sharedThird, List.mem_filterMap, List.mem_filter, and_assoc]

theorem champion_reaches : Reaches total (matchViews site db t) x (total + 1) ∧
    Reaches total (matchViews site db t) y total := by
  obtain ⟨w, hwon⟩ := h.won
  have hlast := h.last
  simp only [Match.isFinal, Bool.and_eq_true, Option.isNone_iff_eq_none, Bool.not_eq_true'] at hlast
  refine reaches_of_won h.mem hwon ?_ ?_
  · rw [reached_eq hwon.decided hwon.winner, if_neg (by simp [hlast.2]), if_pos hlast.1, if_pos rfl]
  · rw [reached_eq hwon.decided hwon.winner, if_neg (by simp [hlast.2]), if_pos hlast.1, if_neg w.other_ne]

omit h in
theorem third_reaches (hm : m ∈ battlesOf db t.id) (hthird : m.isThirdPlace = true) (hwon : m.Won w p q) :
    Reaches total (matchViews site db t) p (total - 1 / 2) ∧ Reaches total (matchViews site db t) q (total - 3 / 4) := by
  refine reaches_of_won hm hwon ?_ ?_
  · rw [reached_eq hwon.decided hwon.winner, if_pos hthird, if_pos rfl]
  · rw [reached_eq hwon.decided hwon.winner, if_pos hthird, if_neg w.other_ne]

/-- A semifinal is of the round before the final. -/
theorem round_of_semifinal (hnone : ∀ m ∈ battlesOf db t.id, m.isThirdPlace = false) (hm : m ∈ battlesOf db t.id)
    (hnext : m.nextMatch.any (·.1 = final.id) = true) :
    ∃ number, m.round = some number ∧ 1 ≤ number ∧ number + 1 = total := by
  have hlast : m.isFinal = false := by
    cases hm' : m.nextMatch with
    | none =>
        rw [hm'] at hnext
        cases hnext
    | some => simp [Match.isFinal, hm']
  obtain ⟨number, hround, hpos, _, hsemi⟩ := h.earlier m hm hlast (hnone m hm)
  exact ⟨number, hround, hpos, hsemi.mp hnext⟩

/-- Whoever shares third place lost a semifinal. -/
theorem shared_won (hz : z ∈ sharedThird (battlesOf db t.id) final.id) : Behind players x y z ∧
    ∃ m ∈ battlesOf db t.id, m.nextMatch.any (·.1 = final.id) = true ∧ ∃ w p, m.Won w p z := by
  obtain ⟨m, hm, hsemi, hloser⟩ := mem_sharedThird.mp hz
  simp only [Match.isSemifinal, Bool.and_eq_true, decide_eq_true_eq] at hsemi
  obtain ⟨w, p, q, hwon, hbehind⟩ := h.beaten m hm hsemi.1.1 hsemi.2
  obtain rfl : q = z := Option.some.inj (hwon.loser.symm.trans hloser)
  exact ⟨hbehind, m, hm, hsemi.1.1, w, p, hwon⟩

theorem shared_reaches (hnone : ∀ m ∈ battlesOf db t.id, m.isThirdPlace = false)
    (hz : z ∈ sharedThird (battlesOf db t.id) final.id) : Reaches total (matchViews site db t) z (total - 1) := by
  obtain ⟨_, m, hm, hnext, w, p, hwon⟩ := h.shared_won hz
  obtain ⟨number, hround, _, heq⟩ := h.round_of_semifinal hnone hm hnext
  have hgoes : m.nextMatch ≠ none := fun hm' => by
    rw [hm'] at hnext
    cases hnext
  refine ⟨_, mem_matchViews.mpr ⟨m, hm, rfl⟩, w.other, hwon.second, ?_⟩
  rw [reached_eq hwon.decided hwon.winner, if_neg (by simp [hnone m hm]), if_neg hgoes, if_neg w.other_ne, hround,
    ← heq]
  simp

/-- With a match for third place: how far each participant got. -/
theorem depth_third (hm : m ∈ battlesOf db t.id) (hthird : m.isThirdPlace = true) (hwon : m.Won w p q)
    (hdeep : Deep total (matchViews site db t) z depth) :
    (z = x ∧ depth = total + 1) ∨ (z = y ∧ depth = total) ∨ (z = p ∧ depth = total - 1 / 2) ∨
      (z = q ∧ depth = total - 3 / 4) ∨ (z ∉ [x, y, p, q] ∧ depth ≤ total - 1) := by
  have hone : (1 : ℚ) ≤ total := by exact_mod_cast h.one_le
  have hclass : (z = x ∧ depth = total + 1) ∨ (z = y ∧ depth = total) ∨ (z = p ∧ depth = total - 1 / 2) ∨
      (z = q ∧ depth = total - 3 / 4) ∨ depth ≤ total - 1 := by
    rcases hdeep.reached with hzero | hreached
    · exact .inr (.inr (.inr (.inr (by linarith))))
    rcases h.reaches hreached with hx | hy | ⟨n, hn, hn3, v, p', q', hwon', hlast⟩ | ⟨number, rfl, hle, _⟩
    · exact .inl hx
    · exact .inr (.inl hy)
    · obtain rfl := (h.third m hm hthird).2.1 n hn hn3
      obtain ⟨rfl, rfl, rfl⟩ := hwon.unique hwon'
      exact .inr (.inr (hlast.imp_right .inl))
    · have hle : (number : ℚ) + 1 ≤ total := by exact_mod_cast hle
      exact .inr (.inr (.inr (.inr (by linarith))))
  obtain ⟨hx, hy⟩ : Reaches total (matchViews site db t) x _ ∧ Reaches _ _ y _ := h.champion_reaches
  obtain ⟨hp, hq⟩ : Reaches total (matchViews site db t) p _ ∧ Reaches _ _ q _ := third_reaches hm hthird hwon
  refine hclass.imp_right (.imp_right (.imp_right (.imp_right fun hle => ⟨fun hz => ?_, hle⟩)))
  simp only [List.mem_cons, List.not_mem_nil, or_false] at hz
  rcases hz with rfl | rfl | rfl | rfl
  · linarith [hdeep.best _ hx]
  · linarith [hdeep.best _ hy]
  · linarith [hdeep.best _ hp]
  · linarith [hdeep.best _ hq]

/-- Without it: the losers of the semifinals got as far as each other. -/
theorem depth_shared (hnone : ∀ m ∈ battlesOf db t.id, m.isThirdPlace = false) (hz : z ∈ players)
    (hdeep : Deep total (matchViews site db t) z depth) :
    (z = x ∧ depth = total + 1) ∨ (z = y ∧ depth = total) ∨
      (z ∈ sharedThird (battlesOf db t.id) final.id ∧ depth = total - 1) ∨
      (z ∉ x :: y :: sharedThird (battlesOf db t.id) final.id ∧ depth < total - 1) := by
  have hone : (1 : ℚ) ≤ total := by exact_mod_cast h.one_le
  have hclass : (z = x ∧ depth = total + 1) ∨ (z = y ∧ depth = total) ∨
      (z ∈ sharedThird (battlesOf db t.id) final.id ∧ depth = total - 1) ∨ depth = 0 ∨ depth ≤ total - 2 := by
    rcases hdeep.reached with hzero | hreached
    · exact .inr (.inr (.inr (.inl hzero)))
    rcases h.reaches hreached with hx | hy | ⟨m, hm, hthird, _⟩ | ⟨number, rfl, hle, hsemi⟩
    · exact .inl hx
    · exact .inr (.inl hy)
    · rw [hnone m hm] at hthird
      cases hthird
    · by_cases hlast : number + 1 = total
      · refine .inr (.inr (.inl ⟨mem_sharedThird.mpr (hsemi hlast), ?_⟩))
        rw [← hlast]
        simp
      · have hless : (number : ℚ) + 2 ≤ total := by exact_mod_cast (by omega : number + 2 ≤ total)
        exact .inr (.inr (.inr (.inr (by linarith))))
  obtain ⟨hx, hy⟩ : Reaches total (matchViews site db t) x _ ∧ Reaches _ _ y _ := h.champion_reaches
  refine hclass.imp_right (.imp_right (.imp_right fun hlow => ?_))
  have hfirst : z ≠ x := by
    rintro rfl
    have := hdeep.best _ hx
    rcases hlow with hzero | hlow <;> linarith
  have hsecond : z ≠ y := by
    rintro rfl
    have := hdeep.best _ hy
    rcases hlow with hzero | hlow <;> linarith
  -- whoever is not in the final had a semifinal to reach
  obtain ⟨m, hm, hnext, _⟩ := h.shared z ⟨hz, hfirst, hsecond⟩
  obtain ⟨number, _, hpos, heq⟩ := h.round_of_semifinal hnone hm hnext
  have htwo : (2 : ℚ) ≤ total := by exact_mod_cast (by omega : 2 ≤ total)
  have hless : depth < total - 1 := by rcases hlow with hzero | hlow <;> linarith
  refine ⟨fun hmem => ?_, hless⟩
  have hshared := (List.mem_cons.mp ((List.mem_cons.mp hmem).resolve_left hfirst)).resolve_left hsecond
  exact absurd (hdeep.best _ (h.shared_reaches hnone hshared)) (not_le.mpr hless)

end
end Finale

/-! ## Places -/

/-- The participants of `tops` got further than `bound`, and nobody else did. -/
def Leads (table : List Standing) (tops : List ProfileId) (bound : ℚ) : Prop :=
  ∀ row ∈ table, row.profile ∈ tops ↔ bound < row.depth

/-- A table of distinct players, with the place that their depth gives them. -/
structure Tabled (table : List Standing) : Prop where
  distinct : (table.map (·.profile)).Nodup
  place : ∀ row ∈ table, row.place = competitionRank (fun other => OrderDual.toDual other.depth) table row

theorem Leads.place {table : List Standing} {tops : List ProfileId} {row : Standing} (htable : Tabled table)
    (hleads : Leads table tops row.depth) (hrow : row ∈ table) (htops : tops.Nodup)
    (hsub : tops ⊆ table.map (·.profile)) : row.place = tops.length + 1 := by
  rw [htable.place row hrow]
  exact Ranking.competitionRank_of_tops htable.distinct htops hsub fun other hother => hleads other hother

/-- Whoever got less far than some is placed after them. -/
theorem Tabled.lt_place {table : List Standing} {tops : List ProfileId} {row : Standing} (htable : Tabled table)
    (hrow : row ∈ table) (htops : tops.Nodup) (hsub : tops ⊆ table.map (·.profile))
    (h : ∀ other ∈ table, other.profile ∈ tops → row.depth < other.depth) : tops.length < row.place := by
  rw [htable.place row hrow]
  exact Ranking.lt_competitionRank_of_tops htable.distinct htops hsub h

namespace Finale
variable (h : Finale (battlesOf db t.id) (t.participants.map Participant.profile) t.rounds.length final x y)
include h

theorem places_third (hdistinct : (t.participants.map Participant.profile).Nodup) (hm : m ∈ battlesOf db t.id)
    (hthird : m.isThirdPlace = true) (hwon : m.Won w p q) : ∀ row ∈ standings site t (matchViews site db t),
    (row.place = 1 ↔ row.profile = x) ∧ (row.place = 2 ↔ row.profile = y) ∧ (row.place = 3 ↔ row.profile = p) ∧
      (row.place = 4 ↔ row.profile = q) := by
  obtain ⟨hperm, hspec⟩ := standings_spec site t (matchViews site db t)
  have htable : Tabled (standings site t (matchViews site db t)) :=
    ⟨hperm.nodup_iff.mpr hdistinct, fun row hrow => (hspec row hrow).2⟩
  generalize standings site t (matchViews site db t) = table at hperm hspec htable
  have hclass := fun row hrow => h.depth_third hm hthird hwon (hspec row hrow).1
  obtain ⟨_, _, _, _, _, hwon', hpq, hp, hq⟩ := h.third m hm hthird
  obtain ⟨rfl, rfl, rfl⟩ := hwon.unique hwon'
  obtain ⟨hx, hy⟩ := h.enrolled
  obtain ⟨hpin, hpx, hpy⟩ := hp
  obtain ⟨hqin, hqx, hqy⟩ := hq
  have hne := h.ne
  simp only [← hperm.mem_iff] at hx hy hpin hqin
  have hfirst : Leads table [] (t.rounds.length + 1) := fun row hrow => by grind [hclass row hrow]
  have hsecond : Leads table [x] t.rounds.length := fun row hrow => by grind [hclass row hrow]
  have hthird : Leads table [x, y] (t.rounds.length - 1 / 2) := fun row hrow => by grind [hclass row hrow]
  have hfourth : Leads table [x, y, p] (t.rounds.length - 3 / 4) := fun row hrow => by grind [hclass row hrow]
  intro row hrow
  rcases hclass row hrow with ⟨hz, hd⟩ | ⟨hz, hd⟩ | ⟨hz, hd⟩ | ⟨hz, hd⟩ | ⟨hz, hd⟩
  · have hplace := (hd ▸ hfirst).place htable hrow (by simp) (by simp)
    grind
  · have hplace := (hd ▸ hsecond).place htable hrow (by simp) (by simpa using hx)
    grind
  · have hplace := (hd ▸ hthird).place htable hrow (by simp [hne]) (by simp [hx, hy])
    grind
  · have hplace := (hd ▸ hfourth).place htable hrow (by grind) (by simp [hx, hy, hpin])
    grind
  · have hplace : [x, y, p, q].length < row.place :=
      htable.lt_place hrow (by grind) (by grind) fun other hother hmem => by grind [hclass other hother]
    grind

theorem places_shared (hdistinct : (t.participants.map Participant.profile).Nodup)
    (hnone : ∀ m ∈ battlesOf db t.id, m.isThirdPlace = false) : ∀ row ∈ standings site t (matchViews site db t),
    (row.place = 1 ↔ row.profile = x) ∧ (row.place = 2 ↔ row.profile = y) ∧
      (row.place = 3 ↔ row.profile ∈ sharedThird (battlesOf db t.id) final.id) := by
  obtain ⟨hperm, hspec⟩ := standings_spec site t (matchViews site db t)
  have htable : Tabled (standings site t (matchViews site db t)) :=
    ⟨hperm.nodup_iff.mpr hdistinct, fun row hrow => (hspec row hrow).2⟩
  generalize standings site t (matchViews site db t) = table at hperm hspec htable
  have hclass := fun row hrow => h.depth_shared hnone (hperm.mem_iff.mp (List.mem_map_of_mem hrow)) (hspec row hrow).1
  obtain ⟨hx, hy⟩ := h.enrolled
  have hne := h.ne
  have hbehind := fun z (hz : z ∈ sharedThird (battlesOf db t.id) final.id) => (h.shared_won hz).1
  have hnot : ∀ z ∈ sharedThird (battlesOf db t.id) final.id, z ≠ x ∧ z ≠ y := fun z hz =>
    ⟨(hbehind z hz).first, (hbehind z hz).second⟩
  have hfirst : Leads table [] (t.rounds.length + 1) := fun row hrow => by grind [hclass row hrow]
  have hsecond : Leads table [x] t.rounds.length := fun row hrow => by grind [hclass row hrow]
  have hthird : Leads table [x, y] (t.rounds.length - 1) := fun row hrow => by grind [hclass row hrow]
  simp only [← hperm.mem_iff] at hx hy
  intro row hrow
  rcases hclass row hrow with ⟨hz, hd⟩ | ⟨hz, hd⟩ | ⟨hz, hd⟩ | ⟨hz, hd⟩
  · have hplace := (hd ▸ hfirst).place htable hrow (by simp) (by simp)
    grind
  · have hplace := (hd ▸ hsecond).place htable hrow (by simp) (by simpa using hx)
    grind
  · have hplace := (hd ▸ hthird).place htable hrow (by simp [hne]) (by simp [hx, hy])
    grind
  · -- somebody shares third place before the rest
    obtain ⟨l, hl⟩ : ∃ l, l ∈ sharedThird (battlesOf db t.id) final.id := by
      have hz' : Behind (t.participants.map Participant.profile) x y row.profile :=
        ⟨hperm.mem_iff.mp (List.mem_map_of_mem hrow), by grind, by grind⟩
      obtain ⟨m, hm, hnext, hbye⟩ := h.shared _ hz'
      obtain ⟨w, p, q, hwon, _⟩ := h.beaten m hm hnext hbye
      exact ⟨q, mem_sharedThird.mpr ⟨m, hm, by simp [Match.isSemifinal, hnext, hwon.winner, hbye], hwon.loser⟩⟩
    have hlin : l ∈ table.map (·.profile) := hperm.mem_iff.mpr (hbehind l hl).enrolled
    have hplace : [x, y, l].length < row.place :=
      htable.lt_place hrow (by grind) (by grind) fun other hother hmem => by grind [hclass other hother]
    grind

end Finale

/-! ## The three podiums -/

/-- What the podium, the standings and the titles of the ranking say when they name the same players: the standings place
    them, and nobody else, and the titles are those the tournament adds to each player. -/
structure Agree (site : Site) (db : Db) (t : Tournament) (first second : PlayerView) (third : List PlayerView)
    (fourth : Option PlayerView) : Prop where
  podium : podium (matchViews site db t) = some { first, second, third := third.map some, fourth }
  /-- Every participant has a row. -/
  rows : ((standings site t (matchViews site db t)).map (·.profile)).Perm (t.participants.map Participant.profile)
  /-- There is a fourth if there was a match for third place. -/
  contested : fourth.isSome = true ↔ ∃ m ∈ battlesOf db t.id, m.isThirdPlace = true
  listed : ∀ p ∈ first :: second :: third ++ fourth.toList,
    ∃ row ∈ standings site t (matchViews site db t), row.profile = p.profile
  places : ∀ row ∈ standings site t (matchViews site db t),
    (row.place = 1 ↔ row.profile = first.profile) ∧ (row.place = 2 ↔ row.profile = second.profile) ∧
    (row.place = 3 ↔ row.profile ∈ third.map PlayerView.profile) ∧ ∀ p ∈ fourth, row.place = 4 ↔ row.profile = p.profile
  titles : t.ranking = .counts → ∀ p honour, (Honours.ofPlayer (palmares db) p).get honour =
    (Honours.ofPlayer (palmares (db.without t.id)) p).get honour +
      ((first.profile, Honour.title) :: (second.profile, .final) :: third.map fun q => (q.profile, .third)).count
        (p, honour)

theorem podiums_agree (hrun : Run (Unreplaced t.id) {} db) (ht : t ∈ db.tournaments.rows)
    (hover : t.status = .finished ∨ t.status = .archived) (hplayed : PlayedOut db t.id) :
    ∃ first second third fourth, Agree site db t first second third fourth := by
  obtain ⟨hdb, hcharted⟩ := hrun.charted
  obtain ⟨d, hcharts⟩ := hcharted t ht rfl
  obtain ⟨final, x, y, hfin⟩ := hcharts.finale hdb hplayed
  have hdistinct := hcharts.distinct
  obtain ⟨w, hfinal⟩ := hfin.won
  have hrows := (standings_spec site t (matchViews site db t)).1
  have hlisted : ∀ z ∈ t.participants.map Participant.profile,
      ∃ row ∈ standings site t (matchViews site db t), row.profile = z := fun z hz =>
    List.mem_map.mp (hrows.mem_iff.mpr hz)
  have hhonours : t.ranking = .counts → t.honours = true := fun hcounts => by
    simpa [Tournament.honours, hcounts] using hover
  have hfirst : playerView site final w = _ := playerView_eq hfinal.first
  have hsecond : playerView site final w.other = _ := playerView_eq hfinal.second
  by_cases hcontested : ∃ m ∈ battlesOf db t.id, m.isThirdPlace = true
  · obtain ⟨m, hm, hthird⟩ := hcontested
    obtain ⟨_, _, v, p, q, hwon, _, hp, hq⟩ := hfin.third m hm hthird
    have hpodium : Arena.podium (matchViews site db t) = _ := hfin.podium_third hm hthird hfinal hwon
    rw [hfirst, hsecond, playerView_eq hwon.first, playerView_eq hwon.second] at hpodium
    refine ⟨_, _, [_], some _, hpodium, hrows, iff_of_true rfl ⟨m, hm, hthird⟩, ?_, fun row hrow => ?_, ?_⟩
    · simp only [List.mem_append, Option.toList_some, List.mem_cons, List.not_mem_nil, or_false]
      rintro _ ((rfl | rfl | rfl) | rfl)
      · exact hlisted _ hfin.enrolled.1
      · exact hlisted _ hfin.enrolled.2
      · exact hlisted _ hp.enrolled
      · exact hlisted _ hq.enrolled
    · obtain ⟨h1, h2, h3, h4⟩ := hfin.places_third hdistinct hm hthird hwon row hrow
      refine ⟨h1, h2, by simpa using h3, fun _ hfourth => ?_⟩
      obtain rfl := Option.mem_some_iff.mp hfourth
      exact h4
    · exact fun hcounts => hfin.titles ht (hhonours hcounts) (hfin.honoursOf_third hm hthird hwon)
  · have hnone : ∀ m ∈ battlesOf db t.id, m.isThirdPlace = false := fun m hm =>
      Bool.eq_false_iff.mpr fun hthird => hcontested ⟨m, hm, hthird⟩
    obtain ⟨third, hperm, hpodium⟩ : ∃ third : List PlayerView, _ ∧ Arena.podium (matchViews site db t) = _ :=
      hfin.podium_shared hnone hfinal
    rw [hfirst, hsecond] at hpodium
    refine ⟨_, _, third, none, hpodium, hrows, iff_of_false (by simp) hcontested, ?_, fun row hrow => ?_, ?_⟩
    · simp only [Option.toList_none, List.append_nil, List.mem_cons]
      rintro v (rfl | rfl | hv)
      · exact hlisted _ hfin.enrolled.1
      · exact hlisted _ hfin.enrolled.2
      · exact hlisted _ (hfin.shared_won (hperm.mem_iff.mp (List.mem_map_of_mem hv))).1.enrolled
    · obtain ⟨h1, h2, h3⟩ := hfin.places_shared hdistinct hnone row hrow
      exact ⟨h1, h2, h3.trans hperm.mem_iff.symm, fun _ hfourth => by cases hfourth⟩
    · intro hcounts p honour
      have hawards : honoursOf (decidedIn db t.id) = ((x, .title) :: (y, .final) ::
          (sharedThird (battlesOf db t.id) final.id).map fun z => (z, .third)).map (Prod.map some id) := by
        rw [hfin.honoursOf_shared hnone]
        simp
      have hthirds : (third.map fun q => (q.profile, Honour.third)).Perm
          ((sharedThird (battlesOf db t.id) final.id).map fun z => (z, Honour.third)) := by
        simpa [Function.comp_def] using hperm.map fun z => (z, Honour.third)
      rw [hfin.titles ht (hhonours hcounts) hawards, ((hthirds.cons _).cons _).count_eq]

end

/-- Five players and third place, with a semifinal corrected before the final. -/
def fiveToTheEnd : List (Site × Op) :=
  ([.organize 9 (.createTournament "Cup" [some 1, some 2, some 3, some 4, some 5] .manual true {} "" none true none
      .counts),
    .organize 9 (.onTournament 1 none .start),
    .organize 9 (.onMatch 6 none (.walkover .a)),
    .organize 9 (.onMatch 3 none (.walkover .a)),
    .organize 9 (.onMatch 3 none (.setWinner .b)),
    .organize 9 (.onMatch 4 none (.walkover .b)),
    .organize 9 (.onMatch 2 none (.walkover .a)),
    .organize 9 (.onMatch 9 none (.walkover .b))] : List Op).map fun op => ({ now := 0 }, op)

theorem podiums_agree_five : ∃ db, ∃ t ∈ db.tournaments.rows, t.status = .finished ∧ t.ranking = .counts ∧
    ∃ first second third fourth, Agree { now := 0 } db t first second third fourth := by
  have hfinished : ∃ t ∈ (Db.play {} fiveToTheEnd).tournaments.rows, t.id = 1 ∧ t.status = .finished ∧
      t.ranking = .counts := by decide +kernel
  obtain ⟨t, ht, hid, hover, hcounts⟩ := hfinished
  have hrun : Run (Unreplaced t.id) {} (Db.play {} fiveToTheEnd) := Run.ofSteps _ fun step hstep db => by
    obtain ⟨op, hop, rfl⟩ := List.mem_map.mp hstep
    refine ⟨?_, fun _ => .refl _⟩
    fin_cases hop <;> trivial
  have hplayed : PlayedOut (Db.play {} fiveToTheEnd) t.id := by
    rw [hid]
    unfold PlayedOut
    decide +kernel
  exact ⟨_, t, ht, hover, hcounts, podiums_agree hrun ht (.inl hover) hplayed⟩

end Arena
end CpcJudge
