import CpcJudge.Arena.Counted

/-!
# `Arena.RatingRun` — the ranking adds up, and the sides of a battle do not matter

`compute` keeps several totals for each player and writes a change for each battle. One player of a battle at a time,
the totals stay the sums over the changes. Both players are rated against what they were worth before the battle, so
which of them is A makes no difference to what is left under any key.
-/

namespace CpcJudge
namespace Arena

open Keyed

/-! ## One player of a battle -/

namespace Glicko
variable (g : Glicko) (battle : Battle) (before : Pair Strength) (state : Option Rating) (slot : Slot)

/-- What `rate` gives for a slot. -/
def newStrength : Strength :=
  g.rate (before.get slot) (battle.winners.map fun winner =>
    ((before.get slot.other).rating, (before.get slot.other).deviation, if winner = slot then (1 : ℚ) else 0))

/-- The rating of a player after a battle, from the one before. -/
def newRating : Rating where
  profile := battle.players.get slot
  strength := g.newStrength battle before slot
  games := (state.map (·.games)).getD 0 + battle.winners.length
  wins := (state.map (·.wins)).getD 0 + battle.winners.count slot
  battles := (state.map (·.battles)).getD 0 + 1
  lastPlayed := battle.time

/-- The change of a player in a battle. -/
def newChange : RatingChange where
  «match» := battle.id
  profile := battle.players.get slot
  time := battle.time
  ratingBefore := (before.get slot).rating
  after := g.newStrength battle before slot
  games := battle.winners.length
  wins := battle.winners.count slot
  gamesTotal := (g.newRating battle before state slot).games

/-- One battle of `compute`. -/
def rateBattle (ranking : DuelRanking) : DuelRanking :=
  [Slot.a, .b].foldl (g.rateSlot battle (battle.players.map (g.before ranking battle.time))) ranking

end Glicko

variable {g : Glicko} {battle : Battle} {before : Pair Strength} {slot : Slot} {r r' : DuelRanking}
  {list list' : List Battle}

theorem Glicko.rateSlot_eq : g.rateSlot battle before r slot =
    { ratings := r.ratings.upsert
        (g.newRating battle before (r.ratings.get? (battle.players.get slot)) slot)
      changes := r.changes.upsert
        (g.newChange battle before (r.ratings.get? (battle.players.get slot)) slot) } := rfl

theorem Glicko.compute_eq : g.compute list = list.foldl (fun r battle => g.rateBattle battle r) {} := rfl

/-! ## The totals -/

/-- The changes of a player, in the order of their battles. -/
def DuelRanking.changesOf (r : DuelRanking) (profile : ProfileId) : List RatingChange :=
  r.changes.rows.filter (·.profile = profile)

/-- The totals of every player are the sums over their changes, and the running total of a change the sum up to it. -/
structure DuelRanking.Tallies (r : DuelRanking) : Prop where
  games : ∀ rating ∈ r.ratings.rows, rating.games = ((r.changesOf rating.profile).map (·.games)).sum
  wins : ∀ rating ∈ r.ratings.rows, rating.wins = ((r.changesOf rating.profile).map (·.wins)).sum
  battles : ∀ rating ∈ r.ratings.rows, rating.battles = (r.changesOf rating.profile).length
  rated : ∀ change ∈ r.changes.rows, (r.ratings.get? change.profile).isSome
  running : ∀ profile earlier change later, r.changesOf profile = earlier ++ change :: later →
    change.gamesTotal = ((earlier ++ [change]).map (·.games)).sum

theorem DuelRanking.Tallies.empty : DuelRanking.Tallies {} := by
  refine ⟨?_, ?_, ?_, ?_, ?_⟩
  · intro rating h
    cases h
  · intro rating h
    cases h
  · intro rating h
    cases h
  · intro change h
    cases h
  · intro profile earlier change later h
    simp [DuelRanking.changesOf, Table.empty] at h

/-- What a player has so far, whether they have a rating or not. -/
theorem DuelRanking.Tallies.so_far (h : r.Tallies) (profile : ProfileId) :
    ((r.ratings.get? profile).map (·.games)).getD 0 = ((r.changesOf profile).map (·.games)).sum ∧
      ((r.ratings.get? profile).map (·.wins)).getD 0 = ((r.changesOf profile).map (·.wins)).sum ∧
        ((r.ratings.get? profile).map (·.battles)).getD 0 = (r.changesOf profile).length := by
  cases hget : r.ratings.get? profile with
  | none =>
      have hnone : r.changesOf profile = [] := by
        refine List.filter_eq_nil_iff.mpr fun change hchange hprofile => ?_
        have hrated := h.rated change hchange
        rw [of_decide_eq_true hprofile, hget] at hrated
        cases hrated
      rw [hnone]
      exact ⟨rfl, rfl, rfl⟩
  | some rating =>
      obtain ⟨hmem, rfl⟩ := Table.get?_eq_some_iff.mp hget
      exact ⟨h.games rating hmem, h.wins rating hmem, h.battles rating hmem⟩

theorem change_key_eq {x y : RatingChange} : key x = key y ↔ x.match = y.match ∧ x.profile = y.profile := by
  show Nat.pair x.match x.profile = Nat.pair y.match y.profile ↔ _
  rw [Nat.pair_eq_pair]

/-- A slot of a new battle adds its change, and its part to the totals. -/
theorem DuelRanking.Tallies.rateSlot (h : r.Tallies)
    (hnew : ∀ change ∈ r.changes.rows, change.match = battle.id → change.profile ≠ battle.players.get slot) :
    (g.rateSlot battle before r slot).Tallies := by
  have hgames : ∀ state, (g.newRating battle before state slot).games =
      (state.map (·.games)).getD 0 + battle.winners.length := fun _ => rfl
  obtain ⟨hsoGames, hsoWins, hsoBattles⟩ := h.so_far (battle.players.get slot)
  have hrows : (g.rateSlot battle before r slot).changes.rows = r.changes.rows ++
      [g.newChange battle before (r.ratings.get? (battle.players.get slot)) slot] := by
    refine Table.rows_upsert (Table.get?_eq_none_iff.mpr fun change hchange hkey => ?_)
    obtain ⟨hmatch, hprofile⟩ := change_key_eq.mp hkey
    exact hnew change hchange hmatch hprofile
  have hself : (g.rateSlot battle before r slot).changesOf (battle.players.get slot) =
      r.changesOf (battle.players.get slot) ++
        [g.newChange battle before (r.ratings.get? (battle.players.get slot)) slot] := by
    rw [DuelRanking.changesOf, hrows, List.filter_append]
    congr 1
    simp [Glicko.newChange]
  have hother : ∀ profile, profile ≠ battle.players.get slot →
      (g.rateSlot battle before r slot).changesOf profile = r.changesOf profile := by
    intro profile hne
    rw [DuelRanking.changesOf, hrows, List.filter_append]
    simp [DuelRanking.changesOf, Glicko.newChange, hne.symm]
  -- a rating is the new one, or one of somebody else
  have hrating : ∀ rating ∈ (g.rateSlot battle before r slot).ratings.rows,
      rating = g.newRating battle before (r.ratings.get? (battle.players.get slot)) slot ∨
        (rating ∈ r.ratings.rows ∧ rating.profile ≠ battle.players.get slot) := fun rating hin =>
    Table.mem_upsert hin
  refine ⟨?_, ?_, ?_, ?_, ?_⟩
  · intro rating hin
    rcases hrating rating hin with rfl | ⟨hin, hne⟩
    · rw [show (g.newRating battle before _ slot).profile = battle.players.get slot from rfl, hself, List.map_append,
        List.sum_append, ← hsoGames]
      simp [Glicko.newRating, Glicko.newChange]
    · rw [hother _ hne]
      exact h.games rating hin
  · intro rating hin
    rcases hrating rating hin with rfl | ⟨hin, hne⟩
    · rw [show (g.newRating battle before _ slot).profile = battle.players.get slot from rfl, hself, List.map_append,
        List.sum_append, ← hsoWins]
      simp [Glicko.newRating, Glicko.newChange]
    · rw [hother _ hne]
      exact h.wins rating hin
  · intro rating hin
    rcases hrating rating hin with rfl | ⟨hin, hne⟩
    · rw [show (g.newRating battle before _ slot).profile = battle.players.get slot from rfl, hself, List.length_append,
        ← hsoBattles]
      simp [Glicko.newRating]
    · rw [hother _ hne]
      exact h.battles rating hin
  · intro change hin
    rw [hrows, List.mem_append, List.mem_singleton] at hin
    by_cases hprofile : change.profile = battle.players.get slot
    · rw [hprofile, Glicko.rateSlot_eq]
      exact Option.isSome_iff_exists.mpr ⟨_, Table.get?_upsert_self⟩
    · rcases hin with hin | rfl
      · rw [Glicko.rateSlot_eq]
        refine (congrArg Option.isSome ?_).trans (h.rated change hin)
        exact Table.get?_upsert_of_ne hprofile
      · exact absurd rfl hprofile
  · intro profile earlier change later hsplit
    by_cases hprofile : profile = battle.players.get slot
    · subst hprofile
      rw [hself] at hsplit
      rcases List.eq_nil_or_concat later with rfl | ⟨later, last, rfl⟩
      · obtain ⟨rfl, heq⟩ := List.append_inj' hsplit rfl
        obtain ⟨rfl, _⟩ := List.cons.inj heq
        rw [List.map_append, List.sum_append, ← hsoGames]
        simp [Glicko.newRating, Glicko.newChange]
      · rw [List.concat_eq_append, ← List.cons_append, ← List.append_assoc] at hsplit
        exact h.running _ earlier change later (List.append_inj' hsplit rfl).1
    · rw [hother profile hprofile] at hsplit
      exact h.running profile earlier change later hsplit

theorem mem_rateSlot {change : RatingChange} (h : change ∈ (g.rateSlot battle before r slot).changes.rows) :
    (change.match = battle.id ∧ change.profile = battle.players.get slot) ∨ change ∈ r.changes.rows := by
  rcases Table.mem_upsert h with rfl | ⟨h, _⟩
  · exact .inl ⟨rfl, rfl⟩
  · exact .inr h

theorem DuelRanking.Tallies.rateBattle (h : r.Tallies) (hnew : ∀ change ∈ r.changes.rows, change.match ≠ battle.id)
    (hrivals : battle.players.a ≠ battle.players.b) : (g.rateBattle battle r).Tallies := by
  refine DuelRanking.Tallies.rateSlot (DuelRanking.Tallies.rateSlot h fun change hin hid => ?_) fun change hin hid => ?_
  · exact absurd hid (hnew change hin)
  · rcases mem_rateSlot hin with ⟨_, hprofile⟩ | hin
    · rw [hprofile]
      exact hrivals
    · exact absurd hid (hnew change hin)

theorem mem_rateBattle {change : RatingChange} (h : change ∈ (g.rateBattle battle r).changes.rows) :
    change.match = battle.id ∨ change ∈ r.changes.rows := by
  rcases mem_rateSlot h with ⟨hid, _⟩ | h
  · exact .inl hid
  · exact (mem_rateSlot h).imp_left And.left

theorem Glicko.tallies_foldl (hids : (list.map (·.id)).Nodup)
    (hrivals : ∀ battle ∈ list, battle.players.a ≠ battle.players.b) (h : r.Tallies)
    (hnew : ∀ change ∈ r.changes.rows, ∀ battle ∈ list, change.match ≠ battle.id) :
    (list.foldl (fun r battle => g.rateBattle battle r) r).Tallies := by
  induction list generalizing r with
  | nil => exact h
  | cons battle list ih =>
      rw [List.map_cons, List.nodup_cons] at hids
      refine ih hids.2 (fun b hb => hrivals b (List.mem_cons_of_mem _ hb))
        (h.rateBattle (fun change hin => hnew change hin battle List.mem_cons_self)
          (hrivals battle List.mem_cons_self)) fun change hin b hb heq => ?_
      rcases mem_rateBattle hin with hid | hin
      · exact hids.1 (hid ▸ heq ▸ List.mem_map_of_mem hb)
      · exact hnew change hin b (List.mem_cons_of_mem _ hb) heq

/-- The wins of all the players together. -/
def DuelRanking.wins (r : DuelRanking) : ℕ := (r.ratings.rows.map (·.wins)).sum

theorem wins_rateSlot : (g.rateSlot battle before r slot).wins = r.wins + battle.winners.count slot := by
  have hsum := Table.sum_upsert (t := r.ratings) (f := (·.wins))
    (a := g.newRating battle before (r.ratings.get? (battle.players.get slot)) slot)
  have hkey : key (g.newRating battle before (r.ratings.get? (battle.players.get slot)) slot) =
      battle.players.get slot := rfl
  rw [hkey] at hsum
  have hnew : (g.newRating battle before (r.ratings.get? (battle.players.get slot)) slot).wins =
      ((r.ratings.get? (battle.players.get slot)).map (·.wins)).getD 0 + battle.winners.count slot := rfl
  rw [hnew] at hsum
  rw [DuelRanking.wins, DuelRanking.wins, Glicko.rateSlot_eq]
  dsimp only
  omega

/-- Every game has one winner. -/
theorem count_slots {winners : List Slot} : winners.count .a + winners.count .b = winners.length := by
  induction winners with
  | nil => rfl
  | cons winner winners ih =>
      rw [List.count_cons, List.count_cons, List.length_cons]
      cases winner <;> simp <;> omega

theorem Glicko.wins_foldl : (list.foldl (fun r battle => g.rateBattle battle r) r).wins =
    r.wins + (list.map (·.winners.length)).sum := by
  induction list generalizing r with
  | nil => simp
  | cons battle list ih =>
      have hbattle : (g.rateBattle battle r).wins = r.wins + battle.winners.length := by
        rw [Glicko.rateBattle, List.foldl_cons, List.foldl_cons, List.foldl_nil, wins_rateSlot, wins_rateSlot,
          Nat.add_assoc, count_slots]
      rw [List.foldl_cons, ih, hbattle, List.map_cons, List.sum_cons, Nat.add_assoc]

/-! ## The sides -/

/-- The battle with its sides swapped. -/
def Battle.swap (battle : Battle) : Battle :=
  { battle with players := ⟨battle.players.b, battle.players.a⟩, winners := battle.winners.map Slot.other }

/-- The same rows under every key. -/
structure DuelRanking.Same (r r' : DuelRanking) : Prop where
  ratings : ∀ i, r.ratings.get? i = r'.ratings.get? i
  changes : ∀ i, r.changes.get? i = r'.changes.get? i

theorem swap_player : battle.swap.players.get slot.other = battle.players.get slot := by cases slot <;> rfl

theorem swap_newStrength {before' : Pair Strength} (h : ∀ slot : Slot, before'.get slot.other = before.get slot) :
    g.newStrength battle.swap before' slot.other = g.newStrength battle before slot := by
  have hrival : before'.get slot.other.other = before.get slot.other := h slot.other
  have hresults : ∀ rating deviation : ℚ, (battle.swap.winners.map fun winner =>
      (rating, deviation, if winner = slot.other then (1 : ℚ) else 0)) =
      battle.winners.map fun winner => (rating, deviation, if winner = slot then (1 : ℚ) else 0) := by
    intro rating deviation
    rw [Battle.swap, List.map_map]
    refine List.map_congr_left fun winner _ => ?_
    cases winner <;> cases slot <;> simp [Slot.other]
  rw [Glicko.newStrength, Glicko.newStrength, h, hrival, hresults]

theorem swap_count : battle.swap.winners.count slot.other = battle.winners.count slot := by
  rw [Battle.swap]
  exact List.count_map_of_injective _ _ (fun x y hxy => by cases x <;> cases y <;> simp_all [Slot.other]) _

theorem swap_newRating {before' : Pair Strength} {state : Option Rating}
    (h : ∀ slot : Slot, before'.get slot.other = before.get slot) :
    g.newRating battle.swap before' state slot.other = g.newRating battle before state slot := by
  rw [Glicko.newRating, Glicko.newRating, swap_player, swap_newStrength h, swap_count]
  simp [Battle.swap]

theorem swap_newChange {before' : Pair Strength} {state : Option Rating}
    (h : ∀ slot : Slot, before'.get slot.other = before.get slot) :
    g.newChange battle.swap before' state slot.other = g.newChange battle before state slot := by
  rw [Glicko.newChange, Glicko.newChange, swap_player, swap_newStrength h, swap_count, swap_newRating h, h]
  simp [Battle.swap]

/-- What a battle between two different players leaves of each of them. -/
theorem rateBattle_eq (hrivals : battle.players.a ≠ battle.players.b) : g.rateBattle battle r =
    { ratings := (r.ratings.upsert (g.newRating battle (battle.players.map (g.before r battle.time))
        (r.ratings.get? battle.players.a) .a)).upsert (g.newRating battle
          (battle.players.map (g.before r battle.time)) (r.ratings.get? battle.players.b) .b)
      changes := (r.changes.upsert (g.newChange battle (battle.players.map (g.before r battle.time))
        (r.ratings.get? battle.players.a) .a)).upsert (g.newChange battle
          (battle.players.map (g.before r battle.time)) (r.ratings.get? battle.players.b) .b) } := by
  have hsecond : (g.rateSlot battle (battle.players.map (g.before r battle.time)) r .a).ratings.get? battle.players.b =
      r.ratings.get? battle.players.b := Table.get?_upsert_of_ne hrivals.symm
  rw [Glicko.rateBattle, List.foldl_cons, List.foldl_cons, List.foldl_nil, Glicko.rateSlot_eq,
    show battle.players.get .b = battle.players.b from rfl, hsecond]
  rfl

theorem rateBattle_rating (hrivals : battle.players.a ≠ battle.players.b) (slot : Slot) :
    (g.rateBattle battle r).ratings.get? (battle.players.get slot) =
      some (g.newRating battle (battle.players.map (g.before r battle.time))
        (r.ratings.get? (battle.players.get slot)) slot) := by
  rw [rateBattle_eq hrivals]
  cases slot with
  | a => exact (Table.get?_upsert_of_ne hrivals).trans Table.get?_upsert_self
  | b => exact Table.get?_upsert_self

theorem rateBattle_rating_of_ne {i : ℕ} (hrivals : battle.players.a ≠ battle.players.b)
    (h : ∀ slot, i ≠ battle.players.get slot) : (g.rateBattle battle r).ratings.get? i = r.ratings.get? i := by
  rw [rateBattle_eq hrivals]
  exact (Table.get?_upsert_of_ne (h .b)).trans (Table.get?_upsert_of_ne (h .a))

theorem rateBattle_change (hrivals : battle.players.a ≠ battle.players.b) (slot : Slot) :
    (g.rateBattle battle r).changes.get? (Nat.pair battle.id (battle.players.get slot)) =
      some (g.newChange battle (battle.players.map (g.before r battle.time))
        (r.ratings.get? (battle.players.get slot)) slot) := by
  rw [rateBattle_eq hrivals]
  cases slot with
  | a =>
      refine (Table.get?_upsert_of_ne fun heq => hrivals ?_).trans Table.get?_upsert_self
      exact (Nat.pair_eq_pair.mp heq).2
  | b => exact Table.get?_upsert_self

theorem rateBattle_change_of_ne {i : ℕ} (hrivals : battle.players.a ≠ battle.players.b)
    (h : ∀ slot, i ≠ Nat.pair battle.id (battle.players.get slot)) :
    (g.rateBattle battle r).changes.get? i = r.changes.get? i := by
  rw [rateBattle_eq hrivals]
  exact (Table.get?_upsert_of_ne (h .b)).trans (Table.get?_upsert_of_ne (h .a))

theorem DuelRanking.Same.refl : r.Same r := ⟨fun _ => rfl, fun _ => rfl⟩

theorem DuelRanking.Same.trans {r'' : DuelRanking} (h : r.Same r') (h' : r'.Same r'') : r.Same r'' :=
  ⟨fun i => (h.ratings i).trans (h'.ratings i), fun i => (h.changes i).trans (h'.changes i)⟩

/-- Either player first, a battle leaves the same of them. -/
theorem rateBattle_swap (hrivals : battle.players.a ≠ battle.players.b) :
    (g.rateBattle battle r).Same (g.rateBattle battle.swap r) := by
  have hbefore : ∀ slot : Slot, (battle.swap.players.map (g.before r battle.swap.time)).get slot.other =
      (battle.players.map (g.before r battle.time)).get slot := by
    intro slot
    rw [Pair.get_map, Pair.get_map, swap_player]
    rfl
  have hswapped : ∀ {i : ℕ} {f : ProfileId → ℕ}, (∀ slot, i ≠ f (battle.players.get slot)) →
      ∀ slot, i ≠ f (battle.swap.players.get slot) := by
    intro i f h slot
    rw [← slot.other_other, swap_player]
    exact h slot.other
  constructor
  · intro i
    by_cases h : ∃ slot, i = battle.players.get slot
    · obtain ⟨slot, rfl⟩ := h
      have hswap := @rateBattle_rating g battle.swap r hrivals.symm slot.other
      rw [swap_player, swap_newRating hbefore] at hswap
      rw [rateBattle_rating hrivals, hswap]
    · rw [not_exists] at h
      rw [rateBattle_rating_of_ne hrivals h, rateBattle_rating_of_ne hrivals.symm (hswapped (f := id) h)]
  · intro i
    by_cases h : ∃ slot, i = Nat.pair battle.id (battle.players.get slot)
    · obtain ⟨slot, rfl⟩ := h
      have hswap := @rateBattle_change g battle.swap r hrivals.symm slot.other
      rw [swap_player, swap_newChange hbefore] at hswap
      rw [rateBattle_change hrivals]
      exact hswap.symm
    · rw [not_exists] at h
      rw [rateBattle_change_of_ne hrivals h]
      exact (rateBattle_change_of_ne hrivals.symm (hswapped h)).symm

theorem DuelRanking.Same.rateBattle (h : r.Same r') (hrivals : battle.players.a ≠ battle.players.b) :
    (g.rateBattle battle r).Same (g.rateBattle battle r') := by
  have hbefore : g.before r battle.time = g.before r' battle.time := by
    funext profile
    rw [Glicko.before, Glicko.before, h.ratings profile]
  constructor
  · intro i
    by_cases hslot : ∃ slot, i = battle.players.get slot
    · obtain ⟨slot, rfl⟩ := hslot
      rw [rateBattle_rating hrivals, rateBattle_rating hrivals, hbefore, h.ratings]
    · rw [not_exists] at hslot
      rw [rateBattle_rating_of_ne hrivals hslot, rateBattle_rating_of_ne hrivals hslot, h.ratings]
  · intro i
    by_cases hslot : ∃ slot, i = Nat.pair battle.id (battle.players.get slot)
    · obtain ⟨slot, rfl⟩ := hslot
      rw [rateBattle_change hrivals, rateBattle_change hrivals, hbefore, h.ratings]
    · rw [not_exists] at hslot
      rw [rateBattle_change_of_ne hrivals hslot, rateBattle_change_of_ne hrivals hslot, h.changes]

/-- The lists have the same battles, some of them with their sides swapped. -/
def Swapped (list list' : List Battle) : Prop :=
  List.Forall₂ (fun battle battle' => battle' = battle ∨ battle' = battle.swap) list list'

theorem Glicko.same_foldl (h : Swapped list list') (hrivals : ∀ battle ∈ list, battle.players.a ≠ battle.players.b)
    (hsame : r.Same r') : (list.foldl (fun r battle => g.rateBattle battle r) r).Same
      (list'.foldl (fun r battle => g.rateBattle battle r) r') := by
  induction h generalizing r r' with
  | nil => exact hsame
  | @cons battle battle' list list' hbattle _ ih =>
      have hrival := hrivals battle List.mem_cons_self
      refine ih (fun b hb => hrivals b (List.mem_cons_of_mem _ hb)) ?_
      rcases hbattle with rfl | rfl
      · exact hsame.rateBattle hrival
      · exact (hsame.rateBattle hrival).trans (rateBattle_swap hrival)

/-- Tables with the same row under every key have the same rows. -/
theorem Table.perm_of_get? {α : Type} [Keyed α] {t t' : Table α} (h : ∀ i, t.get? i = t'.get? i) :
    t.rows.Perm t'.rows := by
  refine (List.perm_ext_iff_of_nodup t.nodup_rows t'.nodup_rows).mpr fun a => ?_
  constructor
  · intro ha
    exact Table.mem_of_get? ((h (key a)).symm.trans (Table.get?_of_mem ha))
  · intro ha
    exact Table.mem_of_get? ((h (key a)).trans (Table.get?_of_mem ha))

/-! ## The whole ranking -/

/-- The totals add up, every game is won once, and the sides of the battles make no difference. The list of `_battles`
has each match once: `nodup_battles`. -/
theorem rating_run (g : Glicko) (list : List Battle) (hids : (list.map (·.id)).Nodup)
    (hrivals : ∀ battle ∈ list, battle.players.a ≠ battle.players.b) :
    (g.compute list).Tallies ∧ (g.compute list).wins = (list.map (·.winners.length)).sum ∧
      ∀ list', Swapped list list' →
        (g.compute list).ratings.rows.Perm (g.compute list').ratings.rows ∧
          (g.compute list).changes.rows.Perm (g.compute list').changes.rows := by
  refine ⟨?_, ?_, fun list' hswapped => ?_⟩
  · refine Glicko.tallies_foldl hids hrivals .empty fun change h => ?_
    cases h
  · rw [Glicko.compute_eq, Glicko.wins_foldl]
    exact Nat.zero_add _
  · have hsame : (g.compute list).Same (g.compute list') := Glicko.same_foldl hswapped hrivals .refl
    exact ⟨Table.perm_of_get? hsame.ratings, Table.perm_of_get? hsame.changes⟩

/-- A rating that grows by one with each win. -/
def winCount : Glicko where
  rate strength results := { strength with rating := strength.rating + (results.map (·.2.2)).sum }
  grownDeviation deviation _ _ := deviation

/-- Two battles of a player who wins one of them. -/
def twoBattles : List Battle :=
  [{ id := 1, players := ⟨1, 2⟩, winners := [.a, .b, .a], time := 100 },
    { id := 2, players := ⟨3, 1⟩, winners := [.a], time := 200 }]

theorem rating_run_two : (winCount.compute twoBattles).Tallies ∧
    (winCount.compute twoBattles).wins = (twoBattles.map (·.winners.length)).sum ∧
      ∀ list', Swapped twoBattles list' →
        (winCount.compute twoBattles).ratings.rows.Perm (winCount.compute list').ratings.rows ∧
          (winCount.compute twoBattles).changes.rows.Perm (winCount.compute list').changes.rows :=
  rating_run winCount twoBattles (by decide) (by decide)

end Arena
end CpcJudge
