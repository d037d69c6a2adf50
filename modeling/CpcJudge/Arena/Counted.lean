import CpcJudge.Arena.Rating
import CpcJudge.Arena.Reachable

/-!
# `Arena.Counted` — what the list of battles depends on

The list of battles only reads the decided matches, their finished games and the rankings of the tournaments. `Tallies`
says that some tables have the list of others, row by row, and `Same` that a row about to be saved keeps it so.
-/

namespace CpcJudge
namespace Arena

section
variable {ref db : Db} {m m' : Match} {g g' : Game}

/-! ## One match -/

/-- The tournaments have the rankings they have in `ref`. -/
def Ranked (ref db : Db) : Prop :=
  ∀ t, (db.tournament? t).map (·.ranking) = (ref.tournament? t).map (·.ranking)

theorem countsQ_congr (h : Ranked ref db) (m : Match) : countsQ db m = countsQ ref m := by
  have hany : (tournamentOf db m).any (·.ranking = .counts) = (tournamentOf ref m).any (·.ranking = .counts) := by
    unfold tournamentOf
    cases m.tournament with
    | none => rfl
    | some t =>
        have ht := congrArg (Option.any fun ranking => decide (ranking = Ranking.counts)) (h t)
        rwa [Option.any_map, Option.any_map] at ht
  unfold countsQ
  rw [hany]

theorem battleOf_congr (h : Ranked ref db) (m : Match) : battleOf db m = battleOf ref m := by
  unfold battleOf
  rw [countsQ_congr h]

theorem battleOf_of_not_counts (h : countsQ db m = false) : battleOf db m = none := by
  unfold battleOf
  rw [if_neg (by simp [h])]

theorem battleOf_undecided (h : m.status ≠ .decided) : battleOf db m = none :=
  battleOf_of_not_counts (by simp [countsQ, h])

/-- The games of a match that left `PREPARED` have been started. -/
def Match.Played (m : Match) : Prop := ∀ g ∈ m.games.rows, g.status ≠ .prepared → g.started = true

theorem Match.Sound.toPlayed (hm : m.Sound) : m.Played := fun g hg h => (hm.played g hg).mpr h

theorem Game.counted_of_ne (h : g.status ≠ .finished) : g.counted = none := if_neg h

theorem battleOf_uncounted (h : ∀ g ∈ m.games.rows, g.counted = none) : battleOf db m = none := by
  have hnone : m.counted = [] := by
    unfold Match.counted
    rw [List.filterMap_eq_nil_iff.mpr h]
    rfl
  unfold battleOf
  split
  · rw [hnone]
    cases m.players.a <;> cases m.players.b <;> rfl
  · rfl

theorem battleOf_unstarted (hm : m.Played) (h : m.started = false) : battleOf db m = none := by
  refine battleOf_uncounted fun g hg => Game.counted_of_ne fun hfinished => ?_
  have hstarted := hm g hg (by rw [hfinished]; decide)
  rw [Match.started_iff.mpr ⟨g, hg, hstarted⟩] at h
  cases h

/-- The columns that the list of battles reads, and the games that count. -/
theorem battleOf_same (hid : m'.id = m.id) (htournament : m'.tournament = m.tournament)
    (hranking : m'.ranking = m.ranking) (hstatus : m'.status = m.status) (hplayers : m'.players = m.players)
    (hdisplay : m'.displayNames = m.displayNames) (hreason : m'.decidedReason = m.decidedReason)
    (hgames : m'.games.rows.filterMap Game.counted = m.games.rows.filterMap Game.counted) :
    battleOf db m' = battleOf db m := by
  have hcounted : m'.counted = m.counted := by rw [Match.counted, Match.counted, hgames]
  have hcounts : countsQ db m' = countsQ db m := by
    simp only [countsQ, tournamentOf, htournament, hranking, hstatus, hplayers, hdisplay, hreason]
  unfold battleOf
  rw [hcounts, hcounted, hid, hplayers]

/-! ## The games that count -/

theorem counted_add (h : g.counted = none) :
    (m.games.add g).rows.filterMap Game.counted = m.games.rows.filterMap Game.counted := by
  cases hget : m.games.get? (Keyed.key g) with
  | none => rw [Table.rows_add hget, List.filterMap_append, List.filterMap_cons_none h, List.filterMap_nil, List.append_nil]
  | some x =>
      have hkey : Keyed.key g ∈ m.games.rows.map Keyed.key :=
        Table.key_of_get? hget ▸ List.mem_map_of_mem (Table.mem_of_get? hget)
      rw [Table.add, dif_pos hkey]

theorem counted_setGame (hget : m.games.get? g.id = some g) (hid : g'.id = g.id) (h : g'.counted = g.counted) :
    (m.setGame g').games.rows.filterMap Game.counted = m.games.rows.filterMap Game.counted := by
  show (m.games.rows.map fun r => if r.id = g'.id then g' else r).filterMap Game.counted = _
  rw [List.filterMap_map]
  refine List.filterMap_congr fun x hx => ?_
  show Game.counted (if x.id = g'.id then g' else x) = x.counted
  split
  · rename_i heq
    obtain rfl : x = g := Table.eq_of_key hx (Table.mem_of_get? hget) (heq.trans hid)
    exact h
  · rfl

/-! ## Games played -/

namespace Match.Played

theorem of_games (hm : m.Played) (h : m'.games = m.games) : m'.Played := fun g hg => hm g (h ▸ hg)

theorem setGame (hm : m.Played) (h : g'.status ≠ .prepared → g'.started = true) : (m.setGame g').Played := by
  intro x hx
  rcases Match.mem_setGame hx with rfl | ⟨hx, _⟩
  · exact h
  · exact hm x hx

theorem add (hm : m.Played) (h : g.status = .prepared) : ({ m with games := m.games.add g } : Match).Played := by
  intro x hx
  rcases Table.mem_add hx with rfl | hx
  · exact fun hne => absurd h hne
  · exact hm x hx

theorem dropUnplayed (hm : m.Played) : m.dropUnplayed.Played := fun g hg => hm g (Match.mem_dropUnplayed.mp hg).1

theorem voidGames (hm : m.Played) (now : Time) (decidedBy : Game → Option ProfileId) :
    (m.voidGames now decidedBy).Played := by
  intro x hx
  obtain ⟨g, hg, rfl⟩ := List.mem_map.mp hx
  by_cases hgoing : (g.status.active || g.status = .tie) = true
  · rw [if_pos hgoing]
    have hne : g.status ≠ .prepared := fun heq => by simp [heq, GameStatus.active] at hgoing
    have hcontest : (g.void now).contest.isSome = g.contest.isSome := Game.closeContest_contest _ _
    exact fun _ => hcontest.trans (hm g hg hne)
  · rw [if_neg hgoing]
    exact hm g hg

end Match.Played

/-! ## The tables -/

/-- The battle a match gives, with the rankings of `ref`. -/
def tally (ref db : Db) (id : MatchId) : Option Battle := (db.match? id).bind (battleOf ref)

/-- The tables give the battles that `ref` gives, row by row. -/
structure Tallies (ref db : Db) : Prop where
  ranked : Ranked ref db
  rows : ∀ id, tally ref db id = tally ref ref id
  played : ∀ m ∈ db.battles.rows, m.Played

/-- A row that gives the battle it gives in `ref`. -/
structure Same (ref : Db) (m : Match) : Prop where
  battle : battleOf ref m = tally ref ref m.id
  played : m.Played

theorem Tallies.refl (hdb : WellFormed db) : Tallies db db :=
  ⟨fun _ => rfl, fun _ => rfl, fun m hm => (hdb.sound m hm).toPlayed⟩

theorem Tallies.same {id : MatchId} (h : Tallies ref db) (hm : db.match? id = some m) : Same ref m := by
  refine ⟨?_, h.played m (Table.mem_of_get? hm)⟩
  rw [← h.rows, tally, show m.id = id from Table.key_of_get? hm, hm]
  rfl

/-- The tables with other things written. -/
theorem Tallies.congr {db' : Db} (h : Tallies ref db) (hbattles : db'.battles = db.battles)
    (htournaments : db'.tournaments = db.tournaments) : Tallies ref db' := by
  refine ⟨fun t => ?_, fun id => ?_, fun m hm => h.played m (hbattles ▸ hm)⟩
  · rw [Db.tournament?, htournaments]
    exact h.ranked t
  · rw [tally, Db.match?, hbattles]
    exact h.rows id

theorem Tallies.putMatch (h : Tallies ref db) (hm : Same ref m) : Tallies ref (db.putMatch m) := by
  refine ⟨h.ranked, fun id => ?_, fun x hx => ?_⟩
  · by_cases hid : id = m.id
    · subst hid
      cases hget : db.match? m.id with
      | none =>
          have hnone : (db.putMatch m).match? m.id = none := Table.get?_put_eq_none.mpr hget
          rw [← h.rows, tally, hnone, tally, hget]
      | some x =>
          have hsome : (db.putMatch m).match? m.id = some m := Table.get?_put_self hget
          rw [tally, hsome]
          exact hm.battle
    · have hsame : (db.putMatch m).match? id = db.match? id := Table.get?_put_of_ne hid
      rw [tally, hsame]
      exact h.rows id
  · rcases Table.mem_put hx with rfl | ⟨hx, _⟩
    · exact hm.played
    · exact h.played x hx

/-- A tournament saved with the ranking it had. -/
theorem Ranked.putTournament {t : Tournament} (h : Ranked ref db)
    (ht : (ref.tournament? t.id).map (·.ranking) = some t.ranking) : Ranked ref (db.putTournament t) := by
  intro id
  by_cases hid : id = t.id
  · subst hid
    cases hget : db.tournament? t.id with
    | none =>
        have hrow := h t.id
        rw [hget, ht] at hrow
        cases hrow
    | some x =>
        have hsome : (db.putTournament t).tournament? t.id = some t := Table.get?_put_self hget
        rw [hsome, ht]
        rfl
  · have hsame : (db.putTournament t).tournament? id = db.tournament? id := Table.get?_put_of_ne hid
    rw [hsame]
    exact h id

theorem Tallies.putTournament {t : Tournament} (h : Tallies ref db)
    (ht : (ref.tournament? t.id).map (·.ranking) = some t.ranking) : Tallies ref (db.putTournament t) :=
  ⟨h.ranked.putTournament ht, h.rows, h.played⟩

/-- Matches without battles of their own, added to the tables. -/
theorem Tallies.foldl_add {l : List Match} (h : Tallies ref db)
    (hl : ∀ m ∈ l, battleOf ref m = none ∧ m.Played) :
    Tallies ref { db with battles := l.foldl Table.add db.battles } := by
  refine ⟨h.ranked, fun id => ?_, fun x hx => ?_⟩
  · rw [← h.rows]
    show ((l.foldl Table.add db.battles).get? id).bind (battleOf ref) = (db.battles.get? id).bind (battleOf ref)
    cases hget : db.battles.get? id with
    | some x =>
        have hsome : (l.foldl Table.add db.battles).get? id = some x :=
          Table.get?_eq_some_iff.mpr ⟨Table.mem_foldl_add_of_mem (Table.mem_of_get? hget), Table.key_of_get? hget⟩
        rw [hsome]
    | none =>
        cases hnew : (l.foldl Table.add db.battles).get? id with
        | none => rfl
        | some x =>
            rcases Table.mem_foldl_add (Table.mem_of_get? hnew) with hx | hx
            · exact absurd (Table.key_of_get? hnew) (Table.get?_eq_none_iff.mp hget x hx)
            · exact (hl x hx).1
  · rcases Table.mem_foldl_add hx with hx | hx
    · exact h.played x hx
    · exact (hl x hx).2

/-- Matches without battles thrown away. -/
theorem Tallies.filter {p : Match → Bool} (h : Tallies ref db)
    (hp : ∀ m ∈ db.battles.rows, p m = false → battleOf ref m = none) :
    Tallies ref { db with battles := db.battles.filter p } := by
  refine ⟨h.ranked, fun id => ?_, fun x hx => h.played x (Table.mem_filter.mp hx).1⟩
  rw [← h.rows]
  show ((db.battles.filter p).get? id).bind (battleOf ref) = (db.battles.get? id).bind (battleOf ref)
  cases hget : db.battles.get? id with
  | none =>
      have hnone : (db.battles.filter p).get? id = none :=
        Table.get?_eq_none_iff.mpr fun b hb => Table.get?_eq_none_iff.mp hget b (Table.mem_filter.mp hb).1
      rw [hnone]
  | some x =>
      cases hpx : p x with
      | true => rw [Table.get?_filter_of_pos hget hpx]
      | false =>
          have hnone : (db.battles.filter p).get? id = none := by
            rw [Table.get?_eq_none_iff]
            intro b hb hkey
            obtain ⟨hb, hpb⟩ := Table.mem_filter.mp hb
            obtain rfl := Table.eq_of_key hb (Table.mem_of_get? hget) (hkey.trans (Table.key_of_get? hget).symm)
            rw [hpx] at hpb
            cases hpb
          rw [hnone]
          exact (hp x (Table.mem_of_get? hget) hpx).symm

/-! ## The list -/

theorem mem_battles_iff {b : Battle} : b ∈ battles db ↔ ∃ id, tally db db id = some b := by
  unfold battles
  rw [List.mem_insertionSort, List.mem_filterMap]
  constructor
  · rintro ⟨m, hm, hb⟩
    refine ⟨m.id, ?_⟩
    rw [tally, show db.match? m.id = some m from Table.get?_of_mem hm]
    exact hb
  · rintro ⟨id, hb⟩
    obtain ⟨m, hm, hb⟩ := Option.bind_eq_some_iff.mp hb
    exact ⟨m, Table.mem_of_get? hm, hb⟩

theorem id_of_battleOf {b : Battle} (h : battleOf db m = some b) : b.id = m.id := by
  unfold battleOf at h
  split at h
  · obtain ⟨_, _, h⟩ := Option.bind_eq_some_iff.mp h
    obtain ⟨_, _, h⟩ := Option.bind_eq_some_iff.mp h
    obtain ⟨_, _, h⟩ := Option.bind_eq_some_iff.mp h
    cases h
    rfl
  · cases h

theorem nodup_battles : ((battles db).map (·.id)).Nodup := by
  unfold battles
  rw [((List.perm_insertionSort _ _).map _).nodup_iff]
  have hdistinct : (db.battles.rows.map Match.id).Nodup := db.battles.distinct
  generalize db.battles.rows = rows at hdistinct
  induction rows with
  | nil => exact List.nodup_nil
  | cons m rows ih =>
      rw [List.map_cons, List.nodup_cons] at hdistinct
      cases hb : battleOf db m with
      | none =>
          rw [List.filterMap_cons_none hb]
          exact ih hdistinct.2
      | some b =>
          rw [List.filterMap_cons_some hb, List.map_cons, List.nodup_cons]
          refine ⟨fun hmem => hdistinct.1 ?_, ih hdistinct.2⟩
          obtain ⟨c, hc, hcid⟩ := List.mem_map.mp hmem
          obtain ⟨x, hx, hc⟩ := List.mem_filterMap.mp hc
          rw [id_of_battleOf hc, id_of_battleOf hb] at hcid
          exact hcid ▸ List.mem_map_of_mem hx

/-- Tables that give the same battles row by row have the same list, whatever the order of their rows. -/
theorem Tallies.battles_eq (h : Tallies ref db) : battles db = battles ref := by
  have hmem : ∀ b, b ∈ battles db ↔ b ∈ battles ref := by
    intro b
    have hsame : ∀ id, tally db db id = tally ref ref id := fun id => by
      rw [← h.rows, tally, tally]
      exact congrArg _ (funext (battleOf_congr h.ranked))
    simp only [mem_battles_iff, hsame]
  have hperm : (battles db).Perm (battles ref) :=
    (List.perm_ext_iff_of_nodup nodup_battles.of_map nodup_battles.of_map).mpr hmem
  have hsorted : ∀ db : Db, (battles db).Pairwise fun x y : Battle => toLex (x.time, x.id) ≤ toLex (y.time, y.id) := by
    intro db
    have : Std.Total fun x y : Battle => toLex (x.time, x.id) ≤ toLex (y.time, y.id) := ⟨fun _ _ => le_total _ _⟩
    have : IsTrans Battle fun x y => toLex (x.time, x.id) ≤ toLex (y.time, y.id) := ⟨fun _ _ _ => le_trans⟩
    exact List.pairwise_insertionSort _ _
  refine hperm.eq_of_pairwise (fun x y hx hy hxy hyx => ?_) (hsorted db) (hsorted ref)
  have hid : x.id = y.id := congrArg (fun p => (ofLex p).2) (le_antisymm hxy hyx)
  exact List.inj_on_of_nodup_map nodup_battles ((hmem x).mp hx) hy hid

end

end Arena
end CpcJudge
