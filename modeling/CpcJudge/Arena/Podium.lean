import CpcJudge.Arena.Session
import CpcJudge.Lib.Dict
import CpcJudge.Lib.Ranking

/-!
# `Arena.Podium` — who won a tournament

The three places that name the best players of a tournament: the podium and the standings of its public page
(`judge/arena/history.py`), both read from its battles as that page shows them, and the titles of the table of the
ranking (`_palmares` of `judge/arena/rating.py`). A row of the standings keeps how far its player got, which is the
best of what the battles gave it (`Stats.Deep`).
-/

namespace CpcJudge
open Ranking (sortBy competitionRank)

namespace Arena

/-! ## The battles of the public page -/

/-- `default_round_name`. -/
def defaultRoundName (number rounds : ℕ) : String :=
  let fromEnd : ℤ := rounds - number
  if fromEnd = 0 then "Final"
  else if fromEnd = 1 then "Semifinal"
  else if fromEnd = 2 then "Quarterfinal"
  else if fromEnd = 3 then "Round of 16"
  else "Round " ++ toString number

/-- `round_name`. -/
def roundName (round : Round) (rounds : ℕ) : String :=
  if round.name ≠ "" then round.name else defaultRoundName round.number rounds

/-- A player of a battle, as `_player` shows them. -/
structure PlayerView where
  profile : ProfileId
  name : String
  seed : Option ℕ
  deriving DecidableEq, Repr

/-- What the podium and the standings read of a battle of the page. -/
structure MatchView where
  «match» : Match
  /-- The name of its round. -/
  round : String
  bye : Bool
  players : Pair (Option PlayerView)
  winner : Option Slot
  /-- How each of its games is, and who won it, by number. -/
  games : List (GameStatus × Option Slot)

/-- `_player`. -/
def playerView (site : Site) (m : Match) (slot : Slot) : Option PlayerView :=
  (m.players.get slot).map fun profile => { profile, name := shownName site m slot, seed := m.seeds.get slot }

/-- The name of the round of a battle. -/
def roundShown (t : Tournament) (m : Match) : String :=
  if m.isThirdPlace then "Third place"
  else ((m.round.bind t.round?).map (roundName · t.rounds.length)).getD ""

/-- A battle of the page. The games prepared are never read. -/
def matchView (site : Site) (t : Tournament) (m : Match) : MatchView where
  «match» := m
  round := roundShown t m
  bye := m.decidedReason = some .bye
  players := ⟨playerView site m .a, playerView site m .b⟩
  winner := m.winnerSlot
  games := ((m.games.rows.filter (·.status ≠ .prepared)).insertionSort (·.number ≤ ·.number)).map fun g =>
    (g.status, g.winnerSlot)

/-- By round, the match for third place after the others of its round, and by position. -/
def Match.shownOrder (m : Match) : ℕ ×ₗ Bool ×ₗ ℕ := toLex (m.round.getD 0, toLex (m.isThirdPlace, m.position))

/-- The battles of a tournament. -/
def battlesOf (db : Db) (id : TournamentId) : List Match := db.battles.rows.filter (·.tournament = some id)

/-- `_matches`. -/
def matchViews (site : Site) (db : Db) (t : Tournament) : List MatchView :=
  (sortBy Match.shownOrder (battlesOf db t.id)).map (matchView site t)

/-! ## The podium -/

/-- What `_podium` returns. -/
structure Podium where
  first : Option PlayerView
  second : Option PlayerView
  third : List (Option PlayerView)
  fourth : Option PlayerView
  deriving DecidableEq, Repr

/-- The last battle: it sends its winner nowhere, and it is not for third place. -/
def Match.isFinal (m : Match) : Bool := m.nextMatch.isNone && !m.isThirdPlace

/-- The player who did not win. -/
def MatchView.loser (v : MatchView) : Option PlayerView := v.winner.bind fun w => v.players.get w.other

/-- A battle before `final`, won by somebody and not a bye. -/
def MatchView.isSemifinal (final : MatchId) (v : MatchView) : Bool :=
  v.match.nextMatch.any (·.1 = final) && v.winner.isSome && !v.bye

/-- `_podium`. Without a match for third place both losers of the semifinals share it. -/
def podium (views : List MatchView) : Option Podium := do
  let final ← views.reverse.find? (·.match.isFinal)
  let w ← final.winner
  let first := final.players.get w
  let second := final.players.get w.other
  match (views.find? (·.match.isThirdPlace)).bind fun third => third.winner.map fun v => (third, v) with
  | some (third, v) => return { first, second, third := [third.players.get v], fourth := third.players.get v.other }
  | none =>
    let semis := views.filter (·.isSemifinal final.match.id)
    return { first, second, third := (semis.filterMap MatchView.loser).map some, fourth := none }

/-! ## The standings -/

/-- What the standings count of a participant. -/
structure Stats where
  profile : ProfileId
  seed : ℕ
  depth : ℚ := 0
  reached : String := ""
  /-- Won and lost. -/
  battles : ℕ × ℕ := (0, 0)
  games : ℕ × ℕ := (0, 0)
  deriving DecidableEq

/-- One more, won or lost. -/
def countResult (won : Bool) (count : ℕ × ℕ) : ℕ × ℕ :=
  if won then (count.1 + 1, count.2) else (count.1, count.2 + 1)

/-- How far a decided battle takes the player of a slot: the winner goes on, but for the last battles. -/
def MatchView.reached (total : ℕ) (v : MatchView) (slot : Slot) : Option (ℚ × String) :=
  if v.match.status ≠ .decided ∨ v.match.winnerSlot = none then none
  else
    let won : Bool := v.match.winnerSlot = some slot
    if v.match.isThirdPlace then
      some (if won then ((total : ℚ) - 1 / 2, "Third place") else ((total : ℚ) - 3 / 4, "Fourth place"))
    else if v.match.nextMatch = none then
      some (if won then ((total : ℚ) + 1, "Champion") else ((total : ℚ), "Runner-up"))
    else if won then none
    else some ((v.match.round.getD 0 : ℚ), v.round)

namespace Stats

/-- What a battle adds to the row of the player of a slot. -/
def meet (total : ℕ) (v : MatchView) (slot : Slot) (row : Stats) : Stats :=
  let battles := if v.match.status = .decided ∧ v.bye = false then
      countResult (v.match.winnerSlot = some slot) row.battles
    else row.battles
  let games := v.games.foldl (fun games (status, winner) =>
    match winner with
    | some w => if status = .finished then countResult (w = slot) games else games
    | none => games) row.games
  let row := { row with battles, games }
  match v.reached total slot with
  | none => row
  | some (depth, reached) => if row.depth < depth then { row with depth, reached } else row

/-- The battle is looked at for the row, from one of its slots. -/
def look (total : ℕ) (v : MatchView) (slot : Slot) (row : Stats) : Stats :=
  if v.match.players.get slot = some row.profile then row.meet total v slot else row

end Stats

/-- A row of the standings. -/
structure Standing extends Stats where
  place : ℕ
  name : String
  deriving DecidableEq

/-- The rows of the participants, by seed, after the battles. -/
def statsOf (t : Tournament) (views : List MatchView) : List Stats :=
  let stats := (t.participants.insertionSort (·.seed ≤ ·.seed)).map fun p => { profile := p.profile, seed := p.seed }
  views.foldl (fun stats v =>
    [Slot.a, .b].foldl (fun stats slot => stats.map fun row => row.look t.rounds.length v slot) stats) stats

/-- `_standings`. -/
def standings (site : Site) (t : Tournament) (views : List MatchView) : List Standing :=
  let ordered := sortBy (fun row => toLex (-row.depth, row.seed)) (statsOf t views)
  ordered.map fun row =>
    { row with place := 1 + ordered.countP (row.depth < ·.depth), name := site.displayName row.profile }

/-! ## The titles of the ranking -/

/-- What `_palmares` counts. -/
inductive Honour where
  | title | final | third
  deriving DecidableEq, Repr

/-- The titles, the finals lost and the third places of a player. -/
structure Honours where
  titles : ℕ := 0
  finals : ℕ := 0
  thirds : ℕ := 0
  deriving DecidableEq, Repr

namespace Honours

def get (h : Honours) : Honour → ℕ
  | .title => h.titles
  | .final => h.finals
  | .third => h.thirds

def add (h : Honours) : Honour → Honours
  | .title => { h with titles := h.titles + 1 }
  | .final => { h with finals := h.finals + 1 }
  | .third => { h with thirds := h.thirds + 1 }

/-- What a dictionary has of a player. -/
def ofPlayer (result : List (ProfileId × Honours)) (p : ProfileId) : Honours :=
  ((result.find? (·.1 = p)).map (·.2)).getD {}

/-- `add` of `_palmares`. -/
def give (result : List (ProfileId × Honours)) : Option ProfileId × Honour → List (ProfileId × Honours)
  | (none, _) => result
  | (some p, honour) => Dict.set result p ((ofPlayer result p).add honour)

end Honours

/-- A tournament that counts, and is over. -/
def Tournament.honours (t : Tournament) : Bool :=
  t.ranking = .counts && (t.status = .finished || t.status = .archived)

/-- `by_tournament`: the decided battles of each tournament that counts. -/
def byTournament (db : Db) : List (Option TournamentId × List Match) :=
  Dict.groupBy Match.tournament
    (db.battles.rows.filter fun m => (tournamentOf db m).any (·.honours) && m.status = .decided)

/-- What the battles of a tournament give: the titles that `add` is called with. -/
def honoursOf (rows : List Match) : List (Option ProfileId × Honour) :=
  match (rows.find? (·.isFinal)).bind fun final => final.winnerSlot.map fun w => (final, w) with
  | none => []
  | some (final, w) =>
    (final.players.get w, .title) :: (final.players.get w.other, .final) ::
      match rows.find? (·.isThirdPlace) with
      | some third => third.winnerSlot.toList.map fun v => (third.players.get v, .third)
      | none =>
        (rows.filter fun m => m.nextMatch.any (·.1 = final.id) && m.decidedReason ≠ some .bye).flatMap fun semi =>
          semi.winnerSlot.toList.map fun v => (semi.players.get v.other, .third)

/-- `_palmares`. -/
def palmares (db : Db) : List (ProfileId × Honours) :=
  (byTournament db).foldl (fun result group => (honoursOf group.2).foldl Honours.give result) []

section
variable {total : ℕ} {t : Tournament} {v : MatchView} {views : List MatchView} {row : Stats} {slot : Slot} {p : ProfileId}
  {e : ℚ} {site : Site}

/-! ## How far a player got -/

/-- A battle takes the player that far. -/
def Reaches (total : ℕ) (views : List MatchView) (p : ProfileId) (e : ℚ) : Prop :=
  ∃ v ∈ views, ∃ slot, v.match.players.get slot = some p ∧ (v.reached total slot).map Prod.fst = some e

/-- The best of the battles of a player, from nothing. -/
structure Deep (total : ℕ) (views : List MatchView) (p : ProfileId) (depth : ℚ) : Prop where
  best : ∀ e, Reaches total views p e → e ≤ depth
  reached : depth = 0 ∨ Reaches total views p depth

theorem Deep.le (h : Deep total views p e) {bound : ℚ} (h0 : 0 ≤ bound) (hle : ∀ e, Reaches total views p e → e ≤ bound) :
    e ≤ bound := by
  rcases h.reached with rfl | hreached
  · exact h0
  · exact hle _ hreached

theorem Stats.meet_eq : (row.meet total v slot).profile = row.profile ∧ (row.meet total v slot).seed = row.seed ∧
    (row.meet total v slot).depth = ((v.reached total slot).map Prod.fst).elim row.depth (max row.depth) := by
  unfold meet
  dsimp only
  split
  next h => exact ⟨rfl, rfl, by rw [h]; rfl⟩
  next depth reached h =>
    rw [h]
    split
    next hlt => exact ⟨rfl, rfl, (max_eq_right hlt.le).symm⟩
    next hle => exact ⟨rfl, rfl, (max_eq_left (not_lt.mp hle)).symm⟩

/-- A row that was looked at keeps its player, and is as deep as before or as that battle made it. -/
structure Stats.Looks (row row' : Stats) (reaches : ℚ → Prop) : Prop where
  profile : row'.profile = row.profile
  seed : row'.seed = row.seed
  grows : row.depth ≤ row'.depth
  best : ∀ e, reaches e → e ≤ row'.depth
  reached : row'.depth = row.depth ∨ reaches row'.depth

theorem Stats.Looks.trans {row row1 row2 : Stats} {P Q R : ℚ → Prop} (h : row.Looks row1 P) (h' : row1.Looks row2 Q)
    (hor : ∀ e, R e ↔ P e ∨ Q e) : row.Looks row2 R where
  profile := h'.profile.trans h.profile
  seed := h'.seed.trans h.seed
  grows := h.grows.trans h'.grows
  best e he := ((hor e).mp he).elim (fun hP => (h.best e hP).trans h'.grows) (h'.best e)
  reached := by
    rcases h'.reached with heq | hQ
    · rw [heq]
      exact h.reached.imp_right fun hP => (hor _).mpr (.inl hP)
    · exact .inr ((hor _).mpr (.inr hQ))

theorem Stats.looks_look : row.Looks (row.look total v slot) fun e =>
    v.match.players.get slot = some row.profile ∧ (v.reached total slot).map Prod.fst = some e := by
  unfold look
  split
  next hmine =>
    obtain ⟨hprofile, hseed, hdepth⟩ : (row.meet total v slot).profile = _ ∧ _ ∧ _ := meet_eq
    cases hreached : (v.reached total slot).map Prod.fst with
    | none =>
        rw [hreached] at hdepth
        exact ⟨hprofile, hseed, hdepth.ge, fun e h => by simp at h, .inl hdepth⟩
    | some e =>
        rw [hreached, Option.elim_some] at hdepth
        refine ⟨hprofile, hseed, hdepth ▸ le_max_left _ _, fun e' h => ?_, ?_⟩
        · obtain rfl := Option.some.inj h.2
          exact hdepth ▸ le_max_right _ _
        · rcases max_choice row.depth e with hmax | hmax
          · exact .inl (hdepth.trans hmax)
          · exact .inr ⟨hmine, by rw [hdepth, hmax]⟩
  next hother => exact ⟨rfl, rfl, le_rfl, fun _ h => absurd h.1 hother, .inl rfl⟩

/-- The row of a player after some battles. -/
def Stats.after (total : ℕ) (row : Stats) (views : List MatchView) : Stats :=
  views.foldl (fun row v => [Slot.a, .b].foldl (fun row slot => row.look total v slot) row) row

theorem Stats.looks_after : row.Looks (row.after total views) (Reaches total views row.profile) := by
  induction views generalizing row with
  | nil => exact ⟨rfl, rfl, le_rfl, fun _ ⟨_, hv, _⟩ => absurd hv List.not_mem_nil, .inl rfl⟩
  | cons v views ih =>
      have ha : row.Looks (row.look total v .a) _ := looks_look
      have hb : (row.look total v .a).Looks ((row.look total v .a).look total v .b) _ := looks_look
      have hrest : Stats.Looks _ (((row.look total v .a).look total v .b).after total views) _ := ih
      rw [hb.profile] at hrest
      rw [ha.profile] at hb hrest
      refine (ha.trans hb fun _ => Iff.rfl).trans hrest fun e => ⟨?_, ?_⟩
      · rintro ⟨w, hw, slot, hmine, he⟩
        rcases List.mem_cons.mp hw with rfl | hw
        · cases slot with
          | a => exact .inl (.inl ⟨hmine, he⟩)
          | b => exact .inl (.inr ⟨hmine, he⟩)
        · exact .inr ⟨w, hw, slot, hmine, he⟩
      · rintro ((⟨hmine, he⟩ | ⟨hmine, he⟩) | ⟨w, hw, slot, hmine, he⟩)
        · exact ⟨v, List.mem_cons_self, .a, hmine, he⟩
        · exact ⟨v, List.mem_cons_self, .b, hmine, he⟩
        · exact ⟨w, List.mem_cons_of_mem _ hw, slot, hmine, he⟩

/-- Every row is filled by itself. -/
theorem statsOf_eq : statsOf t views = (t.participants.insertionSort (·.seed ≤ ·.seed)).map fun p =>
    ({ profile := p.profile, seed := p.seed } : Stats).after t.rounds.length views := by
  have hrows : ∀ stats : List Stats, views.foldl (fun stats v =>
      [Slot.a, .b].foldl (fun stats slot => stats.map fun row => row.look t.rounds.length v slot) stats) stats =
        stats.map (·.after t.rounds.length views) := by
    induction views with
    | nil => exact fun stats => (List.map_id _).symm
    | cons v views ih =>
        intro stats
        rw [List.foldl_cons, ih]
        simp only [List.foldl_cons, List.foldl_nil, List.map_map]
        rfl
  rw [statsOf, hrows, List.map_map]
  rfl

/-! ## Places -/

/-- The rows of the standings: one for each participant, with their depth, and the place that it gives. -/
theorem standings_spec (site : Site) (t : Tournament) (views : List MatchView) :
    ((standings site t views).map (·.profile)).Perm (t.participants.map Participant.profile) ∧
    ∀ row ∈ standings site t views, Deep t.rounds.length views row.profile row.depth ∧
      row.place = competitionRank (fun other => OrderDual.toDual other.depth) (standings site t views) row := by
  have hperm : (sortBy (fun row : Stats => toLex (-row.depth, row.seed)) (statsOf t views)).Perm (statsOf t views) :=
    Ranking.isStableSort_sortBy.perm
  refine ⟨?_, fun row hrow => ?_⟩
  · rw [standings, List.map_map]
    refine (hperm.map _).trans ?_
    rw [statsOf_eq, List.map_map]
    refine (List.Perm.of_eq (List.map_congr_left fun p _ => ?_)).trans ((List.perm_insertionSort _ _).map _)
    exact Stats.looks_after.profile
  · obtain ⟨x, hx, rfl⟩ := List.mem_map.mp hrow
    rw [hperm.mem_iff, statsOf_eq] at hx
    obtain ⟨p, _, rfl⟩ := List.mem_map.mp hx
    have hlooks : Stats.Looks _ (({ profile := p.profile, seed := p.seed } : Stats).after t.rounds.length views) _ :=
      Stats.looks_after
    refine ⟨⟨?_, ?_⟩, ?_⟩
    · rw [hlooks.profile]
      exact hlooks.best
    · rw [hlooks.profile]
      exact hlooks.reached
    · rw [competitionRank, standings, List.countP_map, Nat.add_comm]
      simp only [Function.comp_def, OrderDual.toDual_lt_toDual]

/-! ## Titles -/

theorem Honours.get_add (h : Honours) (i j : Honour) : (h.add i).get j = h.get j + if i = j then 1 else 0 := by
  cases i <;> cases j <;> rfl

theorem Honours.get_give (result : List (ProfileId × Honours)) (award : Option ProfileId × Honour) (i : Honour) :
    (ofPlayer (give result award) p).get i = (ofPlayer result p).get i + if award = (some p, i) then 1 else 0 := by
  obtain ⟨q, j⟩ := award
  cases q with
  | none => simp [give]
  | some q =>
      simp only [give, ofPlayer, Dict.find?_set, Prod.mk.injEq, Option.some.injEq]
      by_cases hq : q = p
      · rw [if_pos hq, Option.map_some, Option.getD_some, get_add, hq]
        simp
      · simp [hq]

/-- Every call of `add` counts once. -/
theorem Honours.get_foldl_give (awards : List (Option ProfileId × Honour)) (i : Honour) :
    ∀ result, (ofPlayer (awards.foldl give result) p).get i = (ofPlayer result p).get i + awards.count (some p, i) := by
  induction awards with
  | nil => exact fun _ => rfl
  | cons award awards ih =>
      intro result
      rw [List.foldl_cons, ih, get_give, List.count_cons, Nat.add_assoc, Nat.add_comm (List.count _ _)]
      simp only [beq_iff_eq]

theorem palmares_get (db : Db) (i : Honour) : (Honours.ofPlayer (palmares db) p).get i =
    ((byTournament db).map fun group => (honoursOf group.2).count (some p, i)).sum := by
  have hgroups : ∀ (groups : List (Option TournamentId × List Match)) result, (Honours.ofPlayer
      (groups.foldl (fun result group => (honoursOf group.2).foldl Honours.give result) result) p).get i =
        (Honours.ofPlayer result p).get i + (groups.map fun group => (honoursOf group.2).count (some p, i)).sum := by
    intro groups
    induction groups with
    | nil => exact fun _ => rfl
    | cons group groups ih =>
        intro result
        rw [List.foldl_cons, ih, Honours.get_foldl_give, List.map_cons, List.sum_cons, Nat.add_assoc]
  rw [palmares, hgroups]
  cases i <;> exact Nat.zero_add _

/-- The tables without a tournament. -/
def Db.without (db : Db) (id : TournamentId) : Db := { db with tournaments := db.tournaments.filter (·.id ≠ id) }

theorem Db.tournament?_without (db : Db) {id i : TournamentId} :
    (db.without id).tournament? i = if i = id then none else db.tournament? i := by
  cases hother : (db.without id).tournament? i with
  | some t =>
      obtain ⟨ht, hid⟩ := Table.get?_filter hother
      have hi : t.id = i := Table.key_of_get? ht
      rw [if_neg (by simpa [hi] using hid)]
      exact ht.symm
  | none =>
      by_cases hi : i = id
      · rw [if_pos hi]
      · rw [if_neg hi]
        cases here : db.tournament? i with
        | none => rfl
        | some t =>
            have hid : t.id = i := Table.key_of_get? here
            have hkept : (db.without id).tournament? i = some t := Table.get?_filter_of_pos here (by simpa [hid] using hi)
            exact absurd (hother.symm.trans hkept) (by simp)

/-- The decided battles of a tournament. -/
def decidedIn (db : Db) (id : TournamentId) : List Match := (battlesOf db id).filter (·.status = .decided)

/-- What a tournament that counts adds to the titles of everybody. -/
theorem palmares_without {db : Db} (ht : t ∈ db.tournaments.rows) (hhonours : t.honours = true)
    (hsome : decidedIn db t.id ≠ []) (i : Honour) : (Honours.ofPlayer (palmares db) p).get i =
      (Honours.ofPlayer (palmares (db.without t.id)) p).get i +
        (honoursOf (decidedIn db t.id)).count (some p, i) := by
  have here : db.tournament? t.id = some t := Table.get?_of_mem ht
  have hmine : (db.battles.rows.filter fun m => (tournamentOf db m).any (·.honours) && m.status = .decided).filter
      (·.tournament = some t.id) = decidedIn db t.id := by
    rw [List.filter_filter, decidedIn, battlesOf, List.filter_filter]
    refine List.filter_congr fun m _ => ?_
    by_cases hm : m.tournament = some t.id
    · simp [tournamentOf, hm, here, hhonours]
    · simp [hm]
  have hothers : (db.battles.rows.filter fun m => (tournamentOf db m).any (·.honours) && m.status = .decided).filter
      (·.tournament ≠ some t.id) = (db.without t.id).battles.rows.filter fun m =>
        (tournamentOf (db.without t.id) m).any (·.honours) && m.status = .decided := by
    rw [List.filter_filter]
    refine List.filter_congr fun m _ => ?_
    cases hm : m.tournament with
    | none => simp [tournamentOf, hm]
    | some i =>
        simp only [tournamentOf, hm, Option.bind_some, db.tournament?_without]
        by_cases hi : i = t.id <;> simp [hi]
  have hperm : (byTournament db).Perm _ := Dict.groupBy_perm (hmine ▸ hsome)
  rw [palmares_get, palmares_get, (hperm.map _).sum_eq, List.map_cons, List.sum_cons, hmine, hothers, Nat.add_comm]
  rfl

end
end Arena
end CpcJudge
