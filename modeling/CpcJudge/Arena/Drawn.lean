import CpcJudge.Arena.Seeding

/-!
# `Arena.Drawn` — what `_build_bracket` leaves

A bracket built is the plan of its tournament after its byes, with the problems that were chosen back in their
places. Its rows are new, and so are their games: they are numbered from one and have the problems that the places
had (`Builds.problemsAt`). The rows of every other match stay as they were.
-/

namespace CpcJudge
namespace Arena

open CpcJudge.Txn (bind_ok pure_ok)

/-- The plan of a tournament, from the key of its first match. -/
def Tournament.plan (t : Tournament) (site : Site) (actor : Option ProfileId) (base : MatchId) : BracketPlan where
  tournament := t.syncRounds t.participants.length
  actor := actor
  now := site.now
  base := base
  rounds := (t.syncRounds t.participants.length).rounds.length
  size := bracketSize t.participants.length
  third := (t.syncRounds t.participants.length).thirdPlaceMatch &&
    2 ≤ (t.syncRounds t.participants.length).rounds.length && 4 ≤ t.participants.length

/-- The bracket of a plan in place of the one there was. -/
def Txn.drawing (s : Txn) (d : BracketPlan) : Txn :=
  ((s.wrote (·.dropBracket d.tournament.id)).wrote (·.putTournament d.tournament)).wrote fun db =>
    { db with
      battles := d.allMatches.foldl Table.add db.battles
      nextId := db.nextId + d.allMatches.length }

/-- The matches of the plan `d` of a tournament are created (`drawn`). -/
structure Plans (t : Tournament) (s : Txn) (d : BracketPlan) (drawn : Txn) : Prop where
  fits : d.Fits
  tournament : d.tournament = t.syncRounds t.participants.length
  base : d.base = s.db.nextId
  third : d.third = (t.thirdPlaceMatch && decide (2 ≤ d.rounds) && decide (4 ≤ t.participants.length))
  battles : drawn.db.battles =
    d.allMatches.foldl Table.add (s.db.battles.filter fun m => m.tournament ≠ some t.id)
  tournaments : drawn.db.tournaments = s.db.tournaments.put d.tournament

/-- A bracket built from the plan `d`: its matches created (`drawn`), their byes given (`opened`), and the problems
    chosen before back in place (`restored`). -/
structure Builds (site : Site) (t t' : Tournament) (s u : Txn) (d : BracketPlan) (drawn opened restored : Txn) :
    Prop extends Plans t s d drawn where
  result : t' = { d.tournament with version := t.version + 1 }
  unplayed : ∀ m ∈ s.db.battles.rows, m.tournament = some t.id → m.started = false
  byes : giveByes site.now ((d.roundMatches (d.rounds - 1)).map (·.id)) drawn = .ok ⟨⟩ opened
  chosen : restoreGames (chosenProblems s.db t.id) (d.allMatches.map (·.id)) opened = .ok ⟨⟩ restored
  saved : u.db.battles = restored.db.battles ∧ u.db.tournaments = restored.db.tournaments.put t'

theorem Tournament.plan_plans {t : Tournament} (site : Site) (actor : Option ProfileId) (s : Txn)
    (hcount : 2 ≤ t.participants.length) (hseeded : t.Seeded) :
    Plans t s (t.plan site actor s.db.nextId) (s.drawing (t.plan site actor s.db.nextId)) := by
  refine ⟨⟨hcount, ?_, rfl, fun hthird => ?_, hseeded.congr rfl⟩, rfl, rfl, rfl, rfl, rfl⟩
  · show (t.syncRounds t.participants.length).rounds.length = roundCount t.participants.length
    simp [Tournament.syncRounds]
  · simp only [plan, Bool.and_eq_true, decide_eq_true_eq] at hthird
    exact hthird.1.2

/-- `_build_bracket` succeeds if its byes are given and the chosen problems put back. -/
theorem buildBracket_ok {site : Site} {actor : Option ProfileId} {t t' : Tournament} {s u : Txn} :
    buildBracket site actor t s = .ok t' u ↔ 2 ≤ t.participants.length ∧
      (∀ m ∈ s.db.battles.rows, m.tournament = some t.id → m.started = false) ∧
      ∃ opened restored,
        giveByes site.now (((t.plan site actor s.db.nextId).roundMatches
          ((t.plan site actor s.db.nextId).rounds - 1)).map (·.id)) (s.drawing (t.plan site actor s.db.nextId)) =
            .ok ⟨⟩ opened ∧
        restoreGames (chosenProblems s.db t.id) ((t.plan site actor s.db.nextId).allMatches.map (·.id)) opened =
          .ok ⟨⟩ restored ∧
        t' = { t.syncRounds t.participants.length with version := t.version + 1 } ∧
        u = (restored.wrote (·.putTournament t')).wrote
          (·.record { action := .bracket, actor, tournament := some t'.id }) := by
  have hunplayed : (¬ (s.db.battles.rows.any fun m => m.tournament = some t.id && m.started) = true) ↔
      ∀ m ∈ s.db.battles.rows, m.tournament = some t.id → m.started = false := by
    simp
  simp only [buildBracket, refuseIf_bind, tables_bind, write_bind, saveTournament_bind, hunplayed, not_lt]
  refine and_congr_right fun _ => and_congr_right fun _ => ⟨fun h => ?_, ?_⟩
  · obtain ⟨_, opened, hbyes, h⟩ := bind_ok.mp h
    obtain ⟨_, restored, hrestore, h⟩ := bind_ok.mp h
    simp only [saveTournament_bind, logTournament_bind, pure_ok] at h
    obtain ⟨rfl, rfl⟩ := h
    exact ⟨opened, restored, hbyes, hrestore, rfl, rfl⟩
  · rintro ⟨opened, restored, hbyes, hrestore, rfl, rfl⟩
    refine bind_ok.mpr ⟨⟨⟩, opened, hbyes, bind_ok.mpr ⟨⟨⟩, restored, hrestore, ?_⟩⟩
    simp only [saveTournament_bind, logTournament_bind, pure_ok]
    exact ⟨rfl, rfl⟩

theorem buildBracket_builds {site : Site} {actor : Option ProfileId} {t t' : Tournament} {s u : Txn}
    (h : buildBracket site actor t s = .ok t' u) (hseeded : t.Seeded) :
    ∃ d drawn opened restored, Builds site t t' s u d drawn opened restored := by
  obtain ⟨hcount, hunplayed, opened, restored, hbyes, hrestore, ht', rfl⟩ := buildBracket_ok.mp h
  exact ⟨_, _, opened, restored, Tournament.plan_plans site actor s hcount hseeded, ht', hunplayed, hbyes, hrestore, rfl,
    rfl⟩

section
variable {s t : Txn} {u : Unit} {db db' : Db} {m m' : Match} {id : TournamentId}

/-! ## The rows after the byes -/

/-- What every bye keeps, the byes keep. -/
theorem giveByes_keeps {P : Db → Db → Prop} {now : Time} {far : MatchId → Prop} (hrefl : ∀ db, P db db)
    (htrans : ∀ {db db' db''}, P db db' → P db' db'' → P db db'') : ∀ {ids : List MatchId} {s t : Txn},
    giveByes now ids s = .ok u t → (∀ i ∈ ids, far i ∧ ∃ m, AwaitsBye id far s.db i m) →
    (∀ {m : Match} {db db' : Db}, m.id ∈ ids → AwaitsBye id far db m.id m → m.status = .pending →
      Advanced (m.award .a .bye now (m.version + 1)) (db.putMatch (m.award .a .bye now (m.version + 1))) db' →
      P db db') → P s.db t.db
  | [], s, t, h, _, _ => by
    rw [(pure_ok.mp h).2]
    exact hrefl _
  | i :: ids, s, t, h, hids, hstep => by
    obtain ⟨_, m, hwaits⟩ := hids i List.mem_cons_self
    obtain ⟨s2, hbyes, hmoved⟩ := giveByes_cons h hwaits
    have hhead : Table.Maps (Match.Opened now far [i]) s.db.battles s2.db.battles :=
      hwaits.maps_head (hmoved.imp_left (And.imp_right (congrArg Txn.db)))
    have hwaits' : ∀ j ∈ ids, far j ∧ ∃ x, AwaitsBye id far s2.db j x := fun j hj => by
      obtain ⟨hfar, x, hx⟩ := hids j (List.mem_cons_of_mem i hj)
      exact ⟨hfar, hx.maps hfar hhead⟩
    refine htrans ?_ (giveByes_keeps hrefl htrans hbyes hwaits' fun hm => hstep (List.mem_cons_of_mem i hm))
    rcases hmoved with ⟨_, rfl⟩ | ⟨hpending, hadvanced⟩
    · exact hrefl _
    · obtain rfl : m.id = i := Table.key_of_get? hwaits.here
      exact hstep List.mem_cons_self hwaits hpending hadvanced

/-- What the byes are made of, of every match. -/
theorem giveByes_rows {R : Match → Match → Prop} {now : Time} {far : MatchId → Prop} {ids : List MatchId}
    (hR : Covers R true fun _ => False) (h : giveByes now ids s = .ok u t)
    (hids : ∀ i ∈ ids, far i ∧ ∃ m, AwaitsBye id far s.db i m)
    (haward : ∀ m, m.id ∈ ids → m.status = .pending → R m (m.award .a .bye now (m.version + 1))) :
    Table.Maps R s.db.battles t.db.battles := by
  refine giveByes_keeps (P := fun db db' => Table.Maps R db.battles db'.battles) (fun _ => .refl hR.refl _)
    (fun h h' => h.trans hR.trans h') h hids fun {m db _} hm hwaits hpending hadvanced => ?_
  refine Table.Maps.trans hR.trans ?_ ((hadvanced.maps hR).mono fun _ _ _ h => h.1)
  exact Table.Maps.put (b := m) hR.refl hwaits.here (haward m hm hpending)

/-- What becomes of a match as its bracket is drawn: only one with a bye is decided. -/
structure Match.Settles (byes : MatchId → Prop) (m m' : Match) : Prop where
  static : m'.static = m.static
  position : m'.position = m.position
  games : m'.games = m.games
  idle : m.status.locking = false → m'.status.locking = false
  decided : m.status = .decided → m'.status = .decided
  going : ¬ byes m.id → m.status ≠ .decided → m'.status ≠ .decided

theorem Match.Settles.covers (byes : MatchId → Prop) : Covers (Match.Settles byes) true fun _ => False where
  refl m := ⟨rfl, rfl, rfl, fun h => h, fun h => h, fun _ h => h⟩
  trans a b c h h' := by
    have hid : b.id = a.id := Match.id_of_static h.static
    exact ⟨h'.static.trans h.static, h'.position.trans h.position, h'.games.trans h.games,
      fun hi => h'.idle (h.idle hi), fun hd => h'.decided (h.decided hd),
      fun hno hd => h'.going (hid ▸ hno) (h.going hno hd)⟩
  row _ _ own _ := own.elim
  decide _ _ own _ := own.elim
  receive m slot p seed _ := by
    obtain ⟨status, heq, hstatus⟩ := m.receive_eq slot (some p) seed
    rw [heq]
    refine ⟨rfl, rfl, rfl, fun hidle => ?_, fun hd => ?_, fun _ hd => ?_⟩
    · rcases hstatus with rfl | ⟨_, rfl⟩ | ⟨_, rfl⟩
      · exact hidle
      · rfl
      · rfl
    · rcases hstatus with rfl | ⟨hwas, _⟩ | ⟨hwas, _⟩
      · exact hd
      · rw [hwas] at hd
        cases hd
      · rw [hwas] at hd
        cases hd
    · rcases hstatus with rfl | ⟨_, rfl⟩ | ⟨_, rfl⟩
      · exact hd
      · exact fun h => by cases h
      · exact fun h => by cases h

/-! ## The problems back in their places -/

/-- The games of a match, with their numbers and their problems. -/
def Match.sheet (m : Match) : List (ℕ × List GameProblem) := m.games.rows.map fun g => (g.number, g.problems)

/-- The problems of the game with a number; none without that game. -/
def Match.problemsAt (m : Match) (number : ℕ) : List GameProblem :=
  ((m.games.rows.find? (·.number = number)).map (·.problems)).getD []

/-- The sheet of games created from `number` on. -/
def sheetFrom (number : ℕ) (problems : List (List GameProblem)) : List (ℕ × List GameProblem) :=
  (problems.zipIdx number).map fun (problems, number) => (number, problems)

theorem addGames_sheet : ∀ {problems : List (List GameProblem)} {number : ℕ} {m m' : Match} {s t : Txn},
    addGames m number problems s = .ok m' t → s.db.match? m.id = some m → (∀ g ∈ m.games.rows, g.id < s.db.nextId) →
    (∃ games, m' = { m with games }) ∧ m'.sheet = m.sheet ++ sheetFrom number problems ∧
      (m.started = false → m'.started = false) ∧ t.db.battles = s.db.battles.put m'
  | [], number, m, m', s, t, h, here, _ => by
    obtain ⟨rfl, rfl⟩ := pure_ok.mp h
    refine ⟨⟨_, rfl⟩, by simp [sheetFrom], fun hs => hs, ?_⟩
    exact (Table.put_self here).symm
  | problems :: rest, number, m, m', s, t, h, here, hbelow => by
    simp only [addGames, freshId_bind, saveMatch_bind] at h
    generalize hg : ({ id := s.db.nextId, number, problems } : Game) = g at h
    have hid : g.id = s.db.nextId := by rw [← hg]
    have hfresh : m.games.get? g.id = none := Table.get?_eq_none_iff.mpr fun x hx heq =>
      absurd (hbelow x hx) (not_lt.mpr (hid ▸ le_of_eq heq.symm))
    have hhere1 : (({ s.db with nextId := s.db.nextId + 1 } : Db).putMatch
        { m with games := m.games.add g }).match? m.id = some { m with games := m.games.add g } :=
      Db.match?_putMatch (show ({ s.db with nextId := s.db.nextId + 1 } : Db).match? m.id = some m from here) rfl
    have hrows : ({ m with games := m.games.add g } : Match).games.rows = m.games.rows ++ [g] := Table.rows_add hfresh
    obtain ⟨⟨games, hm'⟩, hsheet, hunplayed, hbattles⟩ := addGames_sheet h hhere1 fun x hx => by
      rcases Table.mem_add hx with rfl | hx
      · exact hid ▸ Nat.lt_succ_self _
      · exact (hbelow x hx).trans (Nat.lt_succ_self _)
    refine ⟨⟨games, hm'⟩, ?_, fun hs => hunplayed ?_, ?_⟩
    · rw [hsheet, Match.sheet, hrows, List.map_append, ← hg]
      simp [Match.sheet, sheetFrom]
    · rw [Match.started, hrows, List.any_append, show m.games.rows.any Game.started = false from hs, ← hg]
      rfl
    · rw [hbattles]
      exact Table.put_put (by rw [hm']; rfl)

/-- What `restore_games` does to a match: one to be played, of those on the list, gets the problems chosen for it. -/
structure Match.Restored (chosen : List (Place × List GameProblem)) (ids : List MatchId) (m m' : Match) : Prop where
  row : ∃ games, m' = { m with games }
  dealt : m.id ∈ ids → m.status ≠ .decided → m'.sheet = m.sheet ++ sheetFrom 1 (chosenFor chosen m)
  same : m.id ∉ ids ∨ m.status = .decided → m' = m
  unplayed : m.started = false → m'.started = false

theorem Match.Restored.refl (chosen : List (Place × List GameProblem)) (m : Match) : m.Restored chosen [] m :=
  ⟨⟨_, rfl⟩, fun h => absurd h List.not_mem_nil, fun _ => rfl, fun hs => hs⟩

/-- One match, and then the others. -/
theorem Match.Restored.cons {chosen : List (Place × List GameProblem)} {i : MatchId} {ids : List MatchId}
    {a b c : Match} (h : a.Restored chosen [i] b) (h' : b.Restored chosen ids c) (hi : i ∉ ids) :
    a.Restored chosen (i :: ids) c := by
  have hrow := h.row
  obtain ⟨games, rfl⟩ := h.row
  obtain ⟨games', rfl⟩ := h'.row
  refine ⟨⟨_, rfl⟩, fun hmem hstatus => ?_, fun hno => ?_, fun hs => h'.unplayed (h.unplayed hs)⟩
  · rcases List.mem_cons.mp hmem with rfl | hmem
    · rw [h'.same (.inl hi)]
      exact h.dealt List.mem_cons_self hstatus
    · have hne : a.id ∉ [i] := fun hai => hi (List.mem_singleton.mp hai ▸ hmem)
      rw [h'.dealt hmem hstatus, h.same (.inl hne)]
  · have hfirst := h.same (hno.imp_left fun hno hai => hno (List.mem_singleton.mp hai ▸ List.mem_cons_self))
    rw [h'.same (hno.imp_left fun hno hmem => hno (List.mem_cons_of_mem i hmem)), hfirst]

theorem restoreGames_rows {chosen : List (Place × List GameProblem)} : ∀ {ids : List MatchId} {s t : Txn},
    restoreGames chosen ids s = .ok u t → ids.Nodup → (∀ i ∈ ids, ∀ m, s.db.match? i = some m → m.games = .empty) →
    Table.Maps (Match.Restored chosen ids) s.db.battles t.db.battles
  | [], s, t, h, _, _ => by
    rw [(pure_ok.mp h).2]
    exact .refl (Match.Restored.refl chosen) _
  | i :: ids, s, t, h, hnodup, hempty => by
    obtain ⟨hi, hnodup⟩ := List.nodup_cons.mp hnodup
    simp only [restoreGames, tables_bind] at h
    -- whatever becomes of the first match, the others go on from there
    have hrest : ∀ {s1 : Txn}, restoreGames chosen ids s1 = .ok u t →
        Table.Maps (Match.Restored chosen [i]) s.db.battles s1.db.battles →
        Table.Maps (Match.Restored chosen (i :: ids)) s.db.battles t.db.battles := by
      intro s1 h hfirst
      refine hfirst.comp (fun a b c hab hbc => hab.cons hbc hi) (restoreGames_rows h hnodup fun j hj m here => ?_)
      obtain ⟨x, hx, hxm⟩ := hfirst.back_get? here
      have hxj : x.id = j := Table.key_of_get? hx
      rw [hxm.same (.inl fun hmem => hi (List.mem_singleton.mp hmem ▸ hxj ▸ hj))]
      exact hempty j (List.mem_cons_of_mem i hj) x hx
    have hkeep : (∀ m, s.db.match? i = some m → m.status = .decided) →
        Table.Maps (Match.Restored chosen [i]) s.db.battles s.db.battles := by
      intro hdecided
      refine (Table.Maps.refl (fun m => Eq.refl m) _).mono fun a b ha hab => ?_
      subst hab
      refine ⟨⟨_, rfl⟩, fun hmem hstatus => absurd (hdecided a ?_) hstatus, fun _ => rfl, fun hs => hs⟩
      rw [← List.mem_singleton.mp hmem]
      exact Table.get?_of_mem ha
    cases here : s.db.match? i with
    | none =>
        simp only [here] at h
        exact hrest h (hkeep fun m hm => by rw [here] at hm; cases hm)
    | some m =>
        simp only [here] at h
        rcases Txn.ite_ok.mp h with ⟨hdecided, h⟩ | ⟨hgoing, h⟩
        · refine hrest h (hkeep fun x hx => ?_)
          obtain rfl := Option.some.inj (hx.symm.trans here)
          exact hdecided
        · obtain ⟨m', s1, hgames, h⟩ := bind_ok.mp h
          have hid : m.id = i := Table.key_of_get? here
          have hnone : ∀ g ∈ m.games.rows, g.id < s.db.nextId := fun g hg => by
            rw [hempty i List.mem_cons_self m here] at hg
            cases hg
          obtain ⟨hrow, hsheet, hunplayed, hbattles⟩ := addGames_sheet hgames (hid ▸ here) hnone
          refine hrest h ?_
          rw [hbattles]
          have hkey : m'.id = m.id := by
            obtain ⟨_, rfl⟩ := hrow
            rfl
          refine Table.Maps.put_row (b := m) (fun x hx => ?_) ?_ ⟨hrow, fun _ _ => hsheet, fun hno => ?_, hunplayed⟩
          · have hne : x.id ∉ [i] := fun hmem => hx ((List.mem_singleton.mp hmem).trans (hkey.trans hid).symm)
            exact ⟨⟨_, rfl⟩, fun hmem => absurd hmem hne, fun _ => rfl, fun hs => hs⟩
          · rw [show Keyed.key m' = m.id from hkey, hid]
            exact here
          · rcases hno with hno | hdecided
            · exact absurd (List.mem_singleton.mpr hid) hno
            · exact absurd hdecided hgoing

/-! ## The rows of a bracket -/

/-- The matches of a plan are numbered one after another. -/
theorem BracketPlan.ids_eq {d : BracketPlan} (fits : d.Fits) :
    d.allMatches.map (·.id) = List.range' d.base d.allMatches.length := by
  have hround : ∀ back < d.rounds, (d.roundMatches back).map (·.id) = List.range' (d.base + (2 ^ back - 1)) (2 ^ back) := by
    intro back hback
    rw [BracketPlan.roundMatches_eq fits hback, List.map_map, List.range'_eq_map_range]
    exact List.map_congr_left fun position _ => d.node_id back position
  have hrounds : ∀ n ≤ d.rounds,
      ((List.range n).flatMap d.roundMatches).map (·.id) = List.range' d.base (2 ^ n - 1) := by
    intro n
    induction n with
    | zero => exact fun _ => rfl
    | succ n ih =>
        intro hn
        rw [List.range_succ, List.flatMap_append, List.map_append, ih (by omega), List.flatMap_singleton,
          hround n (by omega), List.range'_append_1, pow_sub_one_add]
  rw [BracketPlan.length_allMatches fits, BracketPlan.allMatches, List.map_append, hrounds _ (le_refl _)]
  by_cases hthird : d.third = true
  · rw [if_pos hthird, if_pos hthird, ← List.range'_append_1]
    rfl
  · rw [if_neg hthird, if_neg hthird, Nat.add_zero, List.map_nil, List.append_nil]

theorem BracketPlan.nodup_ids {d : BracketPlan} (fits : d.Fits) : (d.allMatches.map (·.id)).Nodup := by
  rw [BracketPlan.ids_eq fits]
  exact List.nodup_range'

/-- A match of the first round that lacks a player. -/
def BracketPlan.HasBye (d : BracketPlan) (n : Match) : Prop :=
  n ∈ d.roundMatches (d.rounds - 1) ∧ n.status = .pending

/-- A match of a plan as it is after the byes and with the chosen problems. -/
structure Match.Built (d : BracketPlan) (chosen : List (Place × List GameProblem)) (n m : Match) : Prop where
  static : m.static = n.static
  position : m.position = n.position
  idle : m.status.locking = false
  bye : m.status = .decided ↔ d.HasBye n
  dealt : m.status ≠ .decided → m.sheet = sheetFrom 1 (chosenFor chosen m)
  empty : m.status = .decided → m.games = .empty
  unplayed : m.started = false

theorem BracketPlan.status_of_mem {d : BracketPlan} (fits : d.Fits) {n : Match} (h : n ∈ d.allMatches) :
    n.status = .pending ∨ n.status = .ready := by
  rcases (BracketPlan.mem_allMatches fits).mp h with ⟨back, position, _, _, rfl⟩ | ⟨_, rfl⟩
  · obtain ⟨_, _, status, heq, hstatus, -⟩ := d.node_eq back position
    rw [heq]
    exact hstatus
  · exact .inl rfl

/-- Nobody goes to these matches. -/
def BracketPlan.Far (d : BracketPlan) (i : MatchId) : Prop := ∀ n ∈ d.allMatches, ∀ q ∈ n.targets, q.1 ≠ i

namespace Plans
variable {row : Tournament} {d : BracketPlan} {drawn : Txn}

theorem tournament_id (h : Plans row s d drawn) : d.tournament.id = row.id := by
  rw [h.tournament]
  rfl

theorem one_le_rounds (h : Plans row s d drawn) : 1 ≤ d.rounds := by
  rw [h.fits.rounds]
  exact (half_lt h.fits.count).1

theorem match?_drawn (h : Plans row s d drawn)
    (hbelow : ∀ m ∈ s.db.battles.rows, m.id < s.db.nextId) {n : Match} (hn : n ∈ d.allMatches) :
    drawn.db.match? n.id = some n := by
  rw [Db.match?, h.battles]
  exact BracketPlan.match?_of_mem h.fits hbelow h.base hn rfl

/-- The first round waits for its byes. -/
theorem awaits (h : Plans row s d drawn)
    (hbelow : ∀ m ∈ s.db.battles.rows, m.id < s.db.nextId) :
    ∀ i ∈ (d.roundMatches (d.rounds - 1)).map (·.id),
      d.Far i ∧ ∃ m, AwaitsBye d.tournament.id d.Far drawn.db i m := by
  intro i hi
  obtain ⟨m, hm, rfl⟩ := List.mem_map.mp hi
  obtain ⟨hall, hseated⟩ := BracketPlan.mem_firstRound h.fits hm
  have hrounds := h.one_le_rounds
  rw [BracketPlan.roundMatches_eq h.fits (by omega)] at hm
  obtain ⟨position, hposition, rfl⟩ := List.mem_map.mp hm
  refine ⟨?_, _, h.match?_drawn hbelow hall, (d.mem_fresh h.fits hall).1, hseated, fun q hq hfar => hfar _ hall q hq rfl⟩
  rw [BracketPlan.node_id]
  exact BracketPlan.firstRound_far h.fits hrounds (List.mem_range.mp hposition)

end Plans

namespace Builds
variable {site : Site} {row row' : Tournament} {d : BracketPlan} {drawn opened restored : Txn}

/-- The rows of the plan, as they end. -/
theorem rows (h : Builds site row row' s t d drawn opened restored)
    (hbelow : ∀ m ∈ s.db.battles.rows, m.id < s.db.nextId) :
    Table.Maps (fun n m => (n ∈ d.allMatches → n.Built d (chosenProblems s.db row.id) m) ∧
      (n ∉ d.allMatches → n ∈ s.db.battles.rows → m = n)) drawn.db.battles t.db.battles := by
  let ids := (d.roundMatches (d.rounds - 1)).map (·.id)
  have hopened : Table.Maps (Match.Opened site.now d.Far ids) drawn.db.battles opened.db.battles :=
    giveByes_maps h.byes (h.awaits hbelow)
  have hsettled : Table.Maps (Match.Settles (· ∈ ids)) drawn.db.battles opened.db.battles :=
    giveByes_rows (Match.Settles.covers (· ∈ ids)) h.byes (h.awaits hbelow) fun m hm _ =>
      ⟨rfl, rfl, rfl, fun _ => rfl, fun _ => rfl, fun hno => absurd hm hno⟩
  have hnodup : (d.allMatches.map (·.id)).Nodup := d.nodup_ids h.fits
  have hempty : ∀ i ∈ d.allMatches.map (·.id), ∀ m, opened.db.match? i = some m → m.games = .empty := by
    intro i hi m here
    obtain ⟨n, hn, rfl⟩ := List.mem_map.mp hi
    obtain ⟨x, hx, hxm⟩ := hsettled.back_get? here
    obtain rfl := Option.some.inj (hx.symm.trans (h.match?_drawn hbelow hn))
    exact hxm.games.trans (d.mem_fresh h.fits hn).2.1
  have hrestored := restoreGames_rows h.chosen hnodup hempty
  rw [h.saved.1]
  refine (hopened.and hsettled).comp (fun n x m hx hm => ⟨fun hn => ?_, fun hno hold => ?_⟩) hrestored
  · obtain ⟨hopened, hsettled⟩ := hx
    have hrow := hm.row
    obtain ⟨games, rfl⟩ := hm.row
    have hid : x.id = n.id := Match.id_of_static hsettled.static
    have hmem : x.id ∈ d.allMatches.map (·.id) := hid ▸ List.mem_map_of_mem hn
    have hgames : x.games = .empty := hsettled.games.trans (d.mem_fresh h.fits hn).2.1
    have hpending : n.status = .pending ∨ n.status = .ready := d.status_of_mem h.fits hn
    have hidle : n.status.locking = false := by rcases hpending with h | h <;> rw [h] <;> rfl
    have hbye : x.status = .decided ↔ d.HasBye n := by
      by_cases hfirst : n ∈ d.roundMatches (d.rounds - 1)
      · have hin : n.id ∈ ids := List.mem_map_of_mem hfirst
        have heq := hopened.opened (h.awaits hbelow _ hin).1
        rw [if_pos hin] at heq
        rw [heq, Match.afterBye, BracketPlan.HasBye]
        rcases hpending with hstatus | hstatus
        · rw [if_pos hstatus]
          exact iff_of_true rfl ⟨hfirst, hstatus⟩
        · rw [if_neg (by rw [hstatus]; simp), hstatus]
          exact iff_of_false (by simp) fun h => by simp at h
      · refine iff_of_false (hsettled.going (fun hin => hfirst ?_) fun hd => ?_) fun hbye => hfirst hbye.1
        · obtain ⟨y, hy, hyn⟩ := List.mem_map.mp hin
          obtain rfl := d.eq_of_id h.fits (BracketPlan.mem_firstRound h.fits hy).1 hn hyn
          exact hy
        · rw [hd] at hidle hpending
          simp at hpending
    refine ⟨hsettled.static, hsettled.position, hsettled.idle hidle, hbye, fun hgoing => ?_, fun hdecided => ?_,
      hm.unplayed ?_⟩
    · rw [hm.dealt hmem hgoing, Match.sheet, hgames]
      rfl
    · rw [hm.same (.inr hdecided)]
      exact hgames
    · rw [Match.started, hgames]
      rfl
  · obtain ⟨hopened, hsettled⟩ := hx
    have hid : x.id = n.id := Match.id_of_static hsettled.static
    have hlow : n.id < d.base := h.base ▸ hbelow n hold
    have hnot : n.id ∉ d.allMatches.map (·.id) := fun hmem => by
      obtain ⟨y, hy, hyn⟩ := List.mem_map.mp hmem
      exact absurd hlow (not_lt.mpr (hyn ▸ (d.id_bounds h.fits hy).1))
    have hfar : d.Far n.id := fun y hy q hq heq =>
      absurd hlow (not_lt.mpr (heq ▸ (d.target_bounds h.fits hy hq).1))
    rw [hm.same (.inl (hid ▸ hnot)), hopened.opened hfar, if_neg fun hin => hnot ?_]
    obtain ⟨y, hy, hyn⟩ := List.mem_map.mp hin
    exact hyn ▸ List.mem_map_of_mem (BracketPlan.mem_firstRound h.fits hy).1

/-- A row after a bracket is drawn: one of its matches, or one that was there. -/
theorem cases (h : Builds site row row' s t d drawn opened restored)
    (hbelow : ∀ m ∈ s.db.battles.rows, m.id < s.db.nextId) (hm : m ∈ t.db.battles.rows) :
    (∃ n ∈ d.allMatches, n.Built d (chosenProblems s.db row.id) m) ∨
      (m ∈ s.db.battles.rows ∧ m.tournament ≠ some row.id) := by
  obtain ⟨n, hn, _, hbuilt, hsame⟩ := (h.rows hbelow).back hm
  by_cases hmem : n ∈ d.allMatches
  · exact .inl ⟨n, hmem, hbuilt hmem⟩
  · rw [h.battles] at hn
    have hold := Table.mem_filter.mp ((Table.mem_foldl_add hn).resolve_right hmem)
    obtain rfl := hsame hmem hold.1
    exact .inr ⟨hold.1, by simpa using hold.2⟩

/-- The match of a place of the plan. -/
theorem find (h : Builds site row row' s t d drawn opened restored)
    (hbelow : ∀ m ∈ s.db.battles.rows, m.id < s.db.nextId) {n : Match} (hn : n ∈ d.allMatches) :
    ∃ m ∈ t.db.battles.rows, n.Built d (chosenProblems s.db row.id) m := by
  obtain ⟨m, hm, hbuilt, _⟩ := (h.rows hbelow).forth (h.match?_drawn hbelow hn)
  exact ⟨m, Table.mem_of_get? hm, hbuilt hn⟩

/-- The matches of another tournament stay. -/
theorem keeps (h : Builds site row row' s t d drawn opened restored)
    (hbelow : ∀ m ∈ s.db.battles.rows, m.id < s.db.nextId) (hm : m ∈ s.db.battles.rows)
    (hother : m.tournament ≠ some row.id) : m ∈ t.db.battles.rows := by
  have hdrawn : m ∈ drawn.db.battles.rows := by
    rw [h.battles]
    exact Table.mem_foldl_add_of_mem (Table.mem_filter.mpr ⟨hm, by simpa using hother⟩)
  obtain ⟨m', hm', _, hsame⟩ := (h.rows hbelow).forth (Table.get?_of_mem hdrawn)
  have hnot : m ∉ d.allMatches := fun hmem => hother (h.tournament_id ▸ (d.mem_fresh h.fits hmem).1)
  obtain rfl := hsame hnot hm
  exact Table.mem_of_get? hm'

end Builds

/-! ## The problems of a place -/

/-- The place of a match in its bracket. -/
def Match.spot (m : Match) : Option ℕ × ℕ × Bool := (m.round, m.position, m.isThirdPlace)

/-- The games of a match are numbered, from one, each with its own number. -/
structure Match.Numbered (m : Match) : Prop where
  positive : ∀ g ∈ m.games.rows, 1 ≤ g.number
  distinct : ∀ g ∈ m.games.rows, ∀ x ∈ m.games.rows, g.number = x.number → g.id = x.id

theorem Match.Numbered.problemsAt (h : m.Numbered) {g : Game} (hg : g ∈ m.games.rows) :
    m.problemsAt g.number = g.problems := by
  have hsome : (m.games.rows.find? (·.number = g.number)).isSome := List.find?_isSome.mpr ⟨g, hg, by simp⟩
  obtain ⟨x, hx⟩ := Option.isSome_iff_exists.mp hsome
  have hmem := List.mem_of_find?_eq_some hx
  have hnumber : x.number = g.number := by simpa using List.find?_some hx
  obtain rfl : x = g := Table.eq_of_key hmem hg (h.distinct x hmem g hg hnumber)
  rw [Match.problemsAt, hx]
  rfl

theorem Match.problemsAt_eq_nil {number : ℕ} (h : ∀ g ∈ m.games.rows, g.number = number → g.problems = []) :
    m.problemsAt number = [] := by
  unfold Match.problemsAt
  cases hfind : m.games.rows.find? (·.number = number) with
  | none => rfl
  | some g => exact h g (List.mem_of_find?_eq_some hfind) (by simpa using List.find?_some hfind)

theorem Match.problemsAt_sheet (m : Match) (number : ℕ) :
    m.problemsAt number = ((m.sheet.find? fun e => e.1 = number).map (·.2)).getD [] := by
  rw [Match.problemsAt, Match.sheet, List.find?_map, Option.map_map]
  rfl

theorem find?_sheetFrom : ∀ (problems : List (List GameProblem)) (first number : ℕ),
    ((sheetFrom first problems).find? fun e => e.1 = number).map (·.2) =
      if first ≤ number then problems[number - first]? else none
  | [], first, number => by simp [sheetFrom]
  | problem :: problems, first, number => by
    have ih := find?_sheetFrom problems (first + 1) number
    rw [show sheetFrom first (problem :: problems) = (first, problem) :: sheetFrom (first + 1) problems from rfl,
      List.find?_cons]
    by_cases hfirst : first = number
    · simp [hfirst]
    · simp only [hfirst, decide_false, ih]
      by_cases hle : first ≤ number
      · rw [if_pos hle, if_pos (by omega), show number - first = number - (first + 1) + 1 by omega,
          List.getElem?_cons_succ]
      · rw [if_neg hle, if_neg (by omega)]

/-- What was chosen for the place of a match and a number. -/
def entryAt (chosen : List (Place × List GameProblem)) (m : Match) (number : ℕ) : List GameProblem :=
  let mine := chosen.filter fun entry =>
    some entry.1.1 = m.round && entry.1.2.1 = m.position && entry.1.2.2.1 = m.isThirdPlace
  ((mine.find? fun entry => entry.1.2.2.2 = number).map (·.2)).getD []

/-- The problems dealt to a match are those of its place. -/
theorem chosenFor_getElem? (chosen : List (Place × List GameProblem)) (m : Match) (i : ℕ) :
    (chosenFor chosen m)[i]?.getD [] = entryAt chosen m (i + 1) := by
  unfold chosenFor entryAt
  simp only
  generalize chosen.filter _ = mine
  rw [List.getElem?_map]
  by_cases hi : i < (mine.map fun entry => entry.1.2.2.2).foldl max 0
  · rw [List.getElem?_range hi]
    rfl
  · rw [List.getElem?_eq_none (by simpa using hi)]
    -- nothing was chosen beyond the last
    have hnone : mine.find? (fun entry => decide (entry.1.2.2.2 = i + 1)) = none := by
      refine List.find?_eq_none.mpr fun entry hentry heq => hi ?_
      have hle : entry.1.2.2.2 ≤ (mine.map fun entry => entry.1.2.2.2).foldl max 0 :=
        le_foldl_max (List.mem_map.mpr ⟨entry, hentry, rfl⟩)
      rw [of_decide_eq_true heq] at hle
      omega
    rw [hnone]
    rfl

theorem mem_chosenProblems {entry : Place × List GameProblem} : entry ∈ chosenProblems db id ↔
    ∃ m ∈ db.battles.rows, m.tournament = some id ∧ ∃ round, m.round = some round ∧ ∃ g ∈ m.games.rows,
      g.started = false ∧ g.problems ≠ [] ∧
        entry = ((round, m.position, m.isThirdPlace, g.number), g.problems) := by
  simp only [chosenProblems, List.mem_flatMap, List.mem_filter, decide_eq_true_eq]
  constructor
  · rintro ⟨m, ⟨hm, hmine⟩, hentry⟩
    cases hround : m.round with
    | none =>
        rw [hround] at hentry
        cases hentry
    | some round =>
        rw [hround] at hentry
        obtain ⟨g, hg, rfl⟩ := List.mem_map.mp hentry
        obtain ⟨hg, hfresh⟩ := List.mem_filter.mp hg
        simp only [Bool.and_eq_true, Bool.not_eq_true', List.isEmpty_eq_false_iff] at hfresh
        exact ⟨m, hm, hmine, round, hround, g, hg, hfresh.1, hfresh.2, rfl⟩
  · rintro ⟨m, hm, hmine, round, hround, g, hg, hstarted, hproblems, rfl⟩
    refine ⟨m, ⟨hm, hmine⟩, ?_⟩
    rw [hround]
    exact List.mem_map.mpr ⟨g, List.mem_filter.mpr ⟨hg, by simp [hstarted, hproblems]⟩, rfl⟩

/-- Every place of a bracket has one match, and every match its numbers. -/
structure Tidy (db : Db) : Prop where
  places : ∀ m ∈ db.battles.rows, ∀ n ∈ db.battles.rows, m.tournament ≠ none → m.tournament = n.tournament →
    m.spot = n.spot → m.id = n.id
  numbered : ∀ m ∈ db.battles.rows, m.Numbered

/-- A game whose problems were chosen for a place. -/
def Match.Chose (db : Db) (id : TournamentId) (m' : Match) (number : ℕ) (problems : List GameProblem) : Prop :=
  ∃ m ∈ db.battles.rows, m.tournament = some id ∧ m.spot = m'.spot ∧ ∃ g ∈ m.games.rows,
    g.started = false ∧ g.problems ≠ [] ∧ g.number = number ∧ g.problems = problems

/-- What was chosen for a place comes from a game of the match that had it, and nothing is left out. -/
theorem entryAt_chosenProblems (db : Db) (id : TournamentId) {m' : Match} (number : ℕ) (hround : m'.round.isSome = true) :
    m'.Chose db id number (entryAt (chosenProblems db id) m' number) ∨
      (entryAt (chosenProblems db id) m' number = [] ∧ ∀ problems, ¬ m'.Chose db id number problems) := by
  unfold entryAt
  simp only
  generalize hmine : (chosenProblems db id).filter _ = mine
  have hmem : ∀ entry, entry ∈ mine ↔ m'.Chose db id entry.1.2.2.2 entry.2 ∧ some entry.1.1 = m'.round ∧
      entry.1.2.1 = m'.position ∧ entry.1.2.2.1 = m'.isThirdPlace := by
    intro entry
    rw [← hmine, List.mem_filter, mem_chosenProblems]
    simp only [Bool.and_eq_true, decide_eq_true_eq]
    constructor
    · rintro ⟨⟨m, hm, htournament, round, hround, g, hg, hstarted, hproblems, rfl⟩, ⟨hr, hp⟩, ht⟩
      refine ⟨⟨m, hm, htournament, ?_, g, hg, hstarted, hproblems, rfl, rfl⟩, hr, hp, ht⟩
      simp only at hr hp ht
      rw [Match.spot, Match.spot, hround, hr, hp, ht]
    · rintro ⟨⟨m, hm, htournament, hspot, g, hg, hstarted, hproblems, hnumber, hsame⟩, hr, hp, ht⟩
      obtain ⟨hmr, hmp, hmt⟩ : m.round = m'.round ∧ m.position = m'.position ∧ m.isThirdPlace = m'.isThirdPlace := by
        simpa [Match.spot] using hspot
      refine ⟨⟨m, hm, htournament, entry.1.1, hmr.trans hr.symm, g, hg, hstarted, hproblems, ?_⟩, ⟨hr, hp⟩, ht⟩
      rw [hmp, hmt, ← hp, ← ht, hnumber, hsame]
  cases hfind : mine.find? fun entry => entry.1.2.2.2 = number with
  | some entry =>
      have hnumber : entry.1.2.2.2 = number := by simpa using List.find?_some hfind
      exact .inl (hnumber ▸ ((hmem entry).mp (List.mem_of_find?_eq_some hfind)).1)
  | none =>
      refine .inr ⟨rfl, fun problems hchose => ?_⟩
      obtain ⟨round, hround⟩ := Option.isSome_iff_exists.mp hround
      have hin := (hmem ((round, m'.position, m'.isThirdPlace, number), problems)).mpr
        ⟨hchose, hround.symm, rfl, rfl⟩
      exact List.find?_eq_none.mp hfind _ hin (by simp)

namespace Match.Built
variable {d : BracketPlan} {chosen : List (Place × List GameProblem)} {n : Match}

/-- A match to be played has the problems chosen for its place. -/
theorem problemsAt_entryAt (h : n.Built d chosen m) (hgoing : m.status ≠ .decided) {number : ℕ}
    (hpositive : 1 ≤ number) : m.problemsAt number = entryAt chosen m number := by
  rw [Match.problemsAt_sheet, h.dealt hgoing, find?_sheetFrom, if_pos hpositive, chosenFor_getElem?,
    Nat.sub_add_cancel hpositive]

/-- Its games are numbered one after another. -/
theorem numbered (h : n.Built d chosen m) : m.Numbered := by
  by_cases hdecided : m.status = .decided
  · have hempty := h.empty hdecided
    refine ⟨fun g hg => ?_, fun g hg => ?_⟩ <;>
    · rw [hempty] at hg
      cases hg
  · have hnumbers : m.games.rows.map Game.number = List.range' 1 (chosenFor chosen m).length := by
      rw [← List.zipIdx_map_snd 1, show m.games.rows.map Game.number = m.sheet.map Prod.fst by simp [Match.sheet],
        h.dealt hdecided, sheetFrom, List.map_map]
      rfl
    refine ⟨fun g hg => ?_, fun g hg x hx heq => ?_⟩
    · have hmem : g.number ∈ m.games.rows.map Game.number := List.mem_map_of_mem hg
      rw [hnumbers] at hmem
      exact (List.mem_range'_1.mp hmem).1
    · have hnodup : (m.games.rows.map Game.number).Nodup := hnumbers ▸ List.nodup_range'
      rw [List.inj_on_of_nodup_map hnodup hg hx heq]

end Match.Built

namespace Builds
variable {site : Site} {row row' : Tournament} {d : BracketPlan} {drawn opened restored : Txn}

theorem round_isSome (h : Builds site row row' s t d drawn opened restored) {n : Match} (hn : n ∈ d.allMatches) :
    n.round.isSome = true := by
  rcases (BracketPlan.mem_allMatches h.fits).mp hn with ⟨back, position, _, _, rfl⟩ | ⟨_, rfl⟩
  · rw [show (d.node back position).round = (d.blank back position).round from
      congrArg (·.2.2.1) (d.node_static back position)]
    rfl
  · rfl

theorem built_round (h : Builds site row row' s t d drawn opened restored) {n : Match} (hn : n ∈ d.allMatches)
    (hbuilt : n.Built d (chosenProblems s.db row.id) m) : m.round.isSome = true := by
  rw [show m.round = n.round from congrArg (·.2.2.1) hbuilt.static]
  exact h.round_isSome hn

/-- **A match to be played keeps the problems of its place.** -/
theorem problemsAt (h : Builds site row row' s t d drawn opened restored) (htidy : Tidy s.db) {n m' : Match}
    (hn : n ∈ d.allMatches) (hbuilt : n.Built d (chosenProblems s.db row.id) m') (hgoing : m'.status ≠ .decided)
    (hm : m ∈ s.db.battles.rows) (hmine : m.tournament = some row.id) (hspot : m.spot = m'.spot) (number : ℕ) :
    m'.problemsAt number = m.problemsAt number := by
  have hnumbered := htidy.numbered m hm
  rcases Nat.eq_zero_or_pos number with rfl | hpositive
  · have hnone : ∀ {x : Match}, x.Numbered → x.problemsAt 0 = [] := fun hx =>
      Match.problemsAt_eq_nil fun g hg h0 => absurd (hx.positive g hg) (by omega)
    rw [hnone hnumbered, hnone hbuilt.numbered]
  · rw [hbuilt.problemsAt_entryAt hgoing hpositive]
    rcases entryAt_chosenProblems s.db row.id number (h.built_round hn hbuilt) with
      ⟨x, hx, hxmine, hxspot, g, hg, _, _, hnumber, hproblems⟩ | ⟨hnil, hnone⟩
    · have hid := htidy.places x hx m hm (by rw [hxmine]; simp) (hxmine.trans hmine.symm) (hxspot.trans hspot.symm)
      obtain rfl : x = m := Table.eq_of_key hx hm hid
      rw [← hproblems, ← hnumber, hnumbered.problemsAt hg]
    · rw [hnil, Match.problemsAt_eq_nil fun g hg hnumber => ?_]
      by_contra hproblems
      have hstarted : g.started = false := by
        refine Bool.eq_false_iff.mpr fun hs => ?_
        have := h.unplayed m hm hmine
        rw [Match.started_iff.mpr ⟨g, hg, hs⟩] at this
        cases this
      exact hnone g.problems ⟨m, hm, hmine, hspot, g, hg, hstarted, hproblems, hnumber, rfl⟩

end Builds

end

end Arena
end CpcJudge
