import CpcJudge.Arena.MatchOps

/-!
# `Arena.TournamentOps` — what the operations on a whole tournament change

Every operation of `judge/arena/tournament.py` as a sequence of changes of the abstract arena. Drawing a bracket
changes no match but those it creates.
-/

namespace CpcJudge
namespace Arena

open CpcJudge.Txn (bind_ok pure_ok)

section
variable {organizer : Bool} {scope : MatchId → Prop} {s t : Txn} {u : Unit} {db db' : Db} {m m' : Match} {i : MatchId}
  {site : Site} {actor : Option ProfileId} {version : Option ℤ} {id : TournamentId} {row row' : Tournament}

/-! ## The row of a tournament -/

/-- A tournament saved, with the same participants and the same status. -/
theorem Path.tournament (here : db.tournament? row.id = some row) (hid : row'.id = row.id)
    (hstatus : row'.status = row.status ∨ (row.status = .finished ∧ row'.status = .archived))
    (hseeded : row.Seeded → row'.Seeded) : Path organizer scope db (db.putTournament row') :=
  .single (.tournament here hid hstatus hseeded rfl rfl (.of_actions rfl (le_refl _)))

/-- A tournament saved under its lock, and the action recorded. -/
theorem Path.savedTournament {name : ActionName}
    (h : t = ((s.holding (.tournament id)).wrote (·.putTournament row')).wrote
      (·.record { action := name, actor, tournament := some id }))
    (here : s.db.tournament? id = some row) (hid : row'.id = row.id)
    (hstatus : row'.status = row.status ∨ (row.status = .finished ∧ row'.status = .archived))
    (hseeded : row.Seeded → row'.Seeded) (hfinish : name ≠ .finish) (htie : name ≠ .tie) :
    Path organizer scope s.db t.db := by
  have here' : s.db.tournament? row.id = some row := by
    rwa [show row.id = id from Table.key_of_get? here]
  rw [h, Txn.wrote_db, Txn.wrote_db, Txn.holding_db]
  exact (Path.tournament here' hid hstatus hseeded).record hfinish htie

theorem Db.tournament?_putTournament (here : db.tournament? row.id = some row) (hid : row'.id = row.id) :
    (db.putTournament row').tournament? row'.id = some row' :=
  Table.get?_put_self (b := row) (by rw [show Keyed.key row' = row.id from hid]; exact here)

theorem id_of_tournament? (here : db.tournament? id = some row) : row.id = id := Table.key_of_get? here

/-- Participants seeded from one. -/
theorem seeded_seeded (profiles : List ProfileId) {row : Tournament} (h : row.participants = seeded profiles) :
    row.Seeded := by
  intro i hlow hhigh
  rw [h] at hhigh ⊢
  rw [List.find?_isSome]
  have hlength : i - 1 < profiles.length := by
    rw [seeded, List.length_map, List.length_zipIdx] at hhigh
    omega
  refine ⟨{ profile := profiles[i - 1], seed := i - 1 + 1 }, List.mem_map.mpr ⟨(profiles[i - 1], i - 1), ?_, rfl⟩,
    by simpa using (by omega : i - 1 + 1 = i)⟩
  exact List.mem_zipIdx_iff_getElem?.mpr (List.getElem?_eq_getElem hlength)

/-! ## Drawing a bracket -/

/-- A match nobody played in the meantime, whose first player is there if it was. -/
structure Match.Untouched (m m' : Match) : Prop where
  static : m'.static = m.static
  games : m'.games = m.games
  seated : m.players.a.isSome = true → m'.players.a.isSome = true

theorem Match.Untouched.covers : Covers Match.Untouched organizer fun _ => False where
  refl _ := ⟨rfl, rfl, fun h => h⟩
  trans _ _ _ h h' := ⟨h'.static.trans h.static, h'.games.trans h.games, fun hs => h'.seated (h.seated hs)⟩
  row _ _ own _ := own.elim
  decide _ _ own _ := own.elim
  receive m slot p seed _ := by
    obtain ⟨status, heq, _⟩ := m.receive_eq slot (some p) seed
    rw [heq]
    refine ⟨rfl, rfl, fun h => ?_⟩
    cases slot
    · rfl
    · exact h

/-- The tournament is still a draft. -/
def Draft (id : TournamentId) (db : Db) : Prop := ∃ row, db.tournament? id = some row ∧ row.status = .draft

theorem Placed.tournaments {seed : Option ℕ} {target : Option (MatchId × Slot)} {p : Option ProfileId}
    (h : Placed seed db target p db') : db'.tournaments = db.tournaments := by
  cases h <;> rfl

/-- A draft is not finished by its byes. -/
theorem Advanced.draft (h : Advanced m db db') (hm : m.tournament = some id) (hdraft : Draft id db) :
    db'.tournaments = db.tournaments := by
  cases h with
  | quick => rfl
  | @onward t w db1 db2 _ here _ _ next loser checked =>
      obtain rfl : t = id := Option.some.inj (here.symm.trans hm)
      have htournaments : db2.tournaments = db.tournaments := loser.tournaments.trans next.tournaments
      cases checked with
      | @finished row _ _ hrow hrunning =>
          obtain ⟨row', hrow', hstatus⟩ := hdraft
          rw [Db.tournament?, htournaments] at hrow
          obtain rfl := Option.some.inj (hrow.symm.trans hrow')
          rw [hstatus] at hrunning
          cases hrunning
      | same => exact htournaments

/-- A first round match nobody played, with its first player. -/
def FirstRound (id : TournamentId) (db : Db) (i : MatchId) : Prop :=
  ∃ m, db.match? i = some m ∧ m.tournament = some id ∧ m.games = .empty ∧ m.players.a.isSome = true

theorem FirstRound.maps {i : MatchId} (h : FirstRound id db i)
    (hmaps : Table.Maps Match.Untouched db.battles db'.battles) : FirstRound id db' i := by
  obtain ⟨m, here, htournament, hgames, hseated⟩ := h
  obtain ⟨m', here', huntouched⟩ := hmaps.forth here
  exact ⟨m', here', (Match.tournament_of_static huntouched.static).trans htournament,
    huntouched.games.trans hgames, huntouched.seated hseated⟩

variable (organizer scope id) in
/-- A bye: the first player is given the match. -/
theorem bye_change {now : Time} (here : s.db.match? m.id = some m) (own : scope m.id)
    (htournament : m.tournament = some id) (hdraft : Draft id s.db) (hgames : m.games = .empty)
    (hseated : m.players.a.isSome = true) (hpending : m.status = .pending)
    (h : advance now (m.award .a .bye now (m.version + 1))
      (s.wrote (·.putMatch (m.award .a .bye now (m.version + 1)))) = .ok u t) :
    Change organizer scope s.db t.db ∧ t.db.tournaments = s.db.tournaments ∧
      Table.Maps Match.Untouched s.db.battles t.db.battles := by
  let m' := m.award .a .bye now (m.version + 1)
  have hadvanced : Advanced m' (s.db.putMatch m') t.db := advance_advanced (w := .a) h rfl hseated
  have hidle : m.inPlay = false := by rw [Match.inPlay, hgames]; rfl
  have hgiven : Decides organizer m m' :=
    .given .bye now _ hseated hidle (by rw [Match.isOver, hpending]; rfl) (Nat.le_succ _)
  have hsaves : Saves s.db m m' (s.db.putMatch m') := .of_logs rfl rfl (.of_actions rfl (le_refl _)) (.of_same rfl)
  refine ⟨.decide here own hgiven hsaves hadvanced, hadvanced.draft htournament hdraft, ?_⟩
  refine Table.Maps.trans (@Match.Untouched.covers true).trans ?_
    ((hadvanced.maps (@Match.Untouched.covers true)).mono fun _ _ _ h => h.1)
  exact Table.Maps.put (b := m) (@Match.Untouched.covers true).refl here ⟨rfl, rfl, fun h => h⟩

variable (organizer scope id) in
theorem giveByes_path {now : Time} : ∀ {ids : List MatchId} {s t : Txn}, giveByes now ids s = .ok u t →
    WellFormed s.db → Draft id s.db → (∀ i ∈ ids, scope i ∧ FirstRound id s.db i) →
    Path organizer scope s.db t.db ∧ t.db.tournaments = s.db.tournaments
  | [], s, t, h, _, _, _ => by
    rw [(pure_ok.mp h).2]
    exact ⟨.refl, rfl⟩
  | i :: ids, s, t, h, hdb, hdraft, hids => by
    simp only [giveByes, tables_bind] at h
    obtain ⟨own, m, here, htournament, hgames, hseated⟩ := hids i List.mem_cons_self
    have hrest := fun j hj => hids j (List.mem_cons_of_mem i hj)
    rw [here, Option.any_some] at h
    rcases Txn.ite_ok.mp h with ⟨hpending, h⟩ | ⟨_, h⟩
    · have hid : m.id = i := Table.key_of_get? here
      obtain ⟨m', s1, hlock, hbye⟩ := bind_ok.mp h
      obtain ⟨here', rfl⟩ := lockMatch_ok.mp hlock
      obtain rfl := Option.some.inj (here'.symm.trans here)
      simp only [hseated, if_true, saveMatch_bind] at hbye
      obtain ⟨_, s2, hadvance, hbyes⟩ := bind_ok.mp hbye
      have hdb1 := s.holdingMatch_db m'
      obtain ⟨hchange, htournaments, hmaps⟩ := bye_change organizer scope id
        (s := s.holdingMatch m') (by rwa [hdb1, hid]) (hid ▸ own) htournament (by rwa [hdb1]) hgames
        hseated (of_decide_eq_true hpending) hadvance
      rw [hdb1] at hchange htournaments hmaps
      have hdraft' : Draft id s2.db := by rwa [Draft, Db.tournament?, htournaments]
      obtain ⟨hpath, htournaments'⟩ := giveByes_path hbyes (hdb.change hchange) hdraft'
        fun j hj => ⟨(hrest j hj).1, (hrest j hj).2.maps hmaps⟩
      exact ⟨hpath.head hchange, htournaments'.trans htournaments⟩
    · exact giveByes_path h hdb hdraft hrest

theorem addGames_tournaments : ∀ {problems : List (List GameProblem)} {number : ℕ} {m m' : Match} {s t : Txn},
    addGames m number problems s = .ok m' t → t.db.tournaments = s.db.tournaments
  | [], _, _, _, _, _, h => by rw [(pure_ok.mp h).2]
  | _ :: _, _, _, _, _, _, h => by
    simp only [addGames, freshId_bind, saveMatch_bind] at h
    rw [addGames_tournaments h]
    rfl

variable (organizer scope) in
theorem restoreGames_path {chosen : List (Place × List GameProblem)} : ∀ {ids : List MatchId} {s t : Txn},
    restoreGames chosen ids s = .ok u t → WellFormed s.db → (∀ i ∈ ids, scope i) →
    Path organizer scope s.db t.db ∧ t.db.tournaments = s.db.tournaments
  | [], s, t, h, _, _ => by
    rw [(pure_ok.mp h).2]
    exact ⟨.refl, rfl⟩
  | i :: ids, s, t, h, hdb, own => by
    simp only [restoreGames, tables_bind] at h
    have hrest := fun j hj => own j (List.mem_cons_of_mem i hj)
    cases here : s.db.match? i with
    | none =>
        simp only [here] at h
        exact restoreGames_path h hdb hrest
    | some m =>
        simp only [here] at h
        rcases Txn.ite_ok.mp h with ⟨_, h⟩ | ⟨_, h⟩
        · exact restoreGames_path h hdb hrest
        · obtain ⟨m', s1, hgames, h⟩ := bind_ok.mp h
          have hid : m.id = i := Table.key_of_get? here
          have hcontinues := addGames_continues organizer hgames hdb (hid ▸ here)
            (hid ▸ own i List.mem_cons_self)
          obtain ⟨hpath, htournaments⟩ := restoreGames_path h (hdb.path hcontinues.path) hrest
          exact ⟨hcontinues.path.trans hpath, htournaments.trans (addGames_tournaments hgames)⟩

/-- The rows of a drawn bracket are found by their keys. -/
theorem BracketPlan.match?_of_mem {d : BracketPlan} (fits : d.Fits)
    (hbelow : ∀ m ∈ db.battles.rows, m.id < db.nextId) (base : d.base = db.nextId)
    {p : Match → Bool} (hm : m ∈ d.allMatches) (hid : m.id = i) :
    (d.allMatches.foldl Table.add (db.battles.filter p)).get? i = some m := by
  subst hid
  refine Table.get?_foldl_add hm (fun n hn heq => d.eq_of_id fits hn hm heq) ?_
  refine Table.get?_eq_none_iff.mpr fun x hx heq => ?_
  exact absurd (hbelow x (Table.mem_filter.mp hx).1)
    (not_lt.mpr (base ▸ ((d.id_bounds fits hm).1.trans (le_of_eq heq.symm))))

theorem Logs.dropBracket (db : Db) (id : TournamentId) : Logs db (db.dropBracket id) :=
  ⟨le_refl _, fun _ => List.filter_sublist.countP_le, fun _ => List.filter_sublist.countP_le⟩

/-- `_build_bracket`, of a draft. -/
theorem buildBracket_path (h : buildBracket site actor row s = .ok row' t) (hdb : WellFormed s.db)
    (here : s.db.tournament? row.id = some row) (hdraft : row.status = .draft)
    (own : ∀ i, s.db.nextId ≤ i → scope i) : Path organizer scope s.db t.db := by
  simp only [buildBracket, refuseIf_bind, tables_bind, write_bind, saveTournament_bind] at h
  obtain ⟨hcount, hunplayed, h⟩ := h
  generalize hrow1 : row.syncRounds row.participants.length = row1 at h
  have hid : row1.id = row.id := by rw [← hrow1]; rfl
  have hplayers : row1.participants = row.participants := by rw [← hrow1]; rfl
  have hstatus : row1.status = row.status := by rw [← hrow1]; rfl
  have hrounds : row1.rounds.length = roundCount row.participants.length := by
    rw [← hrow1]
    simp [Tournament.syncRounds]
  have hseeded : row.Seeded := hdb.seeded row (Table.mem_of_get? here)
  generalize hplan : BracketPlan.mk row1 _ _ _ _ _ _ = d at h
  have hbase : d.base = s.db.nextId := by rw [← hplan]; rfl
  have htournament : d.tournament = row1 := by rw [← hplan]
  have fits : d.Fits := by
    rw [← hplan]
    refine ⟨?_, hrounds.trans (by rw [hplayers]), by rw [hplayers], fun hthird => ?_, hseeded.congr hplayers⟩
    · rw [hplayers]
      exact not_lt.mp hcount
    · simp only [Bool.and_eq_true, decide_eq_true_eq] at hthird
      exact hthird.1.2
  -- the rounds are saved, and then the matches replaced
  let db1 := s.db.putTournament row1
  let db2 : Db := { s.db.dropBracket row.id with
    tournaments := s.db.tournaments.put row1
    battles := d.allMatches.foldl Table.add (s.db.dropBracket row.id).battles
    nextId := s.db.nextId + d.allMatches.length }
  have hpath1 : Path organizer scope s.db db1 := .tournament here hid (.inl hstatus) fun hs => hs.congr hplayers
  have hdrawn : Change organizer scope db1 db2 := by
    refine .bracket (d := d) (t := row1) fits ?_ (hstatus.trans hdraft) hbase (fun m hm hmine => ?_) ?_ rfl rfl ?_
    · rw [htournament]
      exact Db.tournament?_putTournament here hid
    · refine Bool.eq_false_iff.mpr fun hstarted => hunplayed (List.any_eq_true.mpr ⟨m, hm, ?_⟩)
      rw [htournament, hid] at hmine
      simp [hmine, hstarted]
    · rw [htournament, hid]
      rfl
    · exact ⟨Nat.le_add_right _ _, (Logs.dropBracket s.db row.id).finishes, (Logs.dropBracket s.db row.id).ties⟩
  have hdb2 : WellFormed db2 := (hdb.path hpath1).change hdrawn
  have hrow2 : db2.tournament? row1.id = some row1 := Db.tournament?_putTournament here hid
  have hmatches : ∀ m ∈ d.allMatches, scope m.id ∧ db2.match? m.id = some m := fun m hm =>
    ⟨own m.id (hbase ▸ (d.id_bounds fits hm).1), BracketPlan.match?_of_mem fits hdb.below hbase hm rfl⟩
  obtain ⟨_, s3, hbyes, h⟩ := bind_ok.mp h
  obtain ⟨_, s4, hrestore, h⟩ := bind_ok.mp h
  simp only [saveTournament_bind, logTournament_bind, pure_ok] at h
  obtain ⟨hpath3, htournaments3⟩ := giveByes_path organizer scope row1.id hbyes hdb2
    ⟨row1, hrow2, hstatus.trans hdraft⟩ fun i hi => by
      obtain ⟨m, hm, rfl⟩ := List.mem_map.mp hi
      rw [show row1.rounds.length = d.rounds by rw [← hplan]] at hm
      obtain ⟨hall, hseated⟩ := BracketPlan.mem_firstRound fits hm
      obtain ⟨hmine, hgames, _⟩ := d.mem_fresh fits hall
      exact ⟨(hmatches m hall).1, m, (hmatches m hall).2, htournament ▸ hmine, hgames, hseated⟩
  obtain ⟨hpath4, htournaments4⟩ := restoreGames_path organizer scope hrestore
    (hdb2.path hpath3) fun i hi => by
      obtain ⟨m, hm, rfl⟩ := List.mem_map.mp hi
      exact (hmatches m hm).1
  have hrow4 : s4.db.tournament? row1.id = some row1 := by
    rw [Db.tournament?, htournaments4, htournaments3]
    exact hrow2
  rw [h.2]
  refine .record ?_ (by simp) (by simp)
  have hsaved : Path organizer scope s4.db (s4.db.putTournament { row1 with version := row1.version + 1 }) :=
    .tournament hrow4 rfl (.inl rfl) fun hs => hs.congr rfl
  exact (hpath1.tail hdrawn).trans ((hpath3.trans hpath4).trans hsaved)

/-- A draft saved and its bracket drawn again. -/
theorem redrawn_path {name : ActionName} (h : (do
      saveTournament row'
      let _ ← buildBracket site actor row'
      logTournament name actor id : ArenaM Unit) (s.holding (.tournament id)) = .ok u t) (hdb : WellFormed s.db)
    (here : s.db.tournament? id = some row) (hid : row'.id = row.id) (hstatus : row'.status = row.status)
    (hseeded : row.Seeded → row'.Seeded) (hdraft : row.status = .draft) (own : ∀ i, s.db.nextId ≤ i → scope i)
    (hfinish : name ≠ .finish) (htie : name ≠ .tie) : Path organizer scope s.db t.db := by
  simp only [saveTournament_bind] at h
  obtain ⟨_, s1, hbuild, h⟩ := bind_ok.mp h
  rw [← id_of_tournament? here] at here
  have hdb1 : ((s.holding (.tournament id)).wrote (·.putTournament row')).db = s.db.putTournament row' := by simp
  have hpath : Path organizer scope s.db (s.db.putTournament row') := .tournament here hid (.inl hstatus) hseeded
  rw [← hdb1] at hpath
  have hbuilt : Path organizer scope _ s1.db := buildBracket_path hbuild (hdb.path hpath)
    (hdb1 ▸ Db.tournament?_putTournament here hid) (hstatus.trans hdraft) (by rw [hdb1]; exact own)
  rw [logTournament_ok.mp h]
  exact .record (hpath.trans hbuilt) hfinish htie

/-! ## Operations on a tournament -/

theorem createTournament_path {name : String} {profiles : List (Option ProfileId)} {seeding : Seeding}
    {thirdPlace : Bool} {rules : Rules} {description : String} {bank : Option BankId} {showInHistory : Bool}
    {plannedAt : Option Time} {ranking : Ranking}
    (h : createTournament site actor name profiles seeding thirdPlace rules description bank showInHistory plannedAt
      ranking s = .ok id t) (hdb : WellFormed s.db) (own : ∀ i, s.db.nextId ≤ i → scope i) :
    Path organizer scope s.db t.db := by
  simp only [createTournament, refuseIf_bind, cleaned_bind, refuseParticipant, freshId_bind, write_bind] at h
  obtain ⟨_, rules, _, plannedAt, _, profiles, _, _, h⟩ := h
  generalize hrow : Tournament.syncRounds _ _ = row at h
  have hid : row.id = s.db.nextId := by rw [← hrow]; rfl
  have hdraft : row.status = .draft := by rw [← hrow]; rfl
  have hplayers : row.Seeded :=
    seeded_seeded (orderedBySeeding site profiles seeding) (by rw [← hrow]; rfl)
  let db1 : Db := { s.db with nextId := s.db.nextId + 1, tournaments := s.db.tournaments.add row }
  have hcreated : Path organizer scope s.db db1 :=
    .single (.newTournament hdraft hplayers (hid ▸ le_refl _) (hid ▸ Nat.lt_succ_self _) rfl rfl
      (.of_actions rfl (Nat.le_succ _)))
  have hhere : db1.tournament? row.id = some row := by
    refine Table.get?_add_self (Table.get?_eq_none_iff.mpr fun x hx heq => ?_)
    exact absurd (hdb.tournaments x hx) (not_lt.mpr (hid ▸ le_of_eq heq.symm))
  obtain ⟨_, s1, hbuild, h⟩ := bind_ok.mp h
  simp only [logTournament_bind] at h
  obtain ⟨_, s2, hscreen, h⟩ := bind_ok.mp h
  obtain ⟨_, rfl⟩ := pure_ok.mp h
  have hbuilt : Path organizer scope db1 s1.db := buildBracket_path hbuild (hdb.path hcreated) hhere hdraft fun i hi =>
    own i ((Nat.le_succ _).trans hi)
  refine hcreated.trans (Relation.ReflTransGen.trans ?_ (ensureDefaultScreen_path hscreen))
  exact hbuilt.record (by simp) (by simp)

theorem updateTournament_path {name description : Option String} {rules : Option Rules}
    {bank : Option (Option BankId)} {thirdPlace : Option Bool} {draw : Option Rules.Draw}
    {showInHistory : Option Bool} {plannedAt : Option (Option Time)}
    (h : updateTournament site actor id version name description rules bank thirdPlace draw showInHistory plannedAt s =
      .ok u t) (hdb : WellFormed s.db) (own : ∀ i, s.db.nextId ≤ i → scope i) : Path organizer scope s.db t.db := by
  simp only [updateTournament, lockTournament_bind, checkVersion_bind] at h
  obtain ⟨row, here, _, h⟩ := h
  -- the form checked, then the row saved, and then perhaps another bracket
  have hsave : ∀ {row1 : Tournament} {rebuild : Bool}, (do
        saveTournament row1
        if rebuild then do
          let _ ← buildBracket site actor row1
          logTournament .tournamentUpdate actor id
        else logTournament .tournamentUpdate actor id : ArenaM Unit) (s.holding (.tournament id)) = .ok u t →
      row1.id = row.id → row1.status = row.status → row1.participants = row.participants →
      ¬ (rebuild = true ∧ row.status ≠ .draft) → Path organizer scope s.db t.db := by
    intro row1 rebuild h hid hstatus hplayers hdraft
    cases rebuild with
    | true =>
        exact redrawn_path h hdb here hid hstatus (fun hs => hs.congr hplayers)
          (not_not.mp fun hne => hdraft ⟨rfl, hne⟩) own (by simp) (by simp)
    | false =>
        simp only [Bool.false_eq_true, if_false, saveTournament_bind] at h
        exact .savedTournament (logTournament_ok.mp h) here hid (.inl hstatus) (fun hs => hs.congr hplayers) (by simp)
          (by simp)
  cases plannedAt with
  | none =>
      simp only [pure_bind', refuseIf_bind, cleaned_bind] at h
      obtain ⟨_, rules, _, draw, _, hdraft, h⟩ := h
      exact hsave h rfl rfl rfl hdraft
  | some moment =>
      rcases Txn.ite_ok.mp h with ⟨_, h⟩ | ⟨_, h⟩ <;> simp only [pure_bind', refuseIf_bind, cleaned_bind] at h
      · obtain ⟨_, rules, _, draw, _, hdraft, h⟩ := h
        exact hsave h rfl rfl rfl hdraft
      · obtain ⟨_, _, _, rules, _, draw, _, hdraft, h⟩ := h
        exact hsave h rfl rfl rfl hdraft

theorem setShowInHistory_path {shown : Bool} (h : setShowInHistory actor id shown s = .ok u t) :
    Path organizer scope s.db t.db := by
  simp only [setShowInHistory, lockTournament_bind] at h
  obtain ⟨row, here, h⟩ := h
  rcases Txn.ite_ok.mp h with ⟨_, h⟩ | ⟨_, h⟩
  · simp only [saveTournament_bind, logTournament_ok] at h
    exact .savedTournament h here rfl (.inl rfl) (fun hs => hs.congr rfl) (by simp) (by simp)
  · rw [(pure_ok.mp h).2, Txn.holding_db]

theorem setParticipants_path {profiles : List (Option ProfileId)} {seeding : Option Seeding}
    (h : setParticipants site actor id profiles seeding version s = .ok u t) (hdb : WellFormed s.db)
    (own : ∀ i, s.db.nextId ≤ i → scope i) : Path organizer scope s.db t.db := by
  simp only [setParticipants, lockTournament_bind, checkVersion_bind, refuseIf_bind, cleaned_bind,
    refuseParticipant] at h
  obtain ⟨row, here, _, hdraft, profiles, _, _, h⟩ := h
  exact redrawn_path h hdb here rfl rfl (fun _ => seeded_seeded _ rfl) (not_not.mp hdraft) own (by simp) (by simp)

theorem generateBracket_path (h : generateBracket site actor id version s = .ok u t) (hdb : WellFormed s.db)
    (own : ∀ i, s.db.nextId ≤ i → scope i) : Path organizer scope s.db t.db := by
  simp only [generateBracket, lockTournament_bind, checkVersion_bind, refuseIf_bind] at h
  obtain ⟨row, here, _, hdraft, h⟩ := h
  obtain ⟨_, s1, hbuild, h⟩ := bind_ok.mp h
  rw [(pure_ok.mp h).2]
  rw [← id_of_tournament? here] at here
  have hdb1 := s.holding_db (.tournament id)
  rw [← hdb1] at hdb here own ⊢
  exact buildBracket_path hbuild hdb here (not_not.mp hdraft) own

theorem lockAll_db : ∀ {locks : List Lock} {s t : Txn}, lockAll locks s = .ok u t → t.db = s.db
  | [], _, _, h => by rw [(pure_ok.mp h).2]
  | _ :: _, _, _, h => by
    simp only [lockAll, lock_bind] at h
    rw [lockAll_db h, Txn.holding_db]

/-- The round saved, whatever became of its matches. -/
theorem setRound_special {number : ℕ} {bestOf : Option ℕ} {rules : Option Rules} {name : Option String}
    {draw : Option Rules.Draw} (h : setRound actor id number bestOf rules name version draw s = .ok u t) :
    ∃ db1, (match bestOf with
        | none => db1 = s.db
        | some bestOf => SetsLength id number bestOf s.db db1) ∧ Path organizer scope db1 t.db := by
  simp only [setRound, lockTournament_bind, checkVersion_bind, orRefuse_bind] at h
  obtain ⟨row, here, _, round, hround, h⟩ := h
  cases bestOf with
  | none =>
      simp only [pure_bind', cleaned_bind, saveTournament_bind] at h
      obtain ⟨rules, _, draw, _, h⟩ := h
      exact ⟨s.db, rfl, .savedTournament (logTournament_ok.mp h) here rfl (.inl rfl) (fun hs => hs.congr rfl) (by simp)
        (by simp)⟩
  | some bestOf =>
      simp only [cleaned_bind, tables_bind, refuseIf_bind] at h
      obtain ⟨best, hbest, hunplayed, h⟩ := h
      obtain ⟨_, s1, hlocks, h⟩ := bind_ok.mp h
      simp only [write_bind, pure_bind', cleaned_bind, saveTournament_bind] at h
      obtain ⟨rules, _, draw, _, h⟩ := h
      obtain rfl := (Rules.cleanBestOf_ok hbest).1
      have hdb1 : s1.db = s.db := (lockAll_db hlocks).trans (s.holding_db _)
      let db1 : Db := { s.db with
        battles := s.db.battles.modify (inRound id number) ({ · with bestOf := best }) fun _ => rfl }
      generalize hrow' : ({ row with rounds := _, version := _ } : Tournament) = row' at h
      have hsaved : t.db = (db1.putTournament row').record { action := .round, actor, tournament := some id } := by
        rw [logTournament_ok.mp h]
        simp only [Txn.wrote_db, hdb1]
        rfl
      have hpath : Path organizer scope db1 (db1.putTournament row') := by
        refine .tournament (show (db1.tournament? row.id = some row) from ?_) (by rw [← hrow']) (.inl (by rw [← hrow'])) fun hs =>
          hs.congr (by rw [← hrow'])
        rw [id_of_tournament? here]
        exact here
      rw [hsaved]
      refine ⟨db1, ⟨⟨row, round, here, hround, fun hne m hm hmine hnumber => ?_⟩, rfl, rfl,
        .of_actions rfl (le_refl _)⟩, hpath.record (by simp) (by simp)⟩
      refine Bool.eq_false_iff.mpr fun hstarted => hunplayed ⟨hne, List.any_eq_true.mpr ⟨m, ?_, ?_⟩⟩
      · rwa [Txn.holding_db]
      · simp [hmine, hnumber, hstarted]

theorem startTournament_special (h : startTournament site actor id version s = .ok u t) :
    ∃ row, Begins id row s.db t.db := by
  simp only [startTournament, lockTournament_bind, checkVersion_bind, refuseIf_bind, tables_bind, saveTournament_bind,
    logTournament_ok] at h
  obtain ⟨row, here, _, hdraft, _, rfl⟩ := h
  rw [Txn.wrote_db, Txn.wrote_db, Txn.holding_db]
  generalize hrow' : ({ row with status := .running, startedAt := _, version := _ } : Tournament) = row'
  exact ⟨row, here, not_not.mp hdraft, rfl, ⟨row', rfl, by rw [← hrow'], by rw [← hrow'], by rw [← hrow']⟩,
    ((Logs.refl s.db).putTournament row').record (by simp) (by simp)⟩

theorem archiveTournament_path (h : archiveTournament actor id version s = .ok u t) :
    Path organizer scope s.db t.db := by
  simp only [archiveTournament, lockTournament_bind, checkVersion_bind, refuseIf_bind, tables_bind,
    saveTournament_bind] at h
  obtain ⟨row, here, _, hfinished, _, h⟩ := h
  exact .savedTournament (logTournament_ok.mp h) here rfl (.inr ⟨not_not.mp hfinished, rfl⟩) (fun hs => hs.congr rfl)
    (by simp) (by simp)

theorem setTournamentRanking_path {value : Ranking} (h : setTournamentRanking actor id value s = .ok u t) :
    Path organizer scope s.db t.db := by
  simp only [setTournamentRanking, lockTournament_bind] at h
  obtain ⟨row, here, h⟩ := h
  rcases Txn.ite_ok.mp h with ⟨_, h⟩ | ⟨_, h⟩
  · simp only [saveTournament_bind, logTournament_bind, onCommit_ok] at h
    rw [h, Txn.scheduling_db]
    exact .savedTournament rfl here rfl (.inl rfl) (fun hs => hs.congr rfl) (by simp) (by simp)
  · rw [(pure_ok.mp h).2, Txn.holding_db]

/-! ## Screens -/

theorem createScreen_path {name : String} (h : createScreen actor name s = .ok u t) :
    Path organizer scope s.db t.db := by
  simp only [createScreen, freshId_bind, write_ok] at h
  subst h
  exact .other rfl rfl (.of_actions rfl (Nat.le_succ _))

/-- An operation on a screen locks it, and saves nothing else. -/
theorem lockScreen_path {screenId : ScreenId} {f : Screen → ArenaM Unit}
    (h : (do let screen ← lockScreen screenId; f screen) s = .ok u t)
    (hf : ∀ screen s1, f screen s1 = .ok u t → Path organizer scope s1.db t.db) : Path organizer scope s.db t.db := by
  obtain ⟨screen, s1, hlock, h⟩ := bind_ok.mp h
  simp only [lockScreen, tables_bind, orRefuse_bind, lock_bind, pure_ok] at hlock
  obtain ⟨_, _, rfl, rfl⟩ := hlock
  have := hf _ _ h
  rwa [Txn.holding_db] at this

theorem saveScreen_path {screen : Screen} (h : saveScreen screen s = .ok u t) : Path organizer scope s.db t.db := by
  rw [write_ok.mp h]
  exact .other rfl rfl (.of_actions rfl (le_refl _))

theorem showOnScreen_path {screenId : ScreenId} {mode : ScreenMode} {battle : Option MatchId}
    {tournament : Option TournamentId} {message : String} {followLive : Option Bool}
    (h : showOnScreen screenId mode battle tournament message followLive version s = .ok u t) :
    Path organizer scope s.db t.db :=
  lockScreen_path h fun _ _ h => saveScreen_path (checkVersion_bind.mp h).2

theorem renameScreen_path {screenId : ScreenId} {name : String} (h : renameScreen screenId name s = .ok u t) :
    Path organizer scope s.db t.db := lockScreen_path h fun _ _ h => saveScreen_path h

theorem regenerateScreenToken_path {screenId : ScreenId} (h : regenerateScreenToken screenId s = .ok u t) :
    Path organizer scope s.db t.db := lockScreen_path h fun _ _ h => saveScreen_path h

end

end Arena
end CpcJudge
