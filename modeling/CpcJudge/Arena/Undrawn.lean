import CpcJudge.Arena.Plotted
import CpcJudge.Arena.TurnOps
import CpcJudge.Arena.Walks

/-!
# `Arena.Undrawn` — operations that draw a bracket, and those that draw none

An operation draws the bracket of one draft, whose participants are those it had or those it is given (`Redraws`), or
it leaves the matches there are, gives no bye, and enrols nobody (`Undrawn`).
-/

namespace CpcJudge
namespace Arena

open CpcJudge.Txn (bind_ok pure_ok)

/-- The same tournament, with the same participants and as many rounds. -/
structure Tournament.Enrols (t t' : Tournament) : Prop where
  id : t'.id = t.id
  participants : t'.participants = t.participants
  rounds : t'.rounds.length = t.rounds.length

/-- The match is no bye, or it was one. -/
def Match.ByeOf (db : Db) (m : Match) : Prop :=
  m.decidedReason = some .bye → ∃ x ∈ db.battles.rows, x.static = m.static ∧ x.decidedReason = some .bye

/-- No bracket is drawn between the two: the matches are still there, the byes were byes, and the tournaments had
    those participants. -/
structure Undrawn (db db' : Db) : Prop where
  present : ∀ id, (db.match? id).isSome = true → (db'.match? id).isSome = true
  byes : ∀ m ∈ db'.battles.rows, m.ByeOf db
  enrolled : ∀ t' ∈ db'.tournaments.rows, ∃ t ∈ db.tournaments.rows, t.Enrols t'

section
variable {α : Type} {db db' db1 : Db} {m m' : Match} {t t' row row' : Tournament} {s u : Txn} {id : MatchId}
  {tid : TournamentId} {site : Site} {actor : Option ProfileId} {version : Option ℤ} {v : Unit}

theorem Tournament.Enrols.refl (t : Tournament) : t.Enrols t := ⟨rfl, rfl, rfl⟩

theorem Tournament.Enrols.trans {a b c : Tournament} (h : a.Enrols b) (h' : b.Enrols c) : a.Enrols c :=
  ⟨h'.id.trans h.id, h'.participants.trans h.participants, h'.rounds.trans h.rounds⟩

theorem Match.ByeOf.of_static (h : m.ByeOf db) (hstatic : m'.static = m.static)
    (hreason : m'.decidedReason = some .bye → m.decidedReason = some .bye) : m'.ByeOf db := fun hbye => by
  obtain ⟨x, hx, hxm, hxbye⟩ := h (hreason hbye)
  exact ⟨x, hx, hxm.trans hstatic.symm, hxbye⟩

theorem Match.ByeOf.mine (hm : m ∈ db.battles.rows) : m.ByeOf db := fun hbye => ⟨m, hm, rfl, hbye⟩

namespace Undrawn

theorem refl (db : Db) : Undrawn db db := ⟨fun _ h => h, fun _ hm => .mine hm, fun t ht => ⟨t, ht, .refl t⟩⟩

theorem same (h : Undrawn db db1) (battles : db'.battles = db1.battles) (tournaments : db'.tournaments = db1.tournaments) :
    Undrawn db db' := by
  refine ⟨fun id hid => ?_, battles ▸ h.byes, tournaments ▸ h.enrolled⟩
  rw [Db.match?, battles]
  exact h.present id hid

/-- The matches rewritten where they are. -/
theorem maps (h : Undrawn db db1) (hmaps : Table.Maps (fun m m' => m'.static = m.static ∧
      (m'.decidedReason = some .bye → m.decidedReason = some .bye)) db1.battles db'.battles)
    (tournaments : db'.tournaments = db1.tournaments) : Undrawn db db' := by
  refine ⟨fun id hid => ?_, fun m' hm' => ?_, tournaments ▸ h.enrolled⟩
  · obtain ⟨m, hm⟩ := Option.isSome_iff_exists.mp (h.present id hid)
    obtain ⟨m', hm', _⟩ := hmaps.forth hm
    exact Option.isSome_of_eq_some hm'
  · obtain ⟨m, hm, _, hstatic, hreason⟩ := hmaps.back hm'
    exact (h.byes m hm).of_static hstatic hreason

theorem putMatch (h : Undrawn db db') (hm : m.ByeOf db) : Undrawn db (db'.putMatch m) := by
  refine ⟨fun id hid => ?_, fun x hx => ?_, h.enrolled⟩
  · have hpresent := h.present id hid
    rw [Option.isSome_iff_ne_none] at hpresent ⊢
    rwa [ne_eq, Db.match?, Db.putMatch, Table.get?_put_eq_none]
  · rcases Table.mem_put hx with rfl | ⟨hx, _⟩
    · exact hm
    · exact h.byes x hx

theorem putTournament (h : Undrawn db db') (here : db'.tournament? row.id = some t) (hrow : t.Enrols row) :
    Undrawn db (db'.putTournament row) := by
  refine ⟨h.present, h.byes, fun x hx => ?_⟩
  rcases Table.mem_put hx with rfl | ⟨hx, _⟩
  · obtain ⟨y, hy, hsame⟩ := h.enrolled t (Table.mem_of_get? here)
    exact ⟨y, hy, hsame.trans hrow⟩
  · exact h.enrolled x hx

/-- A new match that is no bye. -/
theorem addMatch (h : Undrawn db db1) (hm : m.decidedReason ≠ some .bye) (battles : db'.battles = db1.battles.add m)
    (tournaments : db'.tournaments = db1.tournaments) : Undrawn db db' := by
  refine ⟨fun id hid => ?_, fun x hx => ?_, tournaments ▸ h.enrolled⟩
  · obtain ⟨x, hx⟩ := Option.isSome_iff_exists.mp (h.present id hid)
    rw [Db.match?, battles]
    exact Option.isSome_of_eq_some
      (Table.get?_eq_some_iff.mpr ⟨Table.mem_add_of_mem (Table.mem_of_get? hx), Table.key_of_get? hx⟩)
  · rcases Table.mem_add (battles ▸ hx) with rfl | hx
    · exact fun hbye => absurd hbye hm
    · exact h.byes x hx

end Undrawn

/-! ## Operations on a match -/

theorem undrawn_steady : Steady (Match.ByeOf db) (fun s => Undrawn db s.db) fun _ s => Undrawn db s.db where
  own hm hs hr := hm.of_static hs hr
  wrote hs hf hf' := hs.same hf hf'
  saved hm hs := hs.putMatch hm
  enrolled {_ t t'} hs here hplayers hrounds := by
    have hid : t.id = t'.id := Table.key_of_get? here
    exact hs.putTournament here ⟨hid.symm, hplayers, hrounds⟩
  scheduled hs := hs
  refused _ hs := hs

theorem undrawn_holding {l : Lock} (h : Undrawn db s.db) : Undrawn db (s.holding l).db := by
  rwa [Txn.holding_db]

theorem place_undrawn {q : MatchId × Slot} {p : Option ProfileId} {seed : Option ℕ} :
    Txn.Triple (fun s => Undrawn db s.db) (place q.1 q.2 p seed) (fun _ s => Undrawn db s.db)
      fun _ s => Undrawn db s.db := by
  refine place_triple (fun _ hs => hs) (fun s n hs _ _ => ?_) fun s n hs here _ => ?_
  · rwa [Txn.holdingMatch_db]
  · rw [Txn.wrote_db, Txn.holdingMatch_db]
    obtain ⟨status, heq, _⟩ := n.receive_eq q.2 p seed
    refine hs.putMatch ((hs.byes n (Table.mem_of_get? here)).of_static (n.receive_static _ _ _) ?_)
    rw [heq]
    exact fun h => h

theorem undrawn_walk (hm : m ∈ db.battles.rows) : Walk m (Match.ByeOf db) (fun s => Undrawn db s.db)
    (fun s => Undrawn db s.db) fun s => Undrawn db s.db where
  before := undrawn_steady
  after := undrawn_steady
  stays hs := hs
  mine := .mine hm
  relocked _ _ _ hs := undrawn_holding hs
  ends _ hs := hs
  advance _ := by
    refine advance_triple (K := fun s => Undrawn db s.db) (fun _ _ _ _ => place_undrawn) (fun _ hs => hs)
      (fun _ _ _ _ => place_undrawn) (fun _ hs => hs) fun t _ => ?_
    exact (undrawn_steady.checkFinished fun _ hs => undrawn_holding hs).weaken fun _ _ hs => hs.2

theorem undrawn_opens : Opens (fun s => s.db = db) id fun s => Undrawn db s.db where
  missing _ hs := hs ▸ .refl _
  locked s m hs here := by
    rw [hs] at here
    refine ⟨_, _, _, undrawn_walk (Table.mem_of_get? here), ?_⟩
    rw [Txn.holdingMatch_db, hs]
    exact .refl db

/-! ## Operations on a tournament that draw none -/

/-- A tournament saved under its lock, and the action recorded. -/
theorem Undrawn.savedTournament {name : ActionName}
    (h : u = ((s.holding (.tournament tid)).wrote (·.putTournament row')).wrote
      (·.record { action := name, actor, tournament := some tid }))
    (here : s.db.tournament? tid = some row) (hrow : row.Enrols row') : Undrawn s.db u.db := by
  have hid : row.id = tid := id_of_tournament? here
  rw [h, Txn.wrote_db, Txn.wrote_db, Txn.holding_db]
  refine ((Undrawn.refl s.db).putTournament (t := row) ?_ hrow).same rfl rfl
  rwa [hrow.id, hid]

theorem setShowInHistory_undrawn {shown : Bool} (h : setShowInHistory actor tid shown s = .ok v u) :
    Undrawn s.db u.db := by
  simp only [setShowInHistory, lockTournament_bind] at h
  obtain ⟨row, here, h⟩ := h
  rcases Txn.ite_ok.mp h with ⟨_, h⟩ | ⟨_, h⟩
  · simp only [saveTournament_bind, logTournament_ok] at h
    exact .savedTournament h here ⟨rfl, rfl, rfl⟩
  · rw [(pure_ok.mp h).2, Txn.holding_db]
    exact .refl _

theorem setTournamentRanking_undrawn {value : Ranking} (h : setTournamentRanking actor tid value s = .ok v u) :
    Undrawn s.db u.db := by
  simp only [setTournamentRanking, lockTournament_bind] at h
  obtain ⟨row, here, h⟩ := h
  rcases Txn.ite_ok.mp h with ⟨_, h⟩ | ⟨_, h⟩
  · simp only [saveTournament_bind, logTournament_bind, onCommit_ok] at h
    rw [h, Txn.scheduling_db]
    exact .savedTournament rfl here ⟨rfl, rfl, rfl⟩
  · rw [(pure_ok.mp h).2, Txn.holding_db]
    exact .refl _

theorem archiveTournament_undrawn (h : archiveTournament actor tid version s = .ok v u) : Undrawn s.db u.db := by
  simp only [archiveTournament, lockTournament_bind, checkVersion_bind, refuseIf_bind, tables_bind,
    saveTournament_bind] at h
  obtain ⟨row, here, _, _, _, h⟩ := h
  exact .savedTournament (logTournament_ok.mp h) here ⟨rfl, rfl, rfl⟩

theorem startTournament_undrawn (h : startTournament site actor tid version s = .ok v u) : Undrawn s.db u.db := by
  simp only [startTournament, lockTournament_bind, checkVersion_bind, refuseIf_bind, tables_bind, saveTournament_bind,
    logTournament_ok] at h
  obtain ⟨row, here, _, _, _, h⟩ := h
  exact .savedTournament h here ⟨rfl, rfl, rfl⟩

theorem setRound_undrawn {number : ℕ} {bestOf : Option ℕ} {rules : Option Rules} {name : Option String}
    {draw : Option Rules.Draw} (h : setRound actor tid number bestOf rules name version draw s = .ok v u) :
    Undrawn s.db u.db := by
  simp only [setRound, lockTournament_bind, checkVersion_bind, orRefuse_bind] at h
  obtain ⟨row, here, _, round, _, h⟩ := h
  cases bestOf with
  | none =>
      simp only [pure_bind', cleaned_bind, saveTournament_bind] at h
      obtain ⟨rules, _, draw, _, h⟩ := h
      exact .savedTournament (logTournament_ok.mp h) here ⟨rfl, rfl, List.length_map _⟩
  | some bestOf =>
      simp only [cleaned_bind, tables_bind, refuseIf_bind] at h
      obtain ⟨best, _, _, h⟩ := h
      obtain ⟨_, s1, hlocks, h⟩ := bind_ok.mp h
      simp only [write_bind, pure_bind', cleaned_bind, saveTournament_bind] at h
      obtain ⟨rules, _, draw, _, h⟩ := h
      have hdb1 : s1.db = s.db := (lockAll_db hlocks).trans (s.holding_db _)
      let db1 : Db := { s.db with
        battles := s.db.battles.modify (inRound tid number) ({ · with bestOf := best }) fun _ => rfl }
      generalize hrow' : ({ row with rounds := _, version := _ } : Tournament) = row' at h
      have hsaved : u.db = (db1.putTournament row').record { action := .round, actor, tournament := some tid } := by
        rw [logTournament_ok.mp h]
        simp only [Txn.wrote_db, hdb1]
        rfl
      have hmaps : Table.Maps (fun m m' : Match => m'.static = m.static ∧
          (m'.decidedReason = some .bye → m.decidedReason = some .bye)) s.db.battles
          (s.db.battles.modify (inRound tid number) ({ · with bestOf := best }) fun _ => rfl) :=
        .modify (fun _ => ⟨rfl, fun h => h⟩) fun _ _ _ => ⟨rfl, fun h => h⟩
      have hlength : Undrawn s.db db1 := (Undrawn.refl s.db).maps hmaps rfl
      have hrow : row.Enrols row' := by
        rw [← hrow']
        exact ⟨rfl, rfl, List.length_map _⟩
      have here' : db1.tournament? row'.id = some row := by
        rw [hrow.id, id_of_tournament? here]
        exact here
      rw [hsaved]
      exact (hlength.putTournament here' hrow).same rfl rfl

/-! ## Quick battles and screens -/

theorem judge_undrawn {gameId : GameId} {attempts : Pair (List Scoring.Attempt)}
    (h : judge id gameId attempts s = .ok v u) : Undrawn s.db u.db := by
  simp only [judge, tables_bind, orRefuse_bind, gameOf_bind, refuseIf_bind] at h
  obtain ⟨m, here, game, _, _, h⟩ := h
  rw [saveMatch_ok.mp h, Txn.wrote_db]
  exact (Undrawn.refl s.db).putMatch ((Match.ByeOf.mine (Table.mem_of_get? here)).of_static rfl fun h => h)

theorem lockScreens_undrawn : ∀ {ids : List ScreenId}, Steps (fun s => Undrawn db s.db) (fun _ s => Undrawn db s.db)
    (lockScreens ids) fun _ => True
  | [] => .done _
  | _ :: _ => Steps.bind (R := fun _ => True) (Txn.Triple.write fun _ hs => ⟨trivial, undrawn_holding hs⟩)
      fun _ _ => lockScreens_undrawn

theorem ensureDefaultScreen_undrawn : Steps (fun s => Undrawn db s.db) (fun _ s => Undrawn db s.db)
    (ensureDefaultScreen site actor) fun _ => True :=
  Steps.tables.bind fun _ _ => .ite (fun _ => .done _) fun _ => undrawn_steady.freshId.bind fun _ _ =>
    undrawn_steady.write (fun _ => rfl) fun _ => rfl

theorem createDuel_undrawn {players : Pair (Option ProfileId)} {games : List (List Entry)} {bestOf : ℕ} {rules : Rules}
    {display : Pair String} {title : String} {call : Bool} {ranking : Ranking} :
    Steps (fun s => Undrawn db s.db) (fun _ s => Undrawn db s.db)
      (createDuel site actor players games bestOf rules display title call ranking) fun _ => True := by
  have k : Steady (Match.ByeOf db) (fun s => Undrawn db s.db) fun _ s => Undrawn db s.db := undrawn_steady
  have hR : ∀ s : Txn, Undrawn db s.db → Undrawn db s.db := fun _ hs => hs
  unfold createDuel refuseSelf
  refine (Steps.orRefuse hR).bind fun a _ => (Steps.orRefuse hR).bind fun b _ => (Steps.refuseIf hR).bind fun _ _ => ?_
  refine (Steps.refuseIf hR).bind fun _ _ => (Steps.cleaned hR).bind fun bestOf _ => ?_
  refine (Steps.cleaned hR).bind fun rules _ => (Steps.cleaned hR).bind fun displayA _ => ?_
  refine (Steps.cleaned hR).bind fun displayB _ => Steps.tables.bind fun _ _ => (Steps.refuseIf hR).bind fun _ _ => ?_
  refine (Steps.refuseIf hR).bind fun _ _ => (Steps.refuseIf hR).bind fun _ _ => (Steps.refuseIf hR).bind fun _ _ => ?_
  refine (Steps.cleaned hR).bind fun problems _ => (Steps.refuseIf hR).bind fun _ _ => k.freshId.bind fun id _ => ?_
  dsimp only
  generalize hm : Match.mk id _ _ _ _ _ _ _ _ _ _ _ _ _ _ _ _ _ _ _ _ _ _ _ = m
  have hno : m.decidedReason ≠ some .bye := by
    rw [← hm]
    exact nofun
  have hadd : Steps (fun s => Undrawn db s.db) (fun _ s => Undrawn db s.db)
      (write fun db => { db with battles := db.battles.add m }) fun _ => True :=
    Txn.Triple.write fun s hs => ⟨trivial, hs.addMatch hno rfl rfl⟩
  refine hadd.bind fun _ _ => (k.addGames fun h => absurd h hno).bind fun m' _ => (k.log _ _ _ _).bind fun _ _ => ?_
  refine ensureDefaultScreen_undrawn.bind fun _ _ => ?_
  refine Steps.bind (R := fun _ => True) (Steps.tables.bind fun _ _ => lockScreens_undrawn.bind fun _ _ => .done _)
    fun screen _ => ?_
  cases screen with
  | none => exact (k.onCommit _).bind fun _ _ => .done _
  | some screen =>
      dsimp only
      refine (k.write ?_ ?_).bind fun _ _ => (k.log _ _ _ _).bind fun _ _ => (k.onCommit _).bind fun _ _ => .done _
      · exact fun _ => rfl
      · exact fun _ => rfl

/-- An operation on a screen. -/
theorem lockScreen_undrawn {sid : ScreenId} {f : Screen → ArenaM Unit}
    (hf : ∀ screen, Steps (fun s => Undrawn db s.db) (fun _ s => Undrawn db s.db) (f screen) fun _ => True) :
    Steps (fun s => Undrawn db s.db) (fun _ s => Undrawn db s.db) (lockScreen sid >>= f) fun _ => True := by
  refine Steps.bind (R := fun _ => True) ?_ fun screen _ => hf screen
  refine Steps.tables.bind fun _ _ => (Steps.orRefuse fun _ hs => hs).bind fun screen _ => ?_
  exact Steps.bind (R := fun _ => True) (Txn.Triple.write fun _ hs => ⟨trivial, undrawn_holding hs⟩) fun _ _ => .done _

theorem saveScreen_undrawn {screen : Screen} : Steps (fun s => Undrawn db s.db) (fun _ s => Undrawn db s.db)
    (saveScreen screen) fun _ => True := undrawn_steady.write (fun _ => rfl) fun _ => rfl

/-! ## Operations that draw a bracket -/

/-- What shuffling is documented to do. -/
def Site.Shuffles (site : Site) : Prop := ∀ profiles, (site.shuffle profiles).Perm profiles

/-- The bracket of the draft `row` is drawn, for the participants it had or for those it is given. -/
structure Redraws (site : Site) (db : Db) (row : Tournament) (db' : Db) : Prop where
  draft : row.status = .draft
  players : (∃ t ∈ db.tournaments.rows, t.id = row.id ∧ t.participants = row.participants) ∨
    ∃ profiles : List ProfileId, profiles.Nodup ∧ row.participants = seeded profiles
  drawn : ∃ actor row' s u, buildBracket site actor row s = .ok row' u ∧ s.db.battles = db.battles ∧ WellFormed s.db ∧
    s.db.tournament? row.id = some row ∧ (∀ x ∈ s.db.tournaments.rows, x.id ≠ row.id → x ∈ db.tournaments.rows) ∧
    db'.battles = u.db.battles ∧ db'.tournaments = u.db.tournaments

theorem cleanParticipants_nodup {profiles : List (Option ProfileId)} {l : List ProfileId}
    (h : cleanParticipants profiles = .ok l) : l.Nodup := by
  simp only [cleanParticipants] at h
  split at h
  · cases h
  · split at h
    · cases h
    · obtain rfl := Except.ok.inj h
      exact List.nodup_reverse.mpr (List.nodup_dedup _)

theorem orderedBySeeding_perm (hsite : site.Shuffles) (profiles : List ProfileId) (seeding : Seeding) :
    (orderedBySeeding site profiles seeding).Perm profiles := by
  cases seeding with
  | manual => exact .refl _
  | random => exact hsite profiles
  | rating => exact List.perm_insertionSort _ _
  | duel => exact List.perm_insertionSort _ _

/-- The participants that a form gives. -/
theorem orderedBySeeding_nodup (hsite : site.Shuffles) {profiles : List (Option ProfileId)} {l : List ProfileId}
    (seeding : Seeding) (h : cleanParticipants profiles = .ok l) : (orderedBySeeding site l seeding).Nodup :=
  (orderedBySeeding_perm hsite l seeding).nodup_iff.mpr (cleanParticipants_nodup h)

/-- A draft saved and its bracket drawn again. -/
theorem redrawn_redraws {name : ActionName} (h : (do
      saveTournament row'
      let _ ← buildBracket site actor row'
      logTournament name actor tid : ArenaM Unit) (s.holding (.tournament tid)) = .ok v u) (hdb : WellFormed s.db)
    (here : s.db.tournament? tid = some row) (hid : row'.id = row.id) (hstatus : row'.status = row.status)
    (hseeded : row.Seeded → row'.Seeded) (hdraft : row.status = .draft)
    (hplayers : row'.participants = row.participants ∨
      ∃ profiles : List ProfileId, profiles.Nodup ∧ row'.participants = seeded profiles) :
    Redraws site s.db row' u.db := by
  simp only [saveTournament_bind] at h
  obtain ⟨_, s1, hbuild, h⟩ := bind_ok.mp h
  rw [← id_of_tournament? here] at here
  have hdb1 : ((s.holding (.tournament tid)).wrote (·.putTournament row')).db = s.db.putTournament row' := by simp
  have hpath : Path true (fun _ => True) s.db (s.db.putTournament row') :=
    .tournament here hid (.inl hstatus) hseeded
  refine ⟨hstatus.trans hdraft, hplayers.imp_left fun heq => ⟨row, Table.mem_of_get? here, hid.symm, heq.symm⟩,
    actor, _, _, s1, hbuild, ?_, hdb1 ▸ hdb.path hpath, hdb1 ▸ Db.tournament?_putTournament here hid, ?_, ?_, ?_⟩
  · rw [hdb1]
    rfl
  · intro x hx hne
    rw [hdb1] at hx
    exact ((Table.mem_put hx).resolve_left fun heq => hne (by rw [heq])).1
  · rw [logTournament_ok.mp h]
    rfl
  · rw [logTournament_ok.mp h]
    rfl

theorem createTournament_redraws (hsite : site.Shuffles) {name : String} {profiles : List (Option ProfileId)}
    {seeding : Seeding} {thirdPlace : Bool} {rules : Rules} {description : String} {bank : Option BankId}
    {showInHistory : Bool} {plannedAt : Option Time} {ranking : Ranking}
    (h : createTournament site actor name profiles seeding thirdPlace rules description bank showInHistory plannedAt
      ranking s = .ok tid u) (hdb : WellFormed s.db) : ∃ row, Redraws site s.db row u.db := by
  simp only [createTournament, refuseIf_bind, cleaned_bind, refuseParticipant, freshId_bind, write_bind] at h
  obtain ⟨_, rules, _, plannedAt, _, clean, hclean, _, h⟩ := h
  generalize hrow : Tournament.syncRounds _ _ = row at h
  have hid : row.id = s.db.nextId := by rw [← hrow]; rfl
  have hdraft : row.status = .draft := by rw [← hrow]; rfl
  have hparticipants : row.participants = seeded (orderedBySeeding site clean seeding) := by rw [← hrow]; rfl
  let db1 : Db := { s.db with nextId := s.db.nextId + 1, tournaments := s.db.tournaments.add row }
  have hcreated : Path true (fun _ => True) s.db db1 :=
    .single (.newTournament hdraft (seeded_seeded _ hparticipants) (hid ▸ le_refl _) (hid ▸ Nat.lt_succ_self _) rfl rfl
      (.of_actions rfl (Nat.le_succ _)))
  have hhere : db1.tournament? row.id = some row := by
    refine Table.get?_add_self (Table.get?_eq_none_iff.mpr fun x hx heq => ?_)
    exact absurd (hdb.tournaments x hx) (not_lt.mpr (hid ▸ le_of_eq heq.symm))
  obtain ⟨_, s1, hbuild, h⟩ := bind_ok.mp h
  simp only [logTournament_bind] at h
  obtain ⟨_, s2, hscreen, h⟩ := bind_ok.mp h
  obtain ⟨_, rfl⟩ := pure_ok.mp h
  obtain ⟨hbattles, htournaments⟩ := ensureDefaultScreen_same hscreen
  refine ⟨row, hdraft, .inr ⟨_, orderedBySeeding_nodup hsite seeding hclean, hparticipants⟩, actor, _, _, s1, hbuild, rfl,
    hdb.path hcreated, hhere, fun x hx hne => ?_, hbattles, htournaments⟩
  exact (Table.mem_add hx).resolve_left fun heq => hne (by rw [heq])

theorem setParticipants_redraws (hsite : site.Shuffles) {profiles : List (Option ProfileId)} {seeding : Option Seeding}
    (h : setParticipants site actor tid profiles seeding version s = .ok v u) (hdb : WellFormed s.db) :
    ∃ row, Redraws site s.db row u.db := by
  simp only [setParticipants, lockTournament_bind, checkVersion_bind, refuseIf_bind, cleaned_bind,
    refuseParticipant] at h
  obtain ⟨row, here, _, hdraft, clean, hclean, _, h⟩ := h
  exact ⟨_, redrawn_redraws h hdb here rfl rfl (fun _ => seeded_seeded _ rfl) (not_not.mp hdraft)
    (.inr ⟨_, orderedBySeeding_nodup hsite _ hclean, rfl⟩)⟩

theorem generateBracket_redraws (h : generateBracket site actor tid version s = .ok v u) (hdb : WellFormed s.db) :
    ∃ row, Redraws site s.db row u.db := by
  simp only [generateBracket, lockTournament_bind, checkVersion_bind, refuseIf_bind] at h
  obtain ⟨row, here, _, hdraft, h⟩ := h
  obtain ⟨_, s1, hbuild, h⟩ := bind_ok.mp h
  rw [(pure_ok.mp h).2]
  rw [← id_of_tournament? here] at here
  have hdb1 := s.holding_db (.tournament tid)
  exact ⟨row, not_not.mp hdraft, .inl ⟨row, Table.mem_of_get? here, rfl, rfl⟩, actor, _, _, s1, hbuild,
    congrArg _ hdb1, hdb1 ▸ hdb, hdb1 ▸ here, fun x hx _ => hdb1 ▸ hx, rfl, rfl⟩

theorem updateTournament_draws {name description : Option String} {rules : Option Rules}
    {bank : Option (Option BankId)} {thirdPlace : Option Bool} {draw : Option Rules.Draw}
    {showInHistory : Option Bool} {plannedAt : Option (Option Time)}
    (h : updateTournament site actor tid version name description rules bank thirdPlace draw showInHistory plannedAt s =
      .ok v u) (hdb : WellFormed s.db) : Undrawn s.db u.db ∨ ∃ row, Redraws site s.db row u.db := by
  simp only [updateTournament, lockTournament_bind, checkVersion_bind] at h
  obtain ⟨row, here, _, h⟩ := h
  -- the form checked, then the row saved, and then perhaps another bracket
  have hsave : ∀ {row1 : Tournament} {rebuild : Bool}, (do
        saveTournament row1
        if rebuild then do
          let _ ← buildBracket site actor row1
          logTournament .tournamentUpdate actor tid
        else logTournament .tournamentUpdate actor tid : ArenaM Unit) (s.holding (.tournament tid)) = .ok v u →
      row1.id = row.id → row1.status = row.status → row1.participants = row.participants → row1.rounds = row.rounds →
      ¬ (rebuild = true ∧ row.status ≠ .draft) → Undrawn s.db u.db ∨ ∃ row, Redraws site s.db row u.db := by
    intro row1 rebuild h hid hstatus hplayers hrounds hdraft
    cases rebuild with
    | true =>
        exact .inr ⟨row1, redrawn_redraws h hdb here hid hstatus (fun hs => hs.congr hplayers)
          (not_not.mp fun hne => hdraft ⟨rfl, hne⟩) (.inl hplayers)⟩
    | false =>
        simp only [Bool.false_eq_true, if_false, saveTournament_bind] at h
        exact .inl (.savedTournament (logTournament_ok.mp h) here ⟨hid, hplayers, congrArg _ hrounds⟩)
  cases plannedAt with
  | none =>
      simp only [pure_bind', refuseIf_bind, cleaned_bind] at h
      obtain ⟨_, rules, _, draw, _, hdraft, h⟩ := h
      exact hsave h rfl rfl rfl rfl hdraft
  | some moment =>
      rcases Txn.ite_ok.mp h with ⟨_, h⟩ | ⟨_, h⟩ <;> simp only [pure_bind', refuseIf_bind, cleaned_bind] at h
      · obtain ⟨_, rules, _, draw, _, hdraft, h⟩ := h
        exact hsave h rfl rfl rfl rfl hdraft
      · obtain ⟨_, _, _, rules, _, draw, _, hdraft, h⟩ := h
        exact hsave h rfl rfl rfl rfl hdraft

/-! ## Every operation -/

/-- An operation that keeps the brackets of before, step by step. -/
theorem undrawn_of_steps {x : ArenaM α} {a : α} {Q : α → Prop}
    (h : Steps (fun s => Undrawn db s.db) (fun _ s => Undrawn db s.db) x Q)
    (hrun : x { db } = .ok a u) : Undrawn db u.db := (h.ok (s := { db }) (.refl db) hrun).2

theorem TournamentAction.draws (hsite : site.Shuffles) {actor : ProfileId} {action : TournamentAction}
    (h : action.run site actor tid version s = .ok v u) (hdb : WellFormed s.db) :
    Undrawn s.db u.db ∨ ∃ row, Redraws site s.db row u.db := by
  cases action with
  | update => exact updateTournament_draws h hdb
  | participants => exact .inr (setParticipants_redraws hsite h hdb)
  | round => exact .inl (setRound_undrawn h)
  | generate => exact .inr (generateBracket_redraws h hdb)
  | start => exact .inl (startTournament_undrawn h)
  | archive => exact .inl (archiveTournament_undrawn h)

theorem Request.draws (hsite : site.Shuffles) {actor : ProfileId} {request : Request}
    (h : request.run site actor { db } = .ok v u) (hdb : WellFormed db) :
    Undrawn db u.db ∨ ∃ row, Redraws site db row u.db := by
  have hopens : ∀ {id}, Opens (fun s => s.db = db) id fun s => Undrawn db s.db := undrawn_opens
  cases request with
  | createDuel players games bestOf rules display title call ranking =>
      obtain ⟨_, h⟩ := discard_ok.mp h
      exact .inl (undrawn_of_steps createDuel_undrawn h)
  | onMatch id version action => exact .inl ((hopens.action (fun _ hs => hs ▸ .refl _) action).ok rfl h)
  | createTournament =>
      obtain ⟨_, h⟩ := discard_ok.mp h
      exact .inr (createTournament_redraws hsite h hdb)
  | onTournament id version action => exact action.draws hsite h hdb
  | setShowInHistory => exact .inl (setShowInHistory_undrawn h)
  | fill id => exact .inl (hopens.fillMatch.discard.ok rfl h)
  | setTournamentRanking => exact .inl (setTournamentRanking_undrawn h)
  | setMatchRanking id value => exact .inl (hopens.setMatchRanking.ok rfl h)
  | createScreen =>
      refine .inl (undrawn_of_steps (Q := fun _ => True) ?_ h)
      exact undrawn_steady.freshId.bind fun _ _ => undrawn_steady.write (fun _ => rfl) fun _ => rfl
  | showOnScreen =>
      refine .inl (undrawn_of_steps (Q := fun _ => True) ?_ h)
      exact lockScreen_undrawn fun _ => (Steps.checkVersion fun _ hs => hs).bind fun _ _ => saveScreen_undrawn
  | renameScreen => exact .inl (undrawn_of_steps (lockScreen_undrawn fun _ => saveScreen_undrawn) h)
  | regenerateScreenToken => exact .inl (undrawn_of_steps (lockScreen_undrawn fun _ => saveScreen_undrawn) h)

/-- An operation draws no bracket, or the bracket of one draft. -/
theorem Op.draws {op : Op} (hsite : site.Shuffles) (h : op.succeeds site db = true) (hdb : WellFormed db) :
    Undrawn db (op.after site db) ∨ ∃ row, Redraws site db row (op.after site db) := by
  obtain ⟨v, u, hrun, hafter⟩ := Op.run_of_succeeds h
  have hopens : ∀ {id}, Opens (fun s => s.db = db) id fun s => Undrawn db s.db := undrawn_opens
  rw [hafter]
  cases op with
  | organize actor request => exact Request.draws hsite hrun hdb
  | tick => exact .inl ((hopens.tick fun _ hs => hs ▸ .refl _).ok rfl hrun)
  | submit => exact .inl ((hopens.submit fun _ hs => hs ▸ .refl _).ok rfl hrun)
  | judge => exact .inl (judge_undrawn hrun)

end
end Arena
end CpcJudge
