import CpcJudge.Arena.Locks

/-!
# `Arena.BracketLocks` — the locks of the operations on a tournament

They take the lock of their tournament first, and then only locks of its matches: those of the byes of a new bracket
and of the matches these lead to, those of a round whose length changes. A new tournament has a key of its own.
-/

namespace CpcJudge
namespace Arena

/-! ## Drawing a bracket -/

/-- A match of the tournament, whose players go to matches from `base` on. -/
def Match.Drawn (base : MatchId) (t : TournamentId) (m : Match) : Prop :=
  m.tournament = some t ∧ ∀ q ∈ m.targets, base ≤ q.1

/-- Only locks of the tournament are taken, and the matches from `base` on are those of its bracket. -/
def Drawing (base : MatchId) (t : TournamentId) (s : Txn) : Prop :=
  TakesTournament t s.locks ∧ ∀ x ∈ s.db.battles.rows, base ≤ x.id → x.Drawn base t

section
variable {base : MatchId} {t : TournamentId} {m m' : Match} {s : Txn} {now : Time}

theorem Match.Drawn.of_static (h : m.Drawn base t) (hs : m'.static = m.static) : m'.Drawn base t :=
  ⟨(Match.tournament_of_static hs).trans h.1, fun q hq => h.2 q (Match.targets_of_static hs ▸ hq)⟩

theorem HoldsTournament.holding_match {id : MatchId} (h : HoldsTournament t s.locks) :
    HoldsTournament t (s.holding (.match (some t) id)).locks := by
  rcases holding_locks (s := s) (l := .match (some t) id) with hsame | hmore
  · rwa [hsame]
  · obtain ⟨rest, hlocks, hrest⟩ := h
    refine ⟨rest ++ [.match (some t) id], by rw [hmore, hlocks]; rfl, fun l hl => ?_⟩
    rcases List.mem_append.mp hl with hl | hl
    · exact hrest l hl
    · exact ⟨id, List.mem_singleton.mp hl⟩

theorem TakesTournament.holding_tournament (h : TakesTournament t s.locks) :
    HoldsTournament t (s.holding (.tournament t)).locks := by
  rcases h with hnone | hsome
  · refine ⟨[], ?_, fun _ hl => absurd hl List.not_mem_nil⟩
    unfold Txn.holding
    simp [hnone]
  · obtain ⟨rest, hlocks, _⟩ := id hsome
    rwa [holding_of_mem (hlocks ▸ List.mem_cons_self)]

theorem TakesTournament.holdingMatch (h : TakesTournament t s.locks) (hm : m.tournament = some t) :
    TakesTournament t (s.holdingMatch m).locks := by
  unfold Txn.holdingMatch
  rw [hm]
  exact .inr h.holding_tournament.holding_match

theorem drawing_steady : Steady (Match.Drawn base t) (Drawing base t) fun _ s => TakesTournament t s.locks where
  own hm hs _ := hm.of_static hs
  wrote hs hf _ := ⟨hs.1, fun x hx => hs.2 x (by rwa [Txn.wrote_db, hf] at hx)⟩
  saved hm hs := ⟨hs.1, fun x hx hbase => by
    rcases Table.mem_put hx with rfl | ⟨hx, _⟩
    · exact hm
    · exact hs.2 x hx hbase⟩
  enrolled hs _ _ _ := hs
  scheduled hs := hs
  refused _ hs := hs.1

theorem Drawing.holdingMatch (h : Drawing base t s) (hm : m.Drawn base t) : Drawing base t (s.holdingMatch m) := by
  refine ⟨h.1.holdingMatch hm.1, ?_⟩
  rw [Txn.holdingMatch_db]
  exact h.2

theorem Drawing.drawn {id : MatchId} (h : Drawing base t s) (here : s.db.match? id = some m) (hid : base ≤ id) :
    m.Drawn base t := by
  have hkey : m.id = id := Table.key_of_get? here
  exact h.2 m (Table.mem_of_get? here) (hkey ▸ hid)

theorem place_drawing {q : MatchId × Slot} {p : Option ProfileId} {seed : Option ℕ} (hq : base ≤ q.1) :
    Txn.Triple (Drawing base t) (place q.1 q.2 p seed) (fun _ => Drawing base t)
      fun _ s => TakesTournament t s.locks := by
  refine place_triple (fun _ hs => hs.1) (fun s n hs here _ => hs.1.holdingMatch (hs.drawn here hq).1)
    fun s n hs here _ => ?_
  have hn := hs.drawn here hq
  exact drawing_steady.saved (hn.of_static (n.receive_static _ _ _)) (hs.holdingMatch hn)

theorem advance_drawing (hm : m.Drawn base t) : Steps (Drawing base t) (fun _ s => TakesTournament t s.locks)
    (advance now m) fun _ => True := by
  have hsends : Txn.Triple (Drawing base t) (advance now m) (fun _ => Drawing base t)
      fun _ s => TakesTournament t s.locks := by
    refine advance_triple (K := Drawing base t) (fun q _ _ hq => place_drawing (hm.2 q (Match.mem_targets.mpr (.inl hq))))
      (fun _ hs => hs) (fun q _ _ hq => place_drawing (hm.2 q (Match.mem_targets.mpr (.inr hq)))) (fun _ hs => hs)
      fun i hi => ?_
    obtain rfl := Option.some.inj (hm.1.symm.trans hi)
    refine Txn.Triple.weaken (drawing_steady.checkFinished fun s hs => ⟨.inr hs.1.holding_tournament, ?_⟩)
      fun _ _ hs => hs.2
    rw [Txn.holding_db]
    exact hs.2
  exact hsends.weaken fun _ _ hs => ⟨trivial, hs⟩

theorem giveByes_drawing : ∀ {ids : List MatchId}, (∀ id ∈ ids, base ≤ id) →
    Steps (Drawing base t) (fun _ s => TakesTournament t s.locks) (giveByes now ids) fun _ => True
  | [], _ => .done _
  | id :: ids, hids => by
    have hrest := fun i hi => hids i (List.mem_cons_of_mem _ hi)
    refine Steps.tables.bind fun db _ => .ite (fun _ => ?_) fun _ => giveByes_drawing hrest
    refine lockMatch_triple (fun s hs => hs.1) fun s m hs here => ?_
    have hm := hs.drawn here (hids id List.mem_cons_self)
    refine Txn.Triple.of_pre (P := Drawing base t) ?_ fun _ heq => heq ▸ hs.holdingMatch hm
    dsimp only
    generalize hm1 : Match.bump _ = m1
    have hbye : m1.Drawn base t := hm.of_static (hm1 ▸ Match.bump_static _ _)
    exact (drawing_steady.saveMatch hbye).bind fun _ _ => (advance_drawing hbye).bind fun _ _ => giveByes_drawing hrest

theorem restoreGames_still {chosen : List (Place × List GameProblem)} : ∀ {ids : List MatchId},
    Still (restoreGames chosen ids)
  | [] => .ret _
  | id :: ids => by
    refine Still.tables.bind fun db => ?_
    cases db.match? id with
    | none => exact restoreGames_still
    | some m => exact .ite restoreGames_still (addGames_still.bind fun _ => restoreGames_still)

/-- The matches of a plan are of its tournament, and they and those they lead to are numbered from its base on. -/
theorem BracketPlan.drawn_of_round (d : BracketPlan) {back : ℕ} (h : m ∈ d.roundMatches back) :
    d.base ≤ m.id ∧ m.Drawn d.base d.tournament.id := by
  have hlow : ∀ back position, d.base ≤ d.matchId back position := fun _ _ =>
    (Nat.le_add_right _ _).trans (Nat.le_add_right _ _)
  have hblank : ∀ position, (d.blank back position).Drawn d.base d.tournament.id := by
    refine fun position => ⟨rfl, fun q hq => ?_⟩
    rcases Match.mem_targets.mp hq with hq | hq
    · unfold BracketPlan.blank at hq
      dsimp only at hq
      split at hq
      · cases hq
      · obtain rfl := Option.some.inj hq
        exact hlow _ _
    · unfold BracketPlan.blank at hq
      dsimp only at hq
      split at hq
      · obtain rfl := Option.some.inj hq
        exact Nat.le_add_right _ _
      · cases hq
  have hseated : ∀ m : Match, (d.seatPlayers m).static = m.static := fun m => by
    unfold BracketPlan.seatPlayers
    dsimp only
    split <;> rfl
  obtain ⟨position, _, rfl⟩ := List.mem_map.mp h
  split
  · exact ⟨(Match.id_of_static (hseated _)).symm ▸ hlow back position, (hblank position).of_static (hseated _)⟩
  · exact ⟨hlow back position, hblank position⟩

theorem BracketPlan.drawn_of_mem (d : BracketPlan) (h : m ∈ d.allMatches) :
    d.base ≤ m.id ∧ m.Drawn d.base d.tournament.id := by
  unfold BracketPlan.allMatches at h
  rcases List.mem_append.mp h with h | h
  · obtain ⟨back, _, h⟩ := List.mem_flatMap.mp h
    exact d.drawn_of_round h
  · split at h
    · obtain rfl := List.mem_singleton.mp h
      exact ⟨Nat.le_add_right _ _, rfl, fun q hq => absurd hq List.not_mem_nil⟩
    · exact absurd h List.not_mem_nil

/-! ## Operations on a tournament -/

/-- Only locks of the tournament are taken, and the next key is a new one. -/
def Below (t : TournamentId) (s : Txn) : Prop := TakesTournament t s.locks ∧ ∀ x ∈ s.db.battles.rows, x.id < s.db.nextId

variable {α β : Type} {db : Db} {site : Site} {actor : Option ProfileId} {id : TournamentId} {version : Option ℤ}
  {row : Tournament} {x : ArenaM α}

theorem lockTournament_triple {P : Txn → Prop} {R : α → Txn → Prop} {E : ArenaError → Txn → Prop}
    {f : Tournament → ArenaM α} (hnone : ∀ s, P s → E .noTournament s)
    (h : ∀ s row, P s → s.db.tournament? id = some row → Txn.Triple (· = s.holding (.tournament id)) (f row) R E) :
    Txn.Triple P (lockTournament id >>= f) R E := by
  intro s hs
  cases here : s.db.tournament? id with
  | none =>
      have hrun : lockTournament id s = .error .noTournament s := by
        unfold lockTournament
        rw [Txn.bind_run (tables_ok.mpr ⟨rfl, rfl⟩), here]
        exact Txn.bind_error rfl
      rw [Txn.bind_error hrun]
      exact hnone s hs
  | some row =>
      rw [Txn.bind_run (lockTournament_ok.mpr ⟨here, rfl⟩)]
      exact h s row hs here _ rfl

/-- Steps that neither lock nor touch a match. -/
theorem below_write {f : Db → Db}
    (hf : ∀ db, (f db).nextId = db.nextId ∧ ∀ x ∈ (f db).battles.rows, x ∈ db.battles.rows) :
    Steps (Below t) (fun _ s => TakesTournament t s.locks) (write f) fun _ => True :=
  Txn.Triple.write fun s hs => ⟨trivial, hs.1, fun x hx => by
    show x.id < (f s.db).nextId
    rw [(hf s.db).1]
    exact hs.2 x ((hf s.db).2 x hx)⟩

theorem below_saveTournament :
    Steps (Below t) (fun _ s => TakesTournament t s.locks) (saveTournament row) fun _ => True :=
  below_write fun _ => ⟨rfl, fun _ hx => hx⟩

theorem below_refuseIf {c : Prop} [Decidable c] {e : ArenaError} :
    Steps (Below t) (fun _ s => TakesTournament t s.locks) (refuseIf c e) fun _ => True :=
  .ite (fun _ => Txn.Triple.refused _ fun _ hs => hs.1) fun _ => .done _

theorem below_cleaned {v : Except ArenaError α} :
    Steps (Below t) (fun _ s => TakesTournament t s.locks) (cleaned v) fun _ => True := by
  cases v with
  | error e => exact Txn.Triple.refused _ fun _ hs => hs.1
  | ok a => exact .done _

theorem below_checkVersion {current : ℕ} :
    Steps (Below t) (fun _ s => TakesTournament t s.locks) (checkVersion current version) fun _ => True := by
  cases version with
  | none => exact .done _
  | some v => exact below_refuseIf

theorem below_still (h : Still x) : Txn.Triple (Below t) x (fun _ s => TakesTournament t s.locks)
    fun _ s => TakesTournament t s.locks := h.ends fun _ hs => hs.1

theorem buildBracket_takes : Txn.Triple (Below row.id) (buildBracket site actor row)
    (fun _ s => TakesTournament row.id s.locks) fun _ s => TakesTournament row.id s.locks := by
  have hdrop : Steps (Below row.id) (fun _ s => TakesTournament row.id s.locks) (write (·.dropBracket row.id))
      fun _ => True :=
    below_write fun _ => ⟨rfl, fun _ hx => (Table.mem_filter.mp hx).1⟩
  refine Steps.first below_refuseIf fun _ _ => Steps.first .tables fun _ _ => ?_
  refine Steps.first below_refuseIf fun _ _ => ?_
  refine Steps.first hdrop fun _ _ => Steps.first below_saveTournament fun _ _ => ?_
  refine Txn.Triple.bind (Q := fun db s => s.db = db ∧ Below row.id s) ?_ fun db => ?_
  · exact Txn.Triple.getBind fun s hs => Txn.Triple.ret _ fun t heq => by
      subst heq
      exact ⟨rfl, hs⟩
  dsimp only
  generalize hplan : BracketPlan.mk (row.syncRounds _) _ _ _ _ _ _ = d
  have hbase : d.base = db.nextId := by rw [← hplan]
  have hid : d.tournament.id = row.id := by rw [← hplan]; rfl
  have hadd : Txn.Triple (fun s => s.db = db ∧ Below row.id s) (write fun db =>
      { db with battles := d.allMatches.foldl Table.add db.battles, nextId := db.nextId + d.allMatches.length })
      (fun _ => Drawing d.base row.id) fun _ s => TakesTournament row.id s.locks := by
    refine Txn.Triple.write fun s hs => ⟨hs.2.1, fun x hx hlow => ?_⟩
    rcases Table.mem_foldl_add hx with hold | hnew
    · have hlt := hs.2.2 x hold
      rw [hs.1, ← hbase] at hlt
      exact absurd hlow (not_le.mpr hlt)
    · exact hid ▸ (d.drawn_of_mem hnew).2
  refine hadd.bind fun _ => Steps.first (giveByes_drawing fun i hi => ?_) fun _ _ => ?_
  · obtain ⟨m, hm, rfl⟩ := List.mem_map.mp hi
    exact (d.drawn_of_round hm).1
  · exact Still.ends (restoreGames_still.bind fun _ => Still.write.bind fun _ => Still.write.bind fun _ => .ret _)
      fun _ hs => hs.1

/-- The tournament is locked first. -/
theorem takes_tournament (hdb : WellFormed db) {f : Tournament → ArenaM α} (hf : ∀ row, row.id = id →
      Txn.Triple (Below id) (f row) (fun _ s => TakesTournament id s.locks) fun _ s => TakesTournament id s.locks) :
    Takes db (lockTournament id >>= f) (TakesTournament id) := by
  refine ⟨lockTournament_triple (fun s hs => .inl hs.2) fun s row hs here =>
    (hf row (Table.key_of_get? here)).of_pre ?_⟩
  rintro _ rfl
  refine ⟨.inr (TakesTournament.holding_tournament (.inl hs.2)), ?_⟩
  rw [Txn.holding_db, hs.1]
  exact hdb.below

theorem startTournament_takes (hdb : WellFormed db) :
    Takes db (startTournament site actor id version) (TakesTournament id) :=
  takes_tournament hdb fun _ _ => below_still (Still.checkVersion.bind fun _ => Still.refuseIf.bind fun _ =>
    Still.tables.bind fun _ => Still.refuseIf.bind fun _ => Still.write.bind fun _ => .write)

theorem archiveTournament_takes (hdb : WellFormed db) :
    Takes db (archiveTournament actor id version) (TakesTournament id) :=
  takes_tournament hdb fun _ _ => below_still (Still.checkVersion.bind fun _ => Still.refuseIf.bind fun _ =>
    Still.tables.bind fun _ => Still.refuseIf.bind fun _ => Still.write.bind fun _ => .write)

theorem setShowInHistory_takes (hdb : WellFormed db) {shown : Bool} :
    Takes db (setShowInHistory actor id shown) (TakesTournament id) :=
  takes_tournament hdb fun _ _ => below_still (.ite (Still.write.bind fun _ => .write) (.ret _))

theorem setTournamentRanking_takes (hdb : WellFormed db) {value : Ranking} :
    Takes db (setTournamentRanking actor id value) (TakesTournament id) :=
  takes_tournament hdb fun _ _ =>
    below_still (.ite (Still.write.bind fun _ => Still.write.bind fun _ => .onCommit) (.ret _))

/-- A bracket drawn for the tournament that is locked. -/
theorem redrawn_takes {name : ActionName} (hid : row.id = id) : Txn.Triple (Below id) (do
      let _ ← buildBracket site actor row
      logTournament name actor id : ArenaM Unit) (fun _ s => TakesTournament id s.locks)
    fun _ s => TakesTournament id s.locks := by
  subst hid
  exact buildBracket_takes.bind fun _ => Still.write.ends fun _ hs => hs

theorem generateBracket_takes (hdb : WellFormed db) :
    Takes db (generateBracket site actor id version) (TakesTournament id) := by
  refine takes_tournament hdb fun row hid => Steps.first below_checkVersion fun _ _ => ?_
  refine Steps.first below_refuseIf fun _ _ => ?_
  subst hid
  exact buildBracket_takes.bind fun _ => (Still.ret _).ends fun _ hs => hs

theorem setParticipants_takes (hdb : WellFormed db) {profiles : List (Option ProfileId)} {seeding : Option Seeding} :
    Takes db (setParticipants site actor id profiles seeding version) (TakesTournament id) := by
  refine takes_tournament hdb fun row hid => Steps.first below_checkVersion fun _ _ => ?_
  refine Steps.first below_refuseIf fun _ _ => Steps.first below_cleaned fun profiles _ => ?_
  refine Steps.first below_refuseIf fun _ _ => Steps.first below_saveTournament fun _ _ => redrawn_takes hid

theorem updateTournament_takes (hdb : WellFormed db) {name description : Option String} {rules : Option Rules}
    {bank : Option (Option BankId)} {thirdPlace : Option Bool} {draw : Option Rules.Draw} {showInHistory : Option Bool}
    {plannedAt : Option (Option Time)} :
    Takes db (updateTournament site actor id version name description rules bank thirdPlace draw showInHistory plannedAt)
      (TakesTournament id) := by
  refine takes_tournament hdb fun t hid => Steps.first below_checkVersion fun _ _ => ?_
  have hrest : ∀ planned : Option Time, Txn.Triple (Below id) (do
      let t := { t with showInHistory := showInHistory.getD t.showInHistory }
      let t := { t with plannedAt := planned }
      refuseIf (name.any fun n => cut 100 (strip n) = "") ⟨"Give the tournament a name.", 400⟩
      let t := { t with name := (name.map fun n => cut 100 (strip n)).getD t.name
                        description := (description.map fun d => cut 2000 (strip d)).getD t.description }
      let rules ← cleaned ((rules.map fun r => (Rules.clean r).map some).getD (.ok none))
      let draw ← cleaned (Rules.cleanDraw (draw.getD {}))
      let t : Tournament := { t with rules := Rules.withDraw t.rules rules draw, bank := bank.getD t.bank }
      let rebuild : Bool := thirdPlace.any (· ≠ t.thirdPlaceMatch)
      refuseIf (rebuild ∧ t.status ≠ .draft)
        ⟨"The bracket is already set; this can only change in a draft.", 400⟩
      let t := { t with thirdPlaceMatch := thirdPlace.getD t.thirdPlaceMatch, version := t.version + 1 }
      saveTournament t
      if rebuild then do
        let _ ← buildBracket site actor t
        logTournament .tournamentUpdate actor id
      else logTournament .tournamentUpdate actor id : ArenaM Unit) (fun _ s => TakesTournament id s.locks)
        fun _ s => TakesTournament id s.locks := by
    intro planned
    refine Steps.first below_refuseIf fun _ _ => Steps.first below_cleaned fun _ _ => ?_
    refine Steps.first below_cleaned fun _ _ => Steps.first below_refuseIf fun _ _ => ?_
    refine Steps.first below_saveTournament fun _ _ => Txn.Triple.ite (fun _ => redrawn_takes ?_) fun _ => ?_
    · exact hid
    · exact below_still .write
  cases plannedAt with
  | none => exact hrest _
  | some moment =>
      dsimp only
      split
      · exact hrest _
      · exact Steps.first below_cleaned fun planned _ => hrest planned

theorem lockAll_holds : ∀ {locks : List Lock}, (∀ l ∈ locks, ∃ id, l = .match (some t) id) →
    Txn.Triple (fun s => HoldsTournament t s.locks) (lockAll locks) (fun _ s => HoldsTournament t s.locks)
      fun _ s => HoldsTournament t s.locks
  | [], _ => Txn.Triple.ret _ fun _ hs => hs
  | l :: _, hlocks => by
    obtain ⟨id, rfl⟩ := hlocks l List.mem_cons_self
    refine Txn.Triple.bind (Q := fun _ s => HoldsTournament t s.locks)
      (Txn.Triple.write fun s hs => hs.holding_match) fun _ => ?_
    exact lockAll_holds fun l hl => hlocks l (List.mem_cons_of_mem _ hl)

/-- All the matches of a round are locked, in the order of their rows. -/
theorem setRound_takes {number : ℕ} {bestOf : Option ℕ} {rules : Option Rules}
    {name : Option String} {draw : Option Rules.Draw} :
    Takes db (setRound actor id number bestOf rules name version draw) (TakesTournament id) := by
  refine ⟨lockTournament_triple (fun s hs => .inl hs.2) fun s row hs here => ?_⟩
  have hrest : ∀ round : Round, Still (do
      let rules ← cleaned ((rules.map fun r => (Rules.clean r).map some).getD (.ok none))
      let draw ← cleaned (Rules.cleanDraw (draw.getD {}))
      let round := { round with rules := Rules.withDraw round.rules rules { draw with autoDraw := none }
                                name := (name.map fun n => cut 60 (strip n)).getD round.name }
      saveTournament { row with rounds := row.rounds.map (fun r => if r.number = number then round else r)
                                version := row.version + 1 }
      logTournament .round actor id : ArenaM Unit) := fun round =>
    Still.cleaned.bind fun _ => Still.cleaned.bind fun _ => Still.write.bind fun _ => .write
  have hholds : HoldsTournament id (s.holding (.tournament id)).locks :=
    TakesTournament.holding_tournament (.inl hs.2)
  have hstill : ∀ {β : Type} {z : ArenaM β}, Still z → Txn.Triple (fun s => HoldsTournament id s.locks) z
      (fun _ s => HoldsTournament id s.locks) fun _ s => HoldsTournament id s.locks := fun h => h.ends fun _ hs => hs
  suffices h : Txn.Triple (fun s : Txn => HoldsTournament id s.locks) _ (fun _ (s : Txn) => HoldsTournament id s.locks)
      fun _ (s : Txn) => HoldsTournament id s.locks from
    ((h.weaken fun _ _ ht => .inr ht).weakenError fun _ _ ht => .inr ht).of_pre fun _ heq => heq ▸ hholds
  refine (hstill .checkVersion).bind fun _ => (hstill .orRefuse).bind fun round => ?_
  cases bestOf with
  | none => exact hstill (hrest round)
  | some bestOf =>
      refine (hstill .cleaned).bind fun bestOf => (hstill .tables).bind fun db => (hstill .refuseIf).bind fun _ => ?_
      refine (lockAll_holds fun l hl => ?_).bind fun _ => (hstill .write).bind fun _ => hstill (hrest _)
      obtain ⟨m, _, rfl⟩ := List.mem_map.mp hl
      exact ⟨m.id, rfl⟩

/-- A new tournament has a new key. -/
theorem createTournament_takes (hdb : WellFormed db) {name : String} {profiles : List (Option ProfileId)}
    {seeding : Seeding} {thirdPlace : Bool} {rules : Rules} {description : String} {bank : Option BankId}
    {showInHistory : Bool} {plannedAt : Option Time} {ranking : Ranking} :
    Takes db (createTournament site actor name profiles seeding thirdPlace rules description bank showInHistory plannedAt
      ranking) (TakesTournament db.nextId) := by
  have hnone : TakesTournament db.nextId [] := .inl rfl
  unfold createTournament refuseParticipant
  refine takes_refuseIf hnone (takes_cleaned hnone fun rules => takes_cleaned hnone fun plannedAt => ?_)
  refine takes_cleaned hnone fun profiles => takes_refuseIf hnone ?_
  have hfresh : Txn.Triple (Starts db) freshId (fun id s => id = db.nextId ∧ Below db.nextId s)
      fun _ s => TakesTournament db.nextId s.locks := by
    refine Txn.Triple.getBind fun s hs => ?_
    rintro _ rfl
    refine ⟨congrArg Db.nextId hs.1, .inl hs.2, fun x hx => ?_⟩
    have hx' : x ∈ db.battles.rows := hs.1 ▸ hx
    exact (hdb.below x hx').trans (hs.1 ▸ Nat.lt_succ_self _)
  have hscreen : Still (ensureDefaultScreen site actor) :=
    Still.tables.bind fun _ => .ite (.ret _) (Still.freshId.bind fun _ => .write)
  refine ⟨hfresh.bind fun id => Txn.Triple.assume fun hid => ?_⟩
  have hrest : ∀ row : Tournament, row.id = db.nextId → Txn.Triple (Below db.nextId) (do
        write fun db => { db with tournaments := db.tournaments.add row }
        let _ ← buildBracket site actor row
        logTournament .tournamentCreate actor id
        ensureDefaultScreen site actor
        return id : ArenaM TournamentId) (fun _ s => TakesTournament db.nextId s.locks)
      fun _ s => TakesTournament db.nextId s.locks := by
    intro row hrow
    have hadd : Steps (Below db.nextId) (fun _ s => TakesTournament db.nextId s.locks)
        (write fun db => { db with tournaments := db.tournaments.add row }) fun _ => True :=
      below_write fun _ => ⟨rfl, fun _ hx => hx⟩
    refine Steps.first hadd fun _ _ => ?_
    rw [← hrow]
    refine buildBracket_takes.bind fun _ => Still.ends ?_ fun _ hs => hs
    exact Still.write.bind fun _ => hscreen.bind fun _ => .ret _
  refine hrest _ ?_
  exact hid

end
end Arena
end CpcJudge
