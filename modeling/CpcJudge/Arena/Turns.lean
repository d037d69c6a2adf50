import CpcJudge.Arena.TournamentOps

/-!
# `Arena.Turns` — what the engine does, and what it looked at before

A `Change` says what may become of the tables. A `Turn` also keeps what the engine checked: that a player called to a
match plays in no other, that the problems of a game are in no other game of its match, that a bracket is what
`_build_bracket` left. Here are the turns of the functions the operations share; `fair` is whether the problems of a
bank are drawn from it, and `clear` what is known of a match about to be given to one of its players.
-/

namespace CpcJudge
namespace Arena

open Scoring (Decision Outcome Reason Summary)
open CpcJudge.Txn (bind_ok pure_ok)

/-! ## What a turn may do -/

/-- The same game, some time later. -/
structure Game.Stays (g g' : Game) : Prop where
  id : g'.id = g.id
  number : g'.number = g.number
  problems : g'.problems = g.problems
  unseen : g.unseen = true → g'.unseen = true

/-- The same match, some time later, with no game it did not have. -/
structure Match.Remains (m m' : Match) : Prop where
  static : m'.static = m.static
  position : m'.position = m.position
  players : m'.players = m.players
  decided : m.status = .decided → m'.status = .decided
  games : ∀ g' ∈ m'.games.rows, ∃ g ∈ m.games.rows, g.Stays g'

/-- Its players were not called in the meantime. -/
structure Match.Rests (m m' : Match) : Prop extends m.Remains m' where
  locking : m'.status.locking = true → m.status.locking = true

/-- The players of a match are in no other battle. -/
def Match.Free (db : Db) (m : Match) : Prop :=
  ∀ slot, ∀ p ∈ m.players.get slot, busyElsewhere db p (some m.id) = false

/-- The same draft, with a bracket for as many participants. -/
structure Tournament.Same (t t' : Tournament) : Prop where
  id : t'.id = t.id
  draft : t.status = .draft
  count : t'.participants.length = t.participants.length
  third : t'.thirdPlaceMatch = t.thirdPlaceMatch

/-- Every draft was one, and its bracket is still the same. -/
def DraftsStay (db db' : Db) : Prop :=
  ∀ t' ∈ db'.tournaments.rows, t'.status = .draft → ∃ t ∈ db.tournaments.rows, t.Same t'

/-- One turn of the engine. -/
inductive Turn (fair : Prop) (clear : Db → Match → Slot → Prop) (db : Db) : Db → Prop
  | rest {db' : Db} (rests : Table.Maps Match.Rests db.battles db'.battles) (drafts : DraftsStay db db') :
      Turn fair clear db db'
  | lock {m m' : Match} {db' : Db} (here : db.match? m.id = some m) (stays : m.Remains m') (free : m.Free db)
      (battles : db'.battles = db.battles.put m') (drafts : DraftsStay db db') : Turn fair clear db db'
  | problems {m : Match} {g : Game} {problems : List GameProblem} {db' : Db} (v : ℕ)
      (here : db.match? m.id = some m) (game : m.games.get? g.id = some g)
      (apart : fair → ∀ gp ∈ problems, gp.problem ∉ problemsUsedInMatch m (some g.id))
      (battles : db'.battles = db.battles.put { m.setGame { g with problems } with version := v })
      (drafts : DraftsStay db db') : Turn fair clear db db'
  | addGame {m : Match} {g : Game} {db' : Db} (here : db.match? m.id = some m)
      (later : ∀ x ∈ m.games.rows, x.number < g.number) (positive : 1 ≤ g.number)
      (apart : ∀ gp ∈ g.problems, gp.problem ∉ problemsUsedInMatch m none)
      (battles : db'.battles = db.battles.put { m with games := m.games.add g }) (drafts : DraftsStay db db') :
      Turn fair clear db db'
  | replace {m : Match} {slot : Slot} {p : ProfileId} {display : String} {db' : Db}
      (here : db.match? m.id = some m) (free : busyElsewhere db p (some m.id) = false)
      (battles : db'.battles = db.battles.put (m.replace slot p display)) (drafts : DraftsStay db db') :
      Turn fair clear db db'
  | duel {m : Match} {db' : Db} (quick : m.tournament = none) (games : m.games = .empty) (free : m.Free db)
      (fresh : db.match? m.id = none) (battles : db'.battles = db.battles.add m) (drafts : DraftsStay db db') :
      Turn fair clear db db'
  | decide {m m' : Match} {slot : Slot} {db1 db' : Db} (here : db.match? m.id = some m) (stays : m.Remains m')
      (decided : m'.status = .decided) (winner : m'.winnerSlot = some slot) (ready : clear db m slot)
      (battles : db1.battles = db.battles.put m') (drafts : DraftsStay db db1) (advanced : Advanced m' db1 db') :
      Turn fair clear db db'
  | redraw {site : Site} {actor : Option ProfileId} {t t' : Tournament} {s u : Txn}
      (battles : s.db.battles = db.battles) (wellFormed : WellFormed s.db)
      (here : s.db.tournament? t.id = some t) (draft : t.status = .draft)
      (drafts : ∀ x ∈ s.db.tournaments.rows, x.id ≠ t.id → x.status = .draft → ∃ y ∈ db.tournaments.rows, y.Same x)
      (run : buildBracket site actor t s = .ok t' u) : Turn fair clear db u.db

/-- Turn after turn. -/
abbrev Turns (fair : Prop) (clear : Db → Match → Slot → Prop) : Db → Db → Prop :=
  Relation.ReflTransGen (Turn fair clear)

/-- What the bank is documented to do: it draws from the problems it is given. -/
def Site.Draws (site : Site) : Prop := ∀ pool count, ∀ entry ∈ site.sample pool count, entry ∈ pool

/-! ## Staying the same -/

theorem Game.Stays.refl (g : Game) : g.Stays g := ⟨rfl, rfl, rfl, fun h => h⟩

theorem Game.Stays.trans {a b c : Game} (h : a.Stays b) (h' : b.Stays c) : a.Stays c :=
  ⟨h'.id.trans h.id, h'.number.trans h.number, h'.problems.trans h.problems, fun hs => h'.unseen (h.unseen hs)⟩

theorem Match.Remains.refl (m : Match) : m.Remains m := ⟨rfl, rfl, rfl, fun h => h, fun g hg => ⟨g, hg, .refl g⟩⟩

theorem Match.Remains.trans {a b c : Match} (h : a.Remains b) (h' : b.Remains c) : a.Remains c := by
  refine ⟨h'.static.trans h.static, h'.position.trans h.position, h'.players.trans h.players,
    fun hd => h'.decided (h.decided hd), fun g'' hg'' => ?_⟩
  obtain ⟨g', hg', hstays'⟩ := h'.games g'' hg''
  obtain ⟨g, hg, hstays⟩ := h.games g' hg'
  exact ⟨g, hg, hstays.trans hstays'⟩

theorem Match.Rests.refl (m : Match) : m.Rests m := ⟨.refl m, fun h => h⟩

theorem Match.Rests.trans {a b c : Match} (h : a.Rests b) (h' : b.Rests c) : a.Rests c :=
  ⟨h.toRemains.trans h'.toRemains, fun hl => h.locking (h'.locking hl)⟩

/-- Only columns that say where a match is, who plays it and with which games matter. -/
theorem Match.Remains.of_games {m m' : Match} (hstatic : m'.static = m.static) (hposition : m'.position = m.position)
    (hplayers : m'.players = m.players) (hdecided : m.status = .decided → m'.status = .decided)
    (hgames : m'.games = m.games) : m.Remains m' :=
  ⟨hstatic, hposition, hplayers, hdecided, fun g hg => ⟨g, hgames ▸ hg, .refl g⟩⟩

theorem Game.unseen_eq_false {g : Game} (h : g.status ≠ .cancelled) : g.unseen = false := by
  simp [Game.unseen, h]

/-- A game that is not over yet changed. -/
theorem Game.Stays.of_going {g g' : Game} (hg : g.status ≠ .cancelled) (hid : g'.id = g.id)
    (hnumber : g'.number = g.number) (hproblems : g'.problems = g.problems) : g.Stays g' :=
  ⟨hid, hnumber, hproblems, fun h => by rw [Game.unseen_eq_false hg] at h; cases h⟩

/-- The games of a match after one of them changed. -/
theorem Match.setGame_games {m : Match} {g g' : Game} (hg : m.games.get? g.id = some g) (hstays : g.Stays g') :
    ∀ x ∈ (m.setGame g').games.rows, ∃ y ∈ m.games.rows, y.Stays x := by
  intro x hx
  rcases mem_setGame hx with rfl | ⟨hx, _⟩
  · exact ⟨g, Table.mem_of_get? hg, hstays⟩
  · exact ⟨x, hx, .refl x⟩

theorem Match.Remains.setGame {m : Match} {g g' : Game} (hg : m.games.get? g.id = some g) (hstays : g.Stays g') :
    m.Remains (m.setGame g') := ⟨rfl, rfl, rfl, fun h => h, Match.setGame_games hg hstays⟩

theorem Match.Remains.dropUnplayed (m : Match) : m.Remains m.dropUnplayed :=
  ⟨rfl, rfl, rfl, fun h => h, fun g hg => ⟨g, (Match.mem_dropUnplayed.mp hg).1, .refl g⟩⟩

theorem Match.Remains.voidGames (m : Match) (now : Time) (decidedBy : Game → Option ProfileId) :
    m.Remains (m.voidGames now decidedBy) := by
  refine ⟨rfl, rfl, rfl, fun h => h, fun x hx => ?_⟩
  obtain ⟨g, hg, rfl⟩ := List.mem_map.mp hx
  refine ⟨g, hg, ?_⟩
  split_ifs with hgoing
  · refine .of_going (fun hcancelled => ?_) rfl rfl rfl
    simp [hcancelled, GameStatus.active] at hgoing
  · exact .refl g

section
variable {fair : Prop} {clear : Db → Match → Slot → Prop} {db db' db'' : Db} {m m' m'' : Match} {g g' : Game}

theorem DraftsStay.of_eq (h : db'.tournaments = db.tournaments) : DraftsStay db db' :=
  fun t ht hdraft => ⟨t, h ▸ ht, rfl, hdraft, rfl, rfl⟩

theorem DraftsStay.trans (h : DraftsStay db db') (h' : DraftsStay db' db'') : DraftsStay db db'' := by
  intro t'' ht'' hdraft
  obtain ⟨t', ht', hsame'⟩ := h' t'' ht'' hdraft
  obtain ⟨t, ht, hsame⟩ := h t' ht' hsame'.draft
  exact ⟨t, ht, hsame'.id.trans hsame.id, hsame.draft, hsame'.count.trans hsame.count, hsame'.third.trans hsame.third⟩

/-- A tournament saved. -/
theorem DraftsStay.put {t t' : Tournament} (here : db.tournament? t.id = some t)
    (hsame : t'.status = .draft → t.Same t') (h : db'.tournaments = db.tournaments.put t') : DraftsStay db db' := by
  intro x hx hdraft
  rw [h] at hx
  rcases Table.mem_put hx with rfl | ⟨hx, _⟩
  · exact ⟨t, Table.mem_of_get? here, hsame hdraft⟩
  · exact ⟨x, hx, rfl, hdraft, rfl, rfl⟩

theorem Advanced.drafts (h : Advanced m db db') : DraftsStay db db' := by
  cases h with
  | quick => exact .of_eq rfl
  | onward _ _ _ next loser checked =>
      have hplaced := loser.tournaments.trans next.tournaments
      cases checked with
      | @finished t t' _ here status _ after sameId players _ tournaments _ =>
          have hsame : t'.status = .draft → t.Same t' := fun hdraft => by
            rw [after] at hdraft
            cases hdraft
          refine .put ?_ hsame (tournaments.trans (by rw [hplaced]))
          rw [Db.tournament?, hplaced] at here
          rwa [id_of_tournament? here]
      | same => exact .of_eq hplaced

/-! ## Turns -/

theorem Turns.rest (hmaps : Table.Maps Match.Rests db.battles db'.battles) (hdrafts : DraftsStay db db') :
    Turns fair clear db db' := .single (.rest hmaps hdrafts)

/-- What no match and no tournament depends on. -/
theorem Turns.other (hbattles : db'.battles = db.battles) (htournaments : db'.tournaments = db.tournaments) :
    Turns fair clear db db' :=
  .rest (hbattles ▸ .refl Match.Rests.refl _) (.of_eq htournaments)

theorem Turns.then (h : Turns fair clear db db') (hbattles : db''.battles = db'.battles)
    (htournaments : db''.tournaments = db'.tournaments) : Turns fair clear db db'' :=
  h.trans (Turns.other hbattles htournaments)

/-- A row saved that rests. -/
theorem Turns.saved (here : db.match? m.id = some m) (hrests : m.Rests m')
    (hbattles : db'.battles = db.battles.put m') (htournaments : db'.tournaments = db.tournaments) :
    Turns fair clear db db' := by
  have hid := Match.id_of_static hrests.static
  refine .rest ?_ (.of_eq htournaments)
  rw [hbattles]
  exact Table.Maps.put (b := m) Match.Rests.refl (by rw [show Keyed.key m' = m.id from hid]; exact here) hrests

/-- The games of a match have keys that were given. -/
def Match.Below (db : Db) (m : Match) : Prop := ∀ g ∈ m.games.rows, g.id < db.nextId

/-- The tables go from `db` to `db'` turn by turn as the games of one match change, whose row goes from `m` to
    `m'`. -/
structure Carries (fair : Prop) (clear : Db → Match → Slot → Prop) (db db' : Db) (m m' : Match) : Prop where
  turns : Turns fair clear db db'
  here : db'.match? m.id = some m'
  row : ∃ games, m' = { m with games }
  below : m'.Below db'

theorem Carries.refl (here : db.match? m.id = some m) (below : m.Below db) : Carries fair clear db db m m :=
  ⟨.refl, here, ⟨_, rfl⟩, below⟩

theorem Carries.trans (h : Carries fair clear db db' m m') (h' : Carries fair clear db' db'' m' m'') :
    Carries fair clear db db'' m m'' := by
  obtain ⟨games, rfl⟩ := h.row
  obtain ⟨games', rfl⟩ := h'.row
  exact ⟨h.turns.trans h'.turns, h'.here, ⟨_, rfl⟩, h'.below⟩

theorem Carries.id (h : Carries fair clear db db' m m') : m'.id = m.id := by
  obtain ⟨_, rfl⟩ := h.row
  rfl

theorem Carries.here' (h : Carries fair clear db db' m m') : db'.match? m'.id = some m' := h.id ▸ h.here

theorem Carries.then (h : Carries fair clear db db' m m') (hbattles : db''.battles = db'.battles)
    (htournaments : db''.tournaments = db'.tournaments) (hnext : db''.nextId = db'.nextId) :
    Carries fair clear db db'' m m' :=
  ⟨h.turns.then hbattles htournaments, by rw [Db.match?, hbattles]; exact h.here, h.row,
    fun g hg => hnext ▸ h.below g hg⟩

variable {s t : Txn} {u : Unit} {now : Time} {site : Site} {actor : Option ProfileId}

/-- A game changed, and the row of its match saved. -/
theorem Carries.setGame (here : db.match? m.id = some m) (below : m.Below db) (hg : m.games.get? g.id = some g)
    (hstays : g.Stays g') : Carries fair clear db (db.putMatch (m.setGame g')) m (m.setGame g') := by
  refine ⟨.saved here ⟨.setGame hg hstays, fun h => h⟩ rfl rfl, Db.match?_putMatch here rfl, ⟨_, rfl⟩, fun x hx => ?_⟩
  obtain ⟨y, hy, hxy⟩ := Match.setGame_games hg hstays x hx
  rw [hxy.id]
  exact below y hy

/-! ## The next game -/

/-- A game created under the next key. -/
theorem addGame_carries (here : db.match? m.id = some m) (below : m.Below db) (hid : g.id = db.nextId)
    (hlater : ∀ x ∈ m.games.rows, x.number < g.number) (hpositive : 1 ≤ g.number)
    (hapart : ∀ gp ∈ g.problems, gp.problem ∉ problemsUsedInMatch m none) :
    Carries fair clear db (({ db with nextId := db.nextId + 1 } : Db).putMatch { m with games := m.games.add g }) m
        { m with games := m.games.add g } ∧ (m.games.add g).get? g.id = some g := by
  have hfresh : m.games.get? g.id = none := Table.get?_eq_none_iff.mpr fun x hx heq =>
    absurd (below x hx) (not_lt.mpr (hid ▸ le_of_eq heq.symm))
  refine ⟨⟨.single (.addGame here hlater hpositive hapart rfl (.of_eq rfl)), ?_, ⟨_, rfl⟩, fun x hx => ?_⟩,
    Table.get?_add_self hfresh⟩
  · exact Db.match?_putMatch (show ({ db with nextId := db.nextId + 1 } : Db).match? m.id = some m from here) rfl
  · rcases Table.mem_add hx with rfl | hx
    · rw [hid]
      exact Nat.lt_succ_self _
    · exact (below x hx).trans (Nat.lt_succ_self _)

theorem newGame_carries {r : Match × Game} (h : newGame m s = .ok r t) (here : s.db.match? m.id = some m)
    (below : m.Below s.db) : Carries fair clear s.db t.db m r.1 ∧ r.1.games.get? r.2.id = some r.2 := by
  obtain ⟨m', g⟩ := r
  obtain ⟨hg, hm, rfl⟩ := newGame_ok.mp h
  dsimp only at hg hm
  subst hg hm
  exact addGame_carries (g := { id := s.db.nextId, number := m.lastNumber + 1 }) here below rfl
    (fun x hx => Nat.lt_succ_of_le (Match.le_lastNumber hx)) (Nat.succ_le_succ (Nat.zero_le _))
    fun gp hgp => by cases hgp

theorem ensureNextGame_carries {r : Match × Game} (h : ensureNextGame m s = .ok r t)
    (here : s.db.match? m.id = some m) (below : m.Below s.db) :
    Carries fair clear s.db t.db m r.1 ∧ r.1.games.get? r.2.id = some r.2 := by
  unfold ensureNextGame at h
  cases hprepared : m.preparedGame with
  | some game =>
      simp only [hprepared, pure_ok] at h
      obtain ⟨rfl, rfl⟩ := h
      exact ⟨.refl here below, (preparedGame_mem hprepared).1⟩
  | none =>
      simp only [hprepared] at h
      exact newGame_carries h here below

theorem newGames_carries : ∀ {count : ℕ} {m m' : Match} {s t : Txn}, newGames m count s = .ok m' t →
    s.db.match? m.id = some m → m.Below s.db → Carries fair clear s.db t.db m m'
  | 0, m, m', s, t, h, here, below => by
    obtain ⟨rfl, rfl⟩ := pure_ok.mp h
    exact .refl here below
  | count + 1, m, m', s, t, h, here, below => by
    obtain ⟨r, s1, hnew, h⟩ := bind_ok.mp h
    obtain ⟨hcarries, _⟩ := newGame_carries hnew here below
    exact hcarries.trans (newGames_carries h hcarries.here' hcarries.below)

theorem gameNumber_carries {number : ℕ} {r : Match × Game} (h : gameNumber m number s = .ok r t)
    (here : s.db.match? m.id = some m) (below : m.Below s.db) :
    Carries fair clear s.db t.db m r.1 ∧ r.1.games.get? r.2.id = some r.2 := by
  simp only [gameNumber, refuseIf_bind] at h
  replace h := h.2
  cases hfind : m.games.rows.find? (·.number = number) with
  | some game =>
      simp only [hfind, pure_ok] at h
      obtain ⟨rfl, rfl⟩ := h
      exact ⟨.refl here below, Table.get?_of_mem (List.mem_of_find?_eq_some hfind)⟩
  | none =>
      simp only [hfind, bind_ok, orRefuse_ok, pure_ok] at h
      obtain ⟨m1, _, hnew, game, _, ⟨hgame, rfl⟩, rfl, rfl⟩ := h
      exact ⟨newGames_carries hnew here below, Table.get?_of_mem (List.mem_of_find?_eq_some hgame)⟩

/-! ## Problems from the bank -/

/-- The bank never offers a problem that another game of the match has. -/
theorem drawProblems_apart {count : ℕ} {low high : Option ℕ} {i : Option GameId} {problems : List ProblemId}
    (hsite : site.Draws) (h : drawProblems site db actor m i count low high = .ok problems) :
    ∀ p ∈ problems, p ∉ problemsUsedInTournament db m.tournament i ∧
      ∀ g ∈ m.games.rows, some g.id ≠ i → ∀ gp ∈ g.problems, gp.problem ≠ p := by
  unfold drawProblems at h
  cases hbank : (tournamentOf db m).bind (·.bank) with
  | none =>
      simp only [hbank] at h
      cases h
  | some bank =>
      simp only [hbank] at h
      generalize hcandidates : ((site.bank bank).filter _).filter _ = candidates at h
      -- whichever pool they are drawn from, they were candidates
      have hdrawn : ∀ {pool : List BankEntry} {n : ℕ}, (∀ entry ∈ pool, entry ∈ candidates) →
          Except.ok (((site.sample pool n).insertionSort fun x y =>
            toLex (x.level.getD 0, x.order) ≤ toLex (y.level.getD 0, y.order)).map (·.problem)) =
              (.ok problems : Except ArenaError (List ProblemId)) →
          ∀ p ∈ problems, p ∉ problemsUsedInTournament db m.tournament i ∧
            ∀ g ∈ m.games.rows, some g.id ≠ i → ∀ gp ∈ g.problems, gp.problem ≠ p := by
        intro pool n hpool heq p hp
        rw [← Except.ok.inj heq] at hp
        obtain ⟨entry, hentry, rfl⟩ := List.mem_map.mp hp
        have hcandidate := hpool entry (hsite _ _ entry ((List.mem_insertionSort _).mp hentry))
        rw [← hcandidates] at hcandidate
        have hunused := (List.mem_filter.mp hcandidate).2
        simp only [Bool.and_eq_true, Bool.not_eq_true', decide_eq_false_iff_not, List.mem_append, not_or] at hunused
        refine ⟨hunused.2.1, fun g hg hne gp hgp heq => hunused.2.2 ?_⟩
        refine List.mem_flatMap.mpr ⟨g, List.mem_filter.mpr ⟨hg, by simpa using hne⟩, ?_⟩
        exact List.mem_map.mpr ⟨gp, hgp, heq⟩
      split_ifs at h
      · exact hdrawn (fun _ h => h) h
      · exact hdrawn (fun _ h => (List.mem_filter.mp h).1) h

theorem bankOffer_apart {force : Bool} {game : Game} {problems : List GameProblem} (hsite : site.Draws)
    (h : bankOffer site db actor force m game = some (.ok problems)) :
    ∀ gp ∈ problems, gp.problem ∉ problemsUsedInTournament db m.tournament (some game.id) ∧
      ∀ g ∈ m.games.rows, g.id ≠ game.id → ∀ x ∈ g.problems, x.problem ≠ gp.problem := by
  unfold bankOffer at h
  simp only at h
  split at h
  · cases hdraw : drawProblems site db actor m (some game.id) (drawSettings db m).count (drawSettings db m).levelMin
      (drawSettings db m).levelMax with
    | error e =>
        rw [hdraw] at h
        cases h
    | ok drawn =>
        rw [hdraw] at h
        obtain rfl := Except.ok.inj (Option.some.inj h)
        intro gp hgp
        obtain ⟨⟨p, i⟩, hp, rfl⟩ := List.mem_map.mp hgp
        obtain ⟨htournament, hmatch⟩ := drawProblems_apart hsite hdraw p
          (List.mem_iff_getElem?.mpr ⟨i, List.mem_zipIdx_iff_getElem?.mp hp⟩)
        exact ⟨htournament, fun g hg hne => hmatch g hg fun heq => hne (Option.some.inj heq)⟩
  · cases h

theorem mem_usedIn {games : List Game} {except : Option GameId} {p : ProblemId} : p ∈ usedIn games except ↔
    ∃ g ∈ games, g.unseen = false ∧ some g.id ≠ except ∧ ∃ gp ∈ g.problems, gp.problem = p := by
  simp only [usedIn, List.mem_flatMap, List.mem_filter, Bool.and_eq_true, Bool.not_eq_true', decide_eq_true_eq,
    List.mem_map, and_assoc]

theorem fillFromBank_carries {force : Bool} {r : Match × Bool} (h : fillFromBank site actor force m g s = .ok r t)
    (here : s.db.match? m.id = some m) (below : m.Below s.db) (hg : m.games.get? g.id = some g)
    (hfair : fair → site.Draws) :
    Carries fair clear s.db t.db m r.1 ∧ ((r.1 = m ∧ t.db.battles = s.db.battles) ∨
      ∃ problems, r.1 = m.setGame { g with problems } ∧ t.db.battles = s.db.battles.put r.1) := by
  simp [fillFromBank] at h
  cases hoffer : bankOffer site s.db actor force m g with
  | none =>
      simp only [hoffer, pure_ok] at h
      obtain ⟨rfl, rfl⟩ := h
      exact ⟨.refl here below, .inl ⟨rfl, rfl⟩⟩
  | some offer =>
      cases offer with
      | error e =>
          simp [hoffer] at h
          obtain ⟨rfl, rfl⟩ := h
          exact ⟨(Carries.refl here below).then rfl rfl rfl, .inl ⟨rfl, rfl⟩⟩
      | ok problems =>
          simp [hoffer] at h
          obtain ⟨rfl, rfl⟩ := h
          have hturn : Turn fair clear s.db (s.db.putMatch (m.setGame { g with problems })) := by
            refine .problems m.version here hg (fun hf gp hgp hused => ?_) rfl (.of_eq rfl)
            obtain ⟨x, hx, _, hne, y, hy, heq⟩ := mem_usedIn.mp hused
            exact (bankOffer_apart (hfair hf) hoffer gp hgp).2 x hx (fun heq => hne (congrArg some heq)) y hy heq
          refine ⟨Carries.then ⟨.single hturn, Db.match?_putMatch here rfl, ⟨_, rfl⟩, fun x hx => ?_⟩ rfl rfl rfl,
            .inr ⟨problems, rfl, rfl⟩⟩
          rcases Match.mem_setGame hx with rfl | ⟨hx, _⟩
          · exact below g (Table.mem_of_get? hg)
          · exact below x hx

theorem nextGameFromBank_carries (h : nextGameFromBank site actor m s = .ok m' t)
    (here : s.db.match? m.id = some m) (below : m.Below s.db) (hfair : fair → site.Draws) :
    Carries fair clear s.db t.db m m' := by
  simp only [nextGameFromBank, fromBank, bind_ok, pure_ok] at h
  obtain ⟨r, u, hensure, r', u', hfill, rfl, rfl⟩ := h
  obtain ⟨hcarries, hgame⟩ := ensureNextGame_carries hensure here below
  exact hcarries.trans (fillFromBank_carries hfill hcarries.here' hcarries.below hgame hfair).1

/-! ## Deciding a match -/

/-- The tables go from `db` to `db'` turn by turn as the game `id` of a match moves on. The caller goes on with the
    row `m'`, which is the saved one as long as the game accepts submissions. -/
structure Plays (fair : Prop) (clear : Db → Match → Slot → Prop) (db db' : Db) (m m' : Match) (id : GameId) :
    Prop where
  turns : Turns fair clear db db'
  static : m'.static = m.static
  here : db'.match? m.id = some m' ∨ ∀ x, m'.games.get? id = some x → x.status.opened = false

theorem Carries.plays (h : Carries fair clear db db' m m') (id : GameId) : Plays fair clear db db' m m' id := by
  refine ⟨h.turns, ?_, .inl h.here⟩
  obtain ⟨_, rfl⟩ := h.row
  rfl

theorem Plays.then {id : GameId} (h : Plays fair clear db db' m m' id) (hbattles : db''.battles = db'.battles)
    (htournaments : db''.tournaments = db'.tournaments) : Plays fair clear db db'' m m' id :=
  ⟨h.turns.then hbattles htournaments, h.static, h.here.imp_left fun here => by rw [Db.match?, hbattles]; exact here⟩

/-- A match of which a game changed, and then its version. -/
theorem Match.Remains.bump {system : Bool} (h : m.Remains m') : m.Remains (m'.bump system) := by
  rw [bump_eq]
  exact ⟨h.static, h.position, h.players, h.decided, h.games⟩

/-- `_decide_match`, of a row not saved yet. -/
theorem decideMatch_turn {m1 : Match} {slot : Slot} {reason : DecidedReason}
    (h : decideMatch now actor m1 slot reason s = .ok m' t) (here : db.match? m.id = some m)
    (hbattles : s.db.battles.put m' = db.battles.put m') (htournaments : s.db.tournaments = db.tournaments)
    (hstays : m.Remains m1) (hseated : (m.players.get slot).isSome = true) (hclear : clear db m slot) :
    Turns fair clear db t.db ∧ m' = (m1.award slot reason now (m1.bump actor.isNone).version).dropUnplayed := by
  obtain ⟨hm', db1, hsaved, hsame, _, hadvanced⟩ := decideMatch_saved h (hstays.players ▸ hseated)
  have hawarded : m1.Remains (m1.award slot reason now (m1.bump actor.isNone).version) :=
    .of_games rfl rfl rfl (fun _ => rfl) rfl
  have hstays' : m.Remains m' := by
    rw [hm']
    exact (hstays.trans hawarded).trans (.dropUnplayed _)
  refine ⟨.single (.decide here hstays' ?_ ?_ hclear (hsaved.trans hbattles) ?_ hadvanced), hm'⟩
  · rw [hm']
    rfl
  · rw [hm']
    rfl
  · exact .of_eq (hsame.trans htournaments)

/-- A row saved and recorded, and then the next game. -/
theorem nextGame_plays {m1 : Match} {a : Action}
    (h : nextGameFromBank site actor m1 ((s.wrote (·.putMatch m1)).wrote (·.record a)) = .ok m' t)
    (here : s.db.match? m.id = some m) (below : m.Below s.db) (hrests : m.Rests m1) (hfair : fair → site.Draws)
    (id : GameId) : Plays fair clear s.db t.db m m' id := by
  have hid : m1.id = m.id := Match.id_of_static hrests.static
  have hsaved : Turns fair clear s.db ((s.db.putMatch m1).record a) := .saved here hrests rfl rfl
  have hhere1 : ((s.db.putMatch m1).record a).match? m1.id = some m1 := by
    rw [hid]
    exact Db.match?_putMatch here hid
  have hbelow1 : m1.Below ((s.db.putMatch m1).record a) := fun x hx => by
    obtain ⟨y, hy, hxy⟩ := hrests.games x hx
    rw [hxy.id]
    exact below y hy
  have hcarries : Carries fair clear ((s.db.putMatch m1).record a) t.db m1 m' :=
    nextGameFromBank_carries h hhere1 hbelow1 hfair
  refine ⟨hsaved.trans hcarries.turns, (hcarries.plays id).static.trans hrests.static, .inl ?_⟩
  rw [← hid]
  exact hcarries.here

/-- One more game won by `slot` decides the match. -/
def Match.OnPoint (m : Match) (slot : Slot) : Prop := m.winsNeeded ≤ (m.win slot).mostWins

/-- The decision about a game gives its match to `slot`. -/
def Match.GivenBy (m : Match) (decision : Decision) (slot : Slot) : Prop :=
  decision.outcome = .finish ∧ decision.winner = some slot ∧ m.OnPoint slot

/-- `_finish`, in a match that goes on. -/
theorem finish_turns {slot : Slot} {reason : Reason} {result : Pair Summary} {game : Game}
    (h : finish site actor m game slot reason result now s = .ok m' t) (here : s.db.match? m.id = some m)
    (sound : m.Sound) (below : m.Below s.db) (hg : m.games.get? g.id = some g)
    (hstays : g.Stays (game.finish slot reason result now actor)) (hplayed : g.status ≠ .prepared)
    (going : m.isOver = false) (hclear : m.OnPoint slot → clear s.db m slot) (hfair : fair → site.Draws) :
    Plays fair clear s.db t.db m m' g.id := by
  let g' := game.finish slot reason result now actor
  let m1 := ((m.setGame g').win slot).bump actor.isNone
  have hstays1 : m.Remains m1 := by
    refine .bump ((Match.Remains.setGame hg hstays).trans ?_)
    exact .of_games rfl rfl rfl (fun h => h) rfl
  have hid : m1.id = m.id := Match.id_of_static hstays1.static
  have hgames : m1.games = (m.setGame g').games := by
    rw [show m1 = _ from bump_eq _ _]
    rfl
  have hstatus : m1.status = m.status := by
    rw [show m1 = _ from bump_eq _ _]
    rfl
  simp only [finish] at h
  rw [if_neg (by rw [show (m.setGame g').isOver = false from going]; simp)] at h
  simp only [saveMatch_bind, logMatch_bind] at h
  rcases Txn.ite_ok.mp h with ⟨hpoint, h⟩ | ⟨_, h⟩
  · have hpoint : m.OnPoint slot := by
      rw [bump_eq] at hpoint
      exact hpoint
    have hputs : ∀ x : Match, x.id = m.id → (s.db.battles.put m1).put x = s.db.battles.put x := fun x hx =>
      Table.put_put (hid.trans hx.symm)
    have hsaved : ∀ x : Match, x.id = m.id → (((s.wrote (·.putMatch m1)).wrote (·.record
        { action := .finish, actor, «match» := some m1.id, game := some g'.id,
          tournament := m1.tournament })).db.battles.put x) = s.db.battles.put x := hputs
    have hseated := seated_of_played sound hg hplayed slot
    have hdecided := (decideMatch_saved h (hstays1.players ▸ hseated)).1
    have hid' : m'.id = m.id := by rw [hdecided]; exact hid
    have hdecide : Turns fair clear s.db t.db ∧ _ :=
      decideMatch_turn h here (hsaved m' hid') rfl hstays1 hseated (hclear hpoint)
    obtain ⟨hturns, hm'⟩ := hdecide
    refine ⟨hturns, ?_, .inr fun x hx => ?_⟩
    · rw [hm']
      exact hstays1.static
    · have hnew : m'.games.get? g.id = some g' := by
        rw [hm']
        exact Table.get?_filter_of_pos (hgames ▸ get?_setGame hg hstays.id) rfl
      rw [hnew] at hx
      cases hx
      rfl
  · obtain ⟨m2, s2, hnext, h⟩ := bind_ok.mp h
    simp only [refreshLockOnCommit_bind, pure_ok] at h
    obtain ⟨rfl, rfl⟩ := h
    exact (nextGame_plays hnext here below ⟨hstays1, fun h => hstatus ▸ h⟩ hfair g.id).then rfl rfl

/-- `_tie`, of a game being played. -/
theorem tieGame_turns {result : Pair Summary} (h : tieGame site actor m g result now s = .ok m' t)
    (here : s.db.match? m.id = some m) (below : m.Below s.db) (hg : m.games.get? g.id = some g)
    (hgoing : g.status ≠ .cancelled) (going : m.isOver = false) (hfair : fair → site.Draws) :
    Plays fair clear s.db t.db m m' g.id := by
  let m1 := (m.setGame (g.settle .tie result now)).bump actor.isNone
  have hstays1 : m.Remains m1 := .bump (.setGame hg (.of_going hgoing rfl rfl rfl))
  have hid : m1.id = m.id := Match.id_of_static hstays1.static
  have hstatus : m1.status = m.status := by
    rw [show m1 = _ from bump_eq _ _]
    rfl
  simp only [tieGame, saveMatch_bind, logMatch_bind] at h
  rw [if_neg (by rw [Match.isOver, show Match.status (Match.bump _ _) = m.status from hstatus,
    show (m.status = .decided || m.status = .cancelled) = false from going]; simp)] at h
  obtain ⟨m2, s2, hnext, h⟩ := bind_ok.mp h
  simp only [refreshLockOnCommit_bind, pure_ok] at h
  obtain ⟨rfl, rfl⟩ := h
  exact (nextGame_plays hnext here below ⟨hstays1, fun h => hstatus ▸ h⟩ hfair g.id).then rfl rfl

/-- `_tick_locked`. -/
theorem tickLocked_turns (h : tickLocked site m g now s = .ok m' t) (here : s.db.match? m.id = some m)
    (sound : m.Sound) (below : m.Below s.db) (hg : m.games.get? g.id = some g)
    (hclear : ∀ decision slot, evaluate g now = some decision → m.GivenBy decision slot → clear s.db m slot)
    (hfair : fair → site.Draws) : Plays fair clear s.db t.db m m' g.id := by
  have hsame : m' = m ∧ t = s → Plays fair clear s.db t.db m m' g.id := by
    rintro ⟨rfl, rfl⟩
    exact (Carries.refl here below).plays _
  unfold tickLocked at h
  cases hdecision : evaluate g now with
  | none =>
      simp only [hdecision, pure_ok] at h
      exact hsame h
  | some decision =>
      have hactive := evaluate_active hdecision
      have hgoing : g.status ≠ .cancelled := fun heq => by rw [heq] at hactive; cases hactive
      have hprepared : g.status ≠ .prepared := fun heq => by rw [heq] at hactive; cases hactive
      have hover := sound.going_of_active hg hactive
      simp only [hdecision] at h
      by_cases hexpected : expected decision = some g.status
      · rw [if_pos hexpected, pure_ok] at h
        exact hsame h
      · rw [if_neg hexpected] at h
        unfold applyDecision at h
        cases houtcome : decision.outcome with
        | countdown =>
            simp only [houtcome, pure_ok] at h
            exact hsame h
        | live =>
            simp only [houtcome] at h
            rcases Txn.ite_ok.mp h with ⟨_, h⟩ | ⟨_, h⟩
            · exact hsame (pure_ok.mp h)
            · simp only [saveMatch_bind, pure_ok] at h
              obtain ⟨rfl, rfl⟩ := h
              have hcarries : Carries fair clear s.db _ m (m.setGame { g with status := .live }) :=
                .setGame here below hg (.of_going hgoing rfl rfl rfl)
              exact hcarries.plays _
        | verifying =>
            simp only [houtcome] at h
            rcases Txn.ite_ok.mp h with ⟨_, h⟩ | ⟨_, h⟩
            · exact hsame (pure_ok.mp h)
            · simp only [saveMatch_bind, logMatch_bind, pure_ok] at h
              obtain ⟨rfl, rfl⟩ := h
              have hcarries : Carries fair clear s.db _ m (m.setGame (g.verify now)) :=
                .setGame here below hg (.of_going hgoing rfl rfl rfl)
              exact (hcarries.plays _).then rfl rfl
        | finish =>
            cases hwinner : decision.winner with
            | none =>
                simp only [houtcome, hwinner, pure_ok] at h
                exact hsame h
            | some winner =>
                cases hreason : decision.reason with
                | none =>
                    simp only [houtcome, hwinner, hreason, pure_ok] at h
                    exact hsame h
                | some reason =>
                    simp only [houtcome, hwinner, hreason] at h
                    exact finish_turns h here sound below hg (.of_going hgoing rfl rfl rfl) hprepared hover
                      (fun hpoint => hclear decision winner hdecision ⟨houtcome, hwinner, hpoint⟩) hfair
        | tie =>
            simp only [houtcome] at h
            exact tieGame_turns h here below hg hgoing hover hfair

end

end Arena
end CpcJudge
