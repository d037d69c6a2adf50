import CpcJudge.Arena.Drawn
import CpcJudge.Arena.TurnOps
import CpcJudge.Arena.Reachable

/-!
# `Arena.Repeats` — no repeated problems

Problems are given to a game by hand, when a battle is created, from the bank for one game and from the bank for a
whole tournament, and a bracket drawn again gives back the ones that were chosen. Each of these looks at what is used
in its own way. Row by row, a turn keeps the games of a match (`Match.Goes`) or adds one, numbered after the others,
with problems that none of them shows. A bracket drawn again deals to each match what one match had, number by
number, and that match was in order (`Tidy`).
-/

namespace CpcJudge
namespace Arena

open CpcJudge.Txn (pure_ok)

/-! ## What a turn does to a row -/

/-- The same match with its games, some time later. -/
structure Match.Holds (m m' : Match) : Prop where
  static : m'.static = m.static
  position : m'.position = m.position
  games : ∀ g' ∈ m'.games.rows, ∃ g ∈ m.games.rows, g.Stays g'

/-- What a turn does to a match: nothing to its games, problems for one of them, or one more. -/
inductive Match.Goes (fair : Prop) (m : Match) : Match → Prop
  | holds {m' : Match} (h : m.Holds m') : Goes fair m m'
  | problems {g : Game} {problems : List GameProblem} (v : ℕ) (game : m.games.get? g.id = some g)
      (apart : fair → ∀ gp ∈ problems, gp.problem ∉ problemsUsedInMatch m (some g.id)) :
      Goes fair m { m.setGame { g with problems } with version := v }
  | addGame {g : Game} (later : ∀ x ∈ m.games.rows, x.number < g.number) (positive : 1 ≤ g.number)
      (apart : ∀ gp ∈ g.problems, gp.problem ∉ problemsUsedInMatch m none) :
      Goes fair m { m with games := m.games.add g }

/-- The problems of a game are in no other game of its match, but for games that nobody saw. -/
def Match.Unrepeated (m : Match) : Prop :=
  ∀ g ∈ m.games.rows, ∀ x ∈ m.games.rows, g.id ≠ x.id → g.unseen = false → x.unseen = false →
    ∀ gp ∈ g.problems, ∀ xp ∈ x.problems, gp.problem ≠ xp.problem

section
variable {fair : Prop} {clear : Db → Match → Slot → Prop} {db db' : Db} {m m' : Match} {g g' : Game}

theorem Match.Remains.holds (h : m.Remains m') : m.Holds m' := ⟨h.static, h.position, h.games⟩

theorem Match.Holds.refl (m : Match) : m.Holds m := ⟨rfl, rfl, fun g hg => ⟨g, hg, .refl g⟩⟩

theorem Match.Holds.trans {a b c : Match} (h : a.Holds b) (h' : b.Holds c) : a.Holds c := by
  refine ⟨h'.static.trans h.static, h'.position.trans h.position, fun g'' hg'' => ?_⟩
  obtain ⟨g', hg', hstays'⟩ := h'.games g'' hg''
  obtain ⟨g, hg, hstays⟩ := h.games g' hg'
  exact ⟨g, hg, hstays.trans hstays'⟩

/-- A match that receives a player keeps its games. -/
theorem Match.Holds.covers : Covers Match.Holds true fun _ => False where
  refl := Match.Holds.refl
  trans _ _ _ := Match.Holds.trans
  row _ _ own _ := own.elim
  decide _ _ own _ := own.elim
  receive m slot p seed _ := by
    obtain ⟨status, heq, _⟩ := m.receive_eq slot (some p) seed
    rw [heq]
    exact ⟨rfl, rfl, fun g hg => ⟨g, hg, .refl g⟩⟩

theorem Match.Goes.refl (m : Match) : m.Goes fair m := .holds (.refl m)

theorem Match.Goes.static (h : m.Goes fair m') : m'.static = m.static := by
  cases h with
  | holds h => exact h.static
  | problems => rfl
  | addGame => rfl

theorem Match.Goes.position (h : m.Goes fair m') : m'.position = m.position := by
  cases h with
  | holds h => exact h.position
  | problems => rfl
  | addGame => rfl

/-! ## In order -/

theorem Match.spot_of (hstatic : m'.static = m.static) (hposition : m'.position = m.position) :
    m'.spot = m.spot := by
  rw [Match.spot, Match.spot, show m'.round = m.round from congrArg (·.2.2.1) hstatic, hposition,
    show m'.isThirdPlace = m.isThirdPlace from congrArg (·.2.2.2.1) hstatic]

theorem Match.Numbered.holds (hm : m.Numbered) (h : m.Holds m') : m'.Numbered := by
  refine ⟨fun g' hg' => ?_, fun g' hg' x' hx' heq => ?_⟩
  · obtain ⟨g, hg, hstays⟩ := h.games g' hg'
    exact hstays.number ▸ hm.positive g hg
  · obtain ⟨g, hg, hgstays⟩ := h.games g' hg'
    obtain ⟨x, hx, hxstays⟩ := h.games x' hx'
    rw [hgstays.id, hxstays.id]
    exact hm.distinct g hg x hx (by rw [← hgstays.number, ← hxstays.number, heq])

theorem Match.Numbered.goes (hm : m.Numbered) (h : m.Goes fair m') : m'.Numbered := by
  cases h with
  | holds h => exact hm.holds h
  | @problems g problems v game _ =>
      have hmem : ∀ y ∈ (m.setGame { g with problems }).games.rows,
          ∃ x ∈ m.games.rows, y.id = x.id ∧ y.number = x.number := by
        intro y hy
        rcases Match.mem_setGame hy with rfl | ⟨hy, _⟩
        · exact ⟨g, Table.mem_of_get? game, rfl, rfl⟩
        · exact ⟨y, hy, rfl, rfl⟩
      refine ⟨fun y hy => ?_, fun y hy z hz heq => ?_⟩
      · obtain ⟨x, hx, _, hnumber⟩ := hmem y hy
        exact hnumber ▸ hm.positive x hx
      · obtain ⟨x, hx, hid, hnumber⟩ := hmem y hy
        obtain ⟨w, hw, hid', hnumber'⟩ := hmem z hz
        rw [hid, hid']
        exact hm.distinct x hx w hw (by rw [← hnumber, ← hnumber', heq])
  | addGame later positive _ =>
      refine ⟨fun y hy => ?_, fun y hy z hz heq => ?_⟩
      · rcases Table.mem_add hy with rfl | hold
        · exact positive
        · exact hm.positive y hold
      · rcases Table.mem_add hy with rfl | hold <;> rcases Table.mem_add hz with rfl | hold'
        · rfl
        · exact absurd heq (later z hold').ne'
        · exact absurd heq (later y hold).ne
        · exact hm.distinct y hold z hold' heq

theorem Match.Unrepeated.holds (hm : m.Unrepeated) (h : m.Holds m') : m'.Unrepeated := by
  intro g' hg' x' hx' hne hseen hseen' gp hgp xp hxp
  obtain ⟨g, hg, hgstays⟩ := h.games g' hg'
  obtain ⟨x, hx, hxstays⟩ := h.games x' hx'
  have hopen : ∀ {y y' : Game}, y.Stays y' → y'.unseen = false → y.unseen = false := fun hstays hs =>
    Bool.eq_false_iff.mpr fun hu => by rw [hstays.unseen hu] at hs; cases hs
  refine hm g hg x hx (fun heq => hne ?_) (hopen hgstays hseen) (hopen hxstays hseen') gp ?_ xp ?_
  · rw [hgstays.id, hxstays.id, heq]
  · rwa [← hgstays.problems]
  · rwa [← hxstays.problems]

/-- A match whose games but one were apart, and that one is apart from them. -/
theorem Match.Unrepeated.with {g : Game} (hm : m.Unrepeated)
    (hrows : ∀ x ∈ m'.games.rows, x = g ∨ x ∈ m.games.rows)
    (hapart : ∀ x ∈ m.games.rows, x.id ≠ g.id → x.unseen = false → ∀ gp ∈ g.problems, ∀ xp ∈ x.problems,
      gp.problem ≠ xp.problem) : m'.Unrepeated := by
  intro y hy z hz hne hseen hseen' yp hyp zp hzp
  rcases hrows y hy with rfl | hy <;> rcases hrows z hz with rfl | hz
  · exact absurd rfl hne
  · exact hapart z hz hne.symm hseen' yp hyp zp hzp
  · exact (hapart y hy hne hseen zp hzp yp hyp).symm
  · exact hm y hy z hz hne hseen hseen' yp hyp zp hzp

theorem Match.Unrepeated.goes (hm : m.Unrepeated) (hfair : fair) (h : m.Goes fair m') : m'.Unrepeated := by
  cases h with
  | holds h => exact hm.holds h
  | @problems g problems v game apart =>
      refine hm.with (g := { g with problems }) (fun x hx => (Match.mem_setGame hx).imp_right And.left) ?_
      intro x hx hne hseen gp hgp xp hxp heq
      exact apart hfair gp hgp (mem_usedIn.mpr ⟨x, hx, hseen, by simpa using hne, xp, hxp, heq.symm⟩)
  | addGame _ _ apart =>
      refine hm.with (fun x hx => Table.mem_add hx) fun x hx _ hseen gp hgp xp hxp heq => ?_
      exact apart gp hgp (mem_usedIn.mpr ⟨x, hx, hseen, by simp, xp, hxp, heq.symm⟩)

/-! ## Turn after turn -/

/-- A bracket drawn again. -/
inductive Redrawn (db : Db) : Db → Prop
  | redrawn {site : Site} {row row' : Tournament} {s u : Txn} {d : BracketPlan} {drawn opened restored : Txn}
      (battles : s.db.battles = db.battles) (wellFormed : WellFormed s.db)
      (builds : Builds site row row' s u d drawn opened restored) : Redrawn db u.db

/-- What a turn does to the rows, if no bracket is drawn: every match goes on, and a quick battle may be new. -/
theorem Turn.goes (h : Turn fair clear db db') : Redrawn db db' ∨ ∀ m' ∈ db'.battles.rows,
    (∃ m ∈ db.battles.rows, m.Goes fair m') ∨ (m'.tournament = none ∧ m'.games = .empty) := by
  -- a row saved is the one that changed, and the others are as they were
  have hput : ∀ {m m1 : Match} {table : Table Match}, db.match? m.id = some m → m.Goes fair m1 →
      table = db.battles.put m1 → ∀ m' ∈ table.rows, ∃ x ∈ db.battles.rows, x.Goes fair m' := by
    rintro m m1 table here hgoes rfl m' hm'
    rcases Table.mem_put hm' with rfl | ⟨hm', _⟩
    · exact ⟨m, Table.mem_of_get? here, hgoes⟩
    · exact ⟨m', hm', .refl m'⟩
  cases h with
  | rest rests _ =>
      refine .inr fun m' hm' => .inl ?_
      obtain ⟨m, hm, _, hrests⟩ := rests.back hm'
      exact ⟨m, hm, .holds hrests.toRemains.holds⟩
  | lock here stays _ battles _ => exact .inr fun m' hm' => .inl (hput here (.holds stays.holds) battles m' hm')
  | problems v here game apart battles _ =>
      exact .inr fun m' hm' => .inl (hput here (.problems v game apart) battles m' hm')
  | addGame here later positive apart battles _ =>
      exact .inr fun m' hm' => .inl (hput here (.addGame later positive apart) battles m' hm')
  | @replace m slot p display _ here _ battles _ =>
      obtain ⟨_, heq, _⟩ := m.replace_eq slot p display
      have hholds : m.Holds (m.replace slot p display) := by
        rw [heq]
        exact ⟨rfl, rfl, fun g hg => ⟨g, hg, .refl g⟩⟩
      exact .inr fun m' hm' => .inl (hput here (.holds hholds) battles m' hm')
  | @duel m _ quick games _ _ battles _ =>
      refine .inr fun m' hm' => ?_
      rcases Table.mem_add (battles ▸ hm') with rfl | hm'
      · exact .inr ⟨quick, games⟩
      · exact .inl ⟨m', hm', .refl m'⟩
  | decide here stays _ _ _ battles _ advanced =>
      refine .inr fun m' hm' => .inl ?_
      obtain ⟨y, hy, _, hholds, _⟩ := (advanced.maps Match.Holds.covers).back hm'
      rw [battles] at hy
      rcases Table.mem_put hy with rfl | ⟨hy, _⟩
      · exact ⟨_, Table.mem_of_get? here, .holds (stays.holds.trans hholds)⟩
      · exact ⟨y, hy, .holds hholds⟩
  | redraw battles wellFormed here _ _ run =>
      obtain ⟨_, _, _, _, hbuilds⟩ := buildBracket_builds run (wellFormed.seeded _ (Table.mem_of_get? here))
      exact .inl (.redrawn battles wellFormed hbuilds)

/-- A place of a plan has one match. -/
theorem BracketPlan.eq_of_spot {d : BracketPlan} (fits : d.Fits) (hm : m ∈ d.allMatches) (hm' : m' ∈ d.allMatches)
    (h : m.spot = m'.spot) : m = m' := by
  have hspot : ∀ back position, (d.node back position).spot = (some (d.rounds - back), position, false) := by
    intro back position
    obtain ⟨_, _, _, heq, -⟩ := d.node_eq back position
    rw [heq]
    rfl
  have hthird : ∀ back position, (d.node back position).spot ≠ d.thirdMatch.spot := fun back position heq => by
    rw [hspot] at heq
    cases congrArg (·.2.2) heq
  rcases (BracketPlan.mem_allMatches fits).mp hm with ⟨back, position, hback, _, rfl⟩ | ⟨_, rfl⟩ <;>
    rcases (BracketPlan.mem_allMatches fits).mp hm' with ⟨back', position', hback', _, rfl⟩ | ⟨_, rfl⟩
  · rw [hspot, hspot, Prod.mk.injEq, Prod.mk.injEq, Option.some.injEq] at h
    rw [show back = back' by omega, h.2.1]
  · exact absurd h (hthird back position)
  · exact absurd h.symm (hthird back' position')
  · rfl

namespace Builds
variable {site : Site} {row row' : Tournament} {s u : Txn} {d : BracketPlan} {drawn opened restored : Txn}

theorem built_tournament (h : Builds site row row' s u d drawn opened restored) {n : Match} (hn : n ∈ d.allMatches)
    (hbuilt : n.Built d (chosenProblems s.db row.id) m) : m.tournament = some row.id := by
  rw [Match.tournament_of_static hbuilt.static, (d.mem_fresh h.fits hn).1, h.tournament_id]

/-- The matches of a bracket drawn are in order, and the others stay so. -/
theorem tidy (h : Builds site row row' s u d drawn opened restored)
    (hbelow : ∀ m ∈ s.db.battles.rows, m.id < s.db.nextId) (hI : Tidy s.db) : Tidy u.db := by
  refine ⟨fun m hm n hn htournament hsame hspot => ?_, fun m hm => ?_⟩
  · rcases h.cases hbelow hm with ⟨x, hx, hbuilt⟩ | ⟨hold, hother⟩ <;>
      rcases h.cases hbelow hn with ⟨y, hy, hbuilt'⟩ | ⟨hold', hother'⟩
    · rw [Match.spot_of hbuilt.static hbuilt.position, Match.spot_of hbuilt'.static hbuilt'.position] at hspot
      obtain rfl := BracketPlan.eq_of_spot h.fits hx hy hspot
      rw [Match.id_of_static hbuilt.static, Match.id_of_static hbuilt'.static]
    · exact absurd (hsame.symm.trans (h.built_tournament hx hbuilt)) hother'
    · exact absurd (hsame.trans (h.built_tournament hy hbuilt')) hother
    · exact hI.places m hold n hold' htournament hsame hspot
  · rcases h.cases hbelow hm with ⟨x, hx, hbuilt⟩ | ⟨hold, _⟩
    · exact hbuilt.numbered
    · exact hI.numbered m hold

/-- The problems chosen for a place are those of one match, and its games were apart. -/
theorem unrepeated (h : Builds site row row' s u d drawn opened restored) (hdb : WellFormed s.db) (hI : Tidy s.db)
    (hrows : ∀ m ∈ s.db.battles.rows, m.Unrepeated) : ∀ m ∈ u.db.battles.rows, m.Unrepeated := by
  intro m hm
  rcases h.cases hdb.below hm with ⟨n, hn, hbuilt⟩ | ⟨hold, _⟩
  · by_cases hdecided : m.status = .decided
    · intro g hg
      rw [hbuilt.empty hdecided] at hg
      cases hg
    · -- a game of the new match has the problems of a game of the old one with its number
      have hchose : ∀ g ∈ m.games.rows, ∀ gp ∈ g.problems,
          m.Chose s.db row.id g.number g.problems := by
        intro g hg gp hgp
        have hat := hbuilt.problemsAt_entryAt hdecided (hbuilt.numbered.positive g hg)
        rw [hbuilt.numbered.problemsAt hg] at hat
        rcases entryAt_chosenProblems s.db row.id g.number (h.built_round hn hbuilt) with
          hchose | ⟨hnil, _⟩
        · rwa [← hat] at hchose
        · rw [hat, hnil] at hgp
          cases hgp
      intro g hg x hx hne _ _ gp hgp xp hxp
      obtain ⟨a, ha, hamine, haspot, y, hy, hystarted, _, hynumber, hyproblems⟩ := hchose g hg gp hgp
      obtain ⟨b, hb, hbmine, hbspot, z, hz, hzstarted, _, hznumber, hzproblems⟩ := hchose x hx xp hxp
      have hid := hI.places a ha b hb (by rw [hamine]; simp) (hamine.trans hbmine.symm) (haspot.trans hbspot.symm)
      obtain rfl : a = b := Table.eq_of_key ha hb hid
      have hseen : ∀ w ∈ a.games.rows, w.started = false → w.unseen = false := fun w hw hstarted => by
        refine Game.unseen_eq_false fun hcancelled => ?_
        have := ((hdb.sound a ha).played w hw).mpr (by rw [hcancelled]; simp)
        rw [hstarted] at this
        cases this
      refine hrows a ha y hy z hz (fun heq => hne ?_) (hseen y hy hystarted) (hseen z hz hzstarted) gp
        (hyproblems ▸ hgp) xp (hzproblems ▸ hxp)
      obtain rfl : y = z := Table.eq_of_key hy hz heq
      exact hbuilt.numbered.distinct g hg x hx (hynumber.symm.trans hznumber)
  · exact hrows m hold

end Builds

theorem Tidy.empty : Tidy {} := ⟨fun _ hm => absurd hm List.not_mem_nil, fun _ hm => absurd hm List.not_mem_nil⟩

/-- What follows from the rows alone. -/
theorem Tidy.congr (h : Tidy db) (hbattles : db'.battles = db.battles) : Tidy db' :=
  ⟨hbattles ▸ h.places, hbattles ▸ h.numbered⟩

theorem Tidy.turn (hI : Tidy db) (h : Turn fair clear db db') : Tidy db' := by
  rcases h.goes with ⟨battles, wellFormed, hbuilds⟩ | hgoes
  · exact hbuilds.tidy wellFormed.below (hI.congr battles)
  · refine ⟨fun m' hm' n' hn' htournament hsame hspot => ?_, fun m' hm' => ?_⟩
    · rcases hgoes m' hm' with ⟨m, hm, hmm⟩ | ⟨hnone, _⟩
      · rcases hgoes n' hn' with ⟨n, hn, hnn⟩ | ⟨hnone, _⟩
        · rw [Match.tournament_of_static hmm.static] at htournament hsame
          rw [Match.tournament_of_static hnn.static] at hsame
          rw [Match.spot_of hmm.static hmm.position, Match.spot_of hnn.static hnn.position] at hspot
          rw [Match.id_of_static hmm.static, Match.id_of_static hnn.static]
          exact hI.places m hm n hn htournament hsame hspot
        · exact absurd (hsame.trans hnone) htournament
      · exact absurd hnone htournament
    · rcases hgoes m' hm' with ⟨m, hm, hmm⟩ | ⟨_, hgames⟩
      · exact (hI.numbered m hm).goes hmm
      · refine ⟨fun g hg => ?_, fun g hg => ?_⟩ <;>
        · rw [hgames] at hg
          cases hg

theorem Turn.unrepeated (h : Turn fair clear db db') (hfair : fair) (hI : Tidy db)
    (hrows : ∀ m ∈ db.battles.rows, m.Unrepeated) : ∀ m ∈ db'.battles.rows, m.Unrepeated := by
  rcases h.goes with ⟨battles, wellFormed, hbuilds⟩ | hgoes
  · exact hbuilds.unrepeated wellFormed (hI.congr battles) (battles ▸ hrows)
  · intro m' hm'
    rcases hgoes m' hm' with ⟨m, hm, hmm⟩ | ⟨_, hgames⟩
    · exact (hrows m hm).goes hfair hmm
    · intro g hg
      rw [hgames] at hg
      cases hg

end

/-! ## Draws -/

theorem mem_problemsUsedInTournament {db : Db} {id : TournamentId} {except : Option GameId} {p : ProblemId} :
    p ∈ problemsUsedInTournament db (some id) except ↔
      ∃ n ∈ db.battles.rows, n.tournament = some id ∧ p ∈ usedIn n.games.rows except := by
  simp only [problemsUsedInTournament, List.mem_flatMap, List.mem_filter, decide_eq_true_eq, and_assoc]

theorem bankOffer_tournament {site : Site} {db : Db} {actor : Option ProfileId} {force : Bool} {m : Match} {g : Game}
    {offer : Except ArenaError (List GameProblem)} (h : bankOffer site db actor force m g = some offer) :
    ∃ id, m.tournament = some id := by
  unfold bankOffer at h
  simp only at h
  split at h
  · rename_i hoffered
    simp only [Bool.and_eq_true] at hoffered
    exact Option.isSome_iff_exists.mp hoffered.1.1.1.1
  · cases h

/-- What the bank offers is in no other game of the tournament that anybody may have seen. -/
theorem bankOffer_unused {site : Site} {db : Db} {actor : Option ProfileId} {force : Bool} {m : Match} {g : Game}
    {problems : List GameProblem} (hsite : site.Draws)
    (h : bankOffer site db actor force m g = some (.ok problems)) :
    ∀ n ∈ db.battles.rows, n.tournament = m.tournament → ∀ x ∈ n.games.rows, x.id ≠ g.id → x.unseen = false →
      ∀ gp ∈ problems, ∀ xp ∈ x.problems, gp.problem ≠ xp.problem := by
  intro n hn hsame x hx hne hseen gp hgp xp hxp heq
  obtain ⟨id, htournament⟩ := bankOffer_tournament h
  have hunused := (bankOffer_apart hsite h gp hgp).1
  rw [htournament] at hunused hsame
  refine hunused (mem_problemsUsedInTournament.mpr ⟨n, hn, hsame, mem_usedIn.mpr ?_⟩)
  exact ⟨x, hx, hseen, by simpa using hne, xp, hxp, heq.symm⟩

/-- A game that got its problems got those the bank offered. -/
theorem fillFromBank_filled {site : Site} {actor : Option ProfileId} {force : Bool} {m m' : Match} {g : Game}
    {s t : Txn} (h : fillFromBank site actor force m g s = .ok (m', true) t) :
    ∃ problems, bankOffer site s.db actor force m g = some (.ok problems) ∧ m' = m.setGame { g with problems } ∧
      t.db.battles = s.db.battles.put m' := by
  simp [fillFromBank] at h
  cases hoffer : bankOffer site s.db actor force m g with
  | none =>
      simp only [hoffer] at h
      cases congrArg Prod.snd (pure_ok.mp h).1
  | some offer =>
      cases offer with
      | error e => simp [hoffer] at h
      | ok problems =>
          simp [hoffer] at h
          obtain ⟨rfl, rfl⟩ := h
          exact ⟨problems, rfl, rfl, rfl⟩

/-! ## Over runs -/

/-- The bank of every operation of a run draws from the problems it is given. -/
def DrawsFairly (site : Site) (_ : Op) (_ : Db) : Prop := site.Draws

/-- What every turn keeps holds wherever a run leads. -/
theorem Run.turns {allowed : Site → Op → Db → Prop} (fair : Prop) (clear : Db → Match → Slot → Prop) {I : Db → Prop}
    {db db' : Db} (hrun : Run allowed db db') (hdb : WellFormed db) (hI : I db)
    (hfair : ∀ {site op db}, allowed site op db → fair → site.Draws)
    (hclears : ∀ {site op db}, allowed site op db → WellFormed db → I db → op.Clears clear site db)
    (hturn : ∀ {db db'}, I db → Turn fair clear db db' → I db') : I db' := by
  have hboth : WellFormed db' ∧ I db' := by
    refine hrun.keeps (I := fun db => WellFormed db ∧ I db) (fun site op x hallowed hx => ?_) ⟨hdb, hI⟩
    refine ⟨(Op.keeps (I := fun _ => True) hx.1 trivial (fun _ _ => trivial) fun _ _ _ => trivial).1, ?_⟩
    have hturns : Turns fair clear x (op.after site x) :=
      Op.turns hx.1 (hfair hallowed) (hclears hallowed hx.1 hx.2)
    generalize op.after site x = y at hturns
    induction hturns with
    | refl => exact hx.2
    | tail _ hstep ih => exact hturn ih hstep
  exact hboth.2

theorem Run.tidy {allowed : Site → Op → Db → Prop} {db : Db} (hrun : Run allowed {} db) : Tidy db :=
  hrun.turns False (fun _ _ _ => True) .empty .empty (fun _ h => h.elim)
    (fun _ _ _ _ _ _ _ _ => trivial) fun hI h => hI.turn h

/-- **No repeated problems.** In every state a run reaches, no problem is in two games of a match that were not voided
    before they started. And whenever a game gets its problems from the bank, none of them is in another game of its
    tournament, again but for the games voided before they started. -/
theorem no_repeats {db : Db} (hrun : Run DrawsFairly {} db) :
    (∀ m ∈ db.battles.rows, ∀ g ∈ m.games.rows, ∀ x ∈ m.games.rows, g.id ≠ x.id → g.unseen = false →
        x.unseen = false → ∀ gp ∈ g.problems, ∀ xp ∈ x.problems, gp.problem ≠ xp.problem) ∧
      ∀ (site : Site) (actor : Option ProfileId) (force : Bool) (m m' : Match) (g : Game) (s t : Txn),
        site.Draws → fillFromBank site actor force m g s = .ok (m', true) t →
        ∃ problems, m' = m.setGame { g with problems } ∧ t.db.battles = s.db.battles.put m' ∧
          ∀ n ∈ s.db.battles.rows, n.tournament = m.tournament → ∀ x ∈ n.games.rows, x.id ≠ g.id →
            x.unseen = false → ∀ gp ∈ problems, ∀ xp ∈ x.problems, gp.problem ≠ xp.problem := by
  refine ⟨?_, fun site actor force m m' g s t hsite h => ?_⟩
  · have hboth : Tidy db ∧ ∀ m ∈ db.battles.rows, m.Unrepeated :=
      hrun.turns True (fun _ _ _ => True)
        (I := fun db => Tidy db ∧ ∀ m ∈ db.battles.rows, m.Unrepeated) .empty
        ⟨.empty, fun _ hm => absurd hm List.not_mem_nil⟩ (fun hallowed _ => hallowed)
        (fun _ _ _ _ _ _ _ _ => trivial) fun hI h => ⟨hI.1.turn h, h.unrepeated trivial hI.1 hI.2⟩
    exact hboth.2
  · obtain ⟨problems, hoffer, hm', hbattles⟩ := fillFromBank_filled h
    exact ⟨problems, hm', hbattles, bankOffer_unused hsite hoffer⟩

/-- A site with a bank of two problems. -/
def banked : Site := { now := 0, bank := fun _ => [{ problem := 7 }, { problem := 8, order := 1 }] }

/-- A final with a problem chosen by hand for its second game, and the first one drawn from the bank. -/
def bankedFinal : Db :=
  Db.play {} ([.organize 9 (.createTournament "Cup" [some 1, some 2] .manual false {} "" (some 5) true none .pending),
    .organize 9 (.onMatch 2 none (.update (some 3) none none (.both none))),
    .organize 9 (.onMatch 2 none (.problems none [{ id := 7 }] (some 2))),
    .organize 9 (.fill 2)].map fun op => (banked, op))

theorem no_repeats_final : ∃ m ∈ bankedFinal.battles.rows, ∃ g ∈ m.games.rows, ∃ x ∈ m.games.rows, g.id ≠ x.id ∧
    g.problems ≠ [] ∧ x.problems ≠ [] ∧ ∀ gp ∈ g.problems, ∀ xp ∈ x.problems, gp.problem ≠ xp.problem := by
  have hdraws : banked.Draws := fun _ _ _ h => List.mem_of_mem_take h
  have hrun : Run DrawsFairly {} bankedFinal := by
    refine Run.ofSteps _ fun step hstep _ => ?_
    obtain ⟨_, _, rfl⟩ := List.mem_map.mp hstep
    exact hdraws
  have hgames : bankedFinal.battles.rows.any fun m => m.games.rows.any fun g => m.games.rows.any fun x =>
      g.id ≠ x.id && (g.problems ≠ [] && x.problems ≠ []) && !g.unseen && !x.unseen := by decide +kernel
  obtain ⟨m, hm, hgames⟩ := List.any_eq_true.mp hgames
  obtain ⟨g, hg, hgames⟩ := List.any_eq_true.mp hgames
  obtain ⟨x, hx, hgames⟩ := List.any_eq_true.mp hgames
  simp only [Bool.and_eq_true, decide_eq_true_eq, Bool.not_eq_true'] at hgames
  obtain ⟨⟨⟨hne, hproblems⟩, hseen⟩, hseen'⟩ := hgames
  exact ⟨m, hm, g, hg, x, hx, hne, hproblems.1, hproblems.2, (no_repeats hrun).1 m hm g hg x hx hne hseen hseen'⟩

end Arena
end CpcJudge
