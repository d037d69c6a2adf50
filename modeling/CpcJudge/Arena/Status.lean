import CpcJudge.Arena.Length

/-!
# `Arena.Status` — the status of a tournament and its matches

A tournament runs while its final or its match for third place is to be played, and is finished once they are over, as
long as no tournament is started whose final was given away while it was a draft: `start_tournament` does not look at
the matches, and there is no result left to come that would.
-/

namespace CpcJudge
namespace Arena

/-- The final is decided, and the match for third place is over, if there is one. -/
def Db.Played (db : Db) (id : TournamentId) : Prop :=
  ∃ final, db.final? id = some final ∧ final.status = .decided ∧
    ∀ third, db.third? id = some third → third.status = .decided ∨ third.status = .cancelled

/-- A tournament is started only while its bracket is to be played. -/
def StartsUnplayed (_ : Site) (op : Op) (db : Db) : Prop :=
  match op with
  | .organize _ (.onTournament id _ .start) => ¬ db.Played id
  | _ => True

/-- The status follows the bracket. -/
structure InStep (db : Db) (t : Tournament) : Prop where
  running : t.status = .running → db.bracketDone t.id = false
  finished : t.status = .finished ∨ t.status = .archived → db.bracketDone t.id = true

section
variable {organizer : Bool} {scope : MatchId → Prop} {db db' db1 : Db} {m m' : Match} {op : Op} {site : Site}
  {id : TournamentId} {t : Tournament}

theorem bracketDone_iff : db.bracketDone id = true ↔ db.Played id := by
  unfold Db.bracketDone Db.Played
  rw [Bool.and_eq_true, Option.any_eq_true, Option.all_eq_true]
  simp only [decide_eq_true_eq, Match.isOver, Bool.or_eq_true]
  constructor
  · rintro ⟨⟨final, hfinal, hdecided⟩, hthird⟩
    exact ⟨final, hfinal, hdecided, hthird⟩
  · rintro ⟨final, hfinal, hdecided, hthird⟩
    exact ⟨⟨final, hfinal, hdecided⟩, hthird⟩

/-! ## The bracket of a tournament, its matches rewritten -/

/-- The final is found by what no change of a match touches. -/
theorem final?_map {f : Match → Match} (hrows : db'.battles.rows = db.battles.rows.map f)
    (hstatic : ∀ m ∈ db.battles.rows, (f m).static = m.static) : db'.final? id = (db.final? id).map f := by
  have hround : ∀ m ∈ db.battles.rows, (f m).round = m.round := fun m hm => congrArg (·.2.2.1) (hstatic m hm)
  unfold Db.final?
  dsimp only
  rw [hrows, List.filter_map]
  have hlast : db.battles.rows.filter
        ((fun m : Match => m.tournament = some id && m.nextMatch.isNone && !m.isThirdPlace) ∘ f) =
      db.battles.rows.filter fun m => m.tournament = some id && m.nextMatch.isNone && !m.isThirdPlace := by
    refine List.filter_congr fun m hm => ?_
    have hthird : (f m).isThirdPlace = m.isThirdPlace := congrArg (·.2.2.2.1) (hstatic m hm)
    simp only [Function.comp, Match.tournament_of_static (hstatic m hm), Match.nextMatch_of_static (hstatic m hm),
      hthird]
  rw [hlast, List.find?_map]
  refine congrArg (Option.map f) (List.find?_congr fun m hm => ?_)
  simp only [Function.comp, List.all_map]
  rw [hround m (List.mem_filter.mp hm).1, Bool.eq_iff_iff, List.all_eq_true, List.all_eq_true]
  refine forall_congr' fun other => forall_congr' fun hother => ?_
  rw [Function.comp, hround other (List.mem_filter.mp hother).1]

/-- So is the match for third place. -/
theorem third?_map {f : Match → Match} (hrows : db'.battles.rows = db.battles.rows.map f)
    (hstatic : ∀ m ∈ db.battles.rows, (f m).static = m.static) : db'.third? id = (db.third? id).map f := by
  unfold Db.third?
  rw [hrows, List.find?_map]
  refine congrArg (Option.map f) (List.find?_congr fun m hm => ?_)
  have hthird : (f m).isThirdPlace = m.isThirdPlace := congrArg (·.2.2.2.1) (hstatic m hm)
  simp only [Function.comp, Match.tournament_of_static (hstatic m hm), hthird]

theorem mem_final? (h : db.final? id = some m) : m ∈ db.battles.rows ∧ m.tournament = some id := by
  have hmem := List.mem_of_find?_eq_some h
  rw [List.mem_filter, Bool.and_eq_true, Bool.and_eq_true, decide_eq_true_eq] at hmem
  exact ⟨hmem.1, hmem.2.1.1⟩

theorem mem_third? (h : db.third? id = some m) : m ∈ db.battles.rows ∧ m.tournament = some id := by
  have hfound := List.find?_some h
  rw [Bool.and_eq_true, decide_eq_true_eq] at hfound
  exact ⟨List.mem_of_find?_eq_some h, hfound.1⟩

/-- A bracket that is done stays done. -/
theorem bracketDone_lasts (hmaps : Table.Maps (Match.Lasts organizer) db.battles db'.battles)
    (h : db.bracketDone id = true) : db'.bracketDone id = true := by
  obtain ⟨f, hrows, hf⟩ := hmaps
  have hstatic : ∀ m ∈ db.battles.rows, (f m).static = m.static := fun m hm => (hf m hm).2.static
  obtain ⟨final, hfinal, hdecided, hthird⟩ := bracketDone_iff.mp h
  rw [bracketDone_iff]
  refine ⟨f final, by rw [final?_map hrows hstatic, hfinal]; rfl, ?_, fun third here => ?_⟩
  · rw [(hf final (mem_final? hfinal).1).2.ended (by simp [Match.isOver, hdecided]), hdecided]
  · rw [third?_map hrows hstatic] at here
    obtain ⟨old, hold, rfl⟩ := Option.map_eq_some_iff.mp here
    have hover : old.isOver = true := by simpa [Match.isOver] using hthird old hold
    rw [(hf old (mem_third? hold).1).2.ended hover]
    exact hthird old hold

/-- A change that ends no match of the tournament, and brings none back. -/
structure Match.Leaves (id : TournamentId) (m m' : Match) : Prop where
  static : m'.static = m.static
  decided : m.tournament = some id → (m'.status = .decided ↔ m.status = .decided)
  ended : m.tournament = some id → m'.isOver = m.isOver

theorem bracketDone_leaves (hmaps : Table.Maps (Match.Leaves id) db.battles db'.battles) :
    db'.bracketDone id = db.bracketDone id := by
  obtain ⟨f, hrows, hf⟩ := hmaps
  have hstatic : ∀ m ∈ db.battles.rows, (f m).static = m.static := fun m hm => (hf m hm).2.static
  have hfinal : ((db.final? id).map f).any (·.status = .decided) = (db.final? id).any (·.status = .decided) := by
    cases hfound : db.final? id with
    | none => rfl
    | some final =>
        obtain ⟨hmem, hinside⟩ := mem_final? hfound
        simp only [Option.map_some, Option.any_some, (hf final hmem).2.decided hinside]
  have hthird : ((db.third? id).map f).all (·.isOver) = (db.third? id).all (·.isOver) := by
    cases hfound : db.third? id with
    | none => rfl
    | some third =>
        obtain ⟨hmem, hinside⟩ := mem_third? hfound
        simp only [Option.map_some, Option.all_some, (hf third hmem).2.ended hinside]
  unfold Db.bracketDone
  rw [final?_map hrows hstatic, third?_map hrows hstatic, hfinal, hthird]

/-- Only the matches of the tournament count. -/
theorem bracketDone_congr (h : db'.battles.rows.filter (fun m => m.tournament = some id) =
    db.battles.rows.filter fun m => m.tournament = some id) : db'.bracketDone id = db.bracketDone id := by
  have hinside : ∀ (rows : List Match) (p : Match → Bool),
      rows.filter (fun m => m.tournament = some id && p m) =
        (rows.filter fun m => m.tournament = some id).filter p := by
    intro rows p
    rw [List.filter_filter]
    exact List.filter_congr fun m _ => Bool.and_comm _ _
  have hfinal : db'.final? id = db.final? id := by
    unfold Db.final?
    simp only [Bool.and_assoc]
    rw [hinside, hinside, h]
  have hthird : db'.third? id = db.third? id := by
    unfold Db.third?
    rw [← List.head?_filter, ← List.head?_filter, hinside, hinside, h]
  unfold Db.bracketDone
  rw [hfinal, hthird]

/-! ## One match -/

namespace Match.Leaves

theorem refl (m : Match) : m.Leaves id m := ⟨rfl, fun _ => Iff.rfl, fun _ => rfl⟩

theorem trans (a b c : Match) (h : a.Leaves id b) (h' : b.Leaves id c) : a.Leaves id c := by
  have hinside : a.tournament = some id → b.tournament = some id := fun ha => by
    rw [Match.tournament_of_static h.static, ha]
  exact ⟨h'.static.trans h.static, fun ha => (h'.decided (hinside ha)).trans (h.decided ha),
    fun ha => (h'.ended (hinside ha)).trans (h.ended ha)⟩

/-- The match has another status, and is over neither before nor after. -/
theorem of_going (hstatic : m'.static = m.static) (h : m.isOver = false) (h' : m'.isOver = false) :
    m.Leaves id m' := by
  refine ⟨hstatic, fun _ => ?_, fun _ => h'.trans h.symm⟩
  simp only [isOver, Bool.or_eq_false_iff, decide_eq_false_iff_not] at h h'
  exact iff_of_false h'.1 h.1

theorem of_status (hstatic : m'.static = m.static) (h : m'.status = m.status) : m.Leaves id m' :=
  ⟨hstatic, fun _ => by rw [h], fun _ => by rw [isOver, isOver, h]⟩

/-- The match is of another tournament, or of none. -/
theorem of_outside (hstatic : m'.static = m.static) (h : m.tournament ≠ some id) : m.Leaves id m' :=
  ⟨hstatic, fun hin => absurd hin h, fun hin => absurd hin h⟩

theorem row (h : RowStep organizer m m') : m.Leaves id m' := by
  cases h with
  | call _ _ ready => exact of_going rfl (by simp [isOver, ready]) (by simp [isOver])
  | start _ _ _ _ going => exact of_going rfl going (by simp [isOver])
  | cancel _ _ quick => exact of_outside rfl (by simp [quick])
  | _ => exact of_status rfl rfl

theorem receive (m : Match) (slot : Slot) (p : ProfileId) (seed : Option ℕ) :
    m.Leaves id (m.receive slot (some p) seed) := by
  obtain ⟨status, heq, hstatus⟩ := m.receive_eq slot (some p) seed
  rw [heq]
  rcases hstatus with rfl | ⟨hpending, rfl⟩ | ⟨hready, rfl⟩
  · exact of_status rfl rfl
  · exact of_going rfl (by simp [isOver, hpending]) (by simp [isOver])
  · exact of_going rfl (by simp [isOver, hready]) (by simp [isOver])

theorem replace {display : String} (slot : Slot) (p : ProfileId) (h : m.isOver = false) :
    m.Leaves id (m.replace slot p display) := by
  obtain ⟨status, heq, hstatus⟩ := m.replace_eq slot p display
  rw [heq]
  rcases hstatus with rfl | ⟨_, rfl⟩
  · exact of_status rfl rfl
  · exact of_going rfl h (by simp [isOver])

/-- What players on their way do to the matches they come to. -/
theorem covers : Covers (Match.Leaves id) true fun _ => False where
  refl := refl
  trans := trans
  row _ _ h := h.elim
  decide _ _ h := h.elim
  receive m slot p seed _ := receive m slot p seed

end Match.Leaves

/-! ## The tables -/

/-- Every status follows its bracket. -/
def AllInStep (db : Db) : Prop := ∀ t ∈ db.tournaments.rows, InStep db t

theorem InStep.congr (h : InStep db t) (hdone : db'.bracketDone t.id = db.bracketDone t.id) : InStep db' t :=
  ⟨fun hrunning => hdone.trans (h.running hrunning), fun hover => hdone.trans (h.finished hover)⟩

theorem InStep.of_draft (h : t.status = .draft) : InStep db t := by
  constructor <;> simp [h]

theorem AllInStep.leaves (hI : AllInStep db) (htournaments : db'.tournaments = db.tournaments)
    (hmaps : ∀ id, Table.Maps (Match.Leaves id) db.battles db'.battles) : AllInStep db' := by
  intro t ht
  rw [htournaments] at ht
  exact (hI t ht).congr (bracketDone_leaves (hmaps t.id))

/-- One match is rewritten. -/
theorem AllInStep.put (hI : AllInStep db) (here : db.match? m.id = some m)
    (htournaments : db'.tournaments = db.tournaments) (hbattles : db'.battles = db.battles.put m')
    (h : ∀ id, m.Leaves id m') : AllInStep db' := by
  refine hI.leaves htournaments fun id => ?_
  rw [hbattles]
  refine Table.Maps.put (b := m) Match.Leaves.refl ?_ (h id)
  rw [show Keyed.key m' = m.id from Match.id_of_static (h 0).static]
  exact here

/-- A result checks the tournament it is of, and the others have nothing to check. -/
theorem Advanced.allInStep (hothers : ∀ t ∈ db.tournaments.rows, m.tournament ≠ some t.id → InStep db t)
    (hdone : ∀ t ∈ db.tournaments.rows, t.status = .finished ∨ t.status = .archived → db.bracketDone t.id = true)
    (h : Advanced m db db') : AllInStep db' := by
  have hcovers : Covers (Match.Lasts true) true fun _ => False := Match.Lasts.covers
  have hlasts : Table.Maps (Match.Lasts true) db.battles db'.battles :=
    (h.maps hcovers).mono fun _ _ _ hstill => hstill.1
  have hleaves : ∀ id, Table.Maps (Match.Leaves id) db.battles db'.battles := fun id =>
    (h.maps Match.Leaves.covers).mono fun _ _ _ hstill => hstill.1
  have hafter : ∀ t ∈ db.tournaments.rows, m.tournament ≠ some t.id → InStep db' t := fun t ht hne =>
    (hothers t ht hne).congr (bracketDone_leaves (hleaves t.id))
  cases h with
  | quick hnone => exact fun t ht => hafter t ht (by simp [hnone])
  | @onward id w db1 db2 _ here _ _ next loser checked =>
      have htournaments : db2.tournaments = db.tournaments := loser.tournaments.trans next.tournaments
      have hbattles := checked.battles
      intro x hx
      cases checked with
      | @finished t t' _ found status done after sameId _ _ tournaments _ =>
          rw [tournaments, htournaments] at hx
          rcases Table.mem_put hx with rfl | ⟨hx, hne⟩
          · -- the tournament that was found done
            have hid : x.id = id := sameId.trans (Table.key_of_get? found)
            refine ⟨fun hrunning => ?_, fun _ => ?_⟩
            · rw [after] at hrunning
              cases hrunning
            · rw [hid, ← done]
              exact bracketDone_congr (by rw [hbattles])
          · refine hafter x hx fun heq => hne ?_
            have hid : x.id = id := Option.some.inj (heq.symm.trans here)
            exact hid.trans (sameId.trans (Table.key_of_get? found)).symm
      | same going =>
          rw [htournaments] at hx
          by_cases hmine : m.tournament = some x.id
          · obtain rfl : id = x.id := Option.some.inj (here.symm.trans hmine)
            have hfound := Table.get?_of_mem hx
            rw [← htournaments] at hfound
            exact ⟨fun hrunning => going x hfound hrunning,
              fun hover => bracketDone_lasts hlasts (hdone x hx hover)⟩
          · exact hafter x hx hmine

/-- A row of the tournaments is rewritten, and the matches stay. -/
theorem AllInStep.putTournament {t' : Tournament} (hI : AllInStep db) (hbattles : db'.battles = db.battles)
    (htournaments : db'.tournaments = db.tournaments.put t') (h : InStep db t') : AllInStep db' := by
  intro x hx
  have hdone : db'.bracketDone x.id = db.bracketDone x.id := bracketDone_congr (by rw [hbattles])
  rw [htournaments] at hx
  rcases Table.mem_put hx with rfl | ⟨hx, _⟩
  · exact h.congr hdone
  · exact (hI x hx).congr hdone

theorem foldl_add_rows {l : List Match} {table : Table Match} (hnone : ∀ m ∈ l, m.tournament ≠ some id) :
    (l.foldl Table.add table).rows.filter (fun m => m.tournament = some id) =
      table.rows.filter fun m => m.tournament = some id := by
  induction l generalizing table with
  | nil => rfl
  | cons m l ih =>
      rw [List.foldl_cons, ih fun x hx => hnone x (List.mem_cons_of_mem _ hx)]
      have hm : m.tournament ≠ some id := hnone m List.mem_cons_self
      unfold Table.add
      split
      · rfl
      · simp [hm]

theorem AllInStep.change (hI : AllInStep db) (h : Change organizer scope db db') : AllInStep db' := by
  cases h with
  | row here _ step saves =>
      exact hI.put here saves.tournaments saves.battles fun _ => .row step
  | @decide m m' db1 _ here _ step saves advanced =>
      have hstatic : m'.static = m.static := step.static
      have hkey : db.battles.get? (Keyed.key m') = some m := by
        rw [show Keyed.key m' = m.id from Match.id_of_static hstatic]
        exact here
      refine advanced.allInStep (fun t ht hother => ?_) fun t ht hover => ?_
      · rw [saves.tournaments] at ht
        rw [Match.tournament_of_static hstatic] at hother
        refine (hI t ht).congr (bracketDone_leaves ?_)
        rw [saves.battles]
        exact Table.Maps.put Match.Leaves.refl hkey (.of_outside hstatic hother)
      · rw [saves.tournaments] at ht
        have hlasts : Table.Maps (Match.Lasts organizer) db.battles (db.battles.put m') :=
          .put (fun _ => .of_same rfl (le_refl _) (fun _ => rfl) rfl) hkey (.of_evolves step.evolves)
        exact bracketDone_lasts (saves.battles ▸ hlasts) ((hI t ht).finished hover)
  | @duel m _ quick _ _ _ _ _ _ _ battles tournaments _ =>
      intro t ht
      rw [tournaments] at ht
      refine (hI t ht).congr (bracketDone_congr ?_)
      rw [battles]
      exact foldl_add_rows (l := [m]) fun x hx => by
        obtain rfl := List.mem_singleton.mp hx
        simp [quick]
  | @bracket d row _ fits here draft _ _ battles tournaments _ _ =>
      intro t ht
      rw [tournaments] at ht
      by_cases hmine : t.id = d.tournament.id
      · -- its tournament is a draft still
        obtain rfl : t = row := Table.eq_of_key ht (Table.mem_of_get? here) (hmine.trans (Table.key_of_get? here).symm)
        exact .of_draft draft
      · refine (hI t ht).congr (bracketDone_congr ?_)
        rw [battles, foldl_add_rows fun m hm => ?_]
        · show (db.battles.rows.filter _).filter _ = _
          rw [List.filter_filter]
          refine List.filter_congr fun m _ => ?_
          by_cases hin : m.tournament = some t.id
          · simp [hin, hmine]
          · simp [hin]
        · rw [(d.mem_fresh fits hm).1]
          exact fun heq => hmine (Option.some.inj heq).symm
  | @tournament t t' _ here id status _ battles tournaments _ =>
      refine hI.putTournament battles tournaments ?_
      have hold := hI t (Table.mem_of_get? here)
      rcases status with hsame | ⟨hfinished, harchived⟩
      · exact ⟨fun h => id ▸ hold.running (hsame ▸ h), fun h => id ▸ hold.finished (hsame ▸ h)⟩
      · refine ⟨fun hrunning => ?_, fun _ => id ▸ hold.finished (.inl hfinished)⟩
        rw [harchived] at hrunning
        cases hrunning
  | newTournament status _ _ _ battles tournaments _ =>
      intro x hx
      rw [tournaments] at hx
      rcases Table.mem_add hx with rfl | hx
      · exact .of_draft status
      · exact (hI x hx).congr (bracketDone_congr (by rw [battles]))
  | other battles tournaments _ =>
      exact hI.leaves tournaments fun _ => battles ▸ .refl Match.Leaves.refl _

/-! ## The special requests -/

/-- The match whose winner is corrected was decided, and is. -/
theorem AllInStep.corrects {slot : Slot} {id : MatchId} (hI : AllInStep db) (h : Corrects id slot m db db') :
    AllInStep db' := by
  obtain ⟨tournament, db1, now, hmine, hreopened, hadvanced⟩ := h.moved
  have hput : AllInStep (db.putMatch (m.correct slot now)) := by
    have here : db.match? m.id = some m := by
      rw [show m.id = id from Table.key_of_get? h.here]
      exact h.here
    exact hI.put here rfl rfl fun _ => .of_status rfl rfl
  have hmine' : (m.correct slot now).tournament = some tournament := hmine
  cases hreopened with
  | same => exact hadvanced.allInStep (fun t ht _ => hput t ht) fun t ht => (hput t ht).finished
  | @reopened t t' _ here _ after sameId _ battles tournaments _ =>
      have hdone : ∀ id, db1.bracketDone id = (db.putMatch (m.correct slot now)).bracketDone id :=
        fun id => bracketDone_congr (by rw [battles])
      refine hadvanced.allInStep (fun x hx hother => ?_) fun x hx hover => ?_
      all_goals rw [tournaments] at hx
      · rcases Table.mem_put hx with rfl | ⟨hx, _⟩
        · rw [hmine', sameId, show t.id = tournament from Table.key_of_get? here] at hother
          exact absurd rfl hother
        · exact (hput x hx).congr (hdone x.id)
      · rcases Table.mem_put hx with rfl | ⟨hx, _⟩
        · rw [after] at hover
          simp at hover
        · rw [hdone]
          exact (hput x hx).finished hover

theorem AllInStep.special (hI : AllInStep db) (hallowed : StartsUnplayed site op db) (h : op.special db db1) :
    AllInStep db1 := by
  unfold Op.special at h
  split at h
  · refine hI.leaves h.tournaments fun id => ?_
    rw [h.battles]
    exact Table.Maps.modify Match.Leaves.refl fun _ _ _ => .of_status rfl rfl
  · obtain ⟨m, hreplaces⟩ := h
    obtain ⟨display, hbattles⟩ := hreplaces.battles
    have here := hreplaces.here
    rw [← show m.id = _ from Table.key_of_get? here] at here
    exact hI.put here hreplaces.tournaments hbattles fun _ => .replace _ _ hreplaces.going
  · obtain ⟨m, hcorrects⟩ := h
    exact hI.corrects hcorrects
  · obtain ⟨t, hbegins⟩ := h
    obtain ⟨t', htournaments, hid, hrunning, _⟩ := hbegins.tournaments
    refine hI.putTournament hbegins.battles htournaments ⟨fun _ => ?_, fun hover => ?_⟩
    · rw [hid, show t.id = _ from Table.key_of_get? hbegins.here]
      exact Bool.eq_false_iff.mpr fun hdone => hallowed (bracketDone_iff.mp hdone)
    · rw [hrunning] at hover
      simp at hover
  · rwa [h]

end

/-- In a run where no tournament is started whose bracket is over already, a running tournament has a match to play and
    a finished one has none. -/
theorem status_follows {db : Db} (h : Run StartsUnplayed {} db) : ∀ t ∈ db.tournaments.rows,
    (t.status = .running → ¬ db.Played t.id) ∧
      (t.status = .finished ∨ t.status = .archived → db.Played t.id) := by
  have hstep : AllInStep db := (Run.invariant h .empty (fun _ ht => absurd ht List.not_mem_nil)
    (fun _ hI hchange => hI.change hchange) fun hallowed _ hI hspecial => hI.special hallowed hspecial).2
  intro t ht
  refine ⟨fun hrunning hplayed => ?_, fun hover => bracketDone_iff.mp ((hstep t ht).finished hover)⟩
  rw [← bracketDone_iff, (hstep t ht).running hrunning] at hplayed
  cases hplayed

/-- The tournament of two players, drawn and not started. -/
def draftFinal : Db := finalOnly.after { now := 0 } {}

/-- The same tournament, started. -/
def startedFinal : Db := (Op.organize 9 (.onTournament 1 none .start)).after { now := 0 } draftFinal

/-- Its final won by walkover. -/
def playedFinal : Db := (Op.organize 9 (.onMatch 2 none (.walkover .a))).after { now := 0 } startedFinal

theorem status_follows_final : ∃ db : Db, ∃ t ∈ db.tournaments.rows, t.status = .finished ∧ db.Played t.id := by
  have hdraft : ¬ draftFinal.Played 1 := by
    rw [← bracketDone_iff]
    decide +kernel
  have hdrawn : Run StartsUnplayed {} draftFinal := .step _ _ .refl trivial
  have hstarted : Run StartsUnplayed {} startedFinal := .step _ _ hdrawn hdraft
  have hrun : Run StartsUnplayed {} playedFinal := .step _ _ hstarted trivial
  have hfinished : playedFinal.tournaments.rows.any (·.status = .finished) := by decide +kernel
  obtain ⟨t, ht, hstatus⟩ := List.any_eq_true.mp hfinished
  have hstatus := of_decide_eq_true hstatus
  exact ⟨_, t, ht, hstatus, (status_follows hrun t ht).2 (.inl hstatus)⟩

/-- The final is given away in the draft, and the tournament is started with nothing left to play. -/
theorem given_away : ∃ db, Reachable db ∧ ∃ t ∈ db.tournaments.rows, t.status = .running ∧ db.Played t.id := by
  refine ⟨Db.play {} ([finalOnly, .organize 9 (.onMatch 2 none (.walkover .a)),
    .organize 9 (.onTournament 1 none .start)].map fun op => ({ now := 0 }, op)), Run.play _, ?_⟩
  simp only [← bracketDone_iff]
  decide +kernel

end Arena
end CpcJudge
