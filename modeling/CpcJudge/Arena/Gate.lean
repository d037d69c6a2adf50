import CpcJudge.Arena.Outcomes

/-!
# `Arena.Gate` — what gets into a game

The submissions of a game only grow, and only while it is played: a submission that was not there before an
operation was sent by a player of the match in that operation, and passed every check of `submit`.
-/

namespace CpcJudge
namespace Arena

open Scoring (Attempt)

/-! ## No change adds a submission -/

/-- Whatever was sent in the games of `m'` had been sent in `m`. -/
structure Match.Sent (m m' : Match) : Prop where
  id : m'.id = m.id
  games : ∀ g' ∈ m'.games.rows, ∀ slot, ∀ x ∈ g'.submissions slot,
    ∃ g ∈ m.games.rows, g.id = g'.id ∧ x ∈ g.submissions slot

namespace Match.Sent
variable {scope : MatchId → Prop} {m m' m'' : Match} {op : Op} {db : Db}

theorem of_games (hid : m'.id = m.id) (hgames : m'.games = m.games) : m.Sent m' :=
  ⟨hid, fun g' hg' _ _ hx => ⟨g', hgames ▸ hg', rfl, hx⟩⟩

theorem trans (h : m.Sent m') (h' : m'.Sent m'') : m.Sent m'' := by
  refine ⟨h'.id.trans h.id, fun g'' hg'' slot x hx => ?_⟩
  obtain ⟨g', hg', hid', hx'⟩ := h'.games g'' hg'' slot x hx
  obtain ⟨g, hg, hid, hx⟩ := h.games g' hg' slot x hx'
  exact ⟨g, hg, hid.trans hid', hx⟩

/-- A game saved with the submissions it had, or without any. -/
theorem setGame {g g' : Game} (hg : m.games.get? g.id = some g) (hid : g'.id = g.id)
    (hsent : ∀ slot, g'.submissions slot = g.submissions slot ∨ g'.submissions slot = []) :
    m.Sent (m.setGame g') := by
  refine ⟨rfl, fun y hy slot x hx => ?_⟩
  rcases mem_setGame hy with rfl | ⟨hy, _⟩
  · rcases hsent slot with heq | heq <;> rw [heq] at hx
    · exact ⟨g, Table.mem_of_get? hg, hid.symm, hx⟩
    · exact absurd hx List.not_mem_nil
  · exact ⟨y, hy, rfl, hx⟩

theorem void (g : Game) (now : Time) (decidedBy : Option ProfileId) :
    ({ g.void now with decidedBy } : Game).submissions = g.submissions := Game.closeContest_submissions _ _

theorem row (h : RowStep true m m') : m.Sent m' := by
  cases h with
  | edit | length | call | cancel => exact .of_games rfl rfl
  | addGame g _ contest _ =>
      refine ⟨rfl, fun y hy slot x hx => ?_⟩
      rcases Table.mem_add hy with rfl | hy
      · simp [Game.submissions, Game.attempts, contest] at hx
      · exact ⟨y, hy, rfl, hx⟩
  | game _ here step _ =>
      exact (setGame here step.id fun slot => .inl (congrFun (step.submissions rfl) slot)).trans (.of_games rfl rfl)
  | start _ _ here _ _ _ _ id _ _ submissions _ =>
      exact (setGame here id fun slot => .inr (submissions slot)).trans (.of_games rfl rfl)
  | win _ here won _ _ _ =>
      exact (setGame here won.id fun slot => .inl (congrFun won.submissions slot)).trans (.of_games rfl rfl)
  | voidGames now decidedBy _ =>
      refine ⟨rfl, fun y hy slot x hx => ?_⟩
      obtain ⟨g, hg, rfl⟩ := List.mem_map.mp hy
      refine ⟨g, hg, ?_, ?_⟩
      · split <;> rfl
      · split at hx
        · rwa [void] at hx
        · exact hx
  | dropUnplayed => exact ⟨rfl, fun y hy _ x hx => ⟨y, (mem_dropUnplayed.mp hy).1, rfl, hx⟩⟩

theorem decide (h : Decides true m m') : m.Sent m' := by
  cases h with
  | @game g g' slot reason moment v here won _ _ _ =>
      have hwon : m.Sent (((m.setGame g').win slot).award slot reason moment v) :=
        (setGame here won.id fun slot => .inl (congrFun won.submissions slot)).trans (.of_games rfl rfl)
      exact hwon.trans (row .dropUnplayed)
  | given => exact .of_games rfl rfl

theorem covers : Covers Match.Sent true scope where
  refl _ := .of_games rfl rfl
  trans _ _ _ h h' := h.trans h'
  row _ _ _ h := .row h
  decide _ _ _ h := .decide h
  receive m slot p seed _ := by
    obtain ⟨status, heq, _⟩ := m.receive_eq slot (some p) seed
    rw [heq]
    exact .of_games rfl rfl

theorem coversSpecial : CoversSpecial Match.Sent op db where
  length _ _ _ _ _ _ _ _ _ _ _ _ := .of_games rfl rfl
  replace m slot profile display _ _ := by
    obtain ⟨status, heq, _⟩ := m.replace_eq slot profile display
    rw [heq]
    exact .of_games rfl rfl
  correct _ _ _ _ _ _ _ _ _ := .of_games rfl rfl

end Match.Sent

/-! ## The tables -/

/-- Whatever was sent in the games of the tables had been sent in `db`. -/
def SentIn (db db' : Db) : Prop :=
  ∀ m' ∈ db'.battles.rows, ∀ g' ∈ m'.games.rows, ∀ slot, ∀ x ∈ g'.submissions slot,
    ∃ m, db.match? m'.id = some m ∧ ∃ g ∈ m.games.rows, g.id = g'.id ∧ x ∈ g.submissions slot

namespace SentIn
variable {scope : MatchId → Prop} {db db' db1 : Db} {op : Op} {site : Site}

theorem refl (db : Db) : SentIn db db :=
  fun m hm g hg _ _ hx => ⟨m, Table.get?_of_mem hm, g, hg, rfl, hx⟩

theorem of_maps (hmaps : Table.Maps (Match.Still Match.Sent) db.battles db'.battles) : SentIn db db' := by
  intro m' hm' g' hg' slot x hx
  obtain ⟨m, hm, _, hsent, _⟩ := hmaps.back hm'
  obtain ⟨g, hg, hid, hx⟩ := hsent.games g' hg' slot x hx
  exact ⟨m, by rw [hsent.id]; exact Table.get?_of_mem hm, g, hg, hid, hx⟩

/-- The part of `SentIn` about one row, which every change keeps. -/
def Row (db : Db) (m' : Match) : Prop :=
  ∀ g' ∈ m'.games.rows, ∀ slot, ∀ x ∈ g'.submissions slot,
    ∃ m, db.match? m'.id = some m ∧ ∃ g ∈ m.games.rows, g.id = g'.id ∧ x ∈ g.submissions slot

theorem row_sent {m m' : Match} (h : m.Sent m') (hm : Row db m) : Row db m' := by
  intro g'' hg'' slot x hx
  obtain ⟨g', hg', hid', hx'⟩ := h.games g'' hg'' slot x hx
  obtain ⟨n, here, g, hg, hid, hx⟩ := hm g' hg' slot x hx'
  exact ⟨n, by rw [h.id]; exact here, g, hg, hid.trans hid', hx⟩

theorem change (h : SentIn db db1) (hchange : Change true scope db1 db') : SentIn db db' := by
  have hcovers : Covers (fun m m' => Row db m → Row db m') true scope :=
    { refl := fun _ h => h
      trans := fun _ _ _ h h' hm => h' (h hm)
      row := fun _ _ _ step => row_sent (.row step)
      decide := fun _ _ _ step => row_sent (.decide step)
      receive := fun m slot p seed hm => row_sent ((@Match.Sent.covers scope).receive m slot p seed hm) }
  refine hchange.rows hcovers (fun m hgames _ _ => ?_) h
  intro g hg
  rw [hgames] at hg
  exact absurd hg List.not_mem_nil

theorem path (h : SentIn db db1) (hpath : Path true scope db1 db') : SentIn db db' := by
  induction hpath with
  | refl => exact h
  | tail _ hstep ih => exact ih.change hstep

end SentIn

section
variable {db db' : Db} {id : MatchId} {m m' : Match} {site : Site} {op : Op}

/-- Only a player who submits adds a submission. -/
theorem Op.sentIn (hdb : WellFormed db) (hsucceeds : op.succeeds site db = true)
    (hop : ∀ profile superuser id game order language source,
      op ≠ .submit profile superuser id game order language source) : SentIn db (op.after site db) := by
  obtain ⟨u, t, hrun, hafter⟩ := Op.run_of_succeeds hsucceeds
  cases op with
  | organize actor request =>
      obtain ⟨db1, hspecial, hpath⟩ := (Op.refines hsucceeds hdb).path
      have hstart : SentIn db db1 := .of_maps (Op.special_maps hspecial
        (@Match.Sent.covers fun _ => False) Match.Sent.coversSpecial)
      exact hstart.path hpath
  | tick id =>
      have hpath : Path true (fun i => i = id) _ t.db := tick_path hrun hdb rfl
      rw [hafter]
      exact (SentIn.refl db).path hpath
  | submit => exact absurd rfl (hop _ _ _ _ _ _ _)
  | judge id =>
      have hpath : Path true (fun i => i = id) _ t.db := judge_path hrun rfl
      rw [hafter]
      exact (SentIn.refl db).path hpath

/-- The submission was there: in the game of that match, from the same player. -/
def SentBefore (db : Db) (id : MatchId) (gameId : GameId) (slot : Slot) (attempt : Attempt) : Prop :=
  ∃ m, db.match? id = some m ∧ ∃ g ∈ m.games.rows, g.id = gameId ∧ attempt.submission ∈ g.submissions slot

/-- The operation in which the player of the slot sends the submission. -/
def Op.Sends (op : Op) (site : Site) (db : Db) (id : MatchId) (gameId : GameId) (slot : Slot)
    (attempt : Attempt) : Prop :=
  ∃ profile superuser order language source m, op = .submit profile superuser id gameId order language source ∧
    db.match? id = some m ∧ m.slotOf profile = some slot ∧ attempt.date = site.now

theorem SentIn.attempt {g' : Game} {slot : Slot} {attempt : Attempt} (h : SentIn db db')
    (hm' : m' ∈ db'.battles.rows) (hg' : g' ∈ m'.games.rows) (ha : attempt ∈ g'.attempts slot) :
    SentBefore db m'.id g'.id slot attempt :=
  h m' hm' g' hg' slot _ (List.mem_map_of_mem ha)

/-- Whatever is in a game after an operation was there before, or is sent in it and passes the gate. -/
theorem Op.sends (hdb : WellFormed db) {g' : Game} {slot : Slot} {attempt : Attempt}
    (hm' : m' ∈ (op.after site db).battles.rows) (hg' : g' ∈ m'.games.rows) (ha : attempt ∈ g'.attempts slot) :
    SentBefore db m'.id g'.id slot attempt ∨
      (op.Sends site db m'.id g'.id slot attempt ∧ g'.Accepts slot attempt) := by
  cases hsucceeds : op.succeeds site db with
  | false =>
      rw [Op.after_of_refused hsucceeds] at hm'
      exact .inl ((SentIn.refl db).attempt hm' hg' ha)
  | true =>
      by_cases hop : ∀ profile superuser id game order language source,
          op ≠ .submit profile superuser id game order language source
      · exact .inl ((Op.sentIn hdb hsucceeds hop).attempt hm' hg' ha)
      · push Not at hop
        obtain ⟨profile, superuser, id, gameId, order, language, source, rfl⟩ := hop
        obtain ⟨u, t, hrun, hafter⟩ := Op.run_of_succeeds hsucceeds
        obtain ⟨sender, sent, db1, hpath, hsubmits⟩ :=
          submit_submits true (fun i => i = id) hrun hdb rfl
        have hsent : SentIn db db1 := (SentIn.refl db).path hpath
        obtain ⟨m, g, c, here, hget, hc, haccepts, hsaved⟩ := hsubmits.saved
        have hmid : m.id = id := Table.key_of_get? here
        have hgid : g.id = gameId := Table.key_of_get? hget
        rw [hafter, hsaved] at hm'
        -- only one game of one match has changed
        rcases Table.mem_put hm' with rfl | ⟨hm', _⟩
        · rcases Match.mem_setGame hg' with rfl | ⟨hg', _⟩
          · have hold : attempt ∈ g.attempts slot → SentBefore db m.id g.id slot attempt :=
              hsent.attempt (Table.mem_of_get? here) (Table.mem_of_get? hget)
            by_cases hslot : slot = sender
            · subst hslot
              simp only [Game.submitted, Game.attempts, Option.elim_some, Pair.get_set_self, List.mem_append,
                List.mem_singleton] at ha
              rcases ha with ha | rfl
              · exact .inl (hold (by simpa [Game.attempts, hc] using ha))
              · obtain ⟨n, hn, hplayer⟩ := hsubmits.player
                refine .inr ⟨⟨profile, superuser, order, language, source, n, ?_, hmid ▸ hn, hplayer,
                  hsubmits.date⟩, haccepts⟩
                show Op.submit profile superuser id gameId order language source =
                  .submit profile superuser m.id g.id order language source
                rw [hmid, hgid]
            · simp only [Game.submitted, Game.attempts, Option.elim_some, Pair.get_set_of_ne _ _ hslot] at ha
              exact .inl (hold (by simpa [Game.attempts, hc] using ha))
          · have hold : SentBefore db m.id g'.id slot attempt := hsent.attempt (Table.mem_of_get? here) hg' ha
            exact .inl hold
        · exact .inl (hsent.attempt hm' hg' ha)

/-! ## A game that no longer accepts submissions -/

/-- In `db` the game is where `g` left it or further on, and nothing has been sent since. -/
def Shut (id : MatchId) (g : Game) (db : Db) : Prop :=
  ∃ m', db.match? id = some m' ∧ ∃ g' ∈ m'.games.rows, g'.id = g.id ∧ g'.started = true ∧
    g.status.rank ≤ g'.status.rank ∧ ∀ slot, ∀ x ∈ g'.submissions slot, x ∈ g.submissions slot

theorem GameStatus.Onward.rank_le {organizer : Bool} {x y : GameStatus} (h : x.Onward organizer y) :
    x.rank ≤ y.rank := by
  rcases h with rfl | ⟨hlt, _⟩
  · exact le_refl _
  · exact le_of_lt hlt

theorem GameStatus.rank_of_opened {x : GameStatus} (h : x.opened = true) : x.rank ≤ 2 := by
  revert h
  cases x <;> simp [GameStatus.opened, GameStatus.rank]

theorem Shut.after {g : Game} (hdb : WellFormed db) (hrank : 2 < g.status.rank) (h : Shut id g db) :
    Shut id g (op.after site db) := by
  obtain ⟨m', here', g', hg', hid, hstarted, hle, hsent⟩ := h
  have hlasts : Follows (Match.Lasts op.organizer) db (op.after site db) := Op.lasts hdb
  rcases hlasts.kept id m' here' with ⟨m'', here'', hm, _⟩ | ⟨_, hunplayed⟩
  · obtain ⟨g'', hg'', hid', hstarted', honward⟩ := hm.games g' hg' hstarted
    have hle' : g.status.rank ≤ g''.status.rank := hle.trans honward.rank_le
    refine ⟨m'', here'', g'', hg'', hid'.trans hid, hstarted', hle', fun slot x hx => ?_⟩
    obtain ⟨attempt, ha, rfl⟩ := List.mem_map.mp hx
    rcases Op.sends hdb (Table.mem_of_get? here'') hg'' ha with ⟨n, hn, f, hf, hfid, hold⟩ | ⟨_, haccepts⟩
    · -- the row and the game it was in are the ones of before
      have hmid : m''.id = id := Table.key_of_get? here''
      rw [hmid, here'] at hn
      obtain rfl := Option.some.inj hn
      have hsame : some f = some g' := by
        rw [← Table.get?_of_mem hf, ← Table.get?_of_mem hg']
        exact congrArg _ (hfid.trans hid')
      obtain rfl := Option.some.inj hsame
      exact hsent slot _ hold
    · have hopened := GameStatus.rank_of_opened haccepts.opened
      omega
  · rw [Match.started_iff.mpr ⟨g', hg', hstarted⟩] at hunplayed
    cases hunplayed

/-- Every submission of every run passed the gate when it was sent, and nothing is sent to a game that was played and
    is no longer open. -/
theorem submission_gate (h : Reachable db) :
    (∀ (site : Site) (op : Op), ∀ m' ∈ (op.after site db).battles.rows, ∀ g' ∈ m'.games.rows, ∀ slot,
      ∀ attempt ∈ g'.attempts slot, SentBefore db m'.id g'.id slot attempt ∨
        (op.Sends site db m'.id g'.id slot attempt ∧ g'.Accepts slot attempt)) ∧
    (∀ m ∈ db.battles.rows, ∀ g ∈ m.games.rows, g.status ≠ .prepared → g.status.opened = false →
      ∀ db', Run anyStep db db' → ∃ m', db'.match? m.id = some m' ∧ ∃ g' ∈ m'.games.rows, g'.id = g.id ∧
        ∀ slot, ∀ x ∈ g'.submissions slot, x ∈ g.submissions slot) := by
  have hdb := h.wellFormed
  refine ⟨fun site op m' hm' g' hg' slot attempt ha => Op.sends hdb hm' hg' ha, ?_⟩
  intro m hm g hg hprepared hshut db' hrun
  have hstarted : g.started = true := ((hdb.sound m hm).played g hg).mpr hprepared
  have hrank : 2 < g.status.rank := by
    revert hprepared hshut
    cases g.status <;> simp [GameStatus.opened, GameStatus.rank]
  have hinv : WellFormed db' ∧ Shut m.id g db' := by
    refine hrun.keeps (I := fun db => WellFormed db ∧ Shut m.id g db) (fun site op db _ hI => ?_)
      ⟨hdb, m, Table.get?_of_mem hm, g, hg, rfl, hstarted, le_refl _, fun _ _ hx => hx⟩
    exact ⟨(Op.keeps (I := fun _ => True) hI.1 trivial (fun _ _ => trivial) fun _ _ _ => trivial).1, hI.2.after hI.1 hrank⟩
  obtain ⟨_, m', here', g', hg', hid, _, _, hsent⟩ := hinv
  exact ⟨m', here', g', hg', hid, hsent⟩

end

/-- The duel under way, nothing sent. -/
def duelUnderWay : Db := Db.play {}
  [({ now := 0 }, duel), ({ now := 0 }, .organize 9 (.onMatch 1 none (.start none true)))]

/-- The first player sends something. -/
def firstSent : Db := (Op.submit 1 false 1 2 0 "PY3" "print()").after { now := 600000000 } duelUnderWay

theorem submission_gate_first : ∃ m ∈ firstSent.battles.rows, ∃ g ∈ m.games.rows, ∃ attempt ∈ g.attempts .a,
    g.Accepts .a attempt := by
  have hsent : firstSent.battles.rows.any fun m => m.games.rows.any fun g => g.attempts .a ≠ [] := by decide +kernel
  have hnone : duelUnderWay.battles.rows.all fun m => m.games.rows.all fun g => g.submissions .a = [] := by
    decide +kernel
  obtain ⟨m, hm, hgames⟩ := List.any_eq_true.mp hsent
  obtain ⟨g, hg, hattempts⟩ := List.any_eq_true.mp hgames
  obtain ⟨attempt, ha⟩ := List.exists_mem_of_ne_nil _ (of_decide_eq_true hattempts)
  have hreach : Reachable duelUnderWay := Run.play _
  rcases (submission_gate hreach).1 _ _ m hm g hg .a attempt ha with ⟨n, hn, f, hf, _, hold⟩ | ⟨_, haccepts⟩
  · have hempty := List.all_eq_true.mp (List.all_eq_true.mp hnone n (Table.mem_of_get? hn)) f hf
    rw [of_decide_eq_true hempty] at hold
    cases hold
  · exact ⟨m, hm, g, hg, attempt, ha, haccepts⟩

end Arena
end CpcJudge
