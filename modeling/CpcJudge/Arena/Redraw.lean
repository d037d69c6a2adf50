import CpcJudge.Arena.Drafts

/-!
# `Arena.Redraw` — a bracket drawn again

A draft bracket is deleted and built again, and the problems already chosen are carried over by their place. A second
bracket is never refused (`buildBracket_completes`), and it is the first one with other keys (`Alike`): the two are
built step by step, the same players to the same places.
-/

namespace CpcJudge
namespace Arena

open CpcJudge.Txn (Completes completes_bind bind_ok pure_ok)

/-! ## A bracket is drawn -/

section
variable {s t : Txn} {u : Unit} {db db' : Db} {m m' : Match} {id : TournamentId} {now : Time}

/-- A match that may receive a player. -/
def Db.Opens (db : Db) (i : MatchId) : Prop := ∃ n, db.match? i = some n ∧ n.started = false

/-- A match that receives a player keeps its place and its games. -/
structure Match.SameGames (m m' : Match) : Prop where
  static : m'.static = m.static
  games : m'.games = m.games

theorem Match.SameGames.covers : Covers Match.SameGames true fun _ => False where
  refl _ := ⟨rfl, rfl⟩
  trans _ _ _ h h' := ⟨h'.static.trans h.static, h'.games.trans h.games⟩
  row _ _ own _ := own.elim
  decide _ _ own _ := own.elim
  receive m slot p seed _ := by
    obtain ⟨_, heq, _⟩ := m.receive_eq slot (some p) seed
    rw [heq]
    exact ⟨rfl, rfl⟩

theorem Db.Opens.maps {i : MatchId} (h : db.Opens i)
    (hmaps : Table.Maps (Match.Still Match.SameGames) db.battles db'.battles) : db'.Opens i := by
  obtain ⟨n, here, hstarted⟩ := h
  obtain ⟨n', here', hsame, _⟩ := hmaps.forth here
  refine ⟨n', here', ?_⟩
  rw [Match.started, hsame.games]
  exact hstarted

theorem place_completes {i : MatchId} (slot : Slot) (p : ProfileId) (seed : Option ℕ) (h : s.db.Opens i) :
    ∃ t, place i slot (some p) seed s = .ok ⟨⟩ t := by
  obtain ⟨n, here, hstarted⟩ := h
  exact ⟨_, place_ok.mpr ⟨n, here, hstarted, rfl⟩⟩

theorem checkFinished_completes (now : Time) (h : (s.db.tournament? id).isSome = true) : ∃ t, checkFinished now id s = .ok ⟨⟩ t := by
  obtain ⟨row, here⟩ := Option.isSome_iff_exists.mp h
  by_cases hdone : row.status = .running ∧ s.db.bracketDone id = true
  · exact ⟨_, checkFinished_ok.mpr ⟨row, here, .inl ⟨hdone.1, hdone.2, rfl⟩⟩⟩
  · exact ⟨_, checkFinished_ok.mpr ⟨row, here, .inr ⟨fun hrunning => by simpa [hrunning] using hdone, rfl⟩⟩⟩

/-- The players of a match move on if their next matches may receive them. -/
theorem advance_completes (now : Time) {w : Slot} (hw : m.winnerSlot = some w) (htournament : m.tournament = some id)
    (hseated : (m.players.get w).isSome = true) (hrow : (s.db.tournament? id).isSome = true)
    (htargets : ∀ q ∈ m.targets, s.db.Opens q.1) : ∃ t, advance now m s = .ok ⟨⟩ t := by
  obtain ⟨p, hp⟩ := Option.isSome_iff_exists.mp hseated
  have hcheck : ∀ x : Txn, x.db.tournaments = s.db.tournaments → ∃ t, checkFinished now id x = .ok ⟨⟩ t := fun x hx =>
    checkFinished_completes now (by rwa [Db.tournament?, hx])
  -- whoever lost, once the winner is in place
  have hloser : ∀ {target : MatchId × Slot} {q : ProfileId}, m.loserNextMatch = some target → ∀ v : Txn,
      v.db.tournaments = s.db.tournaments → Table.Maps (Match.Still Match.SameGames) s.db.battles v.db.battles →
      ∃ t, (do place target.1 target.2 (some q) (m.seeds.get w.other); checkFinished now id) v = .ok ⟨⟩ t := by
    intro target q htarget v htournaments hmaps
    have hopens : v.db.Opens target.1 := (htargets target (Match.mem_targets.mpr (.inr htarget))).maps hmaps
    obtain ⟨x, hplace⟩ := place_completes target.2 q (m.seeds.get w.other) hopens
    obtain ⟨t, ht⟩ := hcheck x ((place_placed hplace).tournaments.trans htournaments)
    exact ⟨t, bind_ok.mpr ⟨⟨⟩, x, hplace, ht⟩⟩
  have hwinner : ∀ {target : MatchId × Slot} {rest : ArenaM Unit}, m.nextMatch = some target →
      (∀ v : Txn, v.db.tournaments = s.db.tournaments →
        Table.Maps (Match.Still Match.SameGames) s.db.battles v.db.battles → ∃ t, rest v = .ok ⟨⟩ t) →
      ∃ t, (do place target.1 target.2 (some p) (m.seeds.get w); rest) s = .ok ⟨⟩ t := by
    intro target rest hnext hrest
    have hopens : s.db.Opens target.1 := htargets target (Match.mem_targets.mpr (.inl hnext))
    obtain ⟨v, hplace⟩ := place_completes target.2 p (m.seeds.get w) hopens
    have hplaced := place_placed hplace
    obtain ⟨t, ht⟩ := hrest v hplaced.tournaments (hplaced.maps Match.SameGames.covers)
    exact ⟨t, bind_ok.mpr ⟨⟨⟩, v, hplace, ht⟩⟩
  have hstill : Table.Maps (Match.Still Match.SameGames) s.db.battles s.db.battles :=
    .refl Match.SameGames.covers.still_refl _
  unfold advance
  simp only [htournament, hw, hp]
  cases hnext : m.nextMatch with
  | none =>
      cases htarget : m.loserNextMatch with
      | none => exact hcheck s rfl
      | some target =>
          cases hq : m.players.get w.other with
          | none => exact hcheck s rfl
          | some q => exact hloser htarget s rfl hstill
  | some next =>
      cases htarget : m.loserNextMatch with
      | none => exact hwinner hnext fun v hv _ => hcheck v hv
      | some target =>
          cases hq : m.players.get w.other with
          | none => exact hwinner hnext fun v hv _ => hcheck v hv
          | some q => exact hwinner hnext (hloser htarget)

theorem Advanced.tournament?_isSome {i : TournamentId} (h : Advanced m db db')
    (hrow : (db.tournament? i).isSome = true) : (db'.tournament? i).isSome = true := by
  have hput : ∀ {x : Db} {row : Tournament}, x.tournaments = db.tournaments.put row →
      (x.tournament? i).isSome = true := fun {x row} hx => by
    rw [Option.isSome_iff_ne_none, Db.tournament?, hx, Ne, Table.get?_put_eq_none]
    rwa [Option.isSome_iff_ne_none] at hrow
  cases h with
  | quick => exact hrow
  | onward _ _ _ next loser checked =>
      have hplaced := loser.tournaments.trans next.tournaments
      cases checked with
      | finished here _ _ _ sameId _ _ tournaments => exact hput (tournaments.trans (by rw [hplaced]))
      | same => rwa [Db.tournament?, hplaced]

theorem giveByes_tournament?_isSome {far : MatchId → Prop} {i : TournamentId} {ids : List MatchId}
    (h : giveByes now ids s = .ok u t) (hids : ∀ j ∈ ids, far j ∧ ∃ m, AwaitsBye id far s.db j m) :
    (s.db.tournament? i).isSome = true → (t.db.tournament? i).isSome = true :=
  giveByes_keeps (P := fun db db' => (db.tournament? i).isSome = true → (db'.tournament? i).isSome = true)
    (fun _ h => h) (fun h h' hrow => h' (h hrow)) h hids fun _ _ _ hadvanced hrow => hadvanced.tournament?_isSome hrow

/-- A match waits for its bye, and nothing is in the way. -/
structure MayBye (id : TournamentId) (far : MatchId → Prop) (db : Db) (i : MatchId) : Prop where
  away : far i
  waits : ∃ m, AwaitsBye id far db i m
  opens : ∀ m, db.match? i = some m → ∀ q ∈ m.targets, db.Opens q.1

theorem giveByes_completes {far : MatchId → Prop} : ∀ {ids : List MatchId} {s : Txn},
    (∀ i ∈ ids, MayBye id far s.db i) → (s.db.tournament? id).isSome = true → ∃ t, giveByes now ids s = .ok ⟨⟩ t
  | [], s, _, _ => ⟨s, pure_ok.mpr ⟨rfl, rfl⟩⟩
  | i :: ids, s, hids, hrow => by
    obtain ⟨_, ⟨m, hwaits⟩, hopens⟩ := hids i List.mem_cons_self
    simp only [giveByes, tables_bind]
    rw [hwaits.here, Option.any_some]
    by_cases hpending : m.status = .pending
    · let m1 := m.award .a .bye now (m.version + 1)
      let s1 := (s.holdingMatch m).wrote (·.putMatch m1)
      have hid : m.id = i := Table.key_of_get? hwaits.here
      have hdb1 : s1.db = s.db.putMatch m1 := by rw [Txn.wrote_db, Txn.holdingMatch_db]
      have hsaved : Table.Maps (Match.Still Match.SameGames) s.db.battles s1.db.battles := by
        rw [hdb1]
        refine Table.Maps.put (b := m) Match.SameGames.covers.still_refl ?_ ⟨⟨rfl, rfl⟩, fun h => h⟩
        rw [show Keyed.key m1 = i from hid]
        exact hwaits.here
      have hrow1 : (s1.db.tournament? id).isSome = true := by
        rw [hdb1]
        exact hrow
      obtain ⟨v, hadvance⟩ : ∃ v, advance now m1 s1 = .ok ⟨⟩ v :=
        advance_completes now rfl hwaits.tournament hwaits.seated hrow1 fun q hq =>
          (hopens m hwaits.here q hq).maps hsaved
      have hadvanced : Advanced m1 s1.db v.db := advance_advanced hadvance rfl hwaits.seated
      have hopened : Table.Maps (Match.Opened now far [i]) s.db.battles v.db.battles :=
        hwaits.maps_head (.inr ⟨hpending, hdb1 ▸ hadvanced⟩)
      have hkept := hsaved.trans Match.SameGames.covers.still_trans (hadvanced.maps Match.SameGames.covers)
      have hids' : ∀ j ∈ ids, MayBye id far v.db j := fun j hj => by
        obtain ⟨hfar, ⟨x, hx⟩, hxopens⟩ := hids j (List.mem_cons_of_mem i hj)
        refine ⟨hfar, hx.maps hfar hopened, fun y hy q hq => ?_⟩
        obtain ⟨y', hy', hsame, _⟩ := hkept.back_get? hy
        rw [Match.targets_of_static hsame.static] at hq
        exact (hxopens y' hy' q hq).maps hkept
      obtain ⟨t, hrest⟩ := giveByes_completes hids' (hadvanced.tournament?_isSome hrow1)
      refine ⟨t, Txn.ite_ok.mpr (.inl ⟨decide_eq_true hpending, ?_⟩)⟩
      refine bind_ok.mpr ⟨m, s.holdingMatch m, lockMatch_ok.mpr ⟨hwaits.here, rfl⟩, ?_⟩
      simp only [hwaits.seated, if_true, saveMatch_bind]
      exact bind_ok.mpr ⟨⟨⟩, v, hadvance, hrest⟩
    · obtain ⟨t, hrest⟩ := giveByes_completes (fun j hj => hids j (List.mem_cons_of_mem i hj)) hrow
      exact ⟨t, Txn.ite_ok.mpr (.inr ⟨by simpa using hpending, hrest⟩)⟩

theorem addGames_completes : ∀ (problems : List (List GameProblem)) (number : ℕ) (m : Match) (s : Txn),
    ∃ m' t, addGames m number problems s = .ok m' t
  | [], _, m, s => ⟨m, s, pure_ok.mpr ⟨rfl, rfl⟩⟩
  | problems :: rest, number, m, s => by
    simp only [addGames, freshId_bind, saveMatch_bind]
    exact addGames_completes rest _ _ _

theorem restoreGames_completes (chosen : List (Place × List GameProblem)) : ∀ (ids : List MatchId) (s : Txn),
    ∃ t, restoreGames chosen ids s = .ok ⟨⟩ t
  | [], s => ⟨s, pure_ok.mpr ⟨rfl, rfl⟩⟩
  | i :: ids, s => by
    simp only [restoreGames, tables_bind]
    cases here : s.db.match? i with
    | none => exact restoreGames_completes chosen ids s
    | some m =>
        by_cases hdecided : m.status = .decided
        · obtain ⟨t, hrest⟩ := restoreGames_completes chosen ids s
          exact ⟨t, Txn.ite_ok.mpr (.inl ⟨hdecided, hrest⟩)⟩
        · obtain ⟨m', v, hgames⟩ := addGames_completes (chosenFor chosen m) 1 m s
          obtain ⟨t, hrest⟩ := restoreGames_completes chosen ids v
          exact ⟨t, Txn.ite_ok.mpr (.inr ⟨hdecided, bind_ok.mpr ⟨m', v, hgames, hrest⟩⟩)⟩

/-- Players go to matches of their bracket. -/
theorem BracketPlan.exists_target {d : BracketPlan} (fits : d.Fits) (hm : m ∈ d.allMatches) {q : MatchId × Slot}
    (hq : q ∈ m.targets) : ∃ n ∈ d.allMatches, n.id = q.1 := by
  obtain ⟨hlow, hhigh, -⟩ := d.target_bounds fits hm hq
  have hmem : q.1 ∈ d.allMatches.map (·.id) := by
    rw [BracketPlan.ids_eq fits]
    exact List.mem_range'_1.mpr ⟨hlow, hhigh⟩
  exact List.mem_map.mp hmem

/-- **A bracket is drawn** for two participants or more while no game of it started. -/
theorem buildBracket_completes {site : Site} {actor : Option ProfileId} {row : Tournament}
    (hcount : 2 ≤ row.participants.length) (hseeded : row.Seeded)
    (hbelow : ∀ m ∈ s.db.battles.rows, m.id < s.db.nextId)
    (hunplayed : ∀ m ∈ s.db.battles.rows, m.tournament = some row.id → m.started = false)
    (hrow : (s.db.tournament? row.id).isSome = true) : ∃ row' u, buildBracket site actor row s = .ok row' u := by
  have hplans := Tournament.plan_plans site actor s hcount hseeded
  generalize hd : row.plan site actor s.db.nextId = d at hplans
  have hopens : ∀ n ∈ d.allMatches, (s.drawing d).db.Opens n.id := fun n hn => by
    refine ⟨n, hplans.match?_drawn hbelow hn, ?_⟩
    rw [Match.started, (d.mem_fresh hplans.fits hn).2.1]
    rfl
  have hbyes : ∃ opened, giveByes site.now ((d.roundMatches (d.rounds - 1)).map (·.id)) (s.drawing d) =
      .ok ⟨⟩ opened := by
    have hids : ∀ i ∈ (d.roundMatches (d.rounds - 1)).map (·.id), MayBye d.tournament.id d.Far (s.drawing d).db i := by
      intro i hi
      obtain ⟨hfar, hwaits⟩ := hplans.awaits hbelow i hi
      refine ⟨hfar, hwaits, fun m here q hq => ?_⟩
      obtain ⟨n, hn, rfl⟩ := List.mem_map.mp hi
      have hall := (BracketPlan.mem_firstRound hplans.fits hn).1
      obtain rfl := Option.some.inj (here.symm.trans (hplans.match?_drawn hbelow hall))
      obtain ⟨x, hx, hxq⟩ := BracketPlan.exists_target hplans.fits hall hq
      exact hxq ▸ hopens x hx
    refine giveByes_completes hids ?_
    rw [hplans.tournament_id, Option.isSome_iff_ne_none, Db.tournament?, hplans.tournaments, Ne, Table.get?_put_eq_none]
    rwa [Option.isSome_iff_ne_none] at hrow
  obtain ⟨opened, hbyes⟩ := hbyes
  obtain ⟨restored, hrestore⟩ := restoreGames_completes (chosenProblems s.db row.id) (d.allMatches.map (·.id)) opened
  subst hd
  exact ⟨_, _, buildBracket_ok.mpr ⟨hcount, hunplayed, opened, restored, hbyes, hrestore, rfl, rfl⟩⟩

end

/-! ## Two brackets alike -/

/-- Where two matches send a player: to the same one of `size` matches, that have keys from `b` and from `c`. -/
def Relinked (b c size : ℕ) (x y : Option (MatchId × Slot)) : Prop :=
  ∃ link : Option (ℕ × Slot), (∀ q ∈ link, q.1 < size) ∧ x = link.map (fun q => (b + q.1, q.2)) ∧
    y = link.map fun q => (c + q.1, q.2)

theorem Relinked.nowhere {b c size : ℕ} : Relinked b c size none none :=
  ⟨none, fun q hq => absurd hq (by simp), rfl, rfl⟩

theorem Relinked.somewhere {b c size k : ℕ} {x y : Option (MatchId × Slot)} (slot : Slot) (hk : k < size)
    (hx : x = some (b + k, slot)) (hy : y = some (c + k, slot)) : Relinked b c size x y :=
  ⟨some (k, slot), fun q hq => by obtain rfl := Option.some.inj hq; exact hk, hx, hy⟩

/-- The same match of a bracket whose keys start at `b` and of one whose keys start at `c`. -/
structure Match.Alike (b c size : ℕ) (m m' : Match) : Prop where
  spot : m'.spot = m.spot
  tournament : m'.tournament = m.tournament
  players : m'.players = m.players
  seeds : m'.seeds = m.seeds
  status : m'.status = m.status
  winner : m'.winnerSlot = m.winnerSlot
  reason : m'.decidedReason = m.decidedReason
  next : Relinked b c size m.nextMatch m'.nextMatch
  loser : Relinked b c size m.loserNextMatch m'.loserNextMatch

/-- Two brackets of `size` matches, alike match by match. -/
def Alike (b c size : ℕ) (db db' : Db) : Prop :=
  ∀ k < size, ∃ m m', db.match? (b + k) = some m ∧ db'.match? (c + k) = some m' ∧ m.Alike b c size m'

section
variable {b c size : ℕ} {db db' dx dy : Db} {m m' : Match}

theorem Match.receive_status (m : Match) (slot : Slot) (p : Option ProfileId) (seed : Option ℕ) :
    (m.receive slot p seed).status =
      if (m.players.set slot p).a.isSome && (m.players.set slot p).b.isSome && m.status = .pending then .ready
      else if !((m.players.set slot p).a.isSome && (m.players.set slot p).b.isSome) && m.status = .ready then .pending
      else m.status := by
  unfold Match.receive Match.ready Match.bump
  simp only [Bool.false_eq_true, if_false]
  split_ifs <;> rfl

theorem Match.Alike.receive (h : m.Alike b c size m') (slot : Slot) (p : Option ProfileId) (seed : Option ℕ) :
    (m.receive slot p seed).Alike b c size (m'.receive slot p seed) := by
  have hstatus : (m'.receive slot p seed).status = (m.receive slot p seed).status := by
    rw [Match.receive_status, Match.receive_status, h.players, h.status]
  obtain ⟨x, heq, -⟩ := m.receive_eq slot p seed
  obtain ⟨y, heq', -⟩ := m'.receive_eq slot p seed
  rw [heq, heq'] at hstatus ⊢
  exact ⟨h.spot, h.tournament, by rw [h.players], by rw [h.seeds], hstatus, h.winner, h.reason, h.next, h.loser⟩

theorem Match.Alike.award (h : m.Alike b c size m') (slot : Slot) (reason : DecidedReason) (now now' : Time)
    (v v' : ℕ) : (m.award slot reason now v).Alike b c size (m'.award slot reason now' v') :=
  ⟨h.spot, h.tournament, h.players, h.seeds, rfl, rfl, rfl, h.next, h.loser⟩

theorem Match.Alike.prepared {n n' : Match} (h : m.Alike b c size m') (hm : m.Prepared n) (hm' : m'.Prepared n') :
    n.Alike b c size n' := by
  obtain ⟨_, rfl⟩ := hm
  obtain ⟨_, rfl⟩ := hm'
  exact ⟨h.spot, h.tournament, h.players, h.seeds, h.status, h.winner, h.reason, h.next, h.loser⟩

theorem Alike.congr (h : Alike b c size db db') (hx : dx.battles = db.battles) (hy : dy.battles = db'.battles) :
    Alike b c size dx dy := by
  intro k hk
  obtain ⟨m, m', here, here', halike⟩ := h k hk
  exact ⟨m, m', by rwa [Db.match?, hx], by rwa [Db.match?, hy], halike⟩

theorem Alike.maps (h : Alike b c size db db') (hx : Table.Maps Match.Prepared db.battles dx.battles)
    (hy : Table.Maps Match.Prepared db'.battles dy.battles) : Alike b c size dx dy := by
  intro k hk
  obtain ⟨m, m', here, here', halike⟩ := h k hk
  obtain ⟨n, hn, hmn⟩ := hx.forth here
  obtain ⟨n', hn', hmn'⟩ := hy.forth here'
  exact ⟨n, n', hn, hn', halike.prepared hmn hmn'⟩

/-- One row saved in each. -/
theorem Alike.put {k : ℕ} (h : Alike b c size db db') (hm : m.Alike b c size m') (hid : m.id = b + k)
    (hid' : m'.id = c + k) : Alike b c size (db.putMatch m) (db'.putMatch m') := by
  intro j hj
  obtain ⟨n, n', here, here', halike⟩ := h j hj
  by_cases hjk : j = k
  · subst hjk
    refine ⟨m, m', ?_, ?_, hm⟩
    · rw [← hid] at here ⊢
      exact Table.get?_put_self here
    · rw [← hid'] at here' ⊢
      exact Table.get?_put_self here'
  · refine ⟨n, n', ?_, ?_, halike⟩
    · exact (Table.get?_put_of_ne (fun heq => hjk (Nat.add_left_cancel (heq.trans hid)))).trans here
    · exact (Table.get?_put_of_ne (fun heq => hjk (Nat.add_left_cancel (heq.trans hid')))).trans here'

theorem Alike.placed {seed : Option ℕ} {x y : Option (MatchId × Slot)} {p : Option ProfileId}
    (h : Alike b c size db db') (hlink : Relinked b c size x y) (hx : Placed seed db x p dx)
    (hy : Placed seed db' y p dy) : Alike b c size dx dy := by
  obtain ⟨link, hlt, rfl, rfl⟩ := hlink
  cases link with
  | none =>
      cases hx <;> cases hy <;> exact h
  | some q =>
      cases p with
      | none => cases hx; cases hy; exact h
      | some p =>
          cases hx with
          | placed slot p here _ =>
              cases hy with
              | placed slot p here' _ =>
                  obtain ⟨m, m', hm, hm', halike⟩ := h q.1 (hlt q rfl)
                  obtain rfl := Option.some.inj (hm.symm.trans here)
                  obtain rfl := Option.some.inj (hm'.symm.trans here')
                  refine h.put (k := q.1) (halike.receive _ _ _) ?_ ?_
                  · exact (Match.id_of_static (Match.receive_static _ _ _ _)).trans (Table.key_of_get? hm)
                  · exact (Match.id_of_static (Match.receive_static _ _ _ _)).trans (Table.key_of_get? hm')

theorem Alike.advanced (h : Alike b c size db db') (hm : m.Alike b c size m') (hx : Advanced m db dx)
    (hy : Advanced m' db' dy) : Alike b c size dx dy := by
  cases hx with
  | quick hnone =>
      cases hy with
      | quick => exact h
      | onward here => rw [hm.tournament, hnone] at here; cases here
  | onward here won _ next loser checked =>
      cases hy with
      | quick hnone => rw [hm.tournament, here] at hnone; cases hnone
      | onward _ won' _ next' loser' checked' =>
          rw [hm.winner, won] at won'
          obtain rfl := Option.some.inj won'
          rw [hm.players, hm.seeds] at next' loser'
          exact ((h.placed hm.next next next').placed hm.loser loser loser').congr checked.battles checked'.battles

/-- The same byes given in both. -/
theorem Alike.giveByes {id : TournamentId} {now now' : Time} {far far' : MatchId → Prop} {u : Unit} :
    ∀ {places : List ℕ} {s s' t t' : Txn}, Alike b c size s.db s'.db →
      Arena.giveByes now (places.map (b + ·)) s = .ok u t → Arena.giveByes now' (places.map (c + ·)) s' = .ok u t' →
      (∀ k ∈ places, k < size ∧ (far (b + k) ∧ ∃ m, AwaitsBye id far s.db (b + k) m) ∧
        (far' (c + k) ∧ ∃ m, AwaitsBye id far' s'.db (c + k) m)) → Alike b c size t.db t'.db
  | [], s, s', t, t', h, hrun, hrun', _ => by
    rw [(pure_ok.mp hrun).2, (pure_ok.mp hrun').2]
    exact h
  | k :: places, s, s', t, t', h, hrun, hrun', hplaces => by
    obtain ⟨hk, ⟨_, m, hwaits⟩, _, m', hwaits'⟩ := hplaces k List.mem_cons_self
    obtain ⟨x, x', hx, hx', halike⟩ := h k hk
    obtain rfl := Option.some.inj (hx.symm.trans hwaits.here)
    obtain rfl := Option.some.inj (hx'.symm.trans hwaits'.here)
    obtain ⟨v, hrest, hmoved⟩ := giveByes_cons hrun hwaits
    obtain ⟨v', hrest', hmoved'⟩ := giveByes_cons hrun' hwaits'
    have hnext : Alike b c size v.db v'.db := by
      rcases hmoved with ⟨hnot, rfl⟩ | ⟨hpending, hadvanced⟩ <;>
        rcases hmoved' with ⟨hnot', rfl⟩ | ⟨hpending', hadvanced'⟩
      · exact h
      · exact absurd (halike.status.symm.trans hpending') hnot
      · exact absurd (halike.status.trans hpending) hnot'
      · have haward := halike.award .a .bye now now' (x.version + 1) (x'.version + 1)
        exact (h.put haward (Table.key_of_get? hx) (Table.key_of_get? hx')).advanced haward hadvanced hadvanced'
    have hmaps : Table.Maps (Match.Opened now far [b + k]) s.db.battles v.db.battles :=
      hwaits.maps_head (hmoved.imp_left (And.imp_right (congrArg Txn.db)))
    have hmaps' : Table.Maps (Match.Opened now' far' [c + k]) s'.db.battles v'.db.battles :=
      hwaits'.maps_head (hmoved'.imp_left (And.imp_right (congrArg Txn.db)))
    have hplaces' : ∀ j ∈ places, j < size ∧ (far (b + j) ∧ ∃ m, AwaitsBye id far v.db (b + j) m) ∧
        (far' (c + j) ∧ ∃ m, AwaitsBye id far' v'.db (c + j) m) := fun j hj => by
      obtain ⟨hlt, ⟨hfar, y, hy⟩, hfar', y', hy'⟩ := hplaces j (List.mem_cons_of_mem k hj)
      exact ⟨hlt, ⟨hfar, hy.maps hfar hmaps⟩, hfar', hy'.maps hfar' hmaps'⟩
    exact Alike.giveByes hnext hrest hrest' hplaces'

end

/-! ## Two plans of one tournament -/

namespace BracketPlan
variable {d d' : BracketPlan}

theorem seatPlayers_players (d : BracketPlan) (m : Match) : (d.seatPlayers m).players =
    ⟨((seedingOrder d.size)[2 * m.position]?.bind d.seat).map Participant.profile,
      ((seedingOrder d.size)[2 * m.position + 1]?.bind d.seat).map Participant.profile⟩ := by
  unfold seatPlayers
  simp only
  split <;> rfl

/-- Two plans for the same participants seat them alike. -/
theorem seatPlayers_congr (hsize : d'.size = d.size)
    (hplayers : d'.tournament.participants = d.tournament.participants) (m m' : Match) (hposition : m'.position = m.position)
    (hpending : m.status = .pending) (hpending' : m'.status = .pending) :
    (d'.seatPlayers m').players = (d.seatPlayers m).players ∧ (d'.seatPlayers m').seeds = (d.seatPlayers m).seeds ∧
      (d'.seatPlayers m').status = (d.seatPlayers m).status := by
  have hseat : d'.seat = d.seat := by
    funext seed
    rw [seat, seat, hplayers]
  refine ⟨?_, ?_, ?_⟩
  · rw [seatPlayers_players, seatPlayers_players, hsize, hposition, hseat]
  · rw [seatPlayers_seeds, seatPlayers_seeds, hsize, hposition, hseat]
  · have hiff := d.seatPlayers_status m hpending
    have hiff' := d'.seatPlayers_status m' hpending'
    rw [hsize, hposition, hseat, ← hiff] at hiff'
    obtain ⟨_, _, status, heq, hstatus, -⟩ := d.seatPlayers_eq m hpending
    obtain ⟨_, _, status', heq', hstatus', -⟩ := d'.seatPlayers_eq m' hpending'
    rw [heq, heq'] at hiff' ⊢
    rcases hstatus with rfl | rfl <;> rcases hstatus' with rfl | rfl <;> simp at hiff' ⊢

/-- Two plans for the same participants. -/
structure Same (d d' : BracketPlan) : Prop where
  fits : d.Fits
  fits' : d'.Fits
  id : d'.tournament.id = d.tournament.id
  participants : d'.tournament.participants = d.tournament.participants
  third : d'.third = d.third

theorem Same.rounds (h : d.Same d') : d'.rounds = d.rounds := by rw [h.fits'.rounds, h.fits.rounds, h.participants]

theorem Same.length (h : d.Same d') : d'.allMatches.length = d.allMatches.length := by
  rw [length_allMatches h.fits', length_allMatches h.fits, h.rounds, h.third]

theorem matchId_eq (d : BracketPlan) (back position : ℕ) :
    d.matchId back position = d.base + (2 ^ back - 1 + position) := Nat.add_assoc _ _ _

theorem matchId_lt (fits : d.Fits) {back position : ℕ} (hback : back < d.rounds) (hposition : position < 2 ^ back) :
    2 ^ back - 1 + position < d.allMatches.length := by
  have hmem : d.node back position ∈ d.allMatches :=
    (mem_allMatches fits).mpr (.inl ⟨back, position, hback, hposition, rfl⟩)
  have := (d.id_bounds fits hmem).2
  rw [node_id, matchId_eq] at this
  exact Nat.lt_of_add_lt_add_left this

theorem thirdId_lt (fits : d.Fits) (hthird : d.third = true) : 2 ^ d.rounds - 1 < d.allMatches.length := by
  rw [length_allMatches fits, if_pos hthird]
  omega

/-- They lead their players alike. -/
theorem Same.links (h : d.Same d') {back position : ℕ} (hback : back < d.rounds) (hposition : position < 2 ^ back) :
    Relinked d.base d'.base d.allMatches.length (d.node back position).nextMatch (d'.node back position).nextMatch ∧
      Relinked d.base d'.base d.allMatches.length (d.node back position).loserNextMatch
        (d'.node back position).loserNextMatch := by
  rw [Match.nextMatch_of_static (d.node_static back position), Match.nextMatch_of_static (d'.node_static back position),
    Match.loserNextMatch_of_static (d.node_static back position),
    Match.loserNextMatch_of_static (d'.node_static back position)]
  constructor
  · cases back with
    | zero => exact .nowhere
    | succ back =>
        refine .somewhere (slotOf position) (matchId_lt h.fits (Nat.lt_of_succ_lt hback) (half_lt_pow hposition)) ?_ ?_
        · exact congrArg (fun i => some (i, slotOf position)) (d.matchId_eq back (position / 2))
        · exact congrArg (fun i => some (i, slotOf position)) (d'.matchId_eq back (position / 2))
  · unfold blank
    rw [h.third]
    by_cases hsemi : back = 1 ∧ d.third = true
    · rw [if_pos hsemi, if_pos hsemi]
      refine .somewhere (if position = 0 then .a else .b) (thirdId_lt h.fits hsemi.2) rfl ?_
      rw [thirdId, h.rounds]
    · rw [if_neg hsemi, if_neg hsemi]
      exact .nowhere

/-- They seat their players alike. -/
theorem Same.seats (h : d.Same d') (back position : ℕ) :
    (d'.node back position).players = (d.node back position).players ∧
      (d'.node back position).seeds = (d.node back position).seeds ∧
      (d'.node back position).status = (d.node back position).status := by
  have hsize : d'.size = d.size := by rw [h.fits'.size, h.fits.size, h.participants]
  unfold BracketPlan.node
  rw [h.rounds]
  split
  · exact seatPlayers_congr hsize h.participants _ _ rfl rfl rfl
  · exact ⟨rfl, rfl, rfl⟩

/-- Nobody won a match that was just created. -/
theorem node_winner (d : BracketPlan) (back position : ℕ) :
    (d.node back position).winnerSlot = none ∧ (d.node back position).decidedReason = none := by
  obtain ⟨_, _, _, heq, -⟩ := d.node_eq back position
  rw [heq]
  exact ⟨rfl, rfl⟩

/-- Their matches are alike. -/
theorem Same.node (h : d.Same d') {back position : ℕ} (hback : back < d.rounds) (hposition : position < 2 ^ back) :
    (d.node back position).Alike d.base d'.base d.allMatches.length (d'.node back position) where
  spot := by rw [node_spot, node_spot, h.rounds]
  tournament := by
    rw [Match.tournament_of_static (d.node_static back position),
      Match.tournament_of_static (d'.node_static back position)]
    exact congrArg some h.id
  players := (h.seats back position).1
  seeds := (h.seats back position).2.1
  status := (h.seats back position).2.2
  winner := (d'.node_winner back position).1.trans (d.node_winner back position).1.symm
  reason := (d'.node_winner back position).2.trans (d.node_winner back position).2.symm
  next := (h.links hback hposition).1
  loser := (h.links hback hposition).2

/-- The key of each comes after the first one by its place. -/
theorem Same.matches (h : d.Same d') {k : ℕ} (hk : k < d.allMatches.length) :
    ∃ n ∈ d.allMatches, ∃ n' ∈ d'.allMatches, n.id = d.base + k ∧ n'.id = d'.base + k ∧
      n.Alike d.base d'.base d.allMatches.length n' := by
  have hmem : d.base + k ∈ d.allMatches.map (·.id) := by
    rw [ids_eq h.fits]
    exact List.mem_range'_1.mpr ⟨Nat.le_add_right _ _, Nat.add_lt_add_left hk _⟩
  obtain ⟨n, hn, hid⟩ := List.mem_map.mp hmem
  rcases (mem_allMatches h.fits).mp hn with ⟨back, position, hback, hposition, rfl⟩ | ⟨hthird, rfl⟩
  · refine ⟨_, hn, d'.node back position, ?_, hid, ?_, h.node hback hposition⟩
    · exact (mem_allMatches h.fits').mpr (.inl ⟨back, position, h.rounds ▸ hback, hposition, rfl⟩)
    · rw [node_id, matchId_eq] at hid ⊢
      rw [Nat.add_left_cancel hid]
  · refine ⟨_, hn, d'.thirdMatch, (mem_allMatches h.fits').mpr (.inr ⟨h.third.trans hthird, rfl⟩), hid, ?_, ?_⟩
    · have hkey : 2 ^ d.rounds - 1 = k := Nat.add_left_cancel hid
      show d'.base + (2 ^ d'.rounds - 1) = d'.base + k
      rw [h.rounds, hkey]
    · refine ⟨?_, congrArg some h.id, rfl, rfl, rfl, rfl, rfl, .nowhere, .nowhere⟩
      show (some (d'.rounds - 0), 1, true) = (some (d.rounds - 0), 1, true)
      rw [h.rounds]

end BracketPlan

/-! ## Drawn twice -/

/-- Where a link leads: the place of the match, and the slot. -/
def Db.leadsTo (db : Db) (q : MatchId × Slot) : Option (Option ℕ × ℕ × Bool) × Slot :=
  ((db.match? q.1).map Match.spot, q.2)

/-- The same match in two drawings of a bracket: the same place, players, seeds, status, winner, links and problems. -/
structure Match.Twin (db db' : Db) (m m' : Match) : Prop where
  spot : m'.spot = m.spot
  players : m'.players = m.players
  seeds : m'.seeds = m.seeds
  status : m'.status = m.status
  winner : m'.winnerSlot = m.winnerSlot
  reason : m'.decidedReason = m.decidedReason
  next : m'.nextMatch.map db'.leadsTo = m.nextMatch.map db.leadsTo
  loser : m'.loserNextMatch.map db'.leadsTo = m.loserNextMatch.map db.leadsTo
  problems : ∀ number, m'.problemsAt number = m.problemsAt number

section
variable {site site' : Site} {row row' row'' : Tournament} {s u s' u' : Txn} {d d' : BracketPlan}
  {drawn opened restored drawn' opened' restored' : Txn} {m m' : Match}

theorem Alike.leadsTo {b c size : ℕ} {db db' : Db} {x y : Option (MatchId × Slot)} (h : Alike b c size db db')
    (hlink : Relinked b c size x y) : y.map db'.leadsTo = x.map db.leadsTo := by
  obtain ⟨link, hlt, rfl, rfl⟩ := hlink
  cases link with
  | none => rfl
  | some q =>
      obtain ⟨n, n', hn, hn', halike⟩ := h q.1 (hlt q rfl)
      simp [Db.leadsTo, hn, hn', halike.spot]

/-- The keys of the first round, from the first one of the bracket. -/
theorem BracketPlan.firstRound_ids (fits : d.Fits) (hrounds : 1 ≤ d.rounds) :
    (d.roundMatches (d.rounds - 1)).map (·.id) =
      ((List.range (2 ^ (d.rounds - 1))).map fun p => 2 ^ (d.rounds - 1) - 1 + p).map (d.base + ·) := by
  rw [BracketPlan.roundMatches_eq fits (by omega), List.map_map, List.map_map]
  exact List.map_congr_left fun p _ => (d.node_id _ p).trans (d.matchId_eq _ p)

/-- Two brackets drawn for the same participants are alike. -/
theorem Builds.alike (h : Builds site row row' s u d drawn opened restored)
    (h' : Builds site' row' row'' s' u' d' drawn' opened' restored')
    (hbelow : ∀ m ∈ s.db.battles.rows, m.id < s.db.nextId) (hbelow' : ∀ m ∈ s'.db.battles.rows, m.id < s'.db.nextId)
    (hsame : d.Same d') : Alike d.base d'.base d.allMatches.length u.db u'.db := by
  have hdrawn : Alike d.base d'.base d.allMatches.length drawn.db drawn'.db := by
    intro k hk
    obtain ⟨n, hn, n', hn', hid, hid', halike⟩ := hsame.matches hk
    exact ⟨n, n', hid ▸ h.match?_drawn hbelow hn, hid' ▸ h'.match?_drawn hbelow' hn', halike⟩
  have hrounds := h.one_le_rounds
  have hids := BracketPlan.firstRound_ids h.fits hrounds
  have hids' := BracketPlan.firstRound_ids h'.fits h'.one_le_rounds
  rw [hsame.rounds] at hids'
  have hbyes := h.byes
  have hbyes' := h'.byes
  have hawaits := h.awaits hbelow
  have hawaits' := h'.awaits hbelow'
  rw [hsame.rounds] at hbyes' hawaits'
  rw [hids] at hbyes hawaits
  rw [hids'] at hbyes' hawaits'
  rw [hsame.id] at hawaits'
  have hopened : Alike d.base d'.base d.allMatches.length opened.db opened'.db := by
    refine hdrawn.giveByes hbyes hbyes' fun k hk =>
      ⟨?_, hawaits _ (List.mem_map_of_mem hk), hawaits' _ (List.mem_map_of_mem hk)⟩
    obtain ⟨p, hp, rfl⟩ := List.mem_map.mp hk
    exact BracketPlan.matchId_lt h.fits (by omega) (List.mem_range.mp hp)
  exact (hopened.maps (restoreGames_maps h.chosen) (restoreGames_maps h'.chosen)).congr h.saved.1 h'.saved.1

/-- The second drawing is of the same plan. -/
theorem Builds.same (h : Builds site row row' s u d drawn opened restored)
    (h' : Builds site' row' row'' s' u' d' drawn' opened' restored') : d.Same d' := by
  have hparticipants : row'.participants = d.tournament.participants := by rw [h.result]
  have hrounds : d'.rounds = d.rounds := by rw [h'.fits.rounds, h.fits.rounds, h'.participants, hparticipants]
  have hthird : row'.thirdPlaceMatch = row.thirdPlaceMatch := by
    rw [h.result, h.tournament]
    rfl
  refine ⟨h.fits, h'.fits, ?_, h'.participants.trans hparticipants, ?_⟩
  · rw [h'.tournament_id, h.result_id, h.tournament_id]
  · rw [h'.third, h.third, hrounds, hparticipants, h.participants, hthird]

/-- It has the same matches as the first one. -/
theorem Builds.twin (h : Builds site row row' s u d drawn opened restored)
    (h' : Builds site' row' row'' s' u' d' drawn' opened' restored') (hs' : s'.db = u.db)
    (hbelow : ∀ m ∈ s.db.battles.rows, m.id < s.db.nextId) (hbelow' : ∀ m ∈ s'.db.battles.rows, m.id < s'.db.nextId)
    (htidy : Tidy s'.db) {k : ℕ} (hk : k < d.allMatches.length) :
    ∃ m ∈ u.db.battles.rows, ∃ m' ∈ u'.db.battles.rows, m.id = d.base + k ∧ m'.id = d'.base + k ∧
      m.tournament = some row.id ∧ m'.tournament = some row.id ∧ Match.Twin u.db u'.db m m' := by
  have hsame := h.same h'
  have halike := h.alike h' hbelow hbelow' hsame
  obtain ⟨n, hn, n', hn', hid, hid', -⟩ := hsame.matches hk
  obtain ⟨m, m', here, here', hm⟩ := halike k hk
  have hmem := Table.mem_of_get? here
  have hmem' := Table.mem_of_get? here'
  have hkey : m.id = d.base + k := Table.key_of_get? here
  have hkey' : m'.id = d'.base + k := Table.key_of_get? here'
  obtain ⟨x, hx, hbuilt⟩ := h.find hbelow hn
  obtain ⟨x', hx', hbuilt'⟩ := h'.find hbelow' hn'
  obtain rfl : x = m := Table.eq_of_key hx hmem ((Match.id_of_static hbuilt.static).trans (hid.trans hkey.symm))
  obtain rfl : x' = m' := Table.eq_of_key hx' hmem' ((Match.id_of_static hbuilt'.static).trans (hid'.trans hkey'.symm))
  have hmine := h.built_tournament hn hbuilt
  refine ⟨x, hx, x', hx', hkey, hkey', hmine, hm.tournament.trans hmine, hm.spot, hm.players, hm.seeds, hm.status,
    hm.winner, hm.reason, halike.leadsTo hm.next, halike.leadsTo hm.loser, fun number => ?_⟩
  by_cases hdecided : x'.status = .decided
  · rw [Match.problemsAt, Match.problemsAt, hbuilt'.empty hdecided, hbuilt.empty (hm.status.symm.trans hdecided)]
  · exact h'.problemsAt htidy hn' hbuilt' hdecided (hs' ▸ hx) (h.result_id ▸ hmine) hm.spot.symm number

/-- The tournament is still there. -/
theorem Builds.tournament?_isSome (h : Builds site row row' s u d drawn opened restored)
    (hbelow : ∀ m ∈ s.db.battles.rows, m.id < s.db.nextId) (hrow : (s.db.tournament? row.id).isSome = true) :
    (u.db.tournament? row'.id).isSome = true := by
  have hput : ∀ {table : Table Tournament} {x : Tournament}, (table.get? row.id).isSome = true →
      ((table.put x).get? row.id).isSome = true := fun hin => by
    rw [Option.isSome_iff_ne_none] at hin ⊢
    rwa [Ne, Table.get?_put_eq_none]
  have hdrawn : (drawn.db.tournament? row.id).isSome = true := by
    rw [Db.tournament?, h.tournaments]
    exact hput hrow
  have hopened := giveByes_tournament?_isSome h.byes (h.awaits hbelow) hdrawn
  rw [h.result_id, Db.tournament?, h.saved.2, restoreGames_tournaments h.chosen]
  exact hput hopened

/-- A match of a tournament just drawn is one of its bracket. -/
theorem Builds.key (h : Builds site row row' s u d drawn opened restored)
    (hbelow : ∀ m ∈ s.db.battles.rows, m.id < s.db.nextId) (hm : m ∈ u.db.battles.rows)
    (hmine : m.tournament = some row.id) : ∃ k < d.allMatches.length, m.id = d.base + k := by
  rcases h.cases hbelow hm with ⟨n, hn, hbuilt⟩ | ⟨_, hother⟩
  · obtain ⟨hlow, hhigh⟩ := d.id_bounds h.fits hn
    rw [Match.id_of_static hbuilt.static]
    exact ⟨n.id - d.base, Nat.sub_lt_left_of_lt_add hlow hhigh, (Nat.add_sub_cancel' hlow).symm⟩
  · exact absurd hmine hother

/-- No game of a bracket just drawn started. -/
theorem Builds.unplayed' (h : Builds site row row' s u d drawn opened restored)
    (hbelow : ∀ m ∈ s.db.battles.rows, m.id < s.db.nextId) (hm : m ∈ u.db.battles.rows)
    (hmine : m.tournament = some row.id) : m.started = false := by
  rcases h.cases hbelow hm with ⟨_, _, hbuilt⟩ | ⟨_, hother⟩
  · exact hbuilt.unplayed
  · exact absurd hmine hother

/-- **Redrawing a draft loses nothing.** In every state that can be reached, a draft drawn again for as many
    participants and with the same third place match plays at the same places, and every game of every match to be
    played has the problems it had. Drawn once more, it is the same. -/
theorem redraw_keeps {db : Db} (hreach : Reachable db) {actor : Option ProfileId} {t : Tournament}
    (ht : db.tournament? t.id = some t) (hsame : t.Same row) (hstatus : row.status = .draft) (hseeded : row.Seeded)
    (hs : s.db = db.putTournament row) (h : buildBracket site actor row s = .ok row' u) :
    (∀ m ∈ db.battles.rows, m.tournament = some t.id → m.status ≠ .decided → ∃ m' ∈ u.db.battles.rows,
        m'.tournament = some t.id ∧ m'.spot = m.spot ∧ m'.status ≠ .decided ∧
        ∀ number, m'.problemsAt number = m.problemsAt number) ∧
      (∀ m' ∈ u.db.battles.rows, m'.tournament = some t.id → m'.status ≠ .decided → ∃ m ∈ db.battles.rows,
        m.tournament = some t.id ∧ m'.spot = m.spot ∧ ∀ number, m'.problemsAt number = m.problemsAt number) ∧
      ∀ (site' : Site) (actor' : Option ProfileId) (v : Txn), v.db = u.db →
        ∃ row'' w, buildBracket site' actor' row' v = .ok row'' w ∧
          (∀ m ∈ u.db.battles.rows, m.tournament = some t.id → ∃ m' ∈ w.db.battles.rows,
            m'.tournament = some t.id ∧ Match.Twin u.db w.db m m') ∧
          ∀ m' ∈ w.db.battles.rows, m'.tournament = some t.id → ∃ m ∈ u.db.battles.rows,
            m.tournament = some t.id ∧ Match.Twin u.db w.db m m' := by
  have hdb := hreach.wellFormed
  have htidy : Tidy db := Run.tidy hreach
  obtain ⟨d0, hbracketed⟩ := Run.allBracketed hreach t (Table.mem_of_get? ht) hsame.draft
  obtain ⟨d, drawn, opened, restored, hbuilds⟩ := buildBracket_builds h hseeded
  have hbattles : s.db.battles = db.battles := by
    rw [hs]
    rfl
  have here : s.db.tournament? row.id = some row := hs ▸ Db.tournament?_putTournament ht hsame.id
  have hsdb : WellFormed s.db := by
    rw [hs]
    exact hdb.putTournament ht hsame.id (fun _ => hseeded) rfl rfl (le_refl _)
  have hudb : WellFormed u.db := by
    have hpath : Path true (fun _ => True) s.db u.db := buildBracket_path h hsdb here hstatus fun _ _ => trivial
    exact hsdb.path hpath
  have hstidy : Tidy s.db := htidy.congr hbattles
  have hcount : d.tournament.participants.length = d0.tournament.participants.length := by
    rw [hbuilds.participants, hsame.count, hbracketed.count]
  have hthird : d.third = d0.third := by
    rw [hbuilds.third, hbracketed.third, hsame.third, hsame.count, hbuilds.fits.rounds, hbracketed.fits.rounds, hcount]
  have hid : row.id = t.id := hsame.id
  refine ⟨fun m hm hmine hgoing => ?_, fun m' hm' hmine hgoing => ?_, fun site' actor' v hv => ?_⟩
  · obtain ⟨n0, hn0, hspot0, hbye0⟩ := hbracketed.placed m hm hmine
    obtain ⟨n, hn, hspot, hbye⟩ := BracketPlan.same_places hbracketed.fits hbuilds.fits hcount hthird hn0
    obtain ⟨m', hm', hbuilt⟩ := hbuilds.find hsdb.below hn
    have hspot' : m'.spot = m.spot := by
      rw [Match.spot_of hbuilt.static hbuilt.position, hspot, hspot0]
    have hgoing' : m'.status ≠ .decided := fun hdecided => hgoing (hbye0 (hbye.mp (hbuilt.bye.mp hdecided)))
    refine ⟨m', hm', hid ▸ hbuilds.built_tournament hn hbuilt, hspot', hgoing', fun number => ?_⟩
    exact hbuilds.problemsAt hstidy hn hbuilt hgoing' (hbattles ▸ hm) (hid ▸ hmine) hspot'.symm number
  · rcases hbuilds.cases hsdb.below hm' with ⟨n, hn, hbuilt⟩ | ⟨_, hother⟩
    · obtain ⟨n0, hn0, hspot, _⟩ := BracketPlan.same_places hbuilds.fits hbracketed.fits hcount.symm hthird.symm hn
      obtain ⟨m, hm, hmine', hspot0⟩ := hbracketed.filled n0 hn0
      have hspot' : m'.spot = m.spot := by
        rw [Match.spot_of hbuilt.static hbuilt.position, hspot0, hspot]
      refine ⟨m, hm, hmine', hspot', fun number => ?_⟩
      exact hbuilds.problemsAt hstidy hn hbuilt hgoing (hbattles ▸ hm) (hid ▸ hmine') hspot'.symm number
    · exact absurd (hid ▸ hmine) hother
  · have hvdb : WellFormed v.db := hv ▸ hudb
    have hparticipants : row'.participants = row.participants := by
      rw [hbuilds.result]
      exact hbuilds.participants
    have hcompletes : ∃ row'' w, buildBracket site' actor' row' v = .ok row'' w := by
      refine buildBracket_completes ?_ (hseeded.congr hparticipants) hvdb.below (fun m hm hmine => ?_) ?_
      · rw [hparticipants, ← hbuilds.participants]
        exact hbuilds.fits.count
      · rw [hbuilds.result_id] at hmine
        exact hbuilds.unplayed' hsdb.below (hv ▸ hm) hmine
      · rw [hv]
        exact hbuilds.tournament?_isSome hsdb.below (by rw [here]; rfl)
    obtain ⟨row'', w, hagain⟩ := hcompletes
    obtain ⟨d', _, _, _, hbuilds'⟩ := buildBracket_builds hagain (hseeded.congr hparticipants)
    have htwin := fun {k : ℕ} => hbuilds.twin hbuilds' hv hsdb.below hvdb.below
      (hv ▸ hbuilds.tidy hsdb.below hstidy) (k := k)
    refine ⟨row'', w, hagain, fun m hm hmine => ?_, fun m' hm' hmine => ?_⟩
    · obtain ⟨k, hk, hkey⟩ := hbuilds.key hsdb.below hm (hid.symm ▸ hmine)
      obtain ⟨x, hx, m', hm', hxkey, _, _, hmine', hxm⟩ := htwin hk
      obtain rfl : x = m := Table.eq_of_key hx hm (hxkey.trans hkey.symm)
      exact ⟨m', hm', hid ▸ hmine', hxm⟩
    · obtain ⟨k, hk, hkey⟩ := hbuilds'.key hvdb.below hm' (by rw [hbuilds.result_id, hid]; exact hmine)
      rw [(hbuilds.same hbuilds').length] at hk
      obtain ⟨m, hm, x', hx', _, hxkey, hmine', _, hxm⟩ := htwin hk
      obtain rfl : x' = m' := Table.eq_of_key hx' hm' (hxkey.trans hkey.symm)
      exact ⟨m, hm, hid ▸ hmine', hxm⟩

end

/-- A draft of three, with a problem chosen for the first round match that is played. -/
def draftOfThree : Db :=
  Db.play {} ([.organize 9 (.createTournament "Cup" [some 1, some 2, some 3] .manual false {} "" none true none .pending),
    .organize 9 (.onMatch 4 none (.problems none [{ id := 7 }] none))].map fun op => ({ now := 0 }, op))

theorem redraw_keeps_three : ∃ t ∈ draftOfThree.tournaments.rows, ∃ row' u,
    buildBracket { now := 0 } none t { db := draftOfThree } = .ok row' u ∧
      ∃ m' ∈ u.db.battles.rows, m'.status ≠ .decided ∧ m'.problemsAt 1 ≠ [] := by
  have hreach : Reachable draftOfThree := Run.play _
  have hunplayed : draftOfThree.battles.rows.all fun m => !m.started := by decide +kernel
  have hdraft : draftOfThree.tournaments.rows.any fun t => draftOfThree.tournament? t.id = some t &&
      t.status = .draft && 2 ≤ t.participants.length && draftOfThree.battles.rows.any fun m =>
        m.tournament = some t.id && m.status ≠ .decided && m.problemsAt 1 ≠ [] := by decide +kernel
  generalize draftOfThree = db at hreach hunplayed hdraft ⊢
  obtain ⟨t, hmem, hdraft⟩ := List.any_eq_true.mp hdraft
  simp only [Bool.and_eq_true, decide_eq_true_eq, List.any_eq_true] at hdraft
  obtain ⟨⟨⟨ht, hstatus⟩, hcount⟩, m, hm, ⟨hmine, hgoing⟩, hproblems⟩ := hdraft
  have hseeded : t.Seeded := hreach.wellFormed.seeded t hmem
  have hcompletes : ∃ row' u, buildBracket { now := 0 } none t { db } = .ok row' u :=
    buildBracket_completes hcount hseeded hreach.wellFormed.below
      (fun n hn _ => by simpa using List.all_eq_true.mp hunplayed n hn) (by simp [ht])
  obtain ⟨row', u, h⟩ := hcompletes
  have hself : db.putTournament t = db := by rw [Db.putTournament, Table.put_self ht]
  obtain ⟨m', hm', _, _, hgoing', hkept⟩ :=
    (redraw_keeps hreach ht ⟨rfl, hstatus, rfl, rfl⟩ hstatus hseeded hself.symm h).1 m hm hmine hgoing
  exact ⟨t, hmem, row', u, h, m', hm', hgoing', (hkept 1).symm ▸ hproblems⟩

end Arena
end CpcJudge
