import CpcJudge.Arena.Drafts
import CpcJudge.Arena.Undrawn

/-!
# `Arena.Charted` — the bracket of a tournament

In a run where none of its players is replaced, a tournament has the matches of a plan for its participants, all
different, with as many rounds as it has (`Charts`): drawing a bracket plots it, and whatever happens afterwards keeps it.
-/

namespace CpcJudge
namespace Arena

/-- The bracket of a tournament: plotted for its participants, who are all different. Only a match of the first round
    that lacks a player is a bye. -/
structure Charts (db : Db) (t : Tournament) (d : BracketPlan) : Prop where
  plotted : Plotted d [] db
  id : d.tournament.id = t.id
  participants : d.tournament.participants = t.participants
  distinct : (t.participants.map Participant.profile).Nodup
  rounds : t.rounds.length = d.rounds
  byes : ∀ m ∈ db.battles.rows, m.tournament = some t.id → m.decidedReason = some .bye →
    ∃ n, d.HasBye n ∧ m.static = n.static

/-- The tournament has its bracket, if it is there. -/
def Charted (id : TournamentId) (db : Db) : Prop := ∀ t ∈ db.tournaments.rows, t.id = id → ∃ d, Charts db t d

/-- No player of the tournament is replaced, and a shuffle loses nobody. -/
def Unreplaced (id : TournamentId) (site : Site) (op : Op) (db : Db) : Prop := KeepsPlayers id op db ∧ site.Shuffles

section
variable {db db' : Db} {m m' n : Match} {t t' row row' x : Tournament} {d : BracketPlan} {s u : Txn} {site : Site} {op : Op}
  {actor : Option ProfileId} {i : TournamentId}

/-! ## A bracket is drawn -/

theorem BracketPlan.reason_of_mem (fits : d.Fits) (h : m ∈ d.allMatches) : m.decidedReason = none := by
  rcases (BracketPlan.mem_allMatches fits).mp h with ⟨back, position, _, _, rfl⟩ | ⟨_, rfl⟩
  · obtain ⟨_, _, _, heq, -⟩ := d.node_eq back position
    rw [heq]
    rfl
  · rfl

/-- A match that was not decided is decided if it becomes a bye. -/
structure Match.ByeDecided (m m' : Match) : Prop where
  decided : m.status = .decided → m'.status = .decided
  bye : m'.decidedReason = some .bye → m.decidedReason = some .bye ∨ m'.status = .decided

theorem Match.ByeDecided.covers : Covers Match.ByeDecided true fun _ => False where
  refl _ := ⟨fun h => h, .inl⟩
  trans _ _ _ h h' := ⟨fun hd => h'.decided (h.decided hd), fun hbye =>
    (h'.bye hbye).elim (fun hb => (h.bye hb).imp_right h'.decided) .inr⟩
  row _ _ own _ := own.elim
  decide _ _ own _ := own.elim
  receive m slot p seed _ := by
    obtain ⟨status, heq, hstatus⟩ := m.receive_eq slot (some p) seed
    rw [heq]
    refine ⟨fun hd => ?_, .inl⟩
    rcases hstatus with rfl | ⟨hwas, _⟩ | ⟨hwas, _⟩
    · exact hd
    · rw [hwas] at hd
      cases hd
    · rw [hwas] at hd
      cases hd

namespace Builds
variable {drawn opened restored : Txn}

/-- The byes of a bracket just drawn. -/
theorem hasBye (h : Builds site row row' s u d drawn opened restored)
    (hbelow : ∀ m ∈ s.db.battles.rows, m.id < s.db.nextId) (hm : m ∈ u.db.battles.rows)
    (hmine : m.tournament = some row.id) (hbye : m.decidedReason = some .bye) : ∃ n, d.HasBye n ∧ m.static = n.static := by
  have hopened : Table.Maps Match.ByeDecided drawn.db.battles opened.db.battles :=
    giveByes_rows Match.ByeDecided.covers h.byes (h.awaits hbelow) fun _ _ _ => ⟨fun _ => rfl, fun _ => .inr rfl⟩
  have hrestored := restoreGames_maps h.chosen
  rw [← h.saved.1] at hrestored
  rcases h.cases hbelow hm with ⟨n, hn, hbuilt⟩ | ⟨_, hother⟩
  · refine ⟨n, hbuilt.bye.mp ?_, hbuilt.static⟩
    obtain ⟨y, hy, _, games, rfl⟩ := hrestored.back hm
    obtain ⟨z, hz, hkey, hzy⟩ := hopened.back hy
    refine (hzy.bye hbye).resolve_left fun hwas => ?_
    -- nothing is a bye before the byes are given
    have hzid : z.id = n.id := hkey.symm.trans (Match.id_of_static hbuilt.static)
    obtain rfl : z = n := Table.eq_of_key hz (Table.mem_of_get? (h.match?_drawn hbelow hn)) hzid
    rw [BracketPlan.reason_of_mem h.fits hn] at hwas
    cases hwas
  · exact absurd hmine hother

end Builds

/-- `_build_bracket` plots the bracket of a draft, and leaves the other tournaments as they are. -/
theorem buildBracket_plotted (h : buildBracket site actor row s = .ok row' u) (hdb : WellFormed s.db)
    (here : s.db.tournament? row.id = some row) (hdraft : row.status = .draft) :
    ∃ d drawn opened restored, Builds site row row' s u d drawn opened restored ∧ Plotted d [] u.db ∧
      u.db.tournaments = (s.db.tournaments.put d.tournament).put row' := by
  obtain ⟨hcount, hunplayed, opened, restored, hbyes, hrestore, ht', rfl⟩ := buildBracket_ok.mp h
  have hseeded : row.Seeded := hdb.seeded row (Table.mem_of_get? here)
  have hplans := Tournament.plan_plans site actor s hcount hseeded
  generalize row.plan site actor s.db.nextId = d at hplans hbyes hrestore
  have hid : d.tournament.id = row.id := hplans.tournament_id
  have hstatus : d.tournament.status = row.status := by rw [hplans.tournament]; rfl
  have hplayers : d.tournament.participants = row.participants := by rw [hplans.tournament]; rfl
  -- the rounds are saved, and then the matches replaced
  have hsaved : Path true (fun _ => True) s.db (s.db.putTournament d.tournament) :=
    .tournament here hid (.inl hstatus) fun hs => hs.congr hplayers
  have hdrawn : Change true (fun _ => True) (s.db.putTournament d.tournament) (s.drawing d).db := by
    refine .bracket hplans.fits (Db.tournament?_putTournament here hid) (hstatus.trans hdraft) hplans.base
      (hid ▸ hunplayed) rfl rfl rfl ?_
    exact ⟨Nat.le_add_right _ _, (Logs.dropBracket s.db d.tournament.id).finishes,
      (Logs.dropBracket s.db d.tournament.id).ties⟩
  have hdb1 : WellFormed (s.drawing d).db := (hdb.path hsaved).change hdrawn
  have hI1 : Plotted d [] (s.drawing d).db := Plotted.drawn hplans.fits hdb.below hplans.base rfl
  have hrow1 : (s.drawing d).db.tournament? row.id = some d.tournament := hid ▸ Db.tournament?_putTournament here hid
  have hfirst : ∀ i ∈ (d.roundMatches (d.rounds - 1)).map (·.id), True ∧ FirstRound row.id (s.drawing d).db i := by
    intro i hi
    obtain ⟨m, hm, rfl⟩ := List.mem_map.mp hi
    obtain ⟨hall, hseated⟩ := BracketPlan.mem_firstRound hplans.fits hm
    obtain ⟨hmine, hgames, _⟩ := d.mem_fresh hplans.fits hall
    exact ⟨trivial, m, hplans.match?_drawn hdb.below hall, hid ▸ hmine, hgames, hseated⟩
  obtain ⟨hpath2, htournaments2⟩ := giveByes_path true (fun _ => True) row.id hbyes hdb1
    ⟨d.tournament, hrow1, hstatus.trans hdraft⟩ hfirst
  obtain ⟨hpath3, htournaments3⟩ := restoreGames_path true (fun _ => True) hrestore (hdb1.path hpath2) fun _ _ => trivial
  have hresult : row' = { d.tournament with version := row.version + 1 } := by
    rw [hplans.tournament]
    exact ht'
  have hbuilds : Builds site row row' s ((restored.wrote (·.putTournament row')).wrote
      (·.record { action := .bracket, actor, tournament := some row'.id })) d (s.drawing d) opened restored :=
    ⟨hplans, hresult, hunplayed, hbyes, hrestore, rfl, rfl⟩
  refine ⟨d, _, opened, restored, hbuilds, ?_, ?_⟩
  · -- its matches are still there when the problems are back in their places
    obtain ⟨n, hn⟩ : ∃ n, n ∈ d.allMatches := by
      refine ⟨d.node 0 0, (BracketPlan.mem_allMatches hplans.fits).mpr (.inl ⟨0, 0, ?_, Nat.one_pos, rfl⟩)⟩
      exact BracketPlan.one_le_rounds hplans.fits
    obtain ⟨m, hm, hbuilt⟩ := hbuilds.find hdb.below hn
    have hkept : (restored.db.match? n.id).isSome = true := by
      rw [← Match.id_of_static hbuilt.static]
      exact Option.isSome_of_eq_some (Table.get?_of_mem hm)
    have hn1 := Table.mem_of_get? (hplans.match?_drawn hdb.below hn)
    exact (hI1.path hdb1 (hpath2.trans hpath3) hn1 (d.mem_fresh hplans.fits hn).1 hkept).same_battles rfl
  · show restored.db.tournaments.put row' = _
    rw [htournaments3, htournaments2]
    rfl

/-- A bracket drawn is charted, and so are the others still. -/
theorem Redraws.charted (h : Redraws site db row db') (hI : Charted i db) : Charted i db' := by
  obtain ⟨actor, row', s, u, hrun, hbattles, hdb, here, hothers, hbattles', htournaments'⟩ := h.drawn
  obtain ⟨d, drawn, opened, restored, hbuilds, hplotted, htournaments⟩ := buildBracket_plotted hrun hdb here h.draft
  have hid : d.tournament.id = row.id := hbuilds.tournament_id
  intro x hx hxi
  rw [htournaments', htournaments] at hx
  rcases Table.mem_put hx with rfl | ⟨hx, hne⟩
  · have hparticipants : x.participants = row.participants := by
      rw [hbuilds.result]
      exact hbuilds.participants
    refine ⟨d, hplotted.same_battles hbattles', hid.trans hbuilds.result_id.symm, ?_, ?_, ?_, fun m hm hmine hbye => ?_⟩
    · rw [hparticipants, hbuilds.participants]
    · rw [hparticipants]
      rcases h.players with ⟨t, ht, htid, heq⟩ | ⟨profiles, hnodup, heq⟩
      · obtain ⟨_, hcharts⟩ := hI t ht (htid.trans (hbuilds.result_id.symm.trans hxi))
        exact heq ▸ hcharts.distinct
      · rw [heq, seeded, List.map_map]
        simpa [Function.comp_def] using hnodup
    · rw [hbuilds.result, hbuilds.tournament, hbuilds.fits.rounds, hbuilds.participants]
      simp [Tournament.syncRounds]
    · rw [hbuilds.result_id] at hmine
      exact hbuilds.hasBye hdb.below (hbattles' ▸ hm) hmine hbye
  · have hxid : x.id ≠ row.id := fun heq => hne (heq.trans hbuilds.result_id.symm)
    have hx := ((Table.mem_put hx).resolve_left fun heq => hxid (by rw [heq, hid])).1
    obtain ⟨d', hcharts⟩ := hI x (hothers x hx hxid) hxi
    -- the matches of another tournament are those it had
    have hrows : ∀ m, m.tournament = some x.id → (m ∈ db'.battles.rows ↔ m ∈ db.battles.rows) := by
      intro m hmine
      have hother : m.tournament ≠ some row.id := fun heq => hxid (Option.some.inj (hmine.symm.trans heq))
      rw [hbattles', ← hbattles]
      refine ⟨fun hm => ?_, fun hm => hbuilds.keeps hdb.below hm hother⟩
      rcases hbuilds.cases hdb.below hm with ⟨n, hn, hbuilt⟩ | ⟨hm, _⟩
      · exact absurd (hbuilds.built_tournament hn hbuilt) hother
      · exact hm
    refine ⟨d', hcharts.plotted.same_rows fun m hmine => hrows m (hcharts.id ▸ hmine), hcharts.id, hcharts.participants,
      hcharts.distinct, hcharts.rounds, fun m hm hmine => hcharts.byes m ((hrows m hmine).mp hm) hmine⟩

/-! ## Runs -/

/-- An operation that draws no bracket keeps those there are. -/
theorem Charts.undrawn (h : Charts db t d) (hdb : WellFormed db) (hallowed : KeepsPlayers t.id op db)
    (hsucceeds : op.succeeds site db = true) (hundrawn : Undrawn db (op.after site db)) (hrow : t.Enrols t') :
    Charts (op.after site db) t' d := by
  obtain ⟨db1, hspecial, hpath⟩ := (Op.refines hsucceeds hdb).path
  have hI1 : Plotted d [] db1 := h.plotted.special hdb (h.id ▸ hallowed) hsucceeds hspecial
  have hrounds := BracketPlan.one_le_rounds h.plotted.fits
  obtain ⟨m, hm, hmine, hstatic⟩ := h.plotted.find hrounds (Nat.one_pos : 0 < 2 ^ 0)
  obtain ⟨m1, hm1, hmine1, hstatic1⟩ := hI1.find hrounds (Nat.one_pos : 0 < 2 ^ 0)
  have hid : m1.id = m.id := Match.id_of_static (hstatic1.trans hstatic.symm)
  refine ⟨hI1.path (hdb.special hspecial) hpath hm1 hmine1 ?_, h.id.trans hrow.id.symm,
    h.participants.trans hrow.participants.symm, hrow.participants ▸ h.distinct, hrow.rounds.trans h.rounds,
    fun x hx hxmine hbye => ?_⟩
  · rw [hid]
    exact hundrawn.present m.id (Option.isSome_of_eq_some (Table.get?_of_mem hm))
  · obtain ⟨y, hy, hyx, hybye⟩ := hundrawn.byes x hx hbye
    obtain ⟨n, hn, hyn⟩ := h.byes y hy ((Match.tournament_of_static hyx).trans (hrow.id ▸ hxmine)) hybye
    exact ⟨n, hn, hyx.symm.trans hyn⟩

theorem Op.charted (hdb : WellFormed db) (hI : Charted i db) (hallowed : Unreplaced i site op db) :
    Charted i (op.after site db) := by
  cases hsucceeds : op.succeeds site db with
  | false => rwa [Op.after_of_refused hsucceeds]
  | true =>
      rcases Op.draws hallowed.2 hsucceeds hdb with hundrawn | ⟨row, hredraws⟩
      · intro t' ht' hi
        obtain ⟨t, ht, hrow⟩ := hundrawn.enrolled t' ht'
        have hti : t.id = i := hrow.id.symm.trans hi
        obtain ⟨d, hcharts⟩ := hI t ht hti
        exact ⟨d, hcharts.undrawn hdb (hti ▸ hallowed.1) hsucceeds hundrawn hrow⟩
      · exact hredraws.charted hI

/-- The tournament of such a run has its bracket. -/
theorem Run.charted (hrun : Run (Unreplaced i) {} db) : WellFormed db ∧ Charted i db :=
  Run.keeps (I := fun db => WellFormed db ∧ Charted i db) (fun _ _ _ hallowed h =>
    ⟨(Op.keeps (I := fun _ => True) h.1 trivial (fun _ _ => trivial) fun _ _ _ => trivial).1,
      Op.charted h.1 h.2 hallowed⟩) hrun ⟨.empty, fun _ ht => absurd ht List.not_mem_nil⟩

end
end Arena
end CpcJudge
