import CpcJudge.Arena.Bracket

/-!
# `Arena.WellFormed` — what always holds of the tables

The invariants no request can break: every match is `Sound`, primary keys are new when they are given, a slot of
a match is fed by one match of its own tournament, and the participants of a tournament are seeded from one.
-/

namespace CpcJudge
namespace Arena

/-- How the matches lead to each other. -/
structure Wired (db : Db) : Prop where
  /-- Players stay in their tournament. -/
  inside : ∀ m ∈ db.battles.rows, ∀ p ∈ m.targets, ∀ n ∈ db.battles.rows, n.id = p.1 →
    n.tournament = m.tournament
  /-- They move to another match, known when theirs was created. -/
  other : ∀ m ∈ db.battles.rows, ∀ p ∈ m.targets, p.1 ≠ m.id
  known : ∀ m ∈ db.battles.rows, ∀ p ∈ m.targets, p.1 < db.nextId
  /-- A slot is fed by one match. -/
  single : ∀ m ∈ db.battles.rows, ∀ n ∈ db.battles.rows, ∀ p ∈ m.targets, p ∈ n.targets → m.id = n.id
  /-- Winner and loser part. -/
  apart : ∀ m ∈ db.battles.rows, ∀ p q, m.nextMatch = some p → m.loserNextMatch = some q → p.1 ≠ q.1
  /-- The match for third place leads nowhere. -/
  last : ∀ m ∈ db.battles.rows, ∀ q, m.loserNextMatch = some q → ∀ n ∈ db.battles.rows, n.id = q.1 →
    n.targets = []
  /-- A quick battle leads nowhere. -/
  quick : ∀ m ∈ db.battles.rows, m.tournament = none → m.targets = []

/-- The invariant of the tables. -/
structure WellFormed (db : Db) : Prop where
  sound : ∀ m ∈ db.battles.rows, m.Sound
  below : ∀ m ∈ db.battles.rows, m.id < db.nextId
  games : ∀ m ∈ db.battles.rows, ∀ g ∈ m.games.rows, g.id < db.nextId
  /-- A game belongs to one match. -/
  own : ∀ m ∈ db.battles.rows, ∀ n ∈ db.battles.rows, ∀ g ∈ m.games.rows, ∀ h ∈ n.games.rows,
    g.id = h.id → m.id = n.id
  wired : Wired db
  seeded : ∀ t ∈ db.tournaments.rows, t.Seeded
  tournaments : ∀ t ∈ db.tournaments.rows, t.id < db.nextId

theorem WellFormed.empty : WellFormed {} := by
  constructor <;> first
    | exact fun _ h => absurd h List.not_mem_nil
    | (constructor <;> exact fun _ h => absurd h List.not_mem_nil)

namespace Match
variable {m m' : Match}

theorem id_of_static (h : m'.static = m.static) : m'.id = m.id := congrArg (·.1) h

theorem tournament_of_static (h : m'.static = m.static) : m'.tournament = m.tournament :=
  congrArg (·.2.1) h

theorem nextMatch_of_static (h : m'.static = m.static) : m'.nextMatch = m.nextMatch :=
  congrArg (·.2.2.2.2.1) h

theorem loserNextMatch_of_static (h : m'.static = m.static) : m'.loserNextMatch = m.loserNextMatch :=
  congrArg (·.2.2.2.2.2) h

theorem targets_of_static (h : m'.static = m.static) : m'.targets = m.targets := by
  rw [targets, targets, nextMatch_of_static h, loserNextMatch_of_static h]

end Match

theorem RowStep.static {organizer : Bool} {m m' : Match} (h : RowStep organizer m m') :
    m'.static = m.static := by
  cases h <;> rfl

theorem Decides.static {organizer : Bool} {m m' : Match} (h : Decides organizer m m') :
    m'.static = m.static := by
  cases h <;> rfl

theorem Match.receive_static (m : Match) (slot : Slot) (p : Option ProfileId) (seed : Option ℕ) :
    (m.receive slot p seed).static = m.static := by
  obtain ⟨_, heq, _⟩ := m.receive_eq slot p seed
  rw [heq]
  rfl

/-! ## Rewriting rows -/

/-- The shape of the bracket only depends on what no change of a match touches. -/
theorem Wired.maps {db db' : Db} (h : Wired db) (hnext : db.nextId ≤ db'.nextId)
    (hmaps : Table.Maps (fun m m' : Match => m'.static = m.static) db.battles db'.battles) : Wired db' := by
  refine ⟨?_, ?_, ?_, ?_, ?_, ?_, ?_⟩
  · intro m' hm' p hp n' hn' hid
    obtain ⟨m, hm, _, hms⟩ := hmaps.back hm'
    obtain ⟨n, hn, _, hns⟩ := hmaps.back hn'
    rw [Match.targets_of_static hms] at hp
    rw [Match.id_of_static hns] at hid
    rw [Match.tournament_of_static hms, Match.tournament_of_static hns]
    exact h.inside m hm p hp n hn hid
  · intro m' hm' p hp
    obtain ⟨m, hm, _, hms⟩ := hmaps.back hm'
    rw [Match.targets_of_static hms] at hp
    rw [Match.id_of_static hms]
    exact h.other m hm p hp
  · intro m' hm' p hp
    obtain ⟨m, hm, _, hms⟩ := hmaps.back hm'
    rw [Match.targets_of_static hms] at hp
    exact lt_of_lt_of_le (h.known m hm p hp) hnext
  · intro m' hm' n' hn' p hp hq
    obtain ⟨m, hm, _, hms⟩ := hmaps.back hm'
    obtain ⟨n, hn, _, hns⟩ := hmaps.back hn'
    rw [Match.targets_of_static hms] at hp
    rw [Match.targets_of_static hns] at hq
    rw [Match.id_of_static hms, Match.id_of_static hns]
    exact h.single m hm n hn p hp hq
  · intro m' hm' p q hp hq
    obtain ⟨m, hm, _, hms⟩ := hmaps.back hm'
    rw [Match.nextMatch_of_static hms] at hp
    rw [Match.loserNextMatch_of_static hms] at hq
    exact h.apart m hm p q hp hq
  · intro m' hm' q hq n' hn' hid
    obtain ⟨m, hm, _, hms⟩ := hmaps.back hm'
    obtain ⟨n, hn, _, hns⟩ := hmaps.back hn'
    rw [Match.loserNextMatch_of_static hms] at hq
    rw [Match.id_of_static hns] at hid
    rw [Match.targets_of_static hns]
    exact h.last m hm q hq n hn hid
  · intro m' hm' hnone
    obtain ⟨m, hm, _, hms⟩ := hmaps.back hm'
    rw [Match.tournament_of_static hms] at hnone
    rw [Match.targets_of_static hms]
    exact h.quick m hm hnone

/-- A match rewritten soundly; only the match `id` may get games, with keys from `low` to `high`. -/
structure Match.Kept (low high : ℕ) (id : MatchId) (m m' : Match) : Prop where
  static : m'.static = m.static
  sound : m.Sound → m'.Sound
  games : ∀ g' ∈ m'.games.rows, (∃ g ∈ m.games.rows, g.id = g'.id) ∨
    (m.id = id ∧ low ≤ g'.id ∧ g'.id < high)

theorem WellFormed.maps {db db' : Db} (id : MatchId) (h : WellFormed db) (hnext : db.nextId ≤ db'.nextId)
    (hmaps : Table.Maps (Match.Kept db.nextId db'.nextId id) db.battles db'.battles)
    (htournaments : ∀ t ∈ db'.tournaments.rows, t.Seeded ∧ t.id < db'.nextId) : WellFormed db' := by
  refine ⟨?_, ?_, ?_, ?_, ?_, fun t ht => (htournaments t ht).1, fun t ht => (htournaments t ht).2⟩
  · intro m' hm'
    obtain ⟨m, hm, _, hkept⟩ := hmaps.back hm'
    exact hkept.sound (h.sound m hm)
  · intro m' hm'
    obtain ⟨m, hm, _, hkept⟩ := hmaps.back hm'
    rw [Match.id_of_static hkept.static]
    exact lt_of_lt_of_le (h.below m hm) hnext
  · intro m' hm' g' hg'
    obtain ⟨m, hm, _, hkept⟩ := hmaps.back hm'
    rcases hkept.games g' hg' with ⟨g, hg, heq⟩ | ⟨_, _, hhigh⟩
    · rw [← heq]
      exact lt_of_lt_of_le (h.games m hm g hg) hnext
    · exact hhigh
  · intro m' hm' n' hn' g' hg' k' hk' heq
    obtain ⟨m, hm, _, hkept⟩ := hmaps.back hm'
    obtain ⟨n, hn, _, hkeptn⟩ := hmaps.back hn'
    rw [Match.id_of_static hkept.static, Match.id_of_static hkeptn.static]
    rcases hkept.games g' hg' with ⟨g, hg, hgid⟩ | ⟨hmid, hlow, _⟩ <;>
      rcases hkeptn.games k' hk' with ⟨k, hk, hkid⟩ | ⟨hnid, hlow', _⟩
    · exact h.own m hm n hn g hg k hk (by rw [hgid, hkid, heq])
    · have := h.games m hm g hg
      rw [hgid, heq] at this
      exact absurd this (not_lt.mpr hlow')
    · have := h.games n hn k hk
      rw [hkid, ← heq] at this
      exact absurd this (not_lt.mpr hlow)
    · rw [hmid, hnid]
  · exact h.wired.maps hnext (hmaps.mono fun m m' _ hkept => hkept.static)

/-! ## The changes -/

section
variable {db db' : Db} {organizer : Bool} {scope : MatchId → Prop} {m m' : Match}

theorem Match.Kept.refl (low high : ℕ) (id : MatchId) (m : Match) : m.Kept low high id m :=
  ⟨rfl, fun h => h, fun g hg => .inl ⟨g, hg, rfl⟩⟩

theorem Saves.maps (h : Saves db m m' db') (here : db.match? m.id = some m) (hstatic : m'.static = m.static)
    (hsound : m.Sound → m'.Sound) :
    Table.Maps (Match.Kept db.nextId db'.nextId m.id) db.battles db'.battles := by
  rw [h.battles]
  refine Table.Maps.put (b := m) (Match.Kept.refl _ _ _) ?_ ⟨hstatic, hsound, fun g hg => ?_⟩
  · show db.battles.get? m'.id = some m
    rwa [Match.id_of_static hstatic]
  · cases hget : m.games.get? g.id with
    | none => exact .inr ⟨rfl, h.fresh g hg hget⟩
    | some g0 => exact .inl ⟨g0, Table.mem_of_get? hget, Table.key_of_get? hget⟩

theorem WellFormed.saves (hdb : WellFormed db) (h : Saves db m m' db') (here : db.match? m.id = some m)
    (hstatic : m'.static = m.static) (hsound : m.Sound → m'.Sound) : WellFormed db' := by
  refine hdb.maps _ h.nextId (h.maps here hstatic hsound) fun t ht => ?_
  rw [h.tournaments] at ht
  exact ⟨hdb.seeded t ht, lt_of_lt_of_le (hdb.tournaments t ht) h.nextId⟩

theorem WellFormed.placed {seed : Option ℕ} {target : Option (MatchId × Slot)} {p : Option ProfileId}
    (hdb : WellFormed db) (h : Placed seed db target p db') : WellFormed db' := by
  cases h with
  | nobody => exact hdb
  | nowhere => exact hdb
  | @placed id n slot p here _ =>
      refine hdb.maps id (le_refl _) ?_ fun t ht => ⟨hdb.seeded t ht, hdb.tournaments t ht⟩
      have hstatic := n.receive_static slot (some p) seed
      refine Table.Maps.put (b := n) (Match.Kept.refl _ _ _) ?_ ⟨hstatic, fun hn => hn.receive slot p seed, ?_⟩
      · show db.battles.get? (n.receive slot (some p) seed).id = some n
        rw [Match.id_of_static hstatic, show n.id = id from Table.key_of_get? here]
        exact here
      · obtain ⟨_, heq, _⟩ := n.receive_eq slot (some p) seed
        rw [heq]
        exact fun g hg => .inl ⟨g, hg, rfl⟩

/-- The tables with a tournament changed. -/
theorem WellFormed.putTournament {t t' : Tournament} (hdb : WellFormed db) (here : db.tournament? t.id = some t)
    (hid : t'.id = t.id) (hseeded : t.Seeded → t'.Seeded) (hbattles : db'.battles = db.battles)
    (htournaments : db'.tournaments = db.tournaments.put t') (hnext : db.nextId ≤ db'.nextId) :
    WellFormed db' := by
  refine hdb.maps 0 hnext (hbattles ▸ Table.Maps.refl (Match.Kept.refl _ _ _) _) fun x hx => ?_
  rw [htournaments] at hx
  have hmem := Table.mem_of_get? here
  rcases Table.mem_put hx with rfl | ⟨hx, _⟩
  · exact ⟨hseeded (hdb.seeded t hmem), hid ▸ lt_of_lt_of_le (hdb.tournaments t hmem) hnext⟩
  · exact ⟨hdb.seeded x hx, lt_of_lt_of_le (hdb.tournaments x hx) hnext⟩

theorem Tournament.Seeded.congr {t t' : Tournament} (h : t.Seeded) (heq : t'.participants = t.participants) :
    t'.Seeded := by
  intro i hlow hhigh
  rw [heq] at hhigh ⊢
  exact h i hlow hhigh

theorem WellFormed.checked {id : TournamentId} (hdb : WellFormed db) (h : Checked id db db') :
    WellFormed db' := by
  cases h with
  | @finished t t' _ here _ _ _ sameId players battles tournaments logs =>
      refine hdb.putTournament (t := t) ?_ sameId (fun hs => hs.congr players) battles tournaments logs.nextId
      rwa [show t.id = id from Table.key_of_get? here]
  | same => exact hdb

theorem WellFormed.advanced (hdb : WellFormed db) (h : Advanced m db db') : WellFormed db' := by
  cases h with
  | quick => exact hdb
  | onward _ _ _ next loser checked => exact ((hdb.placed next).placed loser).checked checked

/-- A match nothing has happened in. -/
theorem Match.Sound.fresh (hgames : m.games = .empty) (hwins : m.wins = .both 0) (hgoing : m.isOver = false) :
    m.Sound := by
  have hnone : ∀ g, g ∉ m.games.rows := fun g hg => by
    rw [hgames] at hg
    exact absurd hg List.not_mem_nil
  refine ⟨fun slot => ?_, ?_, fun h => ?_, fun g hg => absurd hg (hnone g), fun g hg => absurd hg (hnone g), ?_, ?_⟩
  · rw [hwins, Pair.get_both, Match.gamesWon, hgames]
    rfl
  · rw [Match.gamesActive, hgames]
    exact Nat.zero_le 1
  · rw [hgoing] at h
    cases h
  · intro h
    obtain ⟨g, hg, _⟩ := Match.started_iff.mp h
    exact absurd hg (hnone g)
  · intro h
    rw [Match.isOver, h] at hgoing
    cases hgoing

/-- A quick battle created. -/
theorem WellFormed.duel (hdb : WellFormed db) (quick : m.tournament = none) (next : m.nextMatch = none)
    (loser : m.loserNextMatch = none) (games : m.games = .empty) (wins : m.wins = .both 0)
    (going : m.isOver = false) (fresh : db.nextId ≤ m.id) (below : m.id < db'.nextId)
    (battles : db'.battles = db.battles.add m) (tournaments : db'.tournaments = db.tournaments)
    (hnext : db.nextId ≤ db'.nextId) : WellFormed db' := by
  have hno : m.targets = [] := by rw [Match.targets, next, loser]; rfl
  have hrows : ∀ x ∈ db'.battles.rows, x = m ∨ x ∈ db.battles.rows := fun x hx =>
    Table.mem_add (battles ▸ hx)
  have hold : ∀ x ∈ db'.battles.rows, ∀ p ∈ x.targets, x ∈ db.battles.rows := fun x hx p hp => by
    rcases hrows x hx with rfl | hx
    · rw [hno] at hp
      cases hp
    · exact hx
  have hplayed : ∀ x ∈ db'.battles.rows, ∀ g ∈ x.games.rows, x ∈ db.battles.rows := fun x hx g hg => by
    rcases hrows x hx with rfl | hx
    · rw [games] at hg
      exact absurd hg List.not_mem_nil
    · exact hx
  refine ⟨?_, ?_, ?_, ?_, ⟨?_, ?_, ?_, ?_, ?_, ?_, ?_⟩, ?_, ?_⟩
  · intro x hx
    rcases hrows x hx with rfl | hx
    · exact .fresh games wins going
    · exact hdb.sound x hx
  · intro x hx
    rcases hrows x hx with rfl | hx
    · exact below
    · exact lt_of_lt_of_le (hdb.below x hx) hnext
  · intro x hx g hg
    exact lt_of_lt_of_le (hdb.games x (hplayed x hx g hg) g hg) hnext
  · intro x hx y hy g hg h hh
    exact hdb.own x (hplayed x hx g hg) y (hplayed y hy h hh) g hg h hh
  · intro x hx p hp y hy hid
    rcases hrows y hy with rfl | hy
    · -- a new match is nobody's next one
      have hknown := hdb.wired.known x (hold x hx p hp) p hp
      rw [← hid] at hknown
      exact absurd hknown (not_lt.mpr fresh)
    · exact hdb.wired.inside x (hold x hx p hp) p hp y hy hid
  · exact fun x hx p hp => hdb.wired.other x (hold x hx p hp) p hp
  · exact fun x hx p hp => lt_of_lt_of_le (hdb.wired.known x (hold x hx p hp) p hp) hnext
  · exact fun x hx y hy p hp hq => hdb.wired.single x (hold x hx p hp) y (hold y hy p hq) p hp hq
  · exact fun x hx p q hp hq => hdb.wired.apart x (hold x hx p (Match.mem_targets.mpr (.inl hp))) p q hp hq
  · intro x hx q hq y hy hid
    rcases hrows y hy with rfl | hy
    · exact hno
    · exact hdb.wired.last x (hold x hx q (Match.mem_targets.mpr (.inr hq))) q hq y hy hid
  · intro x hx hnone
    rcases hrows x hx with rfl | hx
    · exact hno
    · exact hdb.wired.quick x hx hnone
  · rw [tournaments]
    exact hdb.seeded
  · rw [tournaments]
    exact fun t ht => lt_of_lt_of_le (hdb.tournaments t ht) hnext

/-- A bracket drawn again: the matches of the tournament replaced by new ones. -/
theorem WellFormed.bracket {d : BracketPlan} (hdb : WellFormed db) (fits : d.Fits) (base : d.base = db.nextId)
    (battles : db'.battles =
      d.allMatches.foldl Table.add (db.battles.filter fun m => m.tournament ≠ some d.tournament.id))
    (tournaments : db'.tournaments = db.tournaments)
    (nextId : db'.nextId = db.nextId + d.allMatches.length) : WellFormed db' := by
  have hnext : db.nextId ≤ db'.nextId := by omega
  -- a match is one of the others, or one of the plan, and its key tells which
  have hrows : ∀ x ∈ db'.battles.rows, x ∈ db.battles.rows ∨ x ∈ d.allMatches := fun x hx => by
    rcases Table.mem_foldl_add (battles ▸ hx) with hx | hx
    · exact .inl (Table.mem_filter.mp hx).1
    · exact .inr hx
  have hlow : ∀ x ∈ d.allMatches, db.nextId ≤ x.id := fun x hx => base ▸ (d.id_bounds fits hx).1
  have hhigh : ∀ x ∈ d.allMatches, x.id < db'.nextId := fun x hx => by
    rw [nextId, ← base]
    exact (d.id_bounds fits hx).2
  have htarget : ∀ x ∈ d.allMatches, ∀ p ∈ x.targets, db.nextId ≤ p.1 ∧ p.1 < db'.nextId := fun x hx p hp => by
    obtain ⟨h1, h2, _⟩ := d.target_bounds fits hx hp
    rw [nextId, ← base]
    exact ⟨h1, h2⟩
  have hempty : ∀ x ∈ d.allMatches, ∀ g, g ∉ x.games.rows := fun x hx g hg => by
    rw [(d.mem_fresh fits hx).2.1] at hg
    exact absurd hg List.not_mem_nil
  refine ⟨?_, ?_, ?_, ?_, ⟨?_, ?_, ?_, ?_, ?_, ?_, ?_⟩, ?_, ?_⟩
  · intro x hx
    rcases hrows x hx with hx | hx
    · exact hdb.sound x hx
    · obtain ⟨_, hgames, hwins, hgoing⟩ := d.mem_fresh fits hx
      exact .fresh hgames hwins hgoing
  · intro x hx
    rcases hrows x hx with hx | hx
    · exact lt_of_lt_of_le (hdb.below x hx) hnext
    · exact hhigh x hx
  · intro x hx g hg
    rcases hrows x hx with hx | hx
    · exact lt_of_lt_of_le (hdb.games x hx g hg) hnext
    · exact absurd hg (hempty x hx g)
  · intro x hx y hy g hg h hh
    rcases hrows x hx with hx | hx
    · rcases hrows y hy with hy | hy
      · exact hdb.own x hx y hy g hg h hh
      · exact absurd hh (hempty y hy h)
    · exact absurd hg (hempty x hx g)
  · intro x hx p hp y hy hid
    rcases hrows x hx with hx | hx <;> rcases hrows y hy with hy | hy
    · exact hdb.wired.inside x hx p hp y hy hid
    · exact absurd (hid ▸ hdb.wired.known x hx p hp) (not_lt.mpr (hlow y hy))
    · exact absurd (hdb.below y hy) (not_lt.mpr (hid ▸ (htarget x hx p hp).1))
    · rw [(d.mem_fresh fits hx).1, (d.mem_fresh fits hy).1]
  · intro x hx p hp
    rcases hrows x hx with hx | hx
    · exact hdb.wired.other x hx p hp
    · exact (d.target_bounds fits hx hp).2.2
  · intro x hx p hp
    rcases hrows x hx with hx | hx
    · exact lt_of_lt_of_le (hdb.wired.known x hx p hp) hnext
    · exact (htarget x hx p hp).2
  · intro x hx y hy p hp hq
    rcases hrows x hx with hx | hx <;> rcases hrows y hy with hy | hy
    · exact hdb.wired.single x hx y hy p hp hq
    · exact absurd (hdb.wired.known x hx p hp) (not_lt.mpr (htarget y hy p hq).1)
    · exact absurd (hdb.wired.known y hy p hq) (not_lt.mpr (htarget x hx p hp).1)
    · exact d.feeder_unique fits hx hy hp hq
  · intro x hx p q hp hq
    rcases hrows x hx with hx | hx
    · exact hdb.wired.apart x hx p q hp hq
    · exact d.targets_apart fits hx hp hq
  · intro x hx q hq y hy hid
    have hmem : q ∈ x.targets := Match.mem_targets.mpr (.inr hq)
    rcases hrows x hx with hx | hx <;> rcases hrows y hy with hy | hy
    · exact hdb.wired.last x hx q hq y hy hid
    · exact absurd (hid ▸ hdb.wired.known x hx q hmem) (not_lt.mpr (hlow y hy))
    · exact absurd (hdb.below y hy) (not_lt.mpr (hid ▸ (htarget x hx q hmem).1))
    · exact d.third_last fits hx hy hq hid
  · intro x hx hnone
    rcases hrows x hx with hx | hx
    · exact hdb.wired.quick x hx hnone
    · rw [(d.mem_fresh fits hx).1] at hnone
      cases hnone
  · rw [tournaments]
    exact hdb.seeded
  · rw [tournaments]
    exact fun t ht => lt_of_lt_of_le (hdb.tournaments t ht) hnext

theorem WellFormed.change (hdb : WellFormed db) (h : Change organizer scope db db') : WellFormed db' := by
  cases h with
  | row here _ step saves => exact hdb.saves saves here step.static fun hm => hm.row step
  | decide here _ step saves advanced =>
      exact (hdb.saves saves here step.static fun hm => hm.decides step).advanced advanced
  | duel quick next loser games wins going fresh below battles tournaments logs =>
      exact hdb.duel quick next loser games wins going fresh below battles tournaments logs.nextId
  | bracket fits _ _ base _ battles tournaments nextId _ =>
      exact hdb.bracket fits base battles tournaments nextId
  | tournament here id _ seeded battles tournaments logs =>
      exact hdb.putTournament here id seeded battles tournaments logs.nextId
  | @newTournament t _ _ seeded _ below battles tournaments logs =>
      refine hdb.maps 0 logs.nextId (battles ▸ Table.Maps.refl (Match.Kept.refl _ _ _) _) fun x hx => ?_
      rcases Table.mem_add (tournaments ▸ hx) with rfl | hx
      · exact ⟨seeded, below⟩
      · exact ⟨hdb.seeded x hx, lt_of_lt_of_le (hdb.tournaments x hx) logs.nextId⟩
  | other battles tournaments logs =>
      refine hdb.maps 0 logs.nextId (battles ▸ Table.Maps.refl (Match.Kept.refl _ _ _) _) fun x hx => ?_
      rw [tournaments] at hx
      exact ⟨hdb.seeded x hx, lt_of_lt_of_le (hdb.tournaments x hx) logs.nextId⟩

theorem WellFormed.path (hdb : WellFormed db) (h : Path organizer scope db db') : WellFormed db' := by
  induction h with
  | refl => exact hdb
  | tail _ hstep ih => exact ih.change hstep

end

/-! ## The special requests -/

section
variable {db db' : Db} {m : Match}

theorem Match.replace_eq (m : Match) (slot : Slot) (profile : ProfileId) (display : String) :
    ∃ status, m.replace slot profile display =
        { m with players := m.players.set slot (some profile), displayNames := m.displayNames.set slot display,
                 status, version := m.version + 1 } ∧
      (status = m.status ∨ (m.status = .pending ∧ status = .ready)) := by
  let full : Match := { m with players := m.players.set slot (some profile)
                               displayNames := m.displayNames.set slot display }
  by_cases h : (m.status = .pending && full.ready) = true
  · refine ⟨.ready, ?_, .inr ⟨of_decide_eq_true (Bool.and_eq_true_iff.mp h).1, rfl⟩⟩
    show Match.bump (if (m.status = .pending && full.ready) = true then _ else _) = _
    rw [if_pos h]
    rfl
  · refine ⟨m.status, ?_, .inl rfl⟩
    show Match.bump (if (m.status = .pending && full.ready) = true then _ else full) = _
    rw [if_neg h]
    rfl

theorem Match.Sound.replace (hm : m.Sound) (slot : Slot) (profile : ProfileId) (display : String)
    (hgoing : m.isOver = false) : (m.replace slot profile display).Sound := by
  obtain ⟨status, heq, hstatus⟩ := m.replace_eq slot profile display
  have hover : status ≠ .decided ∧ status ≠ .cancelled := by
    rcases hstatus with rfl | ⟨_, rfl⟩
    · simpa [Match.isOver] using hgoing
    · decide
  rw [heq]
  refine hm.of_same rfl rfl (fun h => ?_) (fun s hs => ?_) fun h => absurd h hover.1
  · simp [Match.isOver, hover] at h
  · show ((m.players.set slot (some profile)).get s).isSome = true
    by_cases h : s = slot
    · simp [h]
    · rwa [Pair.get_set_of_ne _ _ h]

theorem Match.Sound.correct (hm : m.Sound) (slot : Slot) (now : Time) (hdecided : m.status = .decided)
    (hseated : (m.players.get slot).isSome = true) : (m.correct slot now).Sound :=
  hm.of_same rfl rfl (fun _ => .inl (by simp [Match.isOver, hdecided])) (fun _ h => h)
    fun _ => ⟨slot, rfl, hseated⟩

theorem WellFormed.setsLength {id : TournamentId} {number bestOf : ℕ} (hdb : WellFormed db)
    (h : SetsLength id number bestOf db db') : WellFormed db' := by
  refine hdb.maps 0 h.logs.nextId ?_ fun t ht => ?_
  · rw [h.battles]
    refine Table.Maps.modify (Match.Kept.refl _ _ _) fun m _ _ => ⟨rfl, fun hm => ?_, fun g hg => ?_⟩
    · exact hm.of_quiet rfl rfl rfl rfl rfl
    · exact .inl ⟨g, hg, rfl⟩
  · rw [h.tournaments] at ht
    exact ⟨hdb.seeded t ht, lt_of_lt_of_le (hdb.tournaments t ht) h.logs.nextId⟩

theorem WellFormed.replaces {id : MatchId} {slot : Slot} {profile : ProfileId} (hdb : WellFormed db)
    (h : Replaces id slot profile m db db') : WellFormed db' := by
  obtain ⟨display, hbattles⟩ := h.battles
  refine hdb.maps 0 h.logs.nextId ?_ fun t ht => ?_
  · obtain ⟨status, heq, _⟩ := m.replace_eq slot profile display
    have hstatic : (m.replace slot profile display).static = m.static := by rw [heq]; rfl
    rw [hbattles]
    refine Table.Maps.put (b := m) (Match.Kept.refl _ _ _) ?_
      ⟨hstatic, fun hm => hm.replace slot profile display h.going, fun g hg => .inl ⟨g, ?_, rfl⟩⟩
    · show db.battles.get? (m.replace slot profile display).id = some m
      rw [Match.id_of_static hstatic, show m.id = id from Table.key_of_get? h.here]
      exact h.here
    · rw [heq] at hg
      exact hg
  · rw [h.tournaments] at ht
    exact ⟨hdb.seeded t ht, lt_of_lt_of_le (hdb.tournaments t ht) h.logs.nextId⟩

theorem WellFormed.reopened {id : TournamentId} (hdb : WellFormed db) (h : Reopened id db db') :
    WellFormed db' := by
  cases h with
  | @reopened t t' _ here _ _ sameId players battles tournaments logs =>
      refine hdb.putTournament (t := t) ?_ sameId (fun hs => hs.congr players) battles tournaments logs.nextId
      rwa [show t.id = id from Table.key_of_get? here]
  | same => exact hdb

/-- The tables with the winner corrected, before anybody moves. -/
theorem WellFormed.corrected {id : MatchId} {slot : Slot} (hdb : WellFormed db) (h : Corrects id slot m db db')
    (now : Time) : WellFormed (db.putMatch (m.correct slot now)) := by
  refine hdb.maps 0 (le_refl _) ?_ fun t ht => ⟨hdb.seeded t ht, hdb.tournaments t ht⟩
  refine Table.Maps.put (b := m) (Match.Kept.refl _ _ _) ?_
    ⟨rfl, fun hm => hm.correct slot now h.decided h.seated, fun g hg => .inl ⟨g, hg, rfl⟩⟩
  show db.battles.get? m.id = some m
  rw [show m.id = id from Table.key_of_get? h.here]
  exact h.here

theorem WellFormed.corrects {id : MatchId} {slot : Slot} (hdb : WellFormed db)
    (h : Corrects id slot m db db') : WellFormed db' := by
  obtain ⟨t, db1, now, _, hreopened, hadvanced⟩ := h.moved
  exact ((hdb.corrected h now).reopened hreopened).advanced hadvanced

theorem WellFormed.begins {id : TournamentId} {t : Tournament} (hdb : WellFormed db)
    (h : Begins id t db db') : WellFormed db' := by
  obtain ⟨t', htournaments, hid, _, hplayers⟩ := h.tournaments
  refine hdb.putTournament (t := t) ?_ hid (fun hs => hs.congr hplayers) h.battles htournaments h.logs.nextId
  rw [show t.id = id from Table.key_of_get? h.here]
  exact h.here

end

end Arena
end CpcJudge
