import CpcJudge.Arena.TournamentOps

/-!
# `Arena.Seeding` — the best seeds meet as late as possible

`seeding_order` doubles a list of seeds by putting next to each of them the one that completes it. By induction
on the doubling, the seeds keep the block they were in (`orderOf_apart`), so the best `2 ^ j` of them only meet
when `2 ^ j` players remain. The size of the bracket is less than twice the participants, so in each first round
match at most the second seed is missing (`firstRound_built`), and the byes go to the first seeds.
-/

namespace CpcJudge
namespace Arena

open CpcJudge.Txn (bind_ok pure_ok)

/-! ## The order of the seeds -/

theorem spread_getElem?_succ (order : List ℕ) (i : ℕ) :
    (spread order)[2 * i + 1]? = order[i]?.map fun current => order.length * 2 + 1 - current := by
  have hpairs : ∀ (n : ℕ) (l : List ℕ),
      (l.flatMap fun c => [c, n - c])[2 * i + 1]? = l[i]?.map fun c => n - c := by
    intro n l
    induction l generalizing i with
    | nil => simp
    | cons c l ih =>
        cases i with
        | zero => simp
        | succ i =>
            show ([c, n - c] ++ l.flatMap _)[2 * i + 1 + 2]? = _
            rw [List.getElem?_append_right (by simp), List.getElem?_cons_succ, ← ih i]
            simp
  exact hpairs _ order

/-- A seed at an even place was at half of it; at an odd place, it completes the one before. -/
theorem orderOf_succ_getElem? {k p seed : ℕ} (h : (orderOf (k + 1))[p]? = some seed) :
    ∃ first, (orderOf k)[p / 2]? = some first ∧ 1 ≤ first ∧ first ≤ 2 ^ k ∧
      seed = if p % 2 = 0 then first else 2 ^ (k + 1) + 1 - first := by
  rw [orderOf] at h
  have hp := Nat.div_add_mod p 2
  rcases Nat.mod_two_eq_zero_or_one p with heven | hodd
  · rw [heven, Nat.add_zero] at hp
    rw [← hp, spread_getElem?] at h
    obtain ⟨hlow, hhigh⟩ := mem_orderOf (List.mem_of_getElem? h)
    exact ⟨seed, h, hlow, hhigh, (if_pos heven).symm⟩
  · rw [hodd] at hp
    rw [← hp, spread_getElem?_succ, Option.map_eq_some_iff] at h
    obtain ⟨first, hfirst, rfl⟩ := h
    obtain ⟨hlow, hhigh⟩ := mem_orderOf (List.mem_of_getElem? hfirst)
    exact ⟨first, hfirst, hlow, hhigh, by rw [if_neg (by omega), length_orderOf, pow_succ]⟩

theorem nodup_orderOf : ∀ k, (orderOf k).Nodup
  | 0 => List.nodup_singleton 1
  | k + 1 => by
    have ih := nodup_orderOf k
    refine List.nodup_iff_getElem?_ne_getElem?.mpr fun p q hpq hq heq => ?_
    obtain ⟨seed, hseed⟩ : ∃ seed, (orderOf (k + 1))[q]? = some seed := ⟨_, List.getElem?_eq_getElem hq⟩
    rw [hseed] at heq
    obtain ⟨x, hx, hxlow, hxhigh, hpx⟩ := orderOf_succ_getElem? heq
    obtain ⟨y, hy, hylow, hyhigh, hqy⟩ := orderOf_succ_getElem? hseed
    have hpow : 2 ^ (k + 1) = 2 ^ k * 2 := pow_succ 2 k
    have hxy : x = y ∧ p % 2 = q % 2 := by
      split_ifs at hpx hqy <;> omega
    obtain ⟨rfl, hmod⟩ := hxy
    have hlt : p / 2 < (orderOf k).length := (List.getElem?_eq_some_iff.mp hx).1
    have hdiv := (List.getElem?_inj hlt ih).mp (hx.trans hy.symm)
    omega

/-- **The order is a permutation of the seeds.** -/
theorem orderOf_perm (k : ℕ) : (orderOf k).Perm (List.range' 1 (2 ^ k)) := by
  refine (List.subperm_of_subset (nodup_orderOf k) fun seed h => ?_).perm_of_length_le ?_
  · obtain ⟨hlow, hhigh⟩ := mem_orderOf h
    exact List.mem_range'_1.mpr ⟨hlow, by omega⟩
  · rw [List.length_range', length_orderOf]

theorem exists_place {k seed : ℕ} (hlow : 1 ≤ seed) (hhigh : seed ≤ 2 ^ k) :
    ∃ p < 2 ^ k, (orderOf k)[p]? = some seed := by
  have hmem : seed ∈ orderOf k := (orderOf_perm k).mem_iff.mpr (List.mem_range'_1.mpr ⟨hlow, by omega⟩)
  obtain ⟨p, hp, rfl⟩ := List.getElem_of_mem hmem
  exact ⟨p, by rwa [length_orderOf] at hp, List.getElem?_eq_getElem hp⟩

/-- The two seeds of a pair add up to one more than there are. -/
theorem orderOf_pair {k i first second : ℕ} (hfirst : (orderOf k)[2 * i]? = some first)
    (hsecond : (orderOf k)[2 * i + 1]? = some second) : first + second = 2 ^ k + 1 := by
  cases k with
  | zero =>
      rw [orderOf, List.getElem?_eq_none (by simp)] at hsecond
      cases hsecond
  | succ k =>
      obtain ⟨x, hx, _, hxhigh, rfl⟩ := orderOf_succ_getElem? hfirst
      obtain ⟨y, hy, _, hyhigh, rfl⟩ := orderOf_succ_getElem? hsecond
      rw [show 2 * i / 2 = i by omega] at hx
      rw [show (2 * i + 1) / 2 = i by omega, hx] at hy
      obtain rfl := Option.some.inj hy
      rw [if_pos (Nat.mul_mod_right 2 i), if_neg (by omega), pow_succ]
      omega

/-- **The best `2 ^ j` seeds are in different blocks**: doubling leaves each of them in its block, and puts
    worse seeds only next to them. -/
theorem orderOf_apart {j : ℕ} : ∀ {k p q s t : ℕ}, j ≤ k → (orderOf k)[p]? = some s →
    (orderOf k)[q]? = some t → s ≤ 2 ^ j → t ≤ 2 ^ j → p ≠ q → p / 2 ^ (k - j) ≠ q / 2 ^ (k - j) := by
  intro k
  induction k with
  | zero =>
      intro p q s t hj _ _ _ _ hpq
      simpa using hpq
  | succ k ih =>
      intro p q s t hj hp hq hs ht hpq
      rcases hj.lt_or_eq with hlt | rfl
      · have hpow : 2 ^ j ≤ 2 ^ k := Nat.pow_le_pow_right (by decide) (by omega)
        obtain ⟨x, hx, _, hxhigh, hsx⟩ := orderOf_succ_getElem? hp
        obtain ⟨y, hy, _, hyhigh, hty⟩ := orderOf_succ_getElem? hq
        rw [pow_succ] at hsx hty
        -- a seed that completes another is in the worse half
        have hp0 : p % 2 = 0 := by
          by_contra hodd
          rw [if_neg hodd] at hsx
          omega
        have hq0 : q % 2 = 0 := by
          by_contra hodd
          rw [if_neg hodd] at hty
          omega
        rw [if_pos hp0] at hsx
        rw [if_pos hq0] at hty
        have hstep := ih (by omega) hx hy (hsx ▸ hs) (hty ▸ ht) (by omega)
        rwa [show k + 1 - j = (k - j) + 1 by omega, pow_succ', ← Nat.div_div_eq_div_mul,
          ← Nat.div_div_eq_div_mul]
      · simpa using hpq

section
variable {s t : Txn} {u : Unit} {db db' : Db} {m m' : Match} {id : TournamentId}

/-! ## The rows after the byes -/

/-- The same match, but for the games prepared for it. -/
def Match.Prepared (m m' : Match) : Prop := ∃ games, m' = { m with games }

theorem Match.Prepared.refl (m : Match) : m.Prepared m := ⟨m.games, rfl⟩

theorem Match.Prepared.trans {a b c : Match} : a.Prepared b → b.Prepared c → a.Prepared c := by
  rintro ⟨_, rfl⟩ ⟨games, rfl⟩
  exact ⟨games, rfl⟩

theorem addGames_maps : ∀ {problems : List (List GameProblem)} {number : ℕ} {m m' : Match} {s t : Txn},
    addGames m number problems s = .ok m' t → s.db.match? m.id = some m →
    Table.Maps Match.Prepared s.db.battles t.db.battles
  | [], _, _, _, _, _, h, _ => by
    rw [(pure_ok.mp h).2]
    exact .refl Match.Prepared.refl _
  | problems :: rest, number, m, m', s, t, h, here => by
    simp only [addGames, freshId_bind, saveMatch_bind] at h
    have hput : Table.Maps Match.Prepared s.db.battles (s.db.battles.put
        { m with games := m.games.add { id := s.db.nextId, number, problems } }) :=
      Table.Maps.put (b := m) Match.Prepared.refl here ⟨_, rfl⟩
    refine hput.trans (fun _ _ _ => Match.Prepared.trans) (addGames_maps h ?_)
    exact Table.get?_put_self (b := m) here

theorem restoreGames_maps {chosen : List (Place × List GameProblem)} : ∀ {ids : List MatchId} {s t : Txn},
    restoreGames chosen ids s = .ok u t → Table.Maps Match.Prepared s.db.battles t.db.battles
  | [], s, t, h => by
    rw [(pure_ok.mp h).2]
    exact .refl Match.Prepared.refl _
  | i :: ids, s, t, h => by
    simp only [restoreGames, tables_bind] at h
    cases here : s.db.match? i with
    | none =>
        simp only [here] at h
        exact restoreGames_maps h
    | some m =>
        simp only [here] at h
        rcases Txn.ite_ok.mp h with ⟨_, h⟩ | ⟨_, h⟩
        · exact restoreGames_maps h
        · obtain ⟨m', s1, hgames, h⟩ := bind_ok.mp h
          have hid : m.id = i := Table.key_of_get? here
          exact (addGames_maps hgames (hid ▸ here)).trans (fun _ _ _ => Match.Prepared.trans)
            (restoreGames_maps h)

/-- A match of the first round after the byes. -/
def Match.afterBye (now : Time) (m : Match) : Match :=
  if m.status = .pending then m.award .a .bye now (m.version + 1) else m

theorem Match.afterBye_afterBye (now : Time) (m : Match) : (m.afterBye now).afterBye now = m.afterBye now := by
  by_cases h : m.status = .pending
  · have hbye : m.afterBye now = m.award .a .bye now (m.version + 1) := if_pos h
    rw [hbye]
    rfl
  · have hbye : m.afterBye now = m := if_neg h
    rw [hbye, hbye]

theorem Match.afterBye_static (now : Time) (m : Match) : (m.afterBye now).static = m.static := by
  unfold Match.afterBye
  split <;> rfl

/-- What the byes do to a match: only one that nobody goes to, of those on the list, is decided. -/
structure Match.Opened (now : Time) (far : MatchId → Prop) (ids : List MatchId) (m m' : Match) : Prop where
  static : m'.static = m.static
  opened : far m.id → m' = if m.id ∈ ids then m.afterBye now else m

/-- A player moving on leaves every other match alone. -/
theorem Placed.opened {now : Time} {far : MatchId → Prop} {seed : Option ℕ}
    {target : Option (MatchId × Slot)} {p : Option ProfileId} (h : Placed seed db target p db')
    (hfar : ∀ q ∈ target, ¬ far q.1) : Table.Maps (Match.Opened now far []) db.battles db'.battles := by
  have hrefl : ∀ m, Match.Opened now far [] m m := fun m => ⟨rfl, fun _ => by simp⟩
  cases h with
  | nobody => exact .refl hrefl _
  | nowhere => exact .refl hrefl _
  | @placed i n slot p here _ =>
      have hid : n.id = i := Table.key_of_get? here
      have hstatic := n.receive_static slot (some p) seed
      refine Table.Maps.put (b := n) hrefl ?_ ⟨hstatic, fun hn => absurd (hid ▸ hn) (hfar _ rfl)⟩
      show db.battles.get? (n.receive slot (some p) seed).id = some n
      rw [Match.id_of_static hstatic, hid]
      exact here

theorem Match.Opened.trans {now : Time} {far : MatchId → Prop} {ids : List MatchId} {a b c : Match}
    (h : a.Opened now far [] b) (h' : b.Opened now far ids c) : a.Opened now far ids c := by
  have hid : b.id = a.id := Match.id_of_static h.static
  refine ⟨h'.static.trans h.static, fun hfar => ?_⟩
  have hb : b = a := by simpa using h.opened hfar
  subst hb
  exact h'.opened hfar

theorem Advanced.opened {now : Time} {far : MatchId → Prop} (h : Advanced m db db')
    (hfar : ∀ q ∈ m.targets, ¬ far q.1) : Table.Maps (Match.Opened now far []) db.battles db'.battles := by
  cases h with
  | quick => exact .refl (fun m => ⟨rfl, fun _ => by simp⟩) _
  | onward _ _ _ next loser checked =>
      rw [checked.battles]
      refine (next.opened fun q hq => hfar q ?_).trans (fun _ _ _ => Match.Opened.trans)
        (loser.opened fun q hq => hfar q ?_)
      · exact Match.mem_targets.mpr (.inl hq)
      · exact Match.mem_targets.mpr (.inr hq)

/-- One bye, and then the others. -/
theorem Match.Opened.cons {now : Time} {far : MatchId → Prop} {i : MatchId} {ids : List MatchId} {a b c : Match}
    (h : a.Opened now far [i] b) (h' : b.Opened now far ids c) : a.Opened now far (i :: ids) c := by
  have hid : b.id = a.id := Match.id_of_static h.static
  refine ⟨h'.static.trans h.static, fun hfar => ?_⟩
  rw [h'.opened (hid ▸ hfar), hid, h.opened hfar]
  by_cases hi : a.id = i
  · by_cases hmem : a.id ∈ ids
    · simp [hi, hi ▸ hmem, Match.afterBye_afterBye]
    · simp [hi, hi ▸ hmem]
  · simp [hi]

/-- A match that waits for its bye. -/
structure AwaitsBye (id : TournamentId) (far : MatchId → Prop) (db : Db) (i : MatchId) (m : Match) : Prop where
  here : db.match? i = some m
  tournament : m.tournament = some id
  seated : m.players.a.isSome = true
  targets : ∀ q ∈ m.targets, ¬ far q.1

theorem AwaitsBye.maps {now : Time} {far : MatchId → Prop} {i : MatchId} {ids : List MatchId}
    (h : AwaitsBye id far db i m) (hfar : far i)
    (hmaps : Table.Maps (Match.Opened now far ids) db.battles db'.battles) :
    ∃ m', AwaitsBye id far db' i m' := by
  obtain ⟨m', here', hopened⟩ := hmaps.forth h.here
  have hid : m.id = i := Table.key_of_get? h.here
  have heq := hopened.opened (hid ▸ hfar)
  have hplayers : m'.players = m.players := by
    rw [heq]
    split
    · unfold Match.afterBye
      split <;> rfl
    · rfl
  exact ⟨m', here', (Match.tournament_of_static hopened.static).trans h.tournament, hplayers ▸ h.seated,
    Match.targets_of_static hopened.static ▸ h.targets⟩

/-- One match that may have a bye, and then the others. -/
theorem giveByes_cons {now : Time} {far : MatchId → Prop} {i : MatchId} {ids : List MatchId}
    (h : giveByes now (i :: ids) s = .ok u t) (hwaits : AwaitsBye id far s.db i m) :
    ∃ s2, giveByes now ids s2 = .ok u t ∧ ((m.status ≠ .pending ∧ s2 = s) ∨ (m.status = .pending ∧
      Advanced (m.award .a .bye now (m.version + 1)) (s.db.putMatch (m.award .a .bye now (m.version + 1))) s2.db)) := by
  simp only [giveByes, tables_bind] at h
  rw [hwaits.here, Option.any_some] at h
  rcases Txn.ite_ok.mp h with ⟨hpending, h⟩ | ⟨hpending, h⟩
  · obtain ⟨m', s1, hlock, hbye⟩ := bind_ok.mp h
    obtain ⟨here', rfl⟩ := lockMatch_ok.mp hlock
    obtain rfl := Option.some.inj (here'.symm.trans hwaits.here)
    simp only [hwaits.seated, if_true, saveMatch_bind] at hbye
    obtain ⟨_, s2, hadvance, hbyes⟩ := bind_ok.mp hbye
    have hadvanced : Advanced (m'.award .a .bye now (m'.version + 1)) _ s2.db :=
      advance_advanced (w := .a) hadvance rfl hwaits.seated
    rw [Txn.wrote_db, Txn.holdingMatch_db] at hadvanced
    exact ⟨s2, hbyes, .inr ⟨of_decide_eq_true hpending, hadvanced⟩⟩
  · exact ⟨s, h, .inl ⟨by simpa using hpending, rfl⟩⟩

/-- What the first of them does. -/
theorem AwaitsBye.maps_head {now : Time} {far : MatchId → Prop} {i : MatchId} {db2 : Db}
    (h : AwaitsBye id far db i m) (hmoved : (m.status ≠ .pending ∧ db2 = db) ∨ (m.status = .pending ∧
      Advanced (m.award .a .bye now (m.version + 1)) (db.putMatch (m.award .a .bye now (m.version + 1))) db2)) :
    Table.Maps (Match.Opened now far [i]) db.battles db2.battles := by
  have hid : m.id = i := Table.key_of_get? h.here
  rcases hmoved with ⟨hnot, rfl⟩ | ⟨hpending, hadvanced⟩
  · refine (Table.Maps.refl (fun x => Eq.refl x) db2.battles).mono fun a b ha hab => ?_
    subst hab
    refine ⟨rfl, fun _ => ?_⟩
    by_cases hai : a.id = i
    · have heq : a = m := Table.eq_of_key ha (Table.mem_of_get? h.here) (hai.trans hid.symm)
      rw [if_pos (by simp [hai]), heq]
      exact (if_neg hnot).symm
    · rw [if_neg (by simp [hai])]
  · have hput : Table.Maps (Match.Opened now far [i]) db.battles
        (db.battles.put (m.award .a .bye now (m.version + 1))) := by
      have here : db.battles.get? m.id = some m := hid.symm ▸ h.here
      refine Table.Maps.put_row (b := m) (fun x hx => ⟨rfl, fun _ => ?_⟩) here ⟨rfl, fun _ => ?_⟩
      · have hne : x.id ≠ i := fun h => hx (h.trans hid.symm)
        simp [hne]
      · rw [if_pos (by simp [hid])]
        exact (if_pos hpending).symm
    have hmoved : Table.Maps (Match.Opened now far []) (db.battles.put (m.award .a .bye now (m.version + 1)))
        db2.battles := hadvanced.opened h.targets
    exact hput.comp (fun a b c (h : a.Opened now far [i] b) (h' : b.Opened now far [] c) => h.cons h') hmoved

/-- **The byes decide the matches with one player**, and leave the others of the first round as they are. -/
theorem giveByes_maps {now : Time} {far : MatchId → Prop} : ∀ {ids : List MatchId} {s t : Txn},
    giveByes now ids s = .ok u t → (∀ i ∈ ids, far i ∧ ∃ m, AwaitsBye id far s.db i m) →
    Table.Maps (Match.Opened now far ids) s.db.battles t.db.battles
  | [], s, t, h, _ => by
    rw [(pure_ok.mp h).2]
    exact .refl (fun m => ⟨rfl, fun _ => by simp⟩) _
  | i :: ids, s, t, h, hids => by
    obtain ⟨_, m, hwaits⟩ := hids i List.mem_cons_self
    obtain ⟨s2, hbyes, hmoved⟩ := giveByes_cons h hwaits
    have hhead : Table.Maps (Match.Opened now far [i]) s.db.battles s2.db.battles :=
      hwaits.maps_head (hmoved.imp_left (And.imp_right (congrArg Txn.db)))
    refine hhead.comp (fun a b c (h : a.Opened now far [i] b) (h' : b.Opened now far ids c) => h.cons h')
      (giveByes_maps hbyes fun j hj => ?_)
    obtain ⟨hfar, x, hx⟩ := hids j (List.mem_cons_of_mem i hj)
    exact ⟨hfar, hx.maps hfar hhead⟩

/-! ## The first round -/

/-- Participants seeded from one, one each. -/
theorem Tournament.Seeded.perm {row : Tournament} (h : row.Seeded) :
    (List.range' 1 row.participants.length).Perm (row.participants.map Participant.seed) := by
  -- as many seeds as participants, so there is no other
  have hsubset : List.range' 1 row.participants.length ⊆ row.participants.map Participant.seed := by
    intro i hi
    rw [List.mem_range'_1] at hi
    obtain ⟨p, hp⟩ := Option.isSome_iff_exists.mp (h i hi.1 (by omega))
    exact List.mem_map.mpr ⟨p, List.mem_of_find?_eq_some hp, by simpa using List.find?_some hp⟩
  exact (List.subperm_of_subset List.nodup_range' hsubset).perm_of_length_le (by simp)

/-- Who has a seed. -/
theorem Tournament.Seeded.find?_isSome_iff {row : Tournament} (h : row.Seeded) {seed : ℕ} :
    (row.participants.find? (·.seed = seed)).isSome = true ↔ 1 ≤ seed ∧ seed ≤ row.participants.length := by
  refine ⟨fun hsome => ?_, fun ⟨hlow, hhigh⟩ => h seed hlow hhigh⟩
  obtain ⟨p, hp⟩ := Option.isSome_iff_exists.mp hsome
  have hmem : seed ∈ row.participants.map Participant.seed :=
    List.mem_map.mpr ⟨p, List.mem_of_find?_eq_some hp, by simpa using List.find?_some hp⟩
  have := List.mem_range'_1.mp (h.perm.mem_iff.mpr hmem)
  omega

namespace BracketPlan
variable {d : BracketPlan}

/-- The seat of a seed, as the row of a match shows it. -/
theorem seat_map_seed (fits : d.Fits) {seed : ℕ} (hlow : 1 ≤ seed) :
    (d.seat seed).map Participant.seed =
      if seed ≤ d.tournament.participants.length then some seed else none := by
  have hiff : (d.seat seed).isSome = true ↔ 1 ≤ seed ∧ seed ≤ d.tournament.participants.length :=
    fits.seeded.find?_isSome_iff
  cases hseat : d.seat seed with
  | none =>
      rw [hseat, Option.isSome_none] at hiff
      rw [if_neg fun hle => by simpa using hiff.mpr ⟨hlow, hle⟩]
      rfl
  | some p =>
      rw [hseat, Option.isSome_some] at hiff
      rw [if_pos (hiff.mp rfl).2]
      rw [seat] at hseat
      exact congrArg some (by simpa using List.find?_some hseat)

theorem seat_isSome (fits : d.Fits) {seed : ℕ} (hlow : 1 ≤ seed) :
    (d.seat seed).isSome = true ↔ seed ≤ d.tournament.participants.length :=
  fits.seeded.find?_isSome_iff.trans (and_iff_right hlow)

theorem seatPlayers_seeds (m : Match) : (d.seatPlayers m).seeds =
    ⟨((seedingOrder d.size)[2 * m.position]?.bind d.seat).map Participant.seed,
      ((seedingOrder d.size)[2 * m.position + 1]?.bind d.seat).map Participant.seed⟩ := by
  unfold seatPlayers
  simp only
  split <;> rfl

theorem seatPlayers_status (m : Match) (h : m.status = .pending) : (d.seatPlayers m).status = .pending ↔
    ¬ (((seedingOrder d.size)[2 * m.position]?.bind d.seat).isSome = true ∧
      ((seedingOrder d.size)[2 * m.position + 1]?.bind d.seat).isSome = true) := by
  unfold seatPlayers
  simp only [Match.ready, Bool.and_eq_true, Option.isSome_map]
  split
  · rename_i hready
    simp [hready]
  · rename_i hready
    simp [h, hready]

theorem seatPlayers_fresh (m : Match) : (d.seatPlayers m).decidedReason = m.decidedReason ∧
    (d.seatPlayers m).position = m.position := by
  unfold seatPlayers
  simp only
  split <;> exact ⟨rfl, rfl⟩

end BracketPlan

/-- A match of the first round of a bracket of `2 ^ k` places with `count` participants: it shows the seeds of
    its place in the order, and it is a bye if one is missing. -/
structure Match.Opening (count k position : ℕ) (m : Match) (first second : ℕ) : Prop where
  place : m.position = position
  firstSeed : (orderOf k)[2 * position]? = some first
  secondSeed : (orderOf k)[2 * position + 1]? = some second
  seeds : m.seeds = ⟨if first ≤ count then some first else none, if second ≤ count then some second else none⟩
  bye : m.decidedReason = some .bye ↔ ¬ (first ≤ count ∧ second ≤ count)
  winner : m.decidedReason = some .bye → m.winnerSlot = some .a

theorem BracketPlan.opening {d : BracketPlan} (fits : d.Fits) {position : ℕ} (hrounds : 1 ≤ d.rounds)
    (h : position < 2 ^ (d.rounds - 1)) (now : Time) :
    ∃ first second, Match.Opening d.tournament.participants.length d.rounds position
      ((d.node (d.rounds - 1) position).afterBye now) first second := by
  have hsize : seedingOrder d.size = orderOf d.rounds := by
    rw [fits.size, bracketSize_eq, ← fits.rounds, seedingOrder_pow]
  have hlength : (orderOf d.rounds).length = 2 ^ (d.rounds - 1) * 2 := by
    rw [length_orderOf, ← pow_succ, Nat.sub_add_cancel hrounds]
  obtain ⟨first, hfirst⟩ : ∃ first, (orderOf d.rounds)[2 * position]? = some first :=
    ⟨_, List.getElem?_eq_getElem (by omega)⟩
  obtain ⟨second, hsecond⟩ : ∃ second, (orderOf d.rounds)[2 * position + 1]? = some second :=
    ⟨_, List.getElem?_eq_getElem (by omega)⟩
  have hlow := (mem_orderOf (List.mem_of_getElem? hfirst)).1
  have hlow' := (mem_orderOf (List.mem_of_getElem? hsecond)).1
  have hnode : d.node (d.rounds - 1) position = d.seatPlayers (d.blank (d.rounds - 1) position) :=
    if_pos (by omega)
  have hseeds := d.seatPlayers_seeds (d.blank (d.rounds - 1) position)
  have hstatus := d.seatPlayers_status (d.blank (d.rounds - 1) position) rfl
  obtain ⟨hreason, hposition⟩ := d.seatPlayers_fresh (d.blank (d.rounds - 1) position)
  rw [show (d.blank (d.rounds - 1) position).position = position from rfl, hsize, hfirst, hsecond,
    Option.bind_some, Option.bind_some] at hseeds hstatus
  rw [seat_isSome fits hlow, seat_isSome fits hlow'] at hstatus
  rw [seat_map_seed fits hlow, seat_map_seed fits hlow'] at hseeds
  refine ⟨first, second, ?_⟩
  rw [hnode]
  unfold Match.afterBye
  by_cases hpending : (d.seatPlayers (d.blank (d.rounds - 1) position)).status = .pending
  · rw [if_pos hpending]
    exact ⟨hposition, hfirst, hsecond, hseeds, iff_of_true rfl (hstatus.mp hpending), fun _ => rfl⟩
  · rw [if_neg hpending]
    refine ⟨hposition, hfirst, hsecond, hseeds, iff_of_false ?_ (fun h => hpending (hstatus.mpr h)), ?_⟩
    all_goals
      rw [hreason]
      intro h
      cases h

/-- A match of the first round of a tournament. -/
structure Match.InFirstRound (id : TournamentId) (m : Match) : Prop where
  tournament : m.tournament = some id
  round : m.round = some 1
  main : m.isThirdPlace = false

theorem Match.InFirstRound.of_static {id : TournamentId} (h : m'.InFirstRound id) (hs : m'.static = m.static) :
    m.InFirstRound id where
  tournament := (Match.tournament_of_static hs).symm.trans h.tournament
  round := (congrArg (·.2.2.1) hs).symm.trans h.round
  main := (congrArg (·.2.2.2.1) hs).symm.trans h.main

namespace BracketPlan
variable {d : BracketPlan}

/-- Nobody goes to a match of the first round. -/
theorem firstRound_far (fits : d.Fits) {position : ℕ} (hrounds : 1 ≤ d.rounds)
    (h : position < 2 ^ (d.rounds - 1)) : ∀ n ∈ d.allMatches, ∀ q ∈ n.targets,
      q.1 ≠ d.matchId (d.rounds - 1) position := by
  intro n hn q hq heq
  rcases Match.mem_targets.mp hq with hq | hq
  · obtain ⟨back, x, hback, hx, _, rfl⟩ := next_of_mem fits hn hq
    have := (matchId_inj (half_lt_pow hx) h heq).1
    omega
  · obtain ⟨_, _, _, _, _, rfl⟩ := loser_of_mem fits hn hq
    exact matchId_ne_third (by omega) h heq.symm

/-- The matches of the plan that are in the first round. -/
theorem inFirstRound_iff (fits : d.Fits) (hrounds : 1 ≤ d.rounds) :
    (m ∈ d.allMatches ∧ m.InFirstRound d.tournament.id) ↔
      ∃ position < 2 ^ (d.rounds - 1), m = d.node (d.rounds - 1) position := by
  constructor
  · rintro ⟨hm, hfirst⟩
    rcases (mem_allMatches fits).mp hm with ⟨back, position, hback, hposition, rfl⟩ | ⟨_, rfl⟩
    · have hround : (d.node back position).round = some (d.rounds - back) :=
        congrArg (·.2.2.1) (node_static back position)
      rw [hfirst.round] at hround
      have := Option.some.inj hround
      obtain rfl : back = d.rounds - 1 := by omega
      exact ⟨position, hposition, rfl⟩
    · cases hfirst.main
  · rintro ⟨position, hposition, rfl⟩
    have hstatic := node_static (d := d) (d.rounds - 1) position
    refine ⟨(mem_allMatches fits).mpr (.inl ⟨_, position, by omega, hposition, rfl⟩), ?_⟩
    refine ⟨Match.tournament_of_static hstatic, (congrArg (·.2.2.1) hstatic).trans ?_,
      congrArg (·.2.2.2.1) hstatic⟩
    show some (d.rounds - (d.rounds - 1)) = some 1
    rw [Nat.sub_sub_self hrounds]

end BracketPlan

/-- **The first round of a bracket just built.** -/
theorem buildBracket_firstRound {site : Site} {actor : Option ProfileId} {row row' : Tournament}
    (h : buildBracket site actor row s = .ok row' t) (hseeded : row.Seeded)
    (hbelow : ∀ m ∈ s.db.battles.rows, m.id < s.db.nextId) :
    (∀ m ∈ t.db.battles.rows, m.InFirstRound row.id →
        ∃ position < 2 ^ (roundCount row.participants.length - 1), ∃ first second,
          Match.Opening row.participants.length (roundCount row.participants.length) position m first second) ∧
      ∀ position < 2 ^ (roundCount row.participants.length - 1), ∃ m ∈ t.db.battles.rows,
        m.InFirstRound row.id ∧ ∃ first second,
          Match.Opening row.participants.length (roundCount row.participants.length) position m first second := by
  simp only [buildBracket, refuseIf_bind, tables_bind, write_bind, saveTournament_bind] at h
  obtain ⟨hcount, _, h⟩ := h
  generalize hrow1 : row.syncRounds row.participants.length = row1 at h
  have hid : row1.id = row.id := by rw [← hrow1]; rfl
  have hplayers : row1.participants = row.participants := by rw [← hrow1]; rfl
  have hrowrounds : row1.rounds.length = roundCount row.participants.length := by
    rw [← hrow1]
    simp [Tournament.syncRounds]
  generalize hplan : BracketPlan.mk row1 _ _ _ _ _ _ = d at h
  have hbase : d.base = s.db.nextId := by rw [← hplan]; rfl
  have htournament : d.tournament = row1 := by rw [← hplan]
  have hdrounds : d.rounds = roundCount row.participants.length := by rw [← hplan]; exact hrowrounds
  have fits : d.Fits := by
    rw [← hplan]
    refine ⟨?_, hrowrounds.trans (by rw [hplayers]), by rw [hplayers], fun hthird => ?_, hseeded.congr hplayers⟩
    · rw [hplayers]
      exact not_lt.mp hcount
    · simp only [Bool.and_eq_true, decide_eq_true_eq] at hthird
      exact hthird.1.2
  have hrounds : 1 ≤ d.rounds := by
    rw [fits.rounds]
    exact (half_lt fits.count).1
  obtain ⟨_, s3, hbyes, h⟩ := bind_ok.mp h
  obtain ⟨_, s4, hrestore, h⟩ := bind_ok.mp h
  simp only [saveTournament_bind, logTournament_bind, pure_ok] at h
  have hlength : row1.rounds.length = d.rounds := hrowrounds.trans hdrounds.symm
  rw [hlength] at hbyes
  have hlast : t.db.battles = s4.db.battles := by rw [h.2]; rfl
  rw [hlast, ← hplayers, ← htournament, ← fits.rounds, ← hid, ← htournament]
  -- nobody goes to the first round, so its rows are those of the plan after their byes
  let far : MatchId → Prop := fun i => ∀ n ∈ d.allMatches, ∀ q ∈ n.targets, q.1 ≠ i
  let drawn : Db := { s.db.dropBracket row.id with
    tournaments := s.db.tournaments.put row1
    battles := d.allMatches.foldl Table.add (s.db.dropBracket row.id).battles
    nextId := s.db.nextId + d.allMatches.length }
  have hrow : ∀ m ∈ d.allMatches, drawn.match? m.id = some m := fun m hm =>
    BracketPlan.match?_of_mem fits hbelow hbase hm rfl
  have hfirst : ∀ {position}, position < 2 ^ (d.rounds - 1) →
      (d.node (d.rounds - 1) position) ∈ d.roundMatches (d.rounds - 1) := fun hposition => by
    rw [BracketPlan.roundMatches_eq fits (by omega)]
    exact List.mem_map_of_mem (List.mem_range.mpr hposition)
  have hids : ∀ i ∈ (d.roundMatches (d.rounds - 1)).map (·.id),
      far i ∧ ∃ m, AwaitsBye row1.id far drawn i m := by
    intro i hi
    obtain ⟨m, hm, rfl⟩ := List.mem_map.mp hi
    obtain ⟨hall, hseated⟩ := BracketPlan.mem_firstRound fits hm
    rw [BracketPlan.roundMatches_eq fits (by omega)] at hm
    obtain ⟨position, hposition, rfl⟩ := List.mem_map.mp hm
    refine ⟨?_, _, hrow _ hall, htournament ▸ (d.mem_fresh fits hall).1, hseated,
      fun q hq hfar => hfar _ hall q hq rfl⟩
    rw [BracketPlan.node_id]
    exact BracketPlan.firstRound_far fits hrounds (List.mem_range.mp hposition)
  have hopened : Table.Maps (Match.Opened site.now far ((d.roundMatches (d.rounds - 1)).map (·.id)))
      drawn.battles s3.db.battles := giveByes_maps hbyes hids
  have hmaps : Table.Maps (fun m m' : Match => m'.static = m.static ∧
      ∀ position < 2 ^ (d.rounds - 1), m = d.node (d.rounds - 1) position →
        ∃ first second, m'.Opening d.tournament.participants.length d.rounds position first second)
      drawn.battles s4.db.battles := by
    refine hopened.comp (fun m m1 m2 h h' => ?_) (restoreGames_maps hrestore)
    obtain ⟨games, rfl⟩ := h'
    refine ⟨h.static, fun position hposition hm => ?_⟩
    obtain ⟨first, second, hopening⟩ := BracketPlan.opening fits hrounds hposition site.now
    have hid : m.id = d.matchId (d.rounds - 1) position := by rw [hm, BracketPlan.node_id]
    have hmem : m.id ∈ (d.roundMatches (d.rounds - 1)).map (·.id) := hm ▸ List.mem_map_of_mem (hfirst hposition)
    have heq := h.opened (hid ▸ BracketPlan.firstRound_far fits hrounds hposition)
    rw [if_pos hmem, hm] at heq
    rw [heq]
    exact ⟨first, second, hopening.place, hopening.firstSeed, hopening.secondSeed, hopening.seeds,
      hopening.bye, hopening.winner⟩
  constructor
  · intro m' hm' hin
    obtain ⟨m, hm, _, hstatic, hopening⟩ := hmaps.back hm'
    have hin := hin.of_static hstatic
    have hplanned : m ∈ d.allMatches := by
      rcases Table.mem_foldl_add hm with hold | hnew
      · have hother := (Table.mem_filter.mp hold).2
        rw [htournament, hid] at hin
        simp [hin.tournament] at hother
      · exact hnew
    obtain ⟨position, hposition, heq⟩ := (BracketPlan.inFirstRound_iff fits hrounds).mp ⟨hplanned, hin⟩
    exact ⟨position, hposition, hopening position hposition heq⟩
  · intro position hposition
    obtain ⟨hall, hin⟩ := (BracketPlan.inFirstRound_iff fits hrounds).mpr ⟨position, hposition, rfl⟩
    obtain ⟨m', hm', hstatic, hopening⟩ := hmaps.forth (hrow _ hall)
    exact ⟨m', Table.mem_of_get? hm', hin.of_static hstatic.symm, hopening position hposition rfl⟩

/-- A pair of the first round with the byes it gives: the first seed is in the better half, so it plays. -/
theorem Match.Opening.spec {count k position first second : ℕ} (h : m.Opening count k position first second)
    (hk : 1 ≤ k) (hhalf : 2 ^ (k - 1) < count) :
    1 ≤ first ∧ first ≤ count ∧ (m.decidedReason = some .bye ↔ first ≤ 2 ^ k - count) := by
  obtain ⟨j, rfl⟩ : ∃ j, k = j + 1 := ⟨k - 1, by omega⟩
  simp only [Nat.add_sub_cancel] at hhalf
  have hpair := orderOf_pair h.firstSeed h.secondSeed
  have hfirst := h.firstSeed
  rw [orderOf, spread_getElem?] at hfirst
  obtain ⟨hlow, hhigh⟩ := mem_orderOf (List.mem_of_getElem? hfirst)
  refine ⟨hlow, by omega, ?_⟩
  rw [h.bye]
  rw [pow_succ] at hpair ⊢
  omega

/-- **Optimal seeding.** The order of `2 ^ k` seeds is a permutation, its pairs add up to one more, and the best
    `2 ^ j` are in different blocks; in the bracket built for `count` participants no first round pair lacks both
    its players, and the byes go to the first seeds. -/
theorem optimal_seeding :
    (∀ k, (seedingOrder (2 ^ k)).Perm (List.range' 1 (2 ^ k)) ∧
      (∀ i first second, (seedingOrder (2 ^ k))[2 * i]? = some first →
        (seedingOrder (2 ^ k))[2 * i + 1]? = some second → first + second = 2 ^ k + 1) ∧
      ∀ j ≤ k, ∀ p q first second, (seedingOrder (2 ^ k))[p]? = some first →
        (seedingOrder (2 ^ k))[q]? = some second → first ≤ 2 ^ j → second ≤ 2 ^ j → p ≠ q →
          p / 2 ^ (k - j) ≠ q / 2 ^ (k - j)) ∧
    ∀ (site : Site) (actor : Option ProfileId) (row row' : Tournament) (s t : Txn),
      buildBracket site actor row s = .ok row' t → row.Seeded →
      (∀ m ∈ s.db.battles.rows, m.id < s.db.nextId) →
      let count := row.participants.length
      let size := bracketSize count
      (∀ position < size / 2, ∃ m ∈ t.db.battles.rows, m.InFirstRound row.id ∧ m.position = position) ∧
      (∀ m ∈ t.db.battles.rows, m.InFirstRound row.id → ∃ first second,
        (seedingOrder size)[2 * m.position]? = some first ∧
        (seedingOrder size)[2 * m.position + 1]? = some second ∧ (first ≤ count ∨ second ≤ count) ∧
        m.seeds = ⟨if first ≤ count then some first else none,
          if second ≤ count then some second else none⟩) ∧
      ∀ seed, (∃ m ∈ t.db.battles.rows, m.InFirstRound row.id ∧ m.decidedReason = some .bye ∧
          ∃ slot, m.winnerSlot = some slot ∧ m.seeds.get slot = some seed) ↔
        1 ≤ seed ∧ seed ≤ size - count := by
  refine ⟨fun k => ?_, fun site actor row row' s t h hseeded hbelow => ?_⟩
  · rw [seedingOrder_pow]
    exact ⟨orderOf_perm k, fun _ _ _ => orderOf_pair, fun j hj _ _ _ _ => orderOf_apart hj⟩
  · intro count size
    obtain ⟨hall, hevery⟩ := buildBracket_firstRound h hseeded hbelow
    have hcount : 2 ≤ count := by
      simp only [buildBracket, refuseIf_bind] at h
      exact not_lt.mp h.1
    obtain ⟨hrounds, hhalf⟩ := half_lt hcount
    have hsize : size = 2 ^ roundCount count := bracketSize_eq count
    have hdouble : size = 2 ^ (roundCount count - 1) * 2 := by
      rw [hsize, ← pow_succ, Nat.sub_add_cancel hrounds]
    refine ⟨fun position hposition => ?_, fun m hm hin => ?_, fun seed => ⟨?_, ?_⟩⟩
    · have hposition : position < 2 ^ (roundCount count - 1) := by omega
      obtain ⟨m, hm, hin, _, _, hopening⟩ := hevery position hposition
      exact ⟨m, hm, hin, hopening.place⟩
    · obtain ⟨position, _, first, second, hopening⟩ := hall m hm hin
      rw [hsize, seedingOrder_pow, hopening.place]
      exact ⟨first, second, hopening.firstSeed, hopening.secondSeed, .inl (hopening.spec hrounds hhalf).2.1,
        hopening.seeds⟩
    · rintro ⟨m, hm, hin, hbye, slot, hslot, hseed⟩
      obtain ⟨position, _, first, second, hopening⟩ := hall m hm hin
      obtain ⟨hlow, hle, hiff⟩ := hopening.spec hrounds hhalf
      obtain rfl : slot = .a := Option.some.inj (hslot.symm.trans (hopening.winner hbye))
      rw [hopening.seeds] at hseed
      obtain rfl : first = seed := by simpa [Pair.get, hle] using hseed
      exact ⟨hlow, hsize ▸ hiff.mp hbye⟩
    · rintro ⟨hlow, hhigh⟩
      obtain ⟨position, hposition, hplace⟩ := exists_place (k := roundCount count - 1) hlow (by omega)
      obtain ⟨m, hm, hin, first, second, hopening⟩ := hevery position hposition
      have hfirst := hopening.firstSeed
      rw [show roundCount row.participants.length = roundCount count - 1 + 1 by
        rw [Nat.sub_add_cancel hrounds], orderOf, spread_getElem?, hplace] at hfirst
      obtain rfl := Option.some.inj hfirst
      obtain ⟨_, hle, hiff⟩ := hopening.spec hrounds hhalf
      have hbye := hiff.mpr (hsize ▸ hhigh)
      refine ⟨m, hm, hin, hbye, .a, hopening.winner hbye, ?_⟩
      rw [hopening.seeds]
      exact if_pos hle

/-- A draft with three participants. -/
def trio : Tournament where
  id := 1
  name := "Cup"
  participants := seeded [7, 8, 9]

/-- The database with that draft alone. -/
def trioOnly : Txn := { db := { tournaments := Table.empty.add trio, nextId := 2 } }

/-- Whether its bracket is built. -/
def trioBuilds : Bool :=
  match buildBracket { now := 0 } none trio trioOnly with
  | .ok _ _ => true
  | .error _ _ => false

theorem trio_built : ∃ row' t, buildBracket { now := 0 } none trio trioOnly = .ok row' t := by
  have hok : trioBuilds = true := by decide +kernel
  unfold trioBuilds at hok
  split at hok
  · rename_i row' t h
    exact ⟨row', t, h⟩
  · cases hok

/-- Of three participants, the first seed has a bye, and nobody else. -/
theorem optimal_seeding_trio : ∃ t : Txn, ∀ seed,
    (∃ m ∈ t.db.battles.rows, m.InFirstRound trio.id ∧ m.decidedReason = some .bye ∧
      ∃ slot, m.winnerSlot = some slot ∧ m.seeds.get slot = some seed) ↔ seed = 1 := by
  obtain ⟨row', t, h⟩ := trio_built
  refine ⟨t, fun seed => ?_⟩
  have hbyes := (optimal_seeding.2 _ _ _ _ _ _ h (seeded_seeded _ rfl) fun m hm => by cases hm).2.2 seed
  rw [hbyes, show bracketSize trio.participants.length - trio.participants.length = 1 by decide]
  omega

end

end Arena
end CpcJudge
