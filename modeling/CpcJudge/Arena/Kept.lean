import CpcJudge.Arena.Refreshed

/-!
# `Arena.Kept` — who is sent back to the arena

The site sends a player back by what the cache says, and the cache is written after the transactions that schedule it
and rewritten when it is found to be missing or wrong. Along every run of operations, polls, losses of the cache and
requests, in whatever order, it is the picture of tables that keep everybody the tables keep now (`Lobby.Covered`).
-/

namespace CpcJudge
namespace Arena

open Scoring (round3 totalSeconds)

/-! ## Until when, as two tables see it -/

section
variable {settings : Settings} {db ref : Db} {m n k : Match} {p : ProfileId} {now : Time}

theorem Match.Foretells.trans (h : n.Foretells m) (h' : k.Foretells n) : k.Foretells m where
  locking := h'.locking
  players := h'.players.trans h.players
  called := h'.called.trans h.called
  moments g hg moment hmoment := by
    obtain ⟨g', hg', hin⟩ := h.moments g hg moment hmoment
    exact h'.moments g' hg' moment hin

theorem Seen.trans (h : Seen db m) (hdb : ∀ n ∈ db.battles.rows, Seen ref n) : Seen ref m := by
  intro hlocking
  obtain ⟨n, hn, hholds⟩ := h hlocking
  obtain ⟨k, hk, hholds'⟩ := hdb n hn hholds.locking
  exact ⟨k, hk, hholds.trans hholds'⟩

/-- A maximum is a bound of what it is taken over. -/
theorem foldl_max_le_iff {l : List Time} {start bound : Time} :
    l.foldl max start ≤ bound ↔ start ≤ bound ∧ ∀ moment ∈ l, moment ≤ bound := by
  induction l generalizing start with
  | nil => simp
  | cons moment l ih => simp [ih, and_assoc]

/-- A match that keeps the players of another one keeps them for as long. -/
theorem Match.Foretells.lockUntil_le (h : n.Foretells m) :
    lockUntil settings m m.games.rows ≤ lockUntil settings n n.games.rows := by
  have hbound : (n.games.rows.flatMap Game.lockMoments).foldl max (n.calledAt.getD n.createdAt) ≤
      (n.games.rows.flatMap Game.lockMoments).foldl max (n.calledAt.getD n.createdAt) := le_refl _
  obtain ⟨hcalled, hmoments⟩ := foldl_max_le_iff.mp hbound
  refine Int.add_le_add_right (foldl_max_le_iff.mpr ⟨h.called ▸ hcalled, fun moment hmoment => ?_⟩) _
  obtain ⟨g, hg, hin⟩ := List.mem_flatMap.mp hmoment
  obtain ⟨g', hg', hin'⟩ := h.moments g hg moment hin
  exact hmoments moment (List.mem_flatMap.mpr ⟨g', hg', hin'⟩)

/-- Some battle keeps the player in the arena past a moment. -/
def Db.Keeps (settings : Settings) (db : Db) (p : ProfileId) (moment : Time) : Prop :=
  ∃ m ∈ db.battles.rows, m.status.locking = true ∧ (m.players.a = some p ∨ m.players.b = some p) ∧
    moment < lockUntil settings m m.games.rows

instance (settings : Settings) (db : Db) (p : ProfileId) (moment : Time) : Decidable (db.Keeps settings p moment) :=
  inferInstanceAs (Decidable (∃ m ∈ db.battles.rows, _))

theorem Db.Keeps.seen {moment : Time} (h : db.Keeps settings p moment) (hdb : ∀ m ∈ db.battles.rows, Seen ref m) :
    ref.Keeps settings p moment := by
  obtain ⟨m, hm, hlocking, hplays, huntil⟩ := h
  obtain ⟨n, hn, hholds⟩ := hdb m hm hlocking
  exact ⟨n, hn, hholds.locking, hholds.players ▸ hplays, lt_of_lt_of_le huntil hholds.lockUntil_le⟩

theorem stillHeld_held {cache : LockCache} : (stillHeld settings db p now cache).1 = true ↔ db.Keeps settings p now := by
  have hany : (db.battles.rows.any fun m => m.status.locking &&
      (m.players.a = some p || m.players.b = some p) && now < lockUntil settings m m.games.rows) = true ↔
      db.Keeps settings p now := by
    simp only [List.any_eq_true, Bool.and_eq_true, Bool.or_eq_true, decide_eq_true_eq, Db.Keeps, and_assoc]
  rw [← hany, stillHeld]
  split
  · rename_i h
    simp [h]
  · rename_i h
    simp [h]

/-! ## The entries -/

variable {entries : List (ProfileId × ℚ)} {x y : ℚ} {q : ProfileId} {l : List ProfileId}

/-- The entries hold the player, until `x` at least. -/
def Until (entries : List (ProfileId × ℚ)) (p : ProfileId) (x : ℚ) : Prop :=
  ∃ v, entries.find? (·.1 = p) = some (p, v) ∧ x ≤ v

theorem Until.mono (h : Until entries p x) (hle : y ≤ x) : Until entries p y := by
  obtain ⟨v, hfind, hx⟩ := h
  exact ⟨v, hfind, hle.trans hx⟩

theorem until_holdUntil_self : Until (holdUntil y entries p) p y :=
  ⟨_, by rw [holdUntil, Dict.find?_set, if_pos rfl], le_max_right _ _⟩

theorem Until.holdUntil (h : Until entries p x) : Until (holdUntil y entries q) p x := by
  obtain ⟨v, hfind, hx⟩ := h
  unfold Arena.holdUntil
  by_cases hq : q = p
  · subst hq
    refine ⟨max v y, ?_, hx.trans (le_max_left v y)⟩
    rw [Dict.find?_set, if_pos rfl, hfind]
    rfl
  · refine ⟨v, ?_, hx⟩
    rw [Dict.find?_set, if_neg hq, hfind]

theorem Until.foldl_holdUntil (h : Until entries p x) : Until (l.foldl (Arena.holdUntil y) entries) p x := by
  induction l generalizing entries with
  | nil => exact h
  | cons q l ih => exact ih h.holdUntil

theorem until_foldl_holdUntil (h : p ∈ l) : Until (l.foldl (holdUntil y) entries) p y := by
  induction l generalizing entries with
  | nil => cases h
  | cons q l ih =>
      rcases List.mem_cons.mp h with rfl | h
      · exact until_holdUntil_self.foldl_holdUntil
      · exact ih h

theorem Until.lockEntry (h : Until entries p x) : Until (lockEntry settings now entries m) p x := by
  simp only [Arena.lockEntry]
  split
  · exact h
  · exact h.foldl_holdUntil

theorem until_lockEntry (hplays : m.players.a = some p ∨ m.players.b = some p)
    (hnow : now < lockUntil settings m m.games.rows) :
    Until (lockEntry settings now entries m) p (round3 (totalSeconds (lockUntil settings m m.games.rows))) := by
  simp only [lockEntry]
  rw [if_neg (not_le.mpr hnow)]
  apply until_foldl_holdUntil
  rcases hplays with h | h
  · simp [h]
  · simp [h]

theorem until_foldl_lockEntry {ms : List Match} (hm : m ∈ ms) (hplays : m.players.a = some p ∨ m.players.b = some p)
    (hnow : now < lockUntil settings m m.games.rows) :
    Until (ms.foldl (lockEntry settings now) entries) p (round3 (totalSeconds (lockUntil settings m m.games.rows))) := by
  induction ms generalizing entries with
  | nil => cases hm
  | cons n ms ih =>
      rcases List.mem_cons.mp hm with rfl | hm
      · -- the later matches only raise what the first one set
        have hkeeps : ∀ {entries x} (ms : List Match), Until entries p x →
            Until (ms.foldl (lockEntry settings now) entries) p x := by
          intro entries x ms h
          induction ms generalizing entries with
          | nil => exact h
          | cons n ms ih => exact ih h.lockEntry
        exact hkeeps ms (until_lockEntry hplays hnow)
      · exact ih hm

theorem totalSeconds_le {a b : Time} (h : a ≤ b) : totalSeconds a ≤ totalSeconds b := by
  unfold totalSeconds
  have hcast : (a : ℚ) ≤ b := by exact_mod_cast h
  gcongr

/-- The milliseconds the cache keeps come half a millisecond early at most. -/
theorem totalSeconds_lt_round3 {moment : Time} (h : now + 500 < moment) : totalSeconds now < round3 (totalSeconds moment) := by
  have hnear : |Decimal.roundTo 1000 (totalSeconds moment) - totalSeconds moment| ≤ 1 / (2 * (1000 : ℕ)) :=
    Decimal.abs_roundTo_sub_le (by norm_num)
  have hround := abs_le.mp hnear
  have hcast : ((now + 500 + 1 : Time) : ℚ) ≤ moment := by exact_mod_cast Int.add_one_le_of_lt h
  push_cast at hcast
  unfold round3
  unfold totalSeconds at *
  norm_num at hround ⊢
  linarith

/-- Whoever the tables keep past half a millisecond from now has an entry that says so. -/
theorem Db.Keeps.until {t : Time} (h : db.Keeps settings p (now + 500)) (ht : t ≤ now) :
    ∃ v, (lockEntries settings db t).find? (·.1 = p) = some (p, v) ∧ totalSeconds now < v := by
  obtain ⟨m, hm, hlocking, hplays, huntil⟩ := h
  have hlater : t < lockUntil settings m m.games.rows :=
    ht.trans_lt ((le_add_of_nonneg_right (by norm_num)).trans_lt huntil)
  have hin : m ∈ db.battles.rows.filter (·.status.locking) := List.mem_filter.mpr ⟨hm, hlocking⟩
  obtain ⟨v, hfind, hv⟩ := until_foldl_lockEntry hin hplays hlater
  exact ⟨v, hfind, (totalSeconds_lt_round3 huntil).trans_le hv⟩

/-! ## What a profile is answered -/

variable {cache : LockCache}

theorem checkHeld_held (h : (checkHeld settings db p now cache).1 = true) : db.Keeps settings p now := by
  unfold checkHeld at h
  split at h
  · cases h
  · split at h
    · exact stillHeld_held.mp h
    · cases h

theorem checkHeld_of_keeps {v : ℚ} (hfind : (cache.getD []).find? (·.1 = p) = some (p, v)) (hv : totalSeconds now < v)
    (hnow : 0 ≤ now) (h : db.Keeps settings p now) : (checkHeld settings db p now cache).1 = true := by
  have hpos : 0 < v := lt_of_le_of_lt (by simpa [totalSeconds] using totalSeconds_le hnow) hv
  unfold checkHeld
  rw [hfind]
  dsimp only
  rw [if_pos ⟨hpos.ne', hv⟩]
  exact stillHeld_held.mpr h

end

/-! ## The site -/

/-- The tables, the cache, and the time of the last thing that happened. -/
structure Lobby where
  db : Db := {}
  cache : LockCache := none
  clock : Time := 0

/-- What can happen: an operation and what it left for after its commit, a poll (`_tick_active`), a page that
`locked_response` or `is_held` is asked about, and the loss of what the cache holds. -/
inductive LobbyEvent where
  | operate (site : Site) (op : Op)
  | poll
  | ask (request : PageRequest)
  | askHeld (profile : Option ProfileId)
  | lose

namespace Lobby

def after (settings : Settings) (lobby : Lobby) (now : Time) : LobbyEvent → Lobby
  | .operate site op =>
    let db := op.after site lobby.db
    { db, clock := now
      cache := if .refreshLock ∈ op.hooks site lobby.db then refreshLock settings db now else lobby.cache }
  | .poll => { lobby with clock := now, cache := ensureLock settings lobby.db now lobby.cache }
  | .ask request =>
    { lobby with clock := now, cache := (lockedResponse settings lobby.db request now lobby.cache).2 }
  | .askHeld profile => { lobby with clock := now, cache := (isHeld settings lobby.db profile now lobby.cache).2 }
  | .lose => { lobby with clock := now, cache := none }

/-- The states of the site, from the empty tables. -/
inductive Reached (settings : Settings) : Lobby → Prop
  | start : Reached settings {}
  | step {lobby : Lobby} (now : Time) (event : LobbyEvent) (run : Reached settings lobby) (later : lobby.clock ≤ now) :
      Reached settings (lobby.after settings now event)

/-- Whatever the cache holds is the picture of tables, a while ago, that keep everybody the tables keep now. -/
structure Covered (settings : Settings) (lobby : Lobby) : Prop where
  wellFormed : WellFormed lobby.db
  clock : 0 ≤ lobby.clock
  cache : ∀ entries, lobby.cache = some entries → ∃ ref t, t ≤ lobby.clock ∧ entries = lockEntries settings ref t ∧
    ∀ m ∈ lobby.db.battles.rows, Seen ref m

variable {settings : Settings} {lobby : Lobby} {now : Time} {event : LobbyEvent}

/-- A cache that was kept, or written again from the tables as they are. -/
theorem Covered.rewrite (h : lobby.Covered settings) (hnow : lobby.clock ≤ now) {cache : LockCache}
    (hcache : cache = lobby.cache ∨ cache = none ∨ cache = refreshLock settings lobby.db now) :
    ({ lobby with clock := now, cache } : Lobby).Covered settings where
  wellFormed := h.wellFormed
  clock := h.clock.trans hnow
  cache := by
    intro entries hentries
    rcases hcache with rfl | rfl | rfl
    · obtain ⟨ref, t, ht, heq, hseen⟩ := h.cache entries hentries
      exact ⟨ref, t, ht.trans hnow, heq, hseen⟩
    · cases hentries
    · obtain rfl := Option.some.inj hentries
      exact ⟨lobby.db, now, le_refl now, rfl, fun m hm => .mine hm⟩

theorem checkHeld_cache {db : Db} {p : ProfileId} {cache : LockCache} :
    (checkHeld settings db p now cache).2 = cache ∨ (checkHeld settings db p now cache).2 = refreshLock settings db now := by
  unfold checkHeld stillHeld
  split
  · exact .inl rfl
  · split
    · split
      · exact .inl rfl
      · exact .inr rfl
    · exact .inl rfl

theorem lockedResponse_cache {db : Db} {request : PageRequest} {cache : LockCache} :
    (lockedResponse settings db request now cache).2 = cache ∨
      (lockedResponse settings db request now cache).2 = refreshLock settings db now := by
  unfold lockedResponse
  split
  · exact .inl rfl
  · split
    · exact .inl rfl
    · dsimp only
      split
      · exact checkHeld_cache
      · split
        · exact checkHeld_cache
        · exact checkHeld_cache

theorem Covered.step (h : lobby.Covered settings) (hnow : lobby.clock ≤ now) :
    (lobby.after settings now event).Covered settings := by
  cases event with
  | operate site op =>
      have hafter : WellFormed (op.after site lobby.db) :=
        (Op.keeps (I := fun _ => True) h.wellFormed trivial (fun _ _ => trivial) fun _ _ _ => trivial).1
      refine ⟨hafter, h.clock.trans hnow, fun entries hentries => ?_⟩
      dsimp only [after] at hentries
      split at hentries
      · obtain rfl := Option.some.inj hentries
        exact ⟨_, now, le_refl now, rfl, fun m hm => .mine hm⟩
      · -- nothing was scheduled, so the operation keeps nobody new
        rename_i hquiet
        obtain ⟨ref, t, ht, heq, hseen⟩ := h.cache entries hentries
        refine ⟨ref, t, ht.trans hnow, heq, fun m hm => ?_⟩
        by_contra hnew
        exact hquiet (Op.refreshes h.wellFormed ⟨m, hm, fun hmine => hnew (hmine.trans hseen)⟩)
  | poll =>
      refine h.rewrite hnow ?_
      unfold ensureLock
      split
      · exact .inr (.inr rfl)
      · exact .inl rfl
  | ask request => exact h.rewrite hnow (lockedResponse_cache.imp_right .inr)
  | askHeld profile =>
      cases profile with
      | none => exact h.rewrite hnow (.inl rfl)
      | some p => exact h.rewrite hnow (checkHeld_cache.imp_right .inr)
  | lose => exact h.rewrite hnow (.inr (.inl rfl))

theorem Reached.covered (h : Reached settings lobby) : lobby.Covered settings := by
  induction h with
  | start => exact ⟨.empty, le_refl 0, fun _ hentries => by cases hentries⟩
  | step now event _ later ih => exact ih.step later

end Lobby

/-- The answer of `locked_response` to whoever is held. -/
def PageRequest.wayBack (request : PageRequest) : HeldAnswer :=
  if request.wantsPage then .redirect home else .error "You are in a battle. Go back to the arena." home 403

section
variable {settings : Settings} {lobby : Lobby} {now : Time}

theorem lockedResponse_answer {db : Db} {request : PageRequest} {p : ProfileId} {cache : LockCache}
    (hprofile : request.profile = some p) (hfree : request.free = false) :
    (lockedResponse settings db request now cache).1 =
      if (checkHeld settings db p now cache).1 then some request.wayBack else none := by
  unfold lockedResponse PageRequest.wayBack
  rw [hprofile]
  simp only [hfree]
  cases (checkHeld settings db p now cache).1 with
  | false => rfl
  | true =>
      cases request.wantsPage with
      | true => rfl
      | false => rfl

/-- **Players are sent back to the arena while their battle lasts, and only then.** Along every run, whoever is
answered plays a battle that still holds them, as the tables say; and while the cache is there, whoever is held for
half a millisecond more is answered on every page that is not let through. -/
theorem players_sent_back (h : lobby.Reached settings) (hnow : lobby.clock ≤ now) (request : PageRequest) :
    (∀ answer, (lockedResponse settings lobby.db request now lobby.cache).1 = some answer →
      request.free = false ∧ answer = request.wayBack ∧
        ∃ p, request.profile = some p ∧ lobby.db.Keeps settings p now) ∧
    (∀ p, request.profile = some p → request.free = false → lobby.cache ≠ none →
      lobby.db.Keeps settings p (now + 500) →
      (lockedResponse settings lobby.db request now lobby.cache).1 = some request.wayBack) := by
  constructor
  · intro answer hanswer
    cases hprofile : request.profile with
    | none =>
        rw [lockedResponse, hprofile] at hanswer
        cases hanswer
    | some p =>
        cases hfree : request.free with
        | true =>
            rw [lockedResponse, hprofile] at hanswer
            simp only [hfree] at hanswer
            cases hanswer
        | false =>
            rw [lockedResponse_answer hprofile hfree] at hanswer
            split at hanswer
            · rename_i hheld
              exact ⟨rfl, (Option.some.inj hanswer).symm, p, rfl, checkHeld_held hheld⟩
            · cases hanswer
  · intro p hprofile hfree hcache hkeeps
    have hcovered := h.covered
    obtain ⟨entries, hentries⟩ := Option.ne_none_iff_exists'.mp hcache
    obtain ⟨ref, t, ht, rfl, hseen⟩ := hcovered.cache entries hentries
    obtain ⟨v, hfind, hv⟩ := (hkeeps.seen hseen).until (ht.trans hnow)
    have hkeepsNow : lobby.db.Keeps settings p now := by
      obtain ⟨m, hm, hlocking, hplays, huntil⟩ := hkeeps
      exact ⟨m, hm, hlocking, hplays, (le_add_of_nonneg_right (by norm_num)).trans_lt huntil⟩
    have hheld : (checkHeld settings lobby.db p now lobby.cache).1 = true := by
      refine checkHeld_of_keeps ?_ hv (hcovered.clock.trans hnow) hkeepsNow
      rw [hentries]
      exact hfind
    rw [lockedResponse_answer hprofile hfree, if_pos hheld]

end

/-- A quick battle called at once. -/
def quickBattle : Op :=
  .organize 9 (.createDuel ⟨some 4, some 5⟩ [[{ id := 7 }]] 1 {} (.both "") "" true .pending)

/-- The page of a problem, asked for ten minutes later. -/
theorem players_sent_back_called :
    (lockedResponse {} (({} : Lobby).after {} 0 (.operate { now := 0 } quickBattle)).db
      { profile := some 4, path := "/problem/aplusb" } (minutes 10)
      (({} : Lobby).after {} 0 (.operate { now := 0 } quickBattle)).cache).1 = some (.redirect "/duelos/") := by
  refine (players_sent_back (.step 0 (.operate { now := 0 } quickBattle) .start (le_refl 0)) ?_ _).2 4 rfl ?_ ?_ ?_
  · decide
  · decide +kernel
  · decide +kernel
  · decide +kernel

end Arena
end CpcJudge
