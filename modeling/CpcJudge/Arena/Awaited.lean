import CpcJudge.Arena.Links
import CpcJudge.Arena.Series
import CpcJudge.Arena.Steady

/-!
# `Arena.Awaited` — a result always has somewhere to go

As long as nobody is put where the player of a match still to be decided is awaited, the matches such a match leads to
have not been played, and `_place` never refuses its players. `replace_player` asks only about the match it changes:
it fills a slot that awaits a player, the match becomes ready and is played, and the result of the match before it can
no longer be saved.
-/

namespace CpcJudge
namespace Arena

/-- No player is put where one is awaited. -/
def Unawaited (_ : Site) (op : Op) (db : Db) : Prop :=
  match op with
  | .organize _ (.onMatch id _ (.replace slot _ _)) =>
      ∀ m ∈ db.battles.rows, (id, slot) ∈ m.targets → m.status = .decided
  | _ => True

/-- The operation may bring the result of that match. -/
def Op.BringsResult (id : MatchId) : Op → Prop
  | .tick i _ _ => i = id
  | .organize _ (.onMatch i _ (.declare _ _)) => i = id
  | .organize _ (.onMatch i _ (.walkover _)) => i = id
  | _ => False

/-- What an operation is refused with. -/
def Op.refusal (site : Site) (op : Op) (db : Db) : Option ArenaError :=
  match op.result site db with
  | .ok _ _ => none
  | .error e _ => some e

section
variable {db db1 : Db} {m : Match} {site : Site} {op : Op}

/-! ## Slots nobody sits at, along a run -/

theorem Match.Seats.replace (m : Match) (slot : Slot) (p : ProfileId) (display : String) :
    m.Seats (m.id, slot) (m.replace slot p display) := by
  obtain ⟨status, heq, hstatus⟩ := m.replace_eq slot p display
  rw [heq]
  refine ⟨rfl, ?_, rfl, fun s hs => ?_⟩
  · rcases hstatus with rfl | ⟨hpending, rfl⟩
    · exact Iff.rfl
    · simp [hpending]
  · have hne : s ≠ slot := fun heq => hs (by rw [heq])
    exact ⟨Pair.get_set_of_ne _ _ hne, rfl⟩

theorem Joined.vacant_special (hI : Joined Vacant db) (hdb : WellFormed db) (hallowed : Unawaited site op db)
    (h : op.special db db1) : Joined Vacant db1 := by
  unfold Op.special at h
  split at h
  · refine hI.maps ?_
    rw [h.battles]
    exact Table.Maps.modify Match.KeepsLinks.refl fun _ _ _ => ⟨rfl, fun _ _ h => h, fun _ _ h => h⟩
  · obtain ⟨n, hreplaces⟩ := h
    obtain ⟨display, hbattles⟩ := hreplaces.battles
    have hid : n.id = _ := Table.key_of_get? hreplaces.here
    refine hI.seats (hbattles ▸ Table.Maps.put (b := n) Match.Seats.refl ?_ (hid ▸ Match.Seats.replace ..)) hallowed
    obtain ⟨_, heq, _⟩ := n.replace_eq _ _ display
    rw [show Keyed.key (n.replace _ _ display) = n.id by rw [heq]; rfl, hid]
    exact hreplaces.here
  · obtain ⟨m, hcorrects⟩ := h
    obtain ⟨tournament, db2, now, _, hreopened, hadvanced⟩ := hcorrects.moved
    have hid : m.id = _ := Table.key_of_get? hcorrects.here
    have here : db.match? m.id = some m := by
      rw [hid]
      exact hcorrects.here
    have hdb2 : WellFormed db2 := (hdb.corrected hcorrects now).reopened hreopened
    generalize hcorrected : m.correct _ now = m' at hreopened hadvanced
    have hkeeps : m.KeepsLinks Vacant m' := hcorrected ▸ ⟨rfl, fun _ _ h => h, fun _ _ h => h⟩
    have hmem : m' ∈ db2.battles.rows := by
      rw [hreopened.battles]
      exact Table.mem_of_get? (Table.get?_put_self (b := m) (by rw [← hcorrected]; exact here))
    have hdecided : m'.status = .decided := hcorrected ▸ hcorrects.decided
    exact hadvanced.vacant hdb2 hmem hdecided (hI.put here hkeeps hreopened.battles)
  · obtain ⟨t, hbegins⟩ := h
    exact hI.maps (hbegins.battles ▸ .refl Match.KeepsLinks.refl _)
  · rwa [h]

end

/-! ## Refusals -/

/-- The matches of `targets` have not been played. -/
def Untouched (targets : List (MatchId × Slot)) (db : Db) : Prop :=
  ∀ q ∈ targets, ∀ n, db.match? q.1 = some n → n.started = false

/-- The match leads to those of `targets`, and not to itself. -/
structure Match.LeadsTo (targets : List (MatchId × Slot)) (m : Match) : Prop where
  leads : m.targets = targets
  other : ∀ q ∈ targets, q.1 ≠ m.id

section
variable {targets : List (MatchId × Slot)} {db : Db} {m m' : Match} {site : Site} {op : Op}

theorem Match.LeadsTo.of_static (h : m.LeadsTo targets) (hs : m'.static = m.static) : m'.LeadsTo targets :=
  ⟨(Match.targets_of_static hs).trans h.leads, fun q hq => by
    rw [Match.id_of_static hs]
    exact h.other q hq⟩

theorem Untouched.put (h : Untouched targets db) (hm : m.started = false) : Untouched targets (db.putMatch m) := by
  intro q hq n hn
  rcases Table.mem_put (Table.mem_of_get? hn) with rfl | ⟨hold, _⟩
  · exact hm
  · have hid : n.id = q.1 := Table.key_of_get? hn
    exact h q hq n (hid ▸ Table.get?_of_mem hold)

/-- A match that leads to those of `targets` is none of them. -/
theorem untouched_steady : Steady (Match.LeadsTo targets) (fun s => Untouched targets s.db) fun e _ => e ≠ .nextPlayed where
  own hm hs _ := hm.of_static hs
  wrote hs hf _ q hq n hn := hs q hq n (by rwa [Db.match?, Txn.wrote_db, hf] at hn)
  saved hm hs q hq n hn := by
    refine hs q hq n ?_
    rw [← hn]
    exact (Table.get?_put_of_ne (hm.other q hq)).symm
  enrolled hs _ _ _ := hs
  scheduled hs := hs
  refused he _ := he

/-- A player arrives at a match nobody has played. -/
theorem place_untouched {q : MatchId × Slot} {p : Option ProfileId} {seed : Option ℕ} (hq : q ∈ targets) :
    Txn.Triple (fun s => Untouched targets s.db) (place q.1 q.2 p seed) (fun _ s => Untouched targets s.db)
      fun e _ => e ≠ .nextPlayed := by
  refine place_triple (fun _ _ => by decide) (fun s n hs here hstarted => ?_) fun s n hs _ hunplayed => ?_
  · rw [hs q hq n here] at hstarted
    cases hstarted
  · obtain ⟨_, heq, _⟩ := n.receive_eq q.2 p seed
    rw [Txn.wrote_db, Txn.holdingMatch_db]
    refine hs.put ?_
    rw [heq]
    exact hunplayed

theorem untouched_sending : Sending (Match.LeadsTo targets) (fun s => Untouched targets s.db)
    (fun s => Untouched targets s.db) fun e _ => e ≠ .nextPlayed where
  before := untouched_steady
  after := untouched_steady
  stays hs := hs
  advance {now m} hm := by
    have hmem : ∀ q, m.nextMatch = some q ∨ m.loserNextMatch = some q → q ∈ targets := fun q hq =>
      hm.leads ▸ Match.mem_targets.mpr hq
    refine advance_triple (K := fun s => Untouched targets s.db) (fun q _ _ hq => place_untouched (hmem q (.inl hq)))
      (fun _ hs => hs) (fun q _ _ hq => place_untouched (hmem q (.inr hq))) (fun _ hs => hs) fun t _ => ?_
    refine Txn.Triple.weaken (untouched_steady.checkFinished fun s hs => ?_) fun _ _ hs => hs.2
    rwa [Txn.holding_db]

/-- Whatever brings the result of a match finds the matches it leads to unplayed. -/
theorem run_reports (h : op.BringsResult m.id) (here : db.match? m.id = some m) (hm : m.LeadsTo targets)
    (hdb : Untouched targets db) : Txn.Triple (·.db = db) (op.run site)
      (fun _ s => Untouched targets s.db) fun e _ => e ≠ .nextPlayed := by
  have hlocked : ∀ {f : Match → ArenaM Unit}, Steps (fun s => Untouched targets s.db) (fun e _ => e ≠ .nextPlayed) (f m)
      (fun _ => True) →
      Txn.Triple (·.db = db) (lockMatch m.id >>= f) (fun _ s => Untouched targets s.db) fun e _ => e ≠ .nextPlayed := by
    intro f hf
    refine lockMatch_triple (fun _ _ => by decide) fun s n hs hn => ?_
    rw [hs] at hn
    obtain rfl := Option.some.inj (here.symm.trans hn)
    refine (hf.weaken fun _ _ ht => ht.2).of_pre fun t ht => ?_
    rw [ht, Txn.holdingMatch_db, hs]
    exact hdb
  have hstay : Txn.Triple (·.db = db) (pure () : ArenaM Unit) (fun _ s => Untouched targets s.db)
      fun e _ => e ≠ .nextPlayed := Txn.Triple.ret _ fun s hs => by rwa [hs]
  have k : Steady (Match.LeadsTo targets) (fun s => Untouched targets s.db) fun e _ => e ≠ .nextPlayed := untouched_steady
  unfold Op.BringsResult at h
  split at h
  · subst h
    refine Txn.Triple.ite (fun _ => hstay) fun _ => Txn.Triple.ite (fun _ => hstay) fun _ => hlocked ?_
    refine Steps.first (k.orRefuse (by decide)) fun game _ => ?_
    exact Sends.last (untouched_sending.tickLocked hm) fun _ _ => .done _
  · subst h
    refine hlocked (Steps.first (k.checkVersion _ _) fun _ _ => Steps.first (k.orRefuse (by decide)) fun game _ => ?_)
    refine Steps.first (k.refuseIf (by decide)) fun _ _ => Steps.first (k.refuseIf (by decide)) fun _ _ => ?_
    refine Steps.first (k.refuseIf (by decide)) fun _ _ => ?_
    exact Sends.last (untouched_sending.finish hm) fun _ _ => .done _
  · subst h
    refine hlocked (Steps.first (k.checkVersion _ _) fun _ _ => Steps.first (k.refuseIf (by decide)) fun _ _ => ?_)
    refine Steps.first (k.refuseIf (by decide)) fun _ _ => ?_
    have hvoided : ∀ f, (m.voidGames site.now f).LeadsTo targets := fun f => hm.of_static rfl
    have hnot : DecidedReason.walkover ≠ .bye := by decide
    exact Sends.last (untouched_sending.decideMatch hnot (hvoided _)) fun _ _ => .done _
  · exact h.elim

end

/-- In a run where nobody is put at a slot that awaits a player, the matches an undecided match leads to have not been
    played, and its result is never refused for that. -/
theorem result_recorded {db : Db} (h : Run Unawaited {} db) : ∀ m ∈ db.battles.rows, m.status ≠ .decided →
    (∀ q ∈ m.targets, ∀ n ∈ db.battles.rows, n.id = q.1 → n.started = false) ∧
      ∀ (site : Site) (op : Op), op.BringsResult m.id → op.refusal site db ≠ some .nextPlayed := by
  obtain ⟨hdb, hvacant⟩ := Run.invariant h .empty (I := Joined Vacant) .empty
    (fun hdb hI hchange => hI.vacant_change hdb hchange) fun hallowed hdb hI hspecial =>
      hI.vacant_special hdb hallowed hspecial
  intro m hm hgoing
  have hunplayed : ∀ q ∈ m.targets, ∀ n ∈ db.battles.rows, n.id = q.1 → n.started = false := fun q hq n hn hid =>
    hvacant.unplayed hdb hm hgoing hq hn hid
  refine ⟨hunplayed, fun site op hop hrefused => ?_⟩
  have hleads : m.LeadsTo m.targets := ⟨rfl, fun q hq => hdb.wired.other m hm q hq⟩
  have huntouched : Untouched m.targets db := fun q hq n hn =>
    hunplayed q hq n (Table.mem_of_get? hn) (Table.key_of_get? hn)
  unfold Op.refusal at hrefused
  split at hrefused
  · cases hrefused
  · rename_i e t hresult
    exact (run_reports hop (Table.get?_of_mem hm) hleads huntouched).error rfl hresult (Option.some.inj hrefused)

/-- The semifinal of three players, in a tournament under way. -/
def semifinalOn : List (Site × Op) :=
  ([cup, .organize 9 (.onTournament 1 none .start)] : List Op).map fun op => ({ now := 0 }, op)

/-- One more player for the final, which is played. -/
def finalFirst : List (Site × Op) :=
  ([.organize 9 (.onMatch 2 none (.replace .b (some 4) "")),
    .organize 9 (.onMatch 2 none (.problems none [{ id := 7 }] none)),
    .organize 9 (.onMatch 2 none (.start none true))] : List Op).map fun op => ({ now := 0 }, op)

/-- The final waits for the semifinal, which can be given to one of its players. -/
theorem result_recorded_semifinal : ∃ m ∈ (Db.play {} semifinalOn).battles.rows, m.status = .ready ∧
    (∃ q ∈ m.targets, ∃ n ∈ (Db.play {} semifinalOn).battles.rows, n.id = q.1 ∧ n.started = false) ∧
      ∀ site version slot, (Op.organize 9 (.onMatch m.id version (.walkover slot))).refusal site
        (Db.play {} semifinalOn) ≠ some .nextPlayed := by
  have hrun : Run Unawaited {} (Db.play {} semifinalOn) := by
    refine Run.ofSteps _ fun step hstep db => ?_
    obtain ⟨op, hop, rfl⟩ := List.mem_map.mp hstep
    fin_cases hop <;> trivial
  have hwaits : ∃ m ∈ (Db.play {} semifinalOn).battles.rows, m.status = .ready ∧
      ∃ q ∈ m.targets, ∃ n ∈ (Db.play {} semifinalOn).battles.rows, n.id = q.1 := by decide +kernel
  obtain ⟨m, hm, hready, q, hq, n, hn, hid⟩ := hwaits
  obtain ⟨hunplayed, hrecorded⟩ := result_recorded hrun m hm (by simp [hready])
  exact ⟨m, hm, hready, ⟨q, hq, n, hn, hid, hunplayed q hq n hn hid⟩, fun site version slot => hrecorded site _ rfl⟩

/-- The final was played first, and the semifinal can be given to nobody. -/
theorem result_refused : ∃ db, Reachable db ∧ ∃ m ∈ db.battles.rows, m.status ≠ .decided ∧
    (∃ q ∈ m.targets, ∃ n ∈ db.battles.rows, n.id = q.1 ∧ n.started = true) ∧
      (Op.organize 9 (.onMatch m.id none (.walkover .a))).refusal { now := 0 } db = some .nextPlayed := by
  refine ⟨Db.play {} (semifinalOn ++ finalFirst), Run.play _, ?_⟩
  decide +kernel

end Arena
end CpcJudge
