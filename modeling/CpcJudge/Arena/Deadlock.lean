import CpcJudge.Arena.BracketLocks
import CpcJudge.Lib.Locks

/-!
# `Arena.Deadlock` — operations never wait for each other in a circle

A quick battle looks for a free screen and takes the locks of the screens in the order of their keys; the other
operations on screens take one. Together with what the operations on matches and on tournaments take, no operation
waits for a lock whose tournament is held by another one, and so there is no circle (`Lib.Locks`).
-/

namespace CpcJudge
namespace Arena

section
variable {α β : Type} {db : Db} {site : Site} {actor : Option ProfileId} {x : ArenaM α}

/-! ## Operations on screens -/

variable {sid : ScreenId}

theorem lockScreen_takes {f : Screen → ArenaM α} (hf : ∀ s, Still (f s)) :
    Takes db (lockScreen sid >>= f) TakesScreens := by
  have hlock : Takes db (lockScreen sid) TakesScreens := by
    have hnone : TakesScreens [] := ⟨[], List.Pairwise.nil, rfl⟩
    refine ⟨Txn.Triple.bind (Q := fun _ => Starts db) ?_ fun db' => (takes_orRefuse hnone fun s => ⟨?_⟩).triple⟩
    · exact Txn.Triple.getBind fun s hs => Txn.Triple.ret _ fun _ heq => heq ▸ hs
    · refine Txn.Triple.bind (Q := fun _ s => TakesScreens s.locks) (Txn.Triple.write fun s hs => ?_) fun _ =>
        (Still.ret _).ends fun _ hs => hs
      refine ⟨[sid], List.pairwise_singleton _ _, ?_⟩
      simp [hs.2]
  exact ⟨hlock.triple.bind fun s => (hf s).ends fun _ hs => hs⟩

theorem still_takes (h : Still x) : Takes db x TakesScreens :=
  ⟨h.ends fun _ hs => ⟨[], List.Pairwise.nil, hs.2⟩⟩

/-- The screens that are left are all further on. -/
theorem lockScreens_takes : ∀ {ids t : List ScreenId}, (t ++ ids).Pairwise (· < ·) →
    Txn.Triple (fun s => s.locks = t.map .screen) (lockScreens ids) (fun _ s => TakesScreens s.locks)
      fun _ s => TakesScreens s.locks
  | [], t, hids => Txn.Triple.ret _ fun _ hs => ⟨t, by rwa [List.append_nil] at hids, hs⟩
  | id :: ids, t, hids => by
    have hnew : Lock.screen id ∉ t.map .screen := by
      intro hmem
      obtain ⟨i, hi, heq⟩ := List.mem_map.mp hmem
      obtain rfl := Lock.screen.inj heq
      exact Nat.lt_irrefl i ((List.pairwise_append.mp hids).2.2 i hi i List.mem_cons_self)
    refine Txn.Triple.bind (Q := fun _ s => s.locks = (t ++ [id]).map .screen) (Txn.Triple.write fun s hs => ?_)
      fun _ => lockScreens_takes (by rwa [List.append_assoc])
    rw [if_neg (hs ▸ hnew), List.map_append]
    exact congrArg (· ++ _) hs

theorem freeScreen_takes : Txn.Triple (fun s => s.locks = []) (freeScreen site actor) (fun _ s => TakesScreens s.locks)
    fun _ s => TakesScreens s.locks := by
  refine Txn.Triple.bind (Q := fun _ s => s.locks = []) ((Still.tables []).weakenError fun _ s hs => ?_) fun db => ?_
  · exact ⟨[], List.Pairwise.nil, hs⟩
  dsimp only
  generalize hids : ((byName (db.screens.rows.filter (site.managesScreen actor))).map (·.id)) = ids
  have hnodup : ids.Nodup := by
    rw [← hids]
    have hperm : (byName (db.screens.rows.filter (site.managesScreen actor))).Perm _ := List.perm_insertionSort _ _
    exact ((hperm.map _).nodup_iff).mpr (db.screens.distinct.sublist (List.filter_sublist.map _))
  have hsorted : (ids.insertionSort (· ≤ ·)).Pairwise (· < ·) := by
    have hle := List.pairwise_insertionSort (· ≤ ·) ids
    have hne : (ids.insertionSort (· ≤ ·)).Nodup := (List.perm_insertionSort _ _).nodup_iff.mpr hnodup
    exact hle.imp₂ (fun _ _ hle hne => lt_of_le_of_ne hle hne) hne
  exact (lockScreens_takes (t := []) hsorted).bind fun _ => (Still.ret _).ends fun _ hs => hs

theorem createDuel_takes {players : Pair (Option ProfileId)} {games : List (List Entry)} {bestOf : ℕ} {rules : Rules}
    {display : Pair String} {title : String} {call : Bool} {ranking : Ranking} :
    Takes db (createDuel site actor players games bestOf rules display title call ranking) TakesScreens := by
  have hscreen : Still (ensureDefaultScreen site actor) :=
    Still.tables.bind fun _ => .ite (.ret _) (Still.freshId.bind fun _ => .write)
  have hstill : ∀ {β : Type} {z : ArenaM β}, Still z → Txn.Triple (fun s : Txn => s.locks = []) z
      (fun _ s => s.locks = []) fun _ s => TakesScreens s.locks := fun h =>
    (h []).weakenError fun _ _ hs => ⟨[], List.Pairwise.nil, hs⟩
  refine ⟨Txn.Triple.of_pre (P := fun s : Txn => s.locks = []) ?_ fun _ hs => hs.2⟩
  unfold createDuel refuseSelf
  refine (hstill .orRefuse).bind fun a => (hstill .orRefuse).bind fun b => ?_
  refine (hstill .refuseIf).bind fun _ => (hstill .refuseIf).bind fun _ => ?_
  refine (hstill .cleaned).bind fun bestOf => (hstill .cleaned).bind fun rules => ?_
  refine (hstill .cleaned).bind fun displayA => (hstill .cleaned).bind fun displayB => ?_
  refine (hstill .tables).bind fun _ => (hstill .refuseIf).bind fun _ => (hstill .refuseIf).bind fun _ => ?_
  refine (hstill .refuseIf).bind fun _ => (hstill .refuseIf).bind fun _ => (hstill .cleaned).bind fun problems => ?_
  refine (hstill .refuseIf).bind fun _ => (hstill .freshId).bind fun id => (hstill .write).bind fun _ => ?_
  refine (hstill addGames_still).bind fun m => (hstill .write).bind fun _ => (hstill hscreen).bind fun _ => ?_
  refine freeScreen_takes.bind fun screen => Still.ends ?_ fun _ hs => hs
  cases screen with
  | none => exact Still.onCommit.bind fun _ => .ret _
  | some s => exact Still.write.bind fun _ => Still.write.bind fun _ => Still.onCommit.bind fun _ => .ret _

/-! ## Every operation -/

/-- The locks a request takes, refused or not: those of its match, those of its tournament, or those of screens. -/
def Request.Acquires (db : Db) (locks : List Lock) : Request → Prop
  | .onMatch id _ _ => TakesMatch db id locks
  | .fill id => TakesMatch db id locks
  | .setMatchRanking id _ => TakesMatch db id locks
  | .createTournament _ _ _ _ _ _ _ _ _ _ => TakesTournament db.nextId locks
  | .onTournament id _ _ => TakesTournament id locks
  | .setShowInHistory id _ => TakesTournament id locks
  | .setTournamentRanking id _ => TakesTournament id locks
  | .createDuel _ _ _ _ _ _ _ _ => TakesScreens locks
  | .createScreen _ => TakesScreens locks
  | .showOnScreen _ _ _ _ _ _ _ => TakesScreens locks
  | .renameScreen _ _ => TakesScreens locks
  | .regenerateScreenToken _ => TakesScreens locks

/-- The locks an operation takes. -/
def Op.Acquires (db : Db) (locks : List Lock) : Op → Prop
  | .organize _ request => request.Acquires db locks
  | .tick id _ _ => TakesMatch db id locks
  | .submit _ _ id _ _ _ _ => TakesMatch db id locks
  | .judge _ _ _ => locks = []

theorem TournamentAction.run_takes (hdb : WellFormed db) {actor : ProfileId} {id : TournamentId} {version : Option ℤ}
    (action : TournamentAction) : Takes db (action.run site actor id version) (TakesTournament id) := by
  cases action with
  | update name description rules bank thirdPlace draw showInHistory plannedAt => exact updateTournament_takes hdb
  | participants profiles seeding => exact setParticipants_takes hdb
  | round number bestOf rules name draw => exact setRound_takes
  | generate => exact generateBracket_takes hdb
  | start => exact startTournament_takes hdb
  | archive => exact archiveTournament_takes hdb

theorem Takes.discard {C : List Lock → Prop} (h : Takes db x C) : Takes db (discard x) C :=
  ⟨h.triple.discard⟩

theorem MatchAction.run_takes (hdb : WellFormed db) {actor : ProfileId} {id : MatchId} {version : Option ℤ}
    (action : MatchAction) : Takes db (action.run site actor id version) (TakesMatch db id) :=
  ⟨(takes_opens hdb).action (fun _ hs => .inl hs.2) action⟩

theorem fillMatch_takes (hdb : WellFormed db) {actor : Option ProfileId} {id : MatchId} :
    Takes db (fillMatch site actor id) (TakesMatch db id) :=
  ⟨(takes_opens hdb).fillMatch⟩

theorem setMatchRanking_takes (hdb : WellFormed db) {actor : Option ProfileId} {id : MatchId} {value : Ranking} :
    Takes db (setMatchRanking actor id value) (TakesMatch db id) :=
  ⟨(takes_opens hdb).setMatchRanking⟩

theorem tick_takes (hdb : WellFormed db) {id : MatchId} {game : Game} {now : Time} :
    Takes db (tick site id game now) (TakesMatch db id) :=
  ⟨(takes_opens hdb).tick fun _ hs => .inl hs.2⟩

theorem submit_takes (hdb : WellFormed db) {profile : ProfileId} {superuser : Bool} {id : MatchId} {gameId : GameId}
    {order : ℕ} {language source : String} :
    Takes db (submit site profile superuser id gameId order language source) (TakesMatch db id) :=
  ⟨(takes_opens hdb).submit fun _ hs => .inl hs.2⟩

theorem Request.run_takes (hdb : WellFormed db) {actor : ProfileId} (request : Request) :
    Takes db (request.run site actor) fun locks => request.Acquires db locks := by
  cases request with
  | createDuel players games bestOf rules display title call ranking => exact createDuel_takes.discard
  | onMatch id version action => exact action.run_takes hdb
  | createTournament name profiles seeding thirdPlace rules description bank showInHistory plannedAt ranking =>
      exact (createTournament_takes hdb).discard
  | onTournament id version action => exact action.run_takes hdb
  | setShowInHistory id shown => exact setShowInHistory_takes hdb
  | fill id => exact (fillMatch_takes hdb).discard
  | setTournamentRanking id value => exact setTournamentRanking_takes hdb
  | setMatchRanking id value => exact setMatchRanking_takes hdb
  | createScreen name => exact still_takes (Still.freshId.bind fun _ => .write)
  | showOnScreen id mode battle tournament message followLive version =>
      exact lockScreen_takes fun _ => Still.checkVersion.bind fun _ => .write
  | renameScreen id name => exact lockScreen_takes fun _ => .write
  | regenerateScreenToken id => exact lockScreen_takes fun _ => .write

theorem Op.run_takes (hdb : WellFormed db) (op : Op) : Takes db (op.run site) fun locks => op.Acquires db locks := by
  cases op with
  | organize actor request => exact request.run_takes hdb
  | tick id game now => exact tick_takes hdb
  | submit profile superuser id game order language source => exact submit_takes hdb
  | judge id game attempts =>
      refine ⟨Still.ends (C := fun locks => locks = []) ?_ fun _ hs => hs.2⟩
      exact Still.tables.bind fun _ => Still.orRefuse.bind fun _ => Still.orRefuse.bind fun _ =>
        Still.refuseIf.bind fun _ => .write

theorem Op.locks_takes (hdb : WellFormed db) (op : Op) : op.Acquires db (op.locks site db) :=
  Txn.Triple.endOf (op.run_takes hdb).triple (s := { db }) ⟨rfl, rfl⟩

/-! ## No circle -/

/-- The lock of a match of a tournament is only taken under that of the tournament. -/
def Lock.gate : Lock → Option Lock
  | .match (some t) _ => some (.tournament t)
  | _ => none

/-- Screens come in the order of their keys. -/
def Lock.rank : Lock → ℕ
  | .screen id => id
  | _ => 0

theorem guarded_of_tournament {t : TournamentId} {rest : List Lock} (h : ∀ l ∈ rest, ∃ id, l = .match (some t) id) :
    Locks.Guarded Lock.gate Lock.rank (.tournament t :: rest) := by
  intro before l after hsplit
  cases before with
  | nil =>
      obtain ⟨rfl, rfl⟩ := List.cons.inj hsplit
      exact ⟨nofun, fun _ k hk => absurd hk List.not_mem_nil⟩
  | cons first before =>
      obtain ⟨rfl, hrest⟩ := List.cons.inj hsplit
      obtain ⟨id, rfl⟩ := h l (hrest ▸ List.mem_append_right _ List.mem_cons_self)
      refine ⟨fun g hg => ?_, fun hnone => nomatch hnone⟩
      obtain rfl := Option.some.inj hg
      exact List.mem_cons_self

theorem guarded_singleton {l : Lock} (h : l.gate = none) : Locks.Guarded Lock.gate Lock.rank [l] := by
  intro before l' after hsplit
  cases before with
  | nil =>
      obtain ⟨rfl, _⟩ := List.cons.inj hsplit
      exact ⟨fun g hg => absurd (h.symm.trans hg) nofun, fun _ k hk => absurd hk List.not_mem_nil⟩
  | cons first before =>
      have := congrArg List.length (List.cons.inj hsplit).2
      simp at this

theorem TakesMatch.guarded (hdb : WellFormed db) {id : MatchId} {locks : List Lock} (h : TakesMatch db id locks) :
    Locks.Guarded Lock.gate Lock.rank locks := by
  rcases h with rfl | ⟨m, here, sent, hsent, rfl⟩
  · exact .nil
  · cases ht : m.tournament with
    | none =>
        -- a quick battle leads nowhere
        have hnone : m.targets = [] := hdb.wired.quick m (Table.mem_of_get? here) ht
        rw [Match.nextLocks, hnone] at hsent
        rw [List.eq_nil_of_sublist_nil hsent, Match.ownLocks, ht]
        exact guarded_singleton rfl
    | some t =>
        rw [Match.ownLocks, ht]
        refine guarded_of_tournament fun l hl => ?_
        rcases List.mem_cons.mp hl with rfl | hl
        · exact ⟨m.id, rfl⟩
        · obtain ⟨q, _, rfl⟩ := List.mem_map.mp (hsent.subset hl)
          exact ⟨q.1, by rw [ht]⟩

theorem TakesTournament.guarded {t : TournamentId} {locks : List Lock} (h : TakesTournament t locks) :
    Locks.Guarded Lock.gate Lock.rank locks := by
  rcases h with rfl | ⟨rest, rfl, hrest⟩
  · exact .nil
  · exact guarded_of_tournament hrest

theorem TakesScreens.guarded {locks : List Lock} (h : TakesScreens locks) : Locks.Guarded Lock.gate Lock.rank locks := by
  obtain ⟨ids, hids, rfl⟩ := h
  intro before l after hsplit
  obtain ⟨lower, id, higher, hlower, hid, rfl⟩ : ∃ lower id higher, before = lower.map .screen ∧ l = .screen id ∧
      ids = lower ++ id :: higher := by
    obtain ⟨lower, rest, rfl, hlower, hrest⟩ := List.map_eq_append_iff.mp hsplit
    obtain ⟨id, higher, rfl, hid, _⟩ := List.map_eq_cons_iff.mp hrest
    exact ⟨lower, id, higher, hlower.symm, hid.symm, rfl⟩
  subst hlower hid
  refine ⟨nofun, fun _ k hk => ?_⟩
  obtain ⟨i, hi, rfl⟩ := List.mem_map.mp hk
  exact (List.pairwise_append.mp hids).2.2 i hi id List.mem_cons_self

theorem Op.Acquires.guarded (hdb : WellFormed db) {op : Op} {locks : List Lock} (h : op.Acquires db locks) :
    Locks.Guarded Lock.gate Lock.rank locks := by
  cases op with
  | organize actor request =>
      cases request with
      | onMatch => exact TakesMatch.guarded hdb h
      | fill => exact TakesMatch.guarded hdb h
      | setMatchRanking => exact TakesMatch.guarded hdb h
      | createTournament => exact TakesTournament.guarded h
      | onTournament => exact TakesTournament.guarded h
      | setShowInHistory => exact TakesTournament.guarded h
      | setTournamentRanking => exact TakesTournament.guarded h
      | createDuel => exact TakesScreens.guarded h
      | createScreen => exact TakesScreens.guarded h
      | showOnScreen => exact TakesScreens.guarded h
      | renameScreen => exact TakesScreens.guarded h
      | regenerateScreenToken => exact TakesScreens.guarded h
  | tick => exact TakesMatch.guarded hdb h
  | submit => exact TakesMatch.guarded hdb h
  | judge =>
      obtain rfl : locks = [] := h
      exact .nil

/-- The locks of some operation, on tables that a run reaches. -/
def Planned (locks : List Lock) : Prop := ∃ db, Reachable db ∧ ∃ (site : Site) (op : Op), locks = op.locks site db

theorem Planned.guarded {locks : List Lock} (h : Planned locks) : Locks.Guarded Lock.gate Lock.rank locks := by
  obtain ⟨db, hdb, site, op, rfl⟩ := h
  exact (op.locks_takes hdb.wellFormed).guarded hdb.wellFormed

/-- The round of the match that is locked. -/
def Lock.round? (db : Db) : Lock → Option ℕ
  | .match _ id => (db.match? id).bind (·.round)
  | _ => none

end
end Arena
end CpcJudge
