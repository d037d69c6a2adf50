import CpcJudge.Bridge.Maps
import CpcJudge.Lib.Marked

/-!
# `Bridge.Order` — the order in which submissions leave the queue

A history is what happened to the queue in a run (`History`): submissions were queued, sent to a judge or aborted. The
queue holds those that are still waiting, by priority and then by arrival, between its markers; a judge gets the first
of them that it can judge; and one that has left the queue never leaves it again.
-/

namespace CpcJudge
namespace Bridge

open Txn Marked

variable {s s' : JudgeList} {w : World} {r : Request} {id judge judge' key priority : ℕ} {f : JudgeHandler → JudgeHandler}

/-- A submission that was queued, with the key of its node. -/
structure Entry where
  key : ℕ
  request : Request
  priority : ℕ
  deriving DecidableEq, Repr

variable {e : Entry} {ws : List Entry}

def Entry.node (e : Entry) : Node := ⟨e.key, .request e.request⟩

/-- The judge can judge the submission. -/
def JudgeHandler.canTake (j : JudgeHandler) (e : Entry) : Bool :=
  j.canJudge e.request.problem e.request.language e.request.judgeId

/-- What happens to the queue and to the judges. `given` is a submission that never was in the queue. -/
inductive Move where
  | queued (e : Entry)
  | dispatched (e : Entry) (judge : ℕ)
  | aborted (e : Entry)
  | given (r : Request) (judge : ℕ)
  deriving DecidableEq, Repr

/-- The entries that wait after a move, in the order they came. -/
def waitingAfter (ws : List Entry) : Move → List Entry
  | .queued e => ws ++ [e]
  | .dispatched e _ => ws.filter (·.key ≠ e.key)
  | .aborted e => ws.filter (·.key ≠ e.key)
  | .given _ _ => ws

def waiting (moves : List Move) : List Entry := moves.foldl waitingAfter []

/-- The entries that wait, by priority and then by arrival. -/
def inLine (ws : List Entry) : List Entry := line Entry.priority 0 4 ws

/-- The key of the entry that a move takes out of the queue. -/
def Move.leaves : Move → Option ℕ
  | .queued _ => none
  | .dispatched e _ => some e.key
  | .aborted e => some e.key
  | .given _ _ => none

/-- The keys of the entries that have left. -/
def gone (moves : List Move) : List ℕ := moves.filterMap Move.leaves

/-- The submission a move sends to the judge. -/
def Move.sends (judge : ℕ) : Move → Option ℕ
  | .queued _ => none
  | .dispatched e judge' => if judge' = judge then some e.request.id else none
  | .aborted _ => none
  | .given r judge' => if judge' = judge then some r.id else none

/-- The submission that a judge is given: the first one in line that it can judge, unless the reservation excludes it. -/
def JudgeList.due (s : JudgeList) (w : World) (judge : ℕ) (ws : List Entry) : Option Entry :=
  ((inLine ws).find? (s.handlers judge).canTake).filter fun e => ¬ (REJUDGE_PRIORITY ≤ e.priority ∧ s.shouldReserveJudge w = true)

/-- Nothing happens to the queue, and nothing is sent. -/
structure Quiet (s s' : JudgeList) : Prop where
  queue : s'.queue = s.queue
  nodeMap : s'.nodeMap = s.nodeMap
  nextKey : s'.nextKey = s.nextKey
  sent : ∀ judge, (s'.handlers judge).sent = (s.handlers judge).sent

/-- What happened to the queue from the start to a state. -/
inductive History : List Move → JudgeList → Prop where
  | start : History [] {}
  | queued {moves : List Move} {s : JudgeList} {r : Request} {priority : ℕ} :
      History moves s → s.nodeMap r.id = none → priority < 4 →
      History (moves ++ [.queued ⟨s.nextKey, r, priority⟩]) (s.enqueue r priority)
  | dispatched {moves : List Move} {s : JudgeList} {w : World} {judge : ℕ} {e : Entry} :
      History moves s → s.due w judge (waiting moves) = some e →
      History (moves ++ [.dispatched e judge]) (s.hand judge e.key e.request)
  | aborted {moves : List Move} {s : JudgeList} {e : Entry} :
      History moves s → e ∈ waiting moves → History (moves ++ [.aborted e]) (s.dequeue e.key e.request.id)
  | given {moves : List Move} {s : JudgeList} {r : Request} {judge : ℕ} :
      History moves s → s.nodeMap r.id = none → History (moves ++ [.given r judge]) (s.give judge r)
  | quiet {moves : List Move} {s s' : JudgeList} : History moves s → Quiet s s' → History moves s'

theorem waiting_append (moves : List Move) (move : Move) : waiting (moves ++ [move]) = waitingAfter (waiting moves) move := by
  unfold waiting
  rw [List.foldl_append, List.foldl_cons, List.foldl_nil]

/-! ## The queue -/

/-- The queue as the entries that wait. -/
def laid (ws : List Entry) : List Node := lay Entry.priority Entry.node (fun p => ⟨p, .marker p⟩) 0 4 ws

/-- The queue holds the entries that wait, and they are in the order they came. -/
structure Waits (ws : List Entry) (s : JudgeList) : Prop where
  queue : s.queue = laid ws
  maps : Queue s
  keys : ∀ e ∈ ws, 4 ≤ e.key ∧ e.key < s.nextKey
  priorities : ∀ e ∈ ws, e.priority < 4
  arrivals : ws.Pairwise fun e e' => e.key < e'.key
  nextKey : 4 ≤ s.nextKey

namespace Waits

theorem mem_queue (h : Waits ws s) {node : Node} :
    node ∈ s.queue ↔ (∃ e ∈ ws, e.node = node) ∨ ∃ p < 4, (⟨p, .marker p⟩ : Node) = node := by
  rw [h.queue, laid, mem_lay]
  constructor
  · rintro (⟨e, he, -, -, hnode⟩ | ⟨p, -, hp, hnode⟩)
    · exact .inl ⟨e, he, hnode⟩
    · exact .inr ⟨p, by omega, hnode⟩
  · rintro (⟨e, he, hnode⟩ | ⟨p, hp, hnode⟩)
    · exact .inl ⟨e, he, Nat.zero_le _, by have := h.priorities e he; omega, hnode⟩
    · exact .inr ⟨p, Nat.zero_le _, by omega, hnode⟩

/-- An entry that waits is the one of `node_map`. -/
theorem nodeMap (h : Waits ws s) (he : e ∈ ws) : s.nodeMap e.request.id = some e.key :=
  h.maps.node (h.mem_queue.mpr (.inl ⟨e, he, rfl⟩))

/-- A submission of `node_map` waits. -/
theorem entry (h : Waits ws s) (hkey : s.nodeMap id = some key) : ∃ e ∈ ws, e.key = key ∧ e.request.id = id := by
  obtain ⟨node, hnode, hnodekey, hholds⟩ := (h.maps.nodes id key).mp hkey
  rcases h.mem_queue.mp hnode with ⟨e, he, rfl⟩ | ⟨p, -, rfl⟩
  · exact ⟨e, he, hnodekey, by simpa [Entry.node, Node.holds] using hholds⟩
  · exact absurd hholds (by simp [Node.holds])

theorem start : Waits [] {} := by
  refine ⟨rfl, agrees_start.queue, ?_, ?_, List.Pairwise.nil, le_rfl⟩
  · exact fun e he => absurd he List.not_mem_nil
  · exact fun e he => absurd he List.not_mem_nil

theorem enqueue (h : Waits ws s) (hnone : s.nodeMap r.id = none) (hpriority : priority < 4) :
    Waits (ws ++ [⟨s.nextKey, r, priority⟩]) (s.enqueue r priority) := by
  refine ⟨?_, h.maps.enqueue hnone, ?_, ?_, ?_, h.nextKey.trans (Nat.le_succ _)⟩
  · show s.queue.takeWhile (·.key ≠ priority) ++ Entry.node ⟨s.nextKey, r, priority⟩ ::
      s.queue.dropWhile (·.key ≠ priority) = _
    rw [h.queue]
    refine insert_lay ?_ ?_ (Nat.zero_le _) (by simpa using hpriority)
    · intro e he
      have hlate := (h.keys e he).1
      refine decide_eq_true (show e.key ≠ priority from ?_)
      omega
    · exact fun p => decide_eq_true_iff
  · intro e he
    show 4 ≤ e.key ∧ e.key < s.nextKey + 1
    rcases List.mem_append.mp he with hold | hnew
    · exact ⟨(h.keys e hold).1, Nat.lt_succ_of_lt (h.keys e hold).2⟩
    · rw [List.mem_singleton.mp hnew]
      exact ⟨h.nextKey, Nat.lt_succ_self _⟩
  · intro e he
    rcases List.mem_append.mp he with hold | hnew
    · exact h.priorities e hold
    · rw [List.mem_singleton.mp hnew]
      exact hpriority
  · refine List.pairwise_append.mpr ⟨h.arrivals, List.pairwise_singleton _ _, fun e he e' he' => ?_⟩
    rw [List.mem_singleton.mp he']
    exact (h.keys e he).2

/-- An entry leaves. -/
theorem dequeue (h : Waits ws s) (he : e ∈ ws) :
    Waits (ws.filter (·.key ≠ e.key)) (s.dequeue e.key e.request.id) := by
  refine ⟨?_, h.maps.dequeue (h.nodeMap he), ?_, ?_, h.arrivals.filter _, h.nextKey⟩
  · show s.queue.filter _ = _
    rw [h.queue]
    refine filter_lay (fun _ _ => rfl) fun p hp => ?_
    have hlate := (h.keys e he).1
    simp only [ne_eq, decide_not, Bool.not_eq_true', decide_eq_false_iff_not]
    omega
  · exact fun e' he' => h.keys e' (List.mem_filter.mp he').1
  · exact fun e' he' => h.priorities e' (List.mem_filter.mp he').1

theorem quiet (h : Waits ws s) (hqueue : s'.queue = s.queue) (hnodes : s'.nodeMap = s.nodeMap)
    (hkey : s'.nextKey = s.nextKey) : Waits ws s' := by
  refine ⟨hqueue.trans h.queue, h.maps.of_eq hqueue hnodes hkey, ?_, h.priorities, h.arrivals, ?_⟩
  · rw [hkey]
    exact h.keys
  · rw [hkey]
    exact h.nextKey

end Waits

/-! ## What the loop stops at -/

/-- Where the reservation holds and a submission of a low priority comes next, the loop stops. -/
theorem JudgeList.choose_reserved (hreserve : s.shouldReserveJudge w = true) (hlow : REJUDGE_PRIORITY ≤ priority)
    (count : ℕ) (ws : List Entry) :
    s.choose w judge priority (lay Entry.priority Entry.node (fun p => ⟨p, .marker p⟩) priority count ws) = none := by
  induction count generalizing priority with
  | zero => rfl
  | succ count ih =>
      rw [lay_succ]
      cases ws.filter fun e => e.priority = priority with
      | nil => exact ih (hlow.trans (Nat.le_succ _))
      | cons e es => exact if_pos ⟨hlow, hreserve⟩

/-- Without it, the loop stops at the first submission of the priority that the judge can judge, or goes on. -/
theorem JudgeList.choose_segment (hopen : ¬ (REJUDGE_PRIORITY ≤ priority ∧ s.shouldReserveJudge w = true))
    (es : List Entry) (rest : List Node) : s.choose w judge priority (es.map Entry.node ++ rest) =
      ((es.find? (s.handlers judge).canTake).map fun e => (e.key, e.request)).or (s.choose w judge priority rest) := by
  induction es with
  | nil => rfl
  | cons e es ih =>
      rw [List.map_cons, List.cons_append]
      simp only [JudgeList.choose, Entry.node, if_neg hopen]
      by_cases hcan : (s.handlers judge).canTake e = true
      · rw [List.find?_cons_of_pos hcan]
        exact if_pos hcan
      · rw [List.find?_cons_of_neg hcan, ← ih]
        exact if_neg hcan

/-- The loop stops at what the judge is due. -/
theorem JudgeList.choose_line (count : ℕ) (ws : List Entry) :
    s.choose w judge priority (lay Entry.priority Entry.node (fun p => ⟨p, .marker p⟩) priority count ws) =
      (((line Entry.priority priority count ws).find? (s.handlers judge).canTake).filter
          fun e => ¬ (REJUDGE_PRIORITY ≤ e.priority ∧ s.shouldReserveJudge w = true)).map fun e => (e.key, e.request) := by
  induction count generalizing priority with
  | zero => rfl
  | succ count ih =>
      by_cases hreserve : REJUDGE_PRIORITY ≤ priority ∧ s.shouldReserveJudge w = true
      · rw [JudgeList.choose_reserved hreserve.2 hreserve.1]
        -- whatever comes first in line is excluded
        cases hfirst : (line Entry.priority priority (count + 1) ws).find? (s.handlers judge).canTake with
        | none => rfl
        | some e =>
            have hle : priority ≤ e.priority := (mem_line.mp (List.mem_of_find?_eq_some hfirst)).2.1
            rw [Option.filter_some_neg]
            · rfl
            · exact decide_eq_false (not_not.mpr ⟨hreserve.1.trans hle, hreserve.2⟩)
      · have hmarker : s.choose w judge priority
            ((⟨priority, .marker priority⟩ : Node) :: lay Entry.priority Entry.node (fun p => ⟨p, .marker p⟩) (priority + 1) count ws) =
            s.choose w judge (priority + 1)
              (lay Entry.priority Entry.node (fun p => ⟨p, .marker p⟩) (priority + 1) count ws) := rfl
        rw [lay_succ, JudgeList.choose_segment hreserve, line_succ, List.find?_append, hmarker, ih]
        cases hfirst : (ws.filter fun e => e.priority = priority).find? (s.handlers judge).canTake with
        | none => rfl
        | some e =>
            have hpriority : e.priority = priority :=
              of_decide_eq_true (List.mem_filter.mp (List.mem_of_find?_eq_some hfirst)).2
            rw [Option.some_or, Option.filter_some_pos]
            · rfl
            · rw [hpriority]
              exact decide_eq_true hreserve

theorem JudgeList.due_eq (h : s.queue = laid ws) :
    s.choose w judge 0 s.queue = (s.due w judge ws).map fun e => (e.key, e.request) := by
  rw [h]
  exact JudgeList.choose_line 4 ws

theorem JudgeList.mem_of_due (h : s.due w judge ws = some e) : e ∈ ws := by
  unfold JudgeList.due at h
  have hfirst := (Option.filter_eq_some_iff.mp h).1
  exact (mem_line.mp (List.mem_of_find?_eq_some hfirst)).1

/-! ## A history -/

/-- What the judge was sent in a history, the last submission first. -/
def sentTo (judge : ℕ) (moves : List Move) : List ℕ := (moves.filterMap (Move.sends judge)).reverse

theorem sentTo_append (moves : List Move) (move : Move) :
    sentTo judge (moves ++ [move]) = (move.sends judge).toList ++ sentTo judge moves := by
  unfold sentTo
  rw [List.filterMap_append, List.reverse_append]
  cases hsends : move.sends judge with
  | none => rw [List.filterMap_cons_none hsends, Option.toList_none]; rfl
  | some id => rw [List.filterMap_cons_some hsends, Option.toList_some]; rfl

namespace History

variable {moves : List Move}

theorem waits (h : History moves s) : Waits (waiting moves) s := by
  induction h with
  | start => exact .start
  | queued _ hnone hpriority ih =>
      rw [waiting_append]
      exact ih.enqueue hnone hpriority
  | @dispatched moves s w judge e _ hdue ih =>
      rw [waiting_append]
      have hgive : Waits (waiting moves) (s.give judge e.request) := ih.quiet rfl rfl rfl
      exact hgive.dequeue (JudgeList.mem_of_due hdue)
  | aborted _ he ih =>
      rw [waiting_append]
      exact ih.dequeue he
  | given _ _ ih =>
      rw [waiting_append]
      exact ih.quiet rfl rfl rfl
  | quiet _ hquiet ih => exact ih.quiet hquiet.queue hquiet.nodeMap hquiet.nextKey

end History

theorem gone_append (moves : List Move) (move : Move) : gone (moves ++ [move]) = gone moves ++ move.leaves.toList := by
  unfold gone
  rw [List.filterMap_append]
  cases hleaves : move.leaves with
  | none => rw [List.filterMap_cons_none hleaves]; rfl
  | some key => rw [List.filterMap_cons_some hleaves]; rfl

/-- What has left the queue does not wait, and nothing left it twice. -/
structure Gone (moves : List Move) (s : JudgeList) : Prop where
  once : (gone moves).Nodup
  old : ∀ key ∈ gone moves, key < s.nextKey
  out : ∀ key ∈ gone moves, ∀ e ∈ waiting moves, e.key ≠ key

/-- An entry that waits leaves. -/
theorem Gone.leave {moves : List Move} {move : Move} (h : Gone moves s) (hwaits : Waits (waiting moves) s)
    (he : e ∈ waiting moves) (hleaves : move.leaves = some e.key)
    (hafter : waitingAfter (waiting moves) move = (waiting moves).filter (·.key ≠ e.key)) (hkey : s'.nextKey = s.nextKey) :
    Gone (moves ++ [move]) s' := by
  have hgone : gone (moves ++ [move]) = gone moves ++ [e.key] := by
    rw [gone_append, hleaves]
    rfl
  refine ⟨?_, ?_, ?_⟩
  · rw [hgone]
    refine List.nodup_append.mpr ⟨h.once, List.nodup_singleton _, fun key hold key' hnew => ?_⟩
    rw [List.mem_singleton.mp hnew]
    exact (h.out key hold e he).symm
  · rw [hgone, hkey]
    intro key hin
    rcases List.mem_append.mp hin with hold | hnew
    · exact h.old key hold
    · rw [List.mem_singleton.mp hnew]
      exact (hwaits.keys e he).2
  · rw [hgone, waiting_append, hafter]
    intro key hin e' he'
    obtain ⟨he', hother⟩ := List.mem_filter.mp he'
    rcases List.mem_append.mp hin with hold | hnew
    · exact h.out key hold e' he'
    · rw [List.mem_singleton.mp hnew]
      exact of_decide_eq_true hother

theorem History.gone {moves : List Move} (h : History moves s) : Gone moves s := by
  induction h with
  | start =>
      have hnone : ∀ key, key ∉ Bridge.gone [] := fun _ => List.not_mem_nil
      exact ⟨List.nodup_nil, fun key hin => absurd hin (hnone key), fun key hin => absurd hin (hnone key)⟩
  | @queued moves s r priority _ _ _ ih =>
      have hsame : Bridge.gone (moves ++ [.queued ⟨s.nextKey, r, priority⟩]) = Bridge.gone moves := by
        rw [gone_append]
        exact List.append_nil _
      refine ⟨?_, ?_, ?_⟩
      · rw [hsame]
        exact ih.once
      · rw [hsame]
        exact fun key hin => Nat.lt_succ_of_lt (ih.old key hin)
      · rw [hsame, waiting_append]
        intro key hin e he
        rcases List.mem_append.mp he with hold | hnew
        · exact ih.out key hin e hold
        · rw [List.mem_singleton.mp hnew]
          exact (ih.old key hin).ne'
  | dispatched hhistory hdue ih => exact ih.leave hhistory.waits (JudgeList.mem_of_due hdue) rfl rfl rfl
  | aborted hhistory he ih => exact ih.leave hhistory.waits he rfl rfl rfl
  | @given moves s r judge _ _ ih =>
      have hsame : Bridge.gone (moves ++ [.given r judge]) = Bridge.gone moves := by
        rw [gone_append]
        exact List.append_nil _
      refine ⟨?_, ?_, ?_⟩
      · rw [hsame]
        exact ih.once
      · rw [hsame]
        exact ih.old
      · rw [hsame, waiting_append]
        exact ih.out
  | quiet _ hquiet ih =>
      refine ⟨ih.once, ?_, ih.out⟩
      rw [hquiet.nextKey]
      exact ih.old

namespace History

variable {moves : List Move}

theorem sent_give (judge' : ℕ) : ((s.give judge r).handlers judge').sent =
    (if judge = judge' then some r.id else none).toList ++ (s.handlers judge').sent := by
  by_cases hsame : judge' = judge
  · subst hsame
    rw [if_pos rfl]
    unfold JudgeList.give
    rw [JudgeList.setHandler_self]
    rfl
  · rw [JudgeList.give_of_ne hsame, if_neg (Ne.symm hsame)]
    rfl

/-- The history is what the judges were sent. -/
theorem sent (h : History moves s) (judge : ℕ) : (s.handlers judge).sent = sentTo judge moves := by
  induction h with
  | start => rfl
  | queued _ _ _ ih =>
      rw [sentTo_append]
      exact ih
  | @dispatched moves s w judge' e _ _ ih =>
      rw [sentTo_append, ← ih]
      exact sent_give judge
  | aborted _ _ ih =>
      rw [sentTo_append]
      exact ih
  | given _ _ ih =>
      rw [sentTo_append, ← ih]
      exact sent_give judge
  | quiet _ hquiet ih => exact (hquiet.sent judge).trans ih

/-! ## The calls -/

/-- A history goes on. -/
def Goes (moves : List Move) (s : JudgeList) : Prop := ∃ later, History (moves ++ later) s

theorem goes (h : History moves s) : Goes moves s := ⟨[], by rwa [List.append_nil]⟩

theorem Goes.trans (h : Goes moves s) (hnext : ∀ later, History (moves ++ later) s → Goes (moves ++ later) s') :
    Goes moves s' := by
  obtain ⟨later, hhistory⟩ := h
  obtain ⟨later', hhistory'⟩ := hnext later hhistory
  exact ⟨later ++ later', by rwa [← List.append_assoc]⟩

theorem serve (h : History moves s) (w : World) (judge : ℕ) : Goes moves (s.serve w judge) := by
  rcases s.serve_cases w judge with heq | ⟨_, _, key, r, _, _, _, hchoose, heq⟩
  · rw [heq]
    exact h.goes
  · rw [JudgeList.due_eq h.waits.queue] at hchoose
    obtain ⟨e, hdue, hpair⟩ := Option.map_eq_some_iff.mp hchoose
    cases hpair
    rw [heq]
    exact ⟨_, .dispatched h hdue⟩

theorem serveIfFree (h : History moves s) (w : World) (judge : ℕ) : Goes moves (s.serveIfFree w judge) := by
  unfold JudgeList.serveIfFree
  split
  · exact h.goes
  · exact h.serve w judge

theorem serveAll (h : History moves s) (w : World) (judges : List ℕ) :
    Goes moves (judges.foldl (fun t judge => t.serveIfFree w judge) s) := by
  induction judges generalizing moves s with
  | nil => exact h.goes
  | cons judge judges ih => exact (h.serveIfFree w judge).trans fun later hlater => ih hlater

theorem settle (h : History moves s) (w : World) : Goes moves (s.settle w) := by
  have hmin : History moves { s with minTier := s.lowestTier } := .quiet h ⟨rfl, rfl, rfl, fun _ => rfl⟩
  rcases s.settle_cases w with heq | heq
  · rw [heq]
    exact hmin.goes
  · rw [heq]
    exact hmin.serveAll w _

theorem quiet_setHandler (hsent : ∀ j, (f j).sent = j.sent) : Quiet s (s.setHandler judge f) := by
  refine ⟨rfl, rfl, rfl, fun judge' => ?_⟩
  by_cases hsame : judge' = judge
  · rw [hsame, JudgeList.setHandler_self, hsent]
  · rw [JudgeList.setHandler_of_ne hsame]

theorem quiet_leave : Quiet s (s.leave judge) := by
  unfold JudgeList.leave
  cases (s.handlers judge).working with
  | none => exact ⟨rfl, rfl, rfl, fun _ => rfl⟩
  | some sub => exact ⟨rfl, rfl, rfl, fun _ => rfl⟩

theorem quiet_disable {judgeId : String} {isDisabled : Bool} : Quiet s (s.disable judgeId isDisabled) := by
  refine ⟨rfl, rfl, rfl, fun judge => ?_⟩
  unfold JudgeList.disable
  dsimp only
  split
  · rfl
  · rfl

theorem quiet_free : Quiet s (s.free judge id) := by
  have hset : Quiet (s.unassign id) (s.free judge id) := quiet_setHandler fun _ => rfl
  exact ⟨rfl, rfl, rfl, hset.sent⟩

/-- Every call goes on with the history. -/
theorem after (h : History moves s) (hw : w.Calm) (call : Call) : Goes moves (s.after w call) := by
  rw [JudgeList.after_calm hw]
  cases call with
  | register judge =>
      have hadd : History moves (s.add judge) := .quiet h ⟨rfl, rfl, rfl, fun _ => rfl⟩
      exact (hadd.settle w).trans fun later hlater => hlater.serve w judge
  | remove judge =>
      have hleave : History moves (s.leave judge) := .quiet h quiet_leave
      unfold JudgeList.afterCalm
      dsimp only
      split
      · rename_i last _
        exact (hleave.settle w).trans fun later hlater => hlater.serveIfFree w last
      · exact hleave.settle w
  | updateProblems judge => exact h.serve w judge
  | updateDisableJudge judgeId isDisabled =>
      have hdisable : History moves (s.disable judgeId isDisabled) := .quiet h quiet_disable
      exact hdisable.settle w
  | onJudgeFree judge id =>
      unfold JudgeList.afterCalm
      dsimp only
      split
      · exact h.goes
      · have hfree : History moves (s.free judge id) := .quiet h quiet_free
        exact hfree.serve w judge
  | abort id =>
      unfold JudgeList.afterCalm
      dsimp only
      split
      · rename_i key _ hkey
        obtain ⟨e, he, rfl, rfl⟩ := h.waits.entry hkey
        exact ⟨_, .aborted h he⟩
      · exact h.goes
  | judge r priority =>
      unfold JudgeList.afterCalm
      dsimp only
      split
      · exact h.goes
      rename_i hunknown
      have hnode : s.nodeMap r.id = none := (JudgeList.unknown hunknown).2
      split
      · exact ⟨_, .given h hnode⟩
      · split
        · rename_i hpriority
          exact ⟨_, .queued h hnode (of_decide_eq_true hpriority)⟩
        · exact h.goes
  | handshake =>
      refine goes (.quiet h ?_)
      unfold JudgeList.afterCalm
      apply quiet_setHandler
      exact fun _ => rfl
  | connected =>
      refine goes (.quiet h ?_)
      unfold JudgeList.afterCalm
      apply quiet_setHandler
      exact fun _ => rfl
  | supportedProblems =>
      refine goes (.quiet h ?_)
      unfold JudgeList.afterCalm
      apply quiet_setHandler
      exact fun _ => rfl
  | pingResponse =>
      refine goes (.quiet h ?_)
      unfold JudgeList.afterCalm
      apply quiet_setHandler
      exact fun _ => rfl

theorem afterAll (h : History moves s) {calls : List (World × Call)} (hcalm : AllCalm calls) :
    Goes moves (s.afterAll calls) := by
  induction calls generalizing moves s with
  | nil => exact h.goes
  | cons call calls ih =>
      refine (h.after (hcalm call List.mem_cons_self) call.2).trans fun later hlater => ?_
      exact ih hlater fun call hin => hcalm call (List.mem_cons_of_mem _ hin)

end History

/-- What a run does with the queue: it holds what waits, between its markers, by priority and then by arrival; nothing
left it twice, to a judge or aborted; and the judges were sent what left it for them, or never was in it. -/
structure Dispatches (moves : List Move) (s : JudgeList) : Prop where
  history : History moves s
  queue : s.queue = laid (waiting moves)
  order : (inLine (waiting moves)).Pairwise fun e e' =>
    e.priority < e'.priority ∨ e.priority = e'.priority ∧ e.key < e'.key
  arrivals : (waiting moves).Pairwise fun e e' => e.key < e'.key
  once : (gone moves).Nodup
  sent : ∀ judge, (s.handlers judge).sent = sentTo judge moves

theorem History.dispatches {moves : List Move} (h : History moves s) : Dispatches moves s :=
  ⟨h, h.waits.queue, line_pairwise h.waits.arrivals, h.waits.arrivals, h.gone.once, h.sent⟩

/-- The judge gets what it is due. -/
def JudgeList.served (s : JudgeList) (w : World) (judge : ℕ) (ws : List Entry) : JudgeList :=
  match s.due w judge ws with
  | some e => s.hand judge e.key e.request
  | none => s

/-- The judge is of the current tier. -/
def JudgeList.Current (s : JudgeList) (judge : ℕ) : Prop := ∃ tier, (s.handlers judge).tier = some tier ∧ s.minTier = some tier

theorem Waits.serve_eq (h : Waits ws s) (hcurrent : s.Current judge) : s.serve w judge = s.served w judge ws := by
  obtain ⟨tier, htier, hmin⟩ := hcurrent
  unfold JudgeList.serve JudgeList.served
  rw [htier, hmin]
  dsimp only
  rw [if_neg (lt_irrefl tier), JudgeList.due_eq h.queue]
  cases s.due w judge ws with
  | none => rfl
  | some e => rfl

/-- Two submissions wait for a judge; it takes the one of the first priority. -/
def waited : List (World × Call) :=
  [(calm, .judge (aplusb 5) 1), (calm, .judge (aplusb 6) 0)] ++ connects 1 "one"

example : ((JudgeList.afterAll {} waited).handlers 1).sent = [6] := by decide +kernel

end Bridge
end CpcJudge
