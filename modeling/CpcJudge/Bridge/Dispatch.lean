import CpcJudge.Bridge.JudgeList

/-!
# `Bridge.Dispatch` — no submission is lost

A submission the list knows of is in the queue once, or a listed judge works on it and got its request. Each call
keeps this, one that raises as well as one that does not, with three exceptions: a `judge` whose pick cannot be
reached, a report of a judge that is not listed or does not work on what it reports, and a judge that asks for work
while it has some.
-/

namespace CpcJudge
namespace Bridge

open Txn

variable {s s' : JudgeList} {w : World} {r : Request} {id judge key priority : ℕ} {f : JudgeHandler → JudgeHandler}

/-! ## The queue -/

/-- The node holds the submission. -/
def Node.holds (node : Node) (id : ℕ) : Bool :=
  match node.value with
  | .marker _ => false
  | .request r => r.id = id

/-- The queue and `node_map` agree. -/
structure Queue (s : JudgeList) : Prop where
  keys : (s.queue.map (·.key)).Nodup
  fresh : ∀ node ∈ s.queue, node.key < s.nextKey
  nodes : ∀ id key, s.nodeMap id = some key ↔ ∃ node ∈ s.queue, node.key = key ∧ node.holds id = true

theorem Queue.eq_of_key (h : Queue s) {node node' : Node} (hnode : node ∈ s.queue) (hnode' : node' ∈ s.queue)
    (hkey : node.key = node'.key) : node = node' := List.inj_on_of_nodup_map h.keys hnode hnode' hkey

theorem Node.eq_of_holds {node : Node} {id id' : ℕ} (h : node.holds id = true) (h' : node.holds id' = true) : id = id' := by
  obtain ⟨key, value⟩ := node
  cases value with
  | marker => exact absurd h (by simp [Node.holds])
  | request r =>
      have heq : r.id = id := by simpa [Node.holds] using h
      have heq' : r.id = id' := by simpa [Node.holds] using h'
      rw [← heq, ← heq']

/-- A submission `node_map` knows is in the queue once. -/
theorem Queue.count (h : Queue s) (hkey : s.nodeMap id = some key) : s.queue.countP (·.holds id) = 1 := by
  obtain ⟨node, hnode, -, hholds⟩ := (h.nodes id key).mp hkey
  have hkeys : ∀ k ∈ (s.queue.filter (·.holds id)).map (·.key), k = key := by
    intro k hk
    obtain ⟨node', hnode', rfl⟩ := List.mem_map.mp hk
    obtain ⟨hin, hholds'⟩ := List.mem_filter.mp hnode'
    have hmap : s.nodeMap id = some node'.key := (h.nodes id node'.key).mpr ⟨node', hin, rfl, hholds'⟩
    exact Option.some.inj (hmap.symm.trans hkey)
  have hnodup : ((s.queue.filter (·.holds id)).map (·.key)).Nodup :=
    h.keys.sublist (List.filter_sublist.map _)
  rw [List.eq_replicate_of_mem hkeys, List.length_map, List.nodup_replicate] at hnodup
  rw [List.countP_eq_length_filter]
  have hpos : 0 < (s.queue.filter (·.holds id)).length :=
    List.length_pos_of_mem (List.mem_filter.mpr ⟨hnode, hholds⟩)
  omega

theorem Queue.dequeue (h : Queue s) (hkey : s.nodeMap id = some key) : Queue (s.dequeue key id) := by
  obtain ⟨node, hnode, hnodekey, hholds⟩ := (h.nodes id key).mp hkey
  refine ⟨h.keys.sublist (List.filter_sublist.map _), fun node hin => h.fresh node (List.mem_of_mem_filter hin), ?_⟩
  intro id' key'
  by_cases hid : id' = id
  · subst hid
    -- the only node that held it is gone
    constructor
    · intro hmap
      exact absurd hmap (by simp [JudgeList.dequeue])
    · rintro ⟨node', hin, rfl, hholds'⟩
      obtain ⟨hin, hne⟩ := List.mem_filter.mp hin
      have hmap : s.nodeMap id' = some node'.key := (h.nodes id' node'.key).mpr ⟨node', hin, rfl, hholds'⟩
      exact absurd (Option.some.inj (hmap.symm.trans hkey)) (by simpa using hne)
  · have hmap : (s.dequeue key id).nodeMap id' = s.nodeMap id' := Function.update_of_ne hid _ _
    rw [hmap, h.nodes id' key']
    constructor
    · rintro ⟨node', hin, hkey', hholds'⟩
      refine ⟨node', List.mem_filter.mpr ⟨hin, ?_⟩, hkey', hholds'⟩
      -- a node with the removed key would hold both submissions
      simp only [ne_eq, decide_not, Bool.not_eq_true', decide_eq_false_iff_not]
      intro hsame
      have heq : node' = node := h.eq_of_key hin hnode (hsame.trans hnodekey.symm)
      rw [heq] at hholds'
      exact hid (Node.eq_of_holds hholds' hholds)
    · rintro ⟨node', hin, hkey', hholds'⟩
      exact ⟨node', List.mem_of_mem_filter hin, hkey', hholds'⟩

theorem JudgeList.enqueue_perm : (s.enqueue r priority).queue.Perm (⟨s.nextKey, .request r⟩ :: s.queue) := by
  have hperm : (s.enqueue r priority).queue.Perm
      (⟨s.nextKey, .request r⟩ :: (s.queue.takeWhile (·.key ≠ priority) ++ s.queue.dropWhile (·.key ≠ priority))) :=
    List.perm_middle
  rwa [List.takeWhile_append_dropWhile] at hperm

theorem Queue.enqueue (h : Queue s) (hnone : s.nodeMap r.id = none) : Queue (s.enqueue r priority) := by
  have hperm : (s.enqueue r priority).queue.Perm (⟨s.nextKey, .request r⟩ :: s.queue) := s.enqueue_perm
  refine ⟨?_, ?_, ?_⟩
  · rw [(hperm.map _).nodup_iff, List.map_cons, List.nodup_cons]
    refine ⟨fun hin => ?_, h.keys⟩
    obtain ⟨node, hnode, hkey⟩ := List.mem_map.mp hin
    exact absurd hkey (h.fresh node hnode).ne
  · intro node hnode
    rcases List.mem_cons.mp (hperm.mem_iff.mp hnode) with rfl | hnode
    · exact Nat.lt_succ_self _
    · exact Nat.lt_succ_of_lt (h.fresh node hnode)
  · intro id key
    by_cases hid : id = r.id
    · subst hid
      have hmap : (s.enqueue r priority).nodeMap r.id = some s.nextKey := Function.update_self _ _ _
      rw [hmap]
      constructor
      · intro hkey
        refine ⟨⟨s.nextKey, .request r⟩, hperm.mem_iff.mpr List.mem_cons_self, Option.some.inj hkey, ?_⟩
        simp [Node.holds]
      · rintro ⟨node, hnode, rfl, hholds⟩
        rcases List.mem_cons.mp (hperm.mem_iff.mp hnode) with rfl | hnode
        · rfl
        · have hmap : s.nodeMap r.id = some node.key := (h.nodes r.id node.key).mpr ⟨node, hnode, rfl, hholds⟩
          exact absurd hmap (by simp [hnone])
    · have hmap : (s.enqueue r priority).nodeMap id = s.nodeMap id := Function.update_of_ne hid _ _
      rw [hmap, h.nodes id key]
      constructor
      · rintro ⟨node, hnode, hkey, hholds⟩
        exact ⟨node, hperm.mem_iff.mpr (List.mem_cons_of_mem _ hnode), hkey, hholds⟩
      · rintro ⟨node, hnode, hkey, hholds⟩
        rcases List.mem_cons.mp (hperm.mem_iff.mp hnode) with rfl | hnode
        · exact absurd (Node.eq_of_holds hholds (by simp [Node.holds])) hid
        · exact ⟨node, hnode, hkey, hholds⟩

/-! ## What the list knows of a submission -/

/-- The submission is in the queue, once. -/
def JudgeList.Queued (s : JudgeList) (id : ℕ) : Prop := s.queue.countP (·.holds id) = 1

/-- The judge works on the submission, and the last request that reached it is the one for it. -/
structure JudgeList.Has (s : JudgeList) (judge id : ℕ) : Prop where
  working : (s.handlers judge).working = some id
  sent : (s.handlers judge).sent.head? = some id

/-- The submission is assigned to a judge of the list, and its `submit` succeeded. -/
def JudgeList.Assigned (s : JudgeList) (id : ℕ) : Prop :=
  ∃ judge, s.submissionMap id = some judge ∧ judge ∈ s.judges ∧ s.Has judge id

/-- The state of the list between two calls. -/
structure Sound (s : JudgeList) : Prop where
  queue : Queue s
  judges : s.judges.Nodup
  assigned : ∀ id judge, s.submissionMap id = some judge →
    judge ∈ s.judges ∧ s.Has judge id ∨ (s.nodeMap id).isSome = true

/-- A judge that works on nothing has no submission. -/
theorem Sound.queued_of_free (h : Sound s) (hfree : (s.handlers judge).working = none)
    (hmap : s.submissionMap id = some judge) : (s.nodeMap id).isSome = true := by
  rcases h.assigned id judge hmap with ⟨_, hhas⟩ | hqueued
  · exact absurd (hfree.symm.trans hhas.working) (by simp)
  · exact hqueued

/-- What the list knows of is not lost. -/
theorem Sound.tracked (h : Sound s) (hknown : s.knows id = true) : s.Queued id ∨ s.Assigned id := by
  have hqueued : (s.nodeMap id).isSome = true → s.Queued id := by
    intro hsome
    obtain ⟨key, hkey⟩ := Option.isSome_iff_exists.mp hsome
    exact h.queue.count hkey
  rcases Bool.or_eq_true_iff.mp hknown with hmap | hnode
  · obtain ⟨judge, hjudge⟩ := Option.isSome_iff_exists.mp hmap
    rcases h.assigned id judge hjudge with ⟨hlisted, hhas⟩ | hsome
    · exact .inr ⟨judge, hjudge, hlisted, hhas⟩
    · exact .inl (hqueued hsome)
  · exact .inl (hqueued hnode)

/-! ## The writes of a call -/

/-- Writes that leave the queue alone, and take no submission from a listed judge that works on it. -/
theorem Sound.write (h : Sound s) (hqueue : s'.queue = s.queue) (hnodes : s'.nodeMap = s.nodeMap)
    (hkey : s'.nextKey = s.nextKey) (hjudges : s'.judges.Nodup)
    (hassigned : ∀ id judge, s'.submissionMap id = some judge → (s.nodeMap id).isSome = true ∨
      judge ∈ s'.judges ∧ s'.Has judge id) : Sound s' := by
  refine ⟨⟨?_, ?_, ?_⟩, hjudges, ?_⟩
  · rw [hqueue]
    exact h.queue.keys
  · rw [hqueue, hkey]
    exact h.queue.fresh
  · rw [hqueue, hnodes]
    exact h.queue.nodes
  · intro id judge hmap
    rw [hnodes]
    exact (hassigned id judge hmap).symm

/-- A change of a handler that keeps what the judge works on. -/
theorem Sound.setHandler (h : Sound s) (hworking : (f (s.handlers judge)).working = (s.handlers judge).working)
    (hsent : (f (s.handlers judge)).sent = (s.handlers judge).sent) : Sound (s.setHandler judge f) := by
  refine h.write rfl rfl rfl h.judges fun id judge' hmap => (h.assigned id judge' hmap).symm.imp_right fun hlisted => ?_
  obtain ⟨hlisted, hhas⟩ := hlisted
  refine ⟨hlisted, ?_⟩
  by_cases hsame : judge' = judge
  · subst hsame
    exact ⟨by rw [JudgeList.setHandler_self, hworking, hhas.working], by rw [JudgeList.setHandler_self, hsent, hhas.sent]⟩
  · exact ⟨by rw [JudgeList.setHandler_of_ne hsame, hhas.working], by rw [JudgeList.setHandler_of_ne hsame, hhas.sent]⟩

theorem Sound.minTier (h : Sound s) (minTier : Option ℤ) : Sound { s with minTier } :=
  h.write rfl rfl rfl h.judges fun id judge hmap =>
    (h.assigned id judge hmap).symm.imp_right fun hlisted => ⟨hlisted.1, hlisted.2.working, hlisted.2.sent⟩

theorem Sound.unassign (h : Sound s) : Sound (s.unassign id) := by
  refine h.write rfl rfl rfl h.judges fun id' judge hmap => ?_
  obtain ⟨_, hmap⟩ := JudgeList.unassign_some hmap
  exact (h.assigned id' judge hmap).symm.imp_right fun hlisted => ⟨hlisted.1, hlisted.2.working, hlisted.2.sent⟩

theorem Sound.add (h : Sound s) : Sound (s.add judge) := by
  have hnodup : (s.add judge).judges.Nodup := by
    unfold JudgeList.add
    dsimp only
    split
    · exact h.judges
    · rename_i hout
      rw [← List.concat_eq_append]
      exact h.judges.concat hout
  refine h.write rfl rfl rfl hnodup fun id judge' hmap => ?_
  exact (h.assigned id judge' hmap).symm.imp_right fun hlisted =>
    ⟨JudgeList.mem_add.mpr (.inl hlisted.1), hlisted.2.working, hlisted.2.sent⟩

/-- A judge all of whose submissions are queued can leave. -/
theorem Sound.discard (h : Sound s) (hgone : ∀ id, s.submissionMap id = some judge → (s.nodeMap id).isSome = true) :
    Sound (s.discard judge) := by
  refine h.write rfl rfl rfl (h.judges.filter _) fun id judge' hmap => ?_
  by_cases hsame : judge' = judge
  · exact .inl (hgone id (hsame ▸ hmap))
  · exact (h.assigned id judge' hmap).symm.imp_right fun hlisted =>
      ⟨JudgeList.mem_discard.mpr ⟨hlisted.1, hsame⟩, hlisted.2.working, hlisted.2.sent⟩

/-- What a judge without work is given, or loses, takes nothing from the others. -/
theorem Sound.elsewhere (h : Sound s) (hfree : (s.handlers judge).working = none) {judge' : ℕ}
    (hmap : s.submissionMap id = some judge') :
    (s.nodeMap id).isSome = true ∨ judge' ≠ judge ∧ judge' ∈ s.judges ∧ s.Has judge' id := by
  by_cases hsame : judge' = judge
  · exact .inl (h.queued_of_free hfree (hsame ▸ hmap))
  · exact (h.assigned id judge' hmap).symm.imp_right fun hlisted => ⟨hsame, hlisted⟩

theorem JudgeList.handlers_of_ne {judge' : ℕ} (hne : judge' ≠ judge) :
    ((s.assign id judge).setHandler judge f).handlers judge' = s.handlers judge' := JudgeList.setHandler_of_ne hne

theorem JudgeList.Has.of_ne {judge' id' : ℕ} (hhas : s.Has judge' id') (hne : judge' ≠ judge) :
    ((s.assign id judge).setHandler judge f).Has judge' id' :=
  ⟨by rw [JudgeList.handlers_of_ne hne, hhas.working], by rw [JudgeList.handlers_of_ne hne, hhas.sent]⟩

theorem JudgeList.give_has (s : JudgeList) {judge id : ℕ} :
    ((s.assign id judge).setHandler judge fun j => { j with working := some id, sent := id :: j.sent }).Has judge id := by
  refine ⟨?_, ?_⟩
  · rw [JudgeList.setHandler_self]
  · rw [JudgeList.setHandler_self]
    rfl

/-- A `submit` that reaches a judge without work. -/
theorem Sound.give (h : Sound s) (hlisted : judge ∈ s.judges) (hfree : (s.handlers judge).working = none) :
    Sound ((s.assign id judge).setHandler judge fun j => { j with working := some id, sent := id :: j.sent }) := by
  refine h.write rfl rfl rfl h.judges fun id' judge' hmap => ?_
  by_cases hid : id' = id
  · subst hid
    obtain rfl : judge = judge' := Option.some.inj (JudgeList.assign_self.symm.trans hmap)
    exact .inr ⟨hlisted, s.give_has⟩
  · have hmap' : s.submissionMap id' = some judge' := (JudgeList.assign_of_ne hid).symm.trans hmap
    exact (h.elsewhere hfree hmap').imp_right fun hother => ⟨hother.2.1, hother.2.2.of_ne hother.1⟩

/-- A `submit` of a queued submission that raises: the judge leaves, and the submission stays queued. -/
theorem Sound.fail (h : Sound s) (hfree : (s.handlers judge).working = none) (hqueued : (s.nodeMap id).isSome = true) :
    Sound (((s.assign id judge).setHandler judge f).discard judge) := by
  refine h.write rfl rfl rfl (h.judges.filter _) fun id' judge' hmap => ?_
  by_cases hid : id' = id
  · exact .inl (hid ▸ hqueued)
  · have hmap' : s.submissionMap id' = some judge' := (JudgeList.assign_of_ne hid).symm.trans hmap
    refine (h.elsewhere hfree hmap').imp_right fun hother => ?_
    have hhas : ((s.assign id judge).setHandler judge f).Has judge' id' := hother.2.2.of_ne hother.1
    exact ⟨JudgeList.mem_discard.mpr ⟨hother.2.1, hother.1⟩, hhas.working, hhas.sent⟩

/-- A submission that no judge has, or that the judge it is assigned to has, can leave the queue. -/
theorem Sound.dequeue (h : Sound s) (hkey : s.nodeMap id = some key)
    (hhas : ∀ judge, s.submissionMap id = some judge → judge ∈ s.judges ∧ s.Has judge id) : Sound (s.dequeue key id) := by
  refine ⟨h.queue.dequeue hkey, h.judges, fun id' judge hmap => ?_⟩
  by_cases hid : id' = id
  · subst hid
    exact .inl ⟨(hhas judge hmap).1, (hhas judge hmap).2.working, (hhas judge hmap).2.sent⟩
  · have hnode : (s.dequeue key id).nodeMap id' = s.nodeMap id' := Function.update_of_ne hid _ _
    rw [hnode]
    exact (h.assigned id' judge hmap).imp_left fun hlisted => ⟨hlisted.1, hlisted.2.working, hlisted.2.sent⟩

theorem Sound.enqueue (h : Sound s) (hnone : s.nodeMap r.id = none) : Sound (s.enqueue r priority) := by
  refine ⟨h.queue.enqueue hnone, h.judges, fun id judge hmap => ?_⟩
  by_cases hid : id = r.id
  · subst hid
    have hnode : (s.enqueue r priority).nodeMap r.id = some s.nextKey := Function.update_self _ _ _
    rw [hnode]
    exact .inr rfl
  · have hnode : (s.enqueue r priority).nodeMap id = s.nodeMap id := Function.update_of_ne hid _ _
    rw [hnode]
    exact (h.assigned id judge hmap).imp_left fun hlisted => ⟨hlisted.1, hlisted.2.working, hlisted.2.sent⟩

/-- A judge is free again of the submission it works on. -/
theorem Sound.free (h : Sound s) (hworking : (s.handlers judge).working = some id) :
    Sound ((s.unassign id).setHandler judge fun j => { j with working := none }) := by
  refine h.write rfl rfl rfl h.judges fun id' judge' hmap => ?_
  obtain ⟨hid, hmap⟩ := JudgeList.unassign_some hmap
  refine (h.assigned id' judge' hmap).symm.imp_right fun hlisted => ?_
  obtain ⟨hlisted, hhas⟩ := hlisted
  have hne : judge' ≠ judge := by
    rintro rfl
    exact hid (Option.some.inj (hhas.working.symm.trans hworking))
  exact ⟨hlisted, by rw [JudgeList.setHandler_of_ne hne]; exact hhas.working,
    by rw [JudgeList.setHandler_of_ne hne]; exact hhas.sent⟩

/-! ## Handing a submission to a free judge -/

/-- What is done with one judge leaves the others as they are. -/
structure Others (judge : ℕ) (s s' : JudgeList) : Prop where
  judges : ∀ judge' ≠ judge, judge' ∈ s.judges → judge' ∈ s'.judges
  handlers : ∀ judge' ≠ judge, s'.handlers judge' = s.handlers judge'

theorem Others.refl (judge : ℕ) (s : JudgeList) : Others judge s s := ⟨fun _ _ h => h, fun _ _ => rfl⟩

theorem submit_spec (w : World) (s : JudgeList) (judge : ℕ) (r : Request) :
    Triple (· = s) (submit w judge r)
      (fun _ t => w.submits judge r.id = .sent ∧
        t = s.setHandler judge fun j => { j with working := some r.id, sent := r.id :: j.sent })
      fun _ t => w.submits judge r.id ≠ .sent ∧ ∃ f, t = s.setHandler judge f := by
  unfold submit
  cases hsubmit : w.submits judge r.id with
  | noData =>
      apply Triple.refused
      rintro _ rfl
      exact ⟨by simp, fun j => j, (by simp [JudgeList.setHandler])⟩
  | notSent =>
      refine Triple.bind (Q := fun _ t => t = s.setHandler judge fun j => { j with working := some r.id }) ?_ ?_
      · apply Triple.write
        rintro _ rfl
        rfl
      · intro _
        apply Triple.refused
        intro t ht
        exact ⟨by simp, _, ht⟩
  | sent =>
      apply Triple.write
      rintro _ rfl
      exact ⟨rfl, rfl⟩

/-- The loop over the queue hands the judge one submission at most. -/
theorem takeFrom_spec (h : Sound s) (hlisted : judge ∈ s.judges) (hfree : (s.handlers judge).working = none) :
    ∀ (nodes : List Node) (priority : ℕ), (∀ node ∈ nodes, node ∈ s.queue) →
      Triple (· = s) (takeFrom w judge priority nodes) (fun _ t => Sound t ∧ Others judge s t)
        fun _ t => Sound t ∧ Others judge s t := by
  have hstay : ∀ t, t = s → Sound t ∧ Others judge s t := by
    rintro _ rfl
    exact ⟨h, .refl judge _⟩
  intro nodes
  induction nodes with
  | nil => exact fun _ _ => Triple.ret _ hstay
  | cons node nodes ih =>
      intro priority hnodes
      have hrest : ∀ node ∈ nodes, node ∈ s.queue := fun node hnode => hnodes node (List.mem_cons_of_mem _ hnode)
      cases hvalue : node.value with
      | marker p =>
          simp only [takeFrom, hvalue]
          exact ih (p + 1) hrest
      | request r =>
          simp only [takeFrom, hvalue]
          refine Triple.bind (Q := fun t t' => t = s ∧ t' = s) (Triple.read fun t ht => ⟨ht, ht⟩) fun t => ?_
          apply Triple.assume
          rintro rfl
          refine Triple.ite (fun _ => Triple.ret _ hstay) fun _ => Triple.ite (fun _ => ?_) fun _ => ih priority hrest
          have hholds : node.holds r.id = true := by simp [Node.holds, hvalue]
          have hkey : t.nodeMap r.id = some node.key :=
            (h.queue.nodes r.id node.key).mpr ⟨node, hnodes node List.mem_cons_self, rfl, hholds⟩
          refine Triple.bind (Q := fun _ t' => t' = t.assign r.id judge) (Triple.write fun _ ht => by rw [ht]) fun _ => ?_
          refine Triple.bind (submit_spec w (t.assign r.id judge) judge r).attempt fun dispatched => ?_
          cases dispatched with
          | true =>
              simp only [if_true]
              apply Triple.write
              rintro _ ⟨_, rfl⟩
              refine ⟨(h.give hlisted hfree).dequeue hkey fun judge' hmap => ?_, fun _ _ hin => hin, fun judge' hne => ?_⟩
              swap
              · rw [JudgeList.dequeue_handlers]
                exact JudgeList.handlers_of_ne hne
              obtain rfl : judge = judge' := Option.some.inj (JudgeList.assign_self.symm.trans hmap)
              exact ⟨hlisted, t.give_has⟩
          | false =>
              simp only [Bool.false_eq_true, if_false]
              refine Triple.bind (Q := fun u t' => u = t' ∧ ∃ f, t' = (t.assign r.id judge).setHandler judge f)
                (Triple.read fun t' ht' => ?_) fun u => ?_
              · obtain ⟨_, _, hf⟩ := ht'
                exact ⟨rfl, hf⟩
              · refine Triple.ite (fun _ => ?_) fun hout => ?_
                · apply Triple.write
                  rintro _ ⟨rfl, f, rfl⟩
                  refine ⟨h.fail hfree (by rw [hkey]; rfl), fun judge' hne hin => ?_,
                    fun judge' hne => JudgeList.setHandler_of_ne hne⟩
                  exact JudgeList.mem_discard.mpr ⟨hin, hne⟩
                · -- the judge is listed, so it is not missing now
                  apply Triple.refused
                  rintro _ ⟨rfl, f, rfl⟩
                  exact absurd hlisted hout

/-- `_handle_free_judge`, for a listed judge without work. -/
theorem handleFreeJudge_spec (h : Sound s) (hlisted : judge ∈ s.judges) (hfree : (s.handlers judge).working = none) :
    Triple (· = s) (handleFreeJudge w judge) (fun _ t => Sound t ∧ Others judge s t)
      fun _ t => Sound t ∧ Others judge s t := by
  have hstay : ∀ t, t = s → Sound t ∧ Others judge s t := by
    rintro _ rfl
    exact ⟨h, .refl judge _⟩
  unfold handleFreeJudge
  refine Triple.bind (Q := fun t t' => t = s ∧ t' = s) (Triple.read fun t ht => ⟨ht, ht⟩) fun t => ?_
  apply Triple.assume
  rintro rfl
  split
  · refine Triple.ite (fun _ => Triple.ret _ hstay) fun _ => ?_
    exact takeFrom_spec h hlisted hfree t.queue 0 fun _ hnode => hnode
  · exact Triple.refused _ hstay

theorem handleIfFree_spec (h : Sound s) (hlisted : judge ∈ s.judges) :
    Triple (· = s) (handleIfFree w judge) (fun _ t => Sound t ∧ Others judge s t)
      fun _ t => Sound t ∧ Others judge s t := by
  unfold handleIfFree
  refine Triple.bind (Q := fun t t' => t = s ∧ t' = s) (Triple.read fun t ht => ⟨ht, ht⟩) fun t => ?_
  apply Triple.assume
  rintro rfl
  refine Triple.ite (fun _ => Triple.ret _ ?_) fun hworking => ?_
  · rintro _ rfl
    exact ⟨h, .refl judge _⟩
  · have hfree : (t.handlers judge).working = none := by simpa [JudgeList.working] using hworking
    exact handleFreeJudge_spec h hlisted hfree

/-- What is done with some judges leaves the others as they are. -/
structure AllOthers (handled : List ℕ) (s s' : JudgeList) : Prop where
  judges : ∀ judge ∉ handled, judge ∈ s.judges → judge ∈ s'.judges
  handlers : ∀ judge ∉ handled, s'.handlers judge = s.handlers judge

/-- The loop of `_update_min_tier` over judges that are listed. -/
theorem handleAll_spec : ∀ (judges : List ℕ) {s : JudgeList}, Sound s → judges.Nodup → (∀ judge ∈ judges, judge ∈ s.judges) →
    Triple (· = s) (judges.forM (handleIfFree w)) (fun _ t => Sound t ∧ AllOthers judges s t)
      fun _ t => Sound t := by
  intro judges
  induction judges with
  | nil =>
      intro s h _ _
      apply Triple.ret
      rintro _ rfl
      exact ⟨h, fun _ _ hin => hin, fun _ _ => rfl⟩
  | cons judge judges ih =>
      intro s h hnodup hlisted
      obtain ⟨hout, hnodup⟩ := List.nodup_cons.mp hnodup
      have hfirst := handleIfFree_spec (w := w) h (hlisted judge List.mem_cons_self)
      refine Triple.bind (hfirst.weakenError fun _ _ hend => hend.1) fun _ t ht => ?_
      -- the judges that are left are still listed
      have hlisted' : ∀ judge' ∈ judges, judge' ∈ t.judges := fun judge' hin =>
        ht.2.judges judge' (fun heq => hout (heq ▸ hin)) (hlisted judge' (List.mem_cons_of_mem _ hin))
      refine ((ih ht.1 hnodup hlisted').weaken fun _ t' ht' => ?_) t rfl
      refine ⟨ht'.1, fun judge' hnot hin => ?_, fun judge' hnot => ?_⟩
      · obtain ⟨hne, hnot⟩ := not_or.mp (List.mem_cons.not.mp hnot)
        exact ht'.2.judges judge' hnot (ht.2.judges judge' hne hin)
      · obtain ⟨hne, hnot⟩ := not_or.mp (List.mem_cons.not.mp hnot)
        exact (ht'.2.handlers judge' hnot).trans (ht.2.handlers judge' hne)

/-! ## Calls -/

/-- Computing the lowest tier again raises it, to the tier of the judge. -/
def JudgeList.raisesTo (s : JudgeList) (judge : ℕ) : Bool :=
  match s.minTier, s.lowestTier with
  | some old, some new => old < new && (s.handlers judge).tier = some new && !(s.handlers judge).isDisabled
  | _, _ => false

theorem updateMinTier_spec (h : Sound s) :
    Triple (· = s) (updateMinTier w)
      (fun _ t => Sound t ∧ ∀ judge, s.raisesTo judge = false →
        (judge ∈ s.judges → judge ∈ t.judges) ∧ t.handlers judge = s.handlers judge)
      fun _ t => Sound t := by
  unfold updateMinTier
  refine Triple.bind (Q := fun old t => old = s ∧ t = s) (Triple.read fun t ht => ⟨ht, ht⟩) fun old => ?_
  apply Triple.assume
  rintro rfl
  have hstay : ∀ t, t = { old with minTier := old.lowestTier } → Sound t ∧ ∀ judge, old.raisesTo judge = false →
      (judge ∈ old.judges → judge ∈ t.judges) ∧ t.handlers judge = old.handlers judge := by
    rintro _ rfl
    exact ⟨h.minTier _, fun _ _ => ⟨fun hin => hin, rfl⟩⟩
  refine Triple.bind (Q := fun _ t => t = { old with minTier := old.lowestTier }) (Triple.write fun _ ht => by rw [ht])
    fun _ => ?_
  refine Triple.bind (Q := fun t t' => t = { old with minTier := old.lowestTier } ∧
    t' = { old with minTier := old.lowestTier }) (Triple.read fun t ht => ⟨ht, ht⟩) fun t => ?_
  apply Triple.assume
  rintro rfl
  split
  · rename_i low new hlow hnew
    refine Triple.ite (fun hlt => ?_) fun _ => Triple.ret _ hstay
    have hall := handleAll_spec (w := w) (({ old with minTier := old.lowestTier } : JudgeList).currentTierJudges w)
      (h.minTier _) (JudgeList.currentTierJudges_nodup h.judges) fun judge hin => (JudgeList.mem_currentTierJudges.mp hin).1
    refine hall.weaken fun _ t ht => ⟨ht.1, fun judge hraise => ?_⟩
    have hout : judge ∉ ({ old with minTier := old.lowestTier } : JudgeList).currentTierJudges w := by
      intro hin
      obtain ⟨_, htier, henabled⟩ := JudgeList.mem_currentTierJudges.mp hin
      have hnew' : old.lowestTier = some new := hnew
      have htier' : (old.handlers judge).tier = some new := htier.trans hnew'
      have henabled' : (old.handlers judge).isDisabled = false := henabled
      simp [JudgeList.raisesTo, hlow, hnew', htier', henabled', hlt] at hraise
    exact ⟨fun hin => ht.2.judges judge hout hin, ht.2.handlers judge hout⟩
  · exact Triple.ret _ hstay

theorem updateMinTier_keeps : Keeps Sound (updateMinTier w) fun _ t => Sound t :=
  Triple.each fun _ h => (updateMinTier_spec h).weaken fun _ _ ht => ht.1

/-- `register` of a judge without work, unless computing the lowest tier gives it some. -/
theorem register_spec (h : Sound s) (hfree : (s.handlers judge).working = none)
    (hraise : (s.add judge).raisesTo judge = false) :
    Triple (· = s) (register w judge) (fun _ t => Sound t) fun _ t => Sound t := by
  unfold register
  refine Triple.bind (Q := fun _ t => t = s.add judge) (Triple.write fun _ ht => by rw [ht]) fun _ => ?_
  refine Triple.bind (updateMinTier_spec h.add) fun _ => ?_
  refine Triple.each fun t ht => ?_
  obtain ⟨hlisted, hhandler⟩ := ht.2 judge hraise
  have hfree' : (t.handlers judge).working = none := by
    rw [hhandler]
    exact hfree
  exact ((handleFreeJudge_spec ht.1 (hlisted (JudgeList.mem_add.mpr (.inr rfl))) hfree').weaken fun _ _ hend => hend.1).weakenError
    fun _ _ hend => hend.1

theorem handleIfFree_keeps (h : Sound s) (hlisted : judge ∈ s.judges) :
    Triple (· = s) (handleIfFree w judge) (fun _ t => Sound t) fun _ t => Sound t :=
  ((handleIfFree_spec h hlisted).weaken fun _ _ hend => hend.1).weakenError fun _ _ hend => hend.1

theorem remove_keeps : Keeps Sound (remove w judge) fun _ t => Sound t := by
  unfold remove
  refine Triple.bind (Q := fun _ t => Sound t ∧ ∀ id, t.submissionMap id = some judge → (t.nodeMap id).isSome = true)
    (Triple.write fun s h => ?_) fun _ => ?_
  · split
    · rename_i sub hworking
      refine ⟨h.unassign, fun id hmap => ?_⟩
      obtain ⟨hid, hmap⟩ := JudgeList.unassign_some hmap
      rcases h.assigned id judge hmap with ⟨_, hhas⟩ | hqueued
      · exact absurd (Option.some.inj (hhas.working.symm.trans hworking)) hid
      · exact hqueued
    · rename_i hworking
      exact ⟨h, fun id hmap => h.queued_of_free hworking hmap⟩
  refine Triple.bind (Q := fun _ t => Sound t) (Triple.write fun t ht => ht.1.discard ht.2) fun _ => ?_
  refine Triple.bind updateMinTier_keeps fun _ => ?_
  refine Triple.bind (Q := fun t t' => t = t' ∧ Sound t') (Triple.read fun t ht => ⟨rfl, ht⟩) fun t => ?_
  refine Triple.each fun t' ht => ?_
  obtain ⟨rfl, ht⟩ := ht
  split
  · rename_i last hlast
    have hin : last ∈ t.currentTierJudges w := by simp [hlast]
    exact handleIfFree_keeps ht (JudgeList.mem_currentTierJudges.mp hin).1
  · apply Triple.ret
    rintro _ rfl
    exact ht

theorem updateDisableJudge_keeps {judgeId : String} {isDisabled : Bool} :
    Keeps Sound (updateDisableJudge w judgeId isDisabled) fun _ t => Sound t := by
  unfold updateDisableJudge
  refine Triple.bind (Q := fun _ t => Sound t) (Triple.write fun s h => ?_) fun _ => updateMinTier_keeps
  refine h.write rfl rfl rfl h.judges fun id judge hmap => (h.assigned id judge hmap).symm.imp_right fun hlisted => ?_
  refine ⟨hlisted.1, ?_, ?_⟩
  · dsimp only
    split
    · exact hlisted.2.working
    · exact hlisted.2.working
  · dsimp only
    split
    · exact hlisted.2.sent
    · exact hlisted.2.sent

/-- `on_judge_free` of a listed judge, for the submission it works on. -/
theorem onJudgeFree_spec (h : Sound s)
    (hreport : s.submissionMap id = none ∨ judge ∈ s.judges ∧ (s.handlers judge).working = some id) :
    Triple (· = s) (onJudgeFree w judge id) (fun _ t => Sound t) fun _ t => Sound t := by
  unfold onJudgeFree
  refine Triple.bind (Q := fun t t' => t = s ∧ t' = s) (Triple.read fun t ht => ⟨ht, ht⟩) fun t => ?_
  apply Triple.assume
  rintro rfl
  refine Triple.ite (fun _ => Triple.refused _ ?_) fun hmap => ?_
  · rintro _ rfl
    exact h
  · obtain ⟨hlisted, hworking⟩ := hreport.resolve_left hmap
    refine Triple.bind (Q := fun _ t' => t' = t.unassign id) (Triple.write fun _ ht => by rw [ht]) fun _ => ?_
    refine Triple.bind (Q := fun _ t' => t' = (t.unassign id).setHandler judge fun j => { j with working := none })
      (Triple.write fun _ ht => by rw [ht]) fun _ => ?_
    have hfree : (((t.unassign id).setHandler judge fun j => { j with working := none }).handlers judge).working = none := by
      rw [JudgeList.setHandler_self]
    have hend := handleFreeJudge_spec (w := w) (h.free hworking) hlisted hfree
    exact (hend.weaken fun _ _ ht => ht.1).weakenError fun _ _ ht => ht.1

theorem abort_keeps : Keeps Sound (abort w id) fun _ t => Sound t := by
  refine Triple.each fun s h => ?_
  have hstay : ∀ t, t = s → Sound t := by
    rintro _ rfl
    exact h
  unfold abort
  refine Triple.bind (Q := fun t t' => t = s ∧ t' = s) (Triple.read fun t ht => ⟨ht, ht⟩) fun t => ?_
  apply Triple.assume
  rintro rfl
  split
  · exact Triple.ite (fun _ => Triple.ret _ hstay) fun _ => Triple.refused _ hstay
  · rename_i hmap
    split
    · rename_i key hkey
      refine Triple.bind (Q := fun _ t => Sound t) (Triple.write ?_) fun _ => Triple.ret _ fun _ ht => ht
      rintro _ rfl
      exact h.dequeue hkey fun judge hmap' => absurd (hmap.symm.trans hmap') (by simp)
    · exact Triple.ret _ hstay

/-- The judge that is picked is listed and works on nothing. -/
theorem JudgeList.pick_spec (h : s.pick w r priority = some judge) :
    judge ∈ s.judges ∧ (s.handlers judge).working = none := by
  unfold JudgeList.pick at h
  dsimp only at h
  split at h
  · exact absurd h (by simp)
  · have hin := List.argmin_mem h
    simp only [List.mem_filter, Bool.and_eq_true, Bool.not_eq_true'] at hin
    refine ⟨(JudgeList.mem_currentTierJudges.mp hin.1.1).1, ?_⟩
    simpa [JudgeList.working] using hin.2.1

/-- A submission the list knows is ignored. -/
theorem judge_known (hknown : s.knows r.id = true) (depth : ℕ) :
    Triple (· = s) (JudgeList.judge w r priority (depth + 1)) (fun _ t => t = s) fun _ _ => False := by
  unfold JudgeList.judge
  refine Triple.bind (Q := fun t t' => t = s ∧ t' = s) (Triple.read fun t ht => ⟨ht, ht⟩) fun t => ?_
  apply Triple.assume
  rintro rfl
  exact Triple.ite (fun _ => Triple.ret _ fun _ ht => ht) fun hnot => absurd hknown hnot

theorem JudgeList.knows_assign : (s.assign id judge).knows id = true := by
  unfold JudgeList.knows
  rw [JudgeList.assign_self]
  rfl

/-- The recursion ends at its second call, whatever the judges do: the submission is known by then. So the depth it is
given is never used up. -/
theorem judge_depth (depth : ℕ) :
    Triple (fun _ => True) (JudgeList.judge w r priority (depth + 2)) (fun _ t => t.knows r.id = true)
      fun e _ => e = .index ∧ JudgeList.checkPriority priority = false := by
  refine Triple.each fun s _ => ?_
  unfold JudgeList.judge
  refine Triple.bind (Q := fun t t' => t = s ∧ t' = s) (Triple.read fun t ht => ⟨ht, ht⟩) fun t => ?_
  apply Triple.assume
  rintro rfl
  refine Triple.ite (fun hknown => Triple.ret _ ?_) fun _ => ?_
  · rintro _ rfl
    exact hknown
  · split
    · rename_i judge _
      refine Triple.bind (Q := fun _ t' => t' = t.assign r.id judge) (Triple.write fun _ ht => by rw [ht]) fun _ => ?_
      refine Triple.bind (submit_spec w (t.assign r.id judge) judge r).attempt fun dispatched => ?_
      cases dispatched with
      | true =>
          simp only [if_true]
          apply Triple.ret
          rintro _ ⟨_, rfl⟩
          exact t.knows_assign
      | false =>
          simp only [Bool.false_eq_true, if_false]
          refine Triple.bind (Q := fun _ t' => t'.knows r.id = true) (Triple.write ?_) fun _ => ?_
          · rintro _ ⟨_, _, f, rfl⟩
            exact t.knows_assign
          · refine Triple.each fun t' hknown => ((judge_known hknown depth).weaken ?_).weakenError ?_
            · rintro _ _ rfl
              exact hknown
            · exact fun _ _ hno => hno.elim
    · refine Triple.ite (fun _ => Triple.write ?_) fun hpriority =>
        Triple.refused _ fun _ _ => ⟨rfl, Bool.eq_false_iff.mpr hpriority⟩
      intro u hu
      have hmap : (u.enqueue r priority).nodeMap r.id = some u.nextKey := Function.update_self _ _ _
      simp [JudgeList.knows, hmap]

/-- `judge`, when the judge it picks is reached. -/
theorem judge_spec (h : Sound s)
    (hsent : s.knows r.id = true ∨ ∀ judge, s.pick w r priority = some judge → w.submits judge r.id = .sent) (depth : ℕ) :
    Triple (· = s) (JudgeList.judge w r priority (depth + 1)) (fun _ t => Sound t) fun _ t => Sound t := by
  have hstay : ∀ t, t = s → Sound t := by
    rintro _ rfl
    exact h
  unfold JudgeList.judge
  refine Triple.bind (Q := fun t t' => t = s ∧ t' = s) (Triple.read fun t ht => ⟨ht, ht⟩) fun t => ?_
  apply Triple.assume
  rintro rfl
  refine Triple.ite (fun _ => Triple.ret _ hstay) fun hknown => ?_
  have hnone : t.nodeMap r.id = none := by
    cases hnode : t.nodeMap r.id with
    | none => rfl
    | some key => exact absurd (by simp [JudgeList.knows, hnode]) hknown
  split
  · rename_i judge hpick
    obtain ⟨hlisted, hfree⟩ := JudgeList.pick_spec hpick
    have hreached := hsent.resolve_left hknown judge hpick
    refine Triple.bind (Q := fun _ t' => t' = t.assign r.id judge) (Triple.write fun _ ht => by rw [ht]) fun _ => ?_
    refine Triple.bind (submit_spec w (t.assign r.id judge) judge r).attempt fun dispatched => ?_
    cases dispatched with
    | true =>
        simp only [if_true]
        apply Triple.ret
        rintro _ ⟨_, rfl⟩
        exact h.give hlisted hfree
    | false =>
        simp only [Bool.false_eq_true, if_false]
        intro t' ht'
        obtain ⟨_, hnot, _⟩ := ht'
        exact absurd hreached hnot
  · refine Triple.ite (fun _ => Triple.write ?_) fun _ => Triple.refused _ hstay
    rintro _ rfl
    exact h.enqueue hnone

/-! ## Histories -/

/-- What keeps submissions from being lost. The judge a `judge` picks is reached, and the priority is one; a judge that
is registered has no work and gets none while the lowest tier is computed; a judge that asks for work is listed and has
none; a judge that reports is listed and works on what it reports, or nobody has it. -/
def JudgeList.Allows (s : JudgeList) (w : World) : Call → Prop
  | .register judge => (s.handlers judge).working = none ∧ (s.add judge).raisesTo judge = false
  | .updateProblems judge => judge ∈ s.judges ∧ (s.handlers judge).working = none
  | .onJudgeFree judge submission =>
      s.submissionMap submission = none ∨ judge ∈ s.judges ∧ (s.handlers judge).working = some submission
  | .judge r priority =>
      JudgeList.checkPriority priority = true ∧
        (s.knows r.id = true ∨ ∀ judge ∈ s.pick w r priority, w.submits judge r.id = .sent)
  | _ => True

instance (s : JudgeList) (w : World) : (call : Call) → Decidable (s.Allows w call)
  | .register _ => inferInstanceAs (Decidable (_ ∧ _))
  | .updateProblems _ => inferInstanceAs (Decidable (_ ∧ _))
  | .onJudgeFree _ _ => inferInstanceAs (Decidable (_ ∨ _))
  | .judge _ _ => inferInstanceAs (Decidable (_ ∧ _))
  | .remove _ | .updateDisableJudge _ _ | .abort _ | .handshake .. | .connected _ _ | .supportedProblems _ _
  | .pingResponse _ _ => inferInstanceAs (Decidable True)

/-- Every call of a history is allowed where it happens. -/
def Regular : JudgeList → List (World × Call) → Prop
  | _, [] => True
  | s, call :: calls => s.Allows call.1 call.2 ∧ Regular (s.after call.1 call.2) calls

instance decidableRegular : (s : JudgeList) → (calls : List (World × Call)) → Decidable (Regular s calls)
  | _, [] => inferInstanceAs (Decidable True)
  | s, call :: calls =>
      have := decidableRegular (s.after call.1 call.2) calls
      inferInstanceAs (Decidable (_ ∧ _))

/-- One call keeps the list sound, where it is allowed. -/
theorem Sound.after (h : Sound s) {call : Call} (hallows : s.Allows w call) : Sound (s.after w call) := by
  suffices hcall : Triple (· = s) (perform w call) (fun _ t => Sound t) fun _ t => Sound t from hcall.endOf rfl
  have hwrite : ∀ {judge : ℕ} {f : JudgeHandler → JudgeHandler}, (∀ j, (f j).working = j.working ∧ (f j).sent = j.sent) →
      Triple (· = s) (modify (·.setHandler judge f) : M Unit) (fun _ t => Sound t) fun _ t => Sound t := by
    intro judge f hkeeps
    apply Triple.write
    rintro _ rfl
    exact h.setHandler (hkeeps _).1 (hkeeps _).2
  cases call with
  | register judge => exact register_spec h hallows.1 hallows.2
  | remove judge => exact remove_keeps.of_pre fun _ ht => ht ▸ h
  | updateProblems judge =>
      have hend := handleFreeJudge_spec (w := w) h hallows.1 hallows.2
      exact (hend.weaken fun _ _ ht => ht.1).weakenError fun _ _ ht => ht.1
  | updateDisableJudge judgeId isDisabled => exact updateDisableJudge_keeps.of_pre fun _ ht => ht ▸ h
  | onJudgeFree judge submission => exact onJudgeFree_spec h hallows
  | abort submission =>
      exact Triple.bind (abort_keeps.of_pre fun _ ht => ht ▸ h) fun _ => Triple.ret _ fun _ ht => ht
  | judge r priority =>
      refine Triple.bind (Q := fun t t' => t = s ∧ t' = s) (Triple.read fun t ht => ⟨ht, ht⟩) fun t => ?_
      apply Triple.assume
      rintro rfl
      exact judge_spec h hallows.2 _
  | handshake => exact hwrite fun _ => ⟨rfl, rfl⟩
  | connected => exact hwrite fun _ => ⟨rfl, rfl⟩
  | supportedProblems => exact hwrite fun _ => ⟨rfl, rfl⟩
  | pingResponse => exact hwrite fun _ => ⟨rfl, rfl⟩

theorem Sound.afterAll (h : Sound s) {calls : List (World × Call)} (hregular : Regular s calls) :
    Sound (s.afterAll calls) := by
  induction calls generalizing s with
  | nil => exact h
  | cons call calls ih =>
      obtain ⟨hallows, hregular⟩ := hregular
      exact ih (h.after hallows) hregular

theorem sound_start : Sound {} := by
  refine ⟨⟨by decide, by decide, ?_⟩, List.nodup_nil, fun id judge hmap => absurd hmap (by simp)⟩
  intro id key
  constructor
  · intro hmap
    exact absurd hmap (by simp)
  · rintro ⟨node, hnode, _, hholds⟩
    obtain ⟨p, _, rfl⟩ := List.mem_map.mp hnode
    exact absurd hholds (by simp [Node.holds])

/-- A call of `judge` with a valid priority leaves a submission the list knows. -/
theorem knows_after_judge (hpriority : JudgeList.checkPriority priority = true) :
    (s.after w (.judge r priority)).knows r.id = true := by
  have hdepth : Triple (fun _ => True) (JudgeList.judge w r priority (s.judges.length + 2)) (fun _ t => t.knows r.id = true)
      fun e _ => e = .index ∧ JudgeList.checkPriority priority = false := judge_depth s.judges.length
  have hcall : Triple (· = s) (perform w (.judge r priority)) (fun _ t => t.knows r.id = true)
      fun _ t => t.knows r.id = true := by
    refine Triple.bind (Q := fun t t' => t = s ∧ t' = s) (Triple.read fun t ht => ⟨ht, ht⟩) fun t => ?_
    apply Triple.assume
    rintro rfl
    refine (hdepth.weakenError fun _ _ hend => ?_).of_pre fun _ _ => trivial
    exact absurd hpriority (by simp [hend.2])
  exact hcall.endOf rfl

/-- After a call of `judge` the submission is in the queue once, or a listed judge got it; and the call is not ignored
if neither was so before. -/
theorem no_lost_submission (calls : List (World × Call)) (hregular : Regular {} calls) (w : World) (r : Request)
    (priority : ℕ) (hallows : (JudgeList.afterAll {} calls).Allows w (.judge r priority)) :
    (((JudgeList.afterAll {} calls).after w (.judge r priority)).Queued r.id ∨
      ((JudgeList.afterAll {} calls).after w (.judge r priority)).Assigned r.id) ∧
    (¬ (JudgeList.afterAll {} calls).Queued r.id → ¬ (JudgeList.afterAll {} calls).Assigned r.id →
      (JudgeList.afterAll {} calls).knows r.id = false) := by
  have hsound : Sound (JudgeList.afterAll {} calls) := sound_start.afterAll hregular
  refine ⟨(hsound.after hallows).tracked (knows_after_judge hallows.1), fun hqueued hassigned => ?_⟩
  rw [Bool.eq_false_iff]
  intro hknown
  rcases hsound.tracked hknown with hin | hin
  · exact hqueued hin
  · exact hassigned hin

/-- Every judge is reached, or none is. -/
def calm : World := {}
def unreachable : World := { submits := fun _ _ => .notSent }

/-- A submission for any judge. -/
def aplusb (id : ℕ) : Request := { id, problem := "aplusb", language := "PY3", source := "", judgeId := none }

/-- A judge of the first tier connects. -/
def connects (judge : ℕ) (name : String) : List (World × Call) :=
  [(calm, .handshake judge name 1 ["aplusb"] ["PY3"]), (calm, .register judge)]

/-- The only judge fails on a queued submission and is dropped; another one connects and takes it, and a third submission
waits for it. -/
def dropped : List (World × Call) :=
  [(calm, .judge (aplusb 5) 1), (calm, .judge (aplusb 6) 1), (calm, .handshake 1 "one" 1 ["aplusb"] ["PY3"]),
    (unreachable, .register 1)] ++ connects 2 "two" ++ [(calm, .remove 1)]

theorem no_lost_submission_dropped :
    (((JudgeList.afterAll {} dropped).after calm (.judge (aplusb 7) 1)).Queued 7 ∨
      ((JudgeList.afterAll {} dropped).after calm (.judge (aplusb 7) 1)).Assigned 7) ∧
    (¬ (JudgeList.afterAll {} dropped).Queued 7 → ¬ (JudgeList.afterAll {} dropped).Assigned 7 →
      (JudgeList.afterAll {} dropped).knows 7 = false) :=
  no_lost_submission dropped (by decide +kernel) calm (aplusb 7) 1 (by decide +kernel)

/-- The only judge cannot be reached. -/
def unreached : List (World × Call) :=
  connects 1 "one" ++ [(unreachable, .judge (aplusb 5) 1)]

/-- The judge disconnects, another one connects, and the submission is sent again. -/
def retried : List (World × Call) := unreached ++ connects 2 "two" ++ [(calm, .judge (aplusb 5) 1)]

/-- The submission is neither queued nor assigned to a listed judge, and sending it again is ignored. -/
theorem lost_submission :
    (¬ (JudgeList.afterAll {} unreached).Queued 5 ∧ ¬ (JudgeList.afterAll {} unreached).Assigned 5) ∧
      ¬ (JudgeList.afterAll {} retried).Queued 5 ∧ ¬ (JudgeList.afterAll {} retried).Assigned 5 := by
  have hlost : ∀ s : JudgeList, s.queue.countP (·.holds 5) = 0 → s.submissionMap 5 = some 1 → 1 ∉ s.judges →
      ¬ s.Queued 5 ∧ ¬ s.Assigned 5 := by
    intro s hqueue hmap hout
    refine ⟨fun hqueued => ?_, ?_⟩
    · exact absurd (hqueue.symm.trans hqueued) (by decide)
    · rintro ⟨judge, hjudge, hlisted, _⟩
      obtain rfl : 1 = judge := Option.some.inj (hmap.symm.trans hjudge)
      exact hout hlisted
  exact ⟨hlost _ (by decide +kernel) (by decide +kernel) (by decide +kernel),
    hlost _ (by decide +kernel) (by decide +kernel) (by decide +kernel)⟩

end Bridge
end CpcJudge
