import CpcJudge.Lib.Table
import CpcJudge.Lib.Text

/-!
# `Comments.Votes` — votes of comments

A vote is inserted, or found and deleted under a lock of its table, and the score of its comment is adjusted by a
statement of its own, after it. So the score lags behind the votes while a request is between the two: what it still
owes (`Stage.owed`) is part of the balance that every statement keeps (`World.due_act`).

A statement of a request is one step (`VoteRequest.next`), and so is what it does while it holds the lock.
-/

namespace CpcJudge
namespace Comments

/-- `Comment`, as far as a vote reads and writes it. -/
structure Comment where
  id : ℕ
  author : ℕ
  hidden : Bool := false
  score : ℤ := 0
  deriving DecidableEq, Repr

instance : Keyed Comment := ⟨Comment.id⟩

structure CommentVote where
  comment : ℕ
  voter : ℕ
  score : ℤ
  deriving DecidableEq, Repr

/-- The two tables. A vote is of a comment there is, and it is the only one of its voter. -/
structure Db where
  comments : Table Comment
  votes : List CommentVote
  references : ∀ v ∈ votes, (comments.get? v.comment).isSome
  unique : votes.Pairwise fun v w => (v.comment, v.voter) ≠ (w.comment, w.voter)

/-- The profile a request comes from. -/
structure Voter where
  id : ℕ
  isStaff : Bool := false
  hasAnySolves : Bool := true
  mute : Bool := false
  deriving DecidableEq, Repr

/-- A request of `vote_comment`: `upvote_comment` and `downvote_comment` give it a `delta` of 1 and -1. -/
structure VoteRequest where
  user : Option Voter
  delta : ℤ
  isPost : Bool := true
  id : Option Text
  deriving DecidableEq

/-- `HttpResponse`. -/
structure Response where
  status : ℕ
  content : String := ""
  deriving DecidableEq, Repr

def redirectToLogin : Response := ⟨302, ""⟩
def badRequest (content : String) : Response := ⟨400, content⟩
def forbidden : Response := ⟨403, ""⟩
def notFound (content : String) : Response := ⟨404, content⟩
def success : Response := ⟨200, "success"⟩

/-- The statement a request comes to next. -/
inductive Stage where
  -- the checks, and `Comment.objects.filter(id=comment_id, hidden=False).first()`
  | received
  -- `vote.save()`
  | saving (comment voter : ℕ)
  -- `with LockModel(write=(CommentVote,))`
  | refused (comment voter : ℕ)
  -- `Comment.objects.filter(id=comment_id).update(...)`
  | saved (comment : ℕ)
  | withdrawn (comment : ℕ) (score : ℤ)
  | answered (response : Response)
  deriving DecidableEq

/-! ## The statements -/

namespace Db

def comment? (db : Db) (id : ℤ) : Option Comment :=
  if 0 ≤ id then (db.comments.get? id.toNat).filter (! ·.hidden) else none

def vote? (db : Db) (comment voter : ℕ) : Option CommentVote :=
  db.votes.find? fun v => v.comment = comment && v.voter = voter

/-- The row can be inserted: there is a comment, and no vote of the same voter. -/
def Admits (db : Db) (v : CommentVote) : Prop :=
  (db.comments.get? v.comment).isSome ∧ db.vote? v.comment v.voter = none

instance (db : Db) (v : CommentVote) : Decidable (db.Admits v) := inferInstanceAs (Decidable (_ ∧ _))

theorem vote?_eq_none {db : Db} {comment voter : ℕ} :
    db.vote? comment voter = none ↔ ∀ v ∈ db.votes, (v.comment, v.voter) ≠ (comment, voter) := by
  simp [vote?, List.find?_eq_none]

theorem vote?_eq_some {db : Db} {comment voter : ℕ} {v : CommentVote} (h : db.vote? comment voter = some v) :
    v ∈ db.votes ∧ v.comment = comment ∧ v.voter = voter :=
  ⟨List.mem_of_find?_eq_some h, by simpa using List.find?_some h⟩

def insert (db : Db) (v : CommentVote) (h : db.Admits v) : Db where
  comments := db.comments
  votes := db.votes ++ [v]
  references := by
    intro w hw
    rcases List.mem_append.mp hw with hw | hw
    · exact db.references w hw
    · rw [List.mem_singleton.mp hw]
      exact h.1
  unique := by
    refine List.pairwise_append.mpr ⟨db.unique, List.pairwise_singleton _ _, fun w hw x hx => ?_⟩
    rw [List.mem_singleton.mp hx]
    exact vote?_eq_none.mp h.2 w hw

def delete (db : Db) (v : CommentVote) : Db where
  comments := db.comments
  votes := db.votes.erase v
  references := fun w hw => db.references w (List.mem_of_mem_erase hw)
  unique := db.unique.sublist List.erase_sublist

/-- `Comment.objects.filter(id=comment).update(score=F('score') + delta)`. -/
def addScore (db : Db) (comment : ℕ) (delta : ℤ) : Db where
  comments := db.comments.modify (·.id = comment) (fun c => { c with score := c.score + delta }) fun _ => rfl
  votes := db.votes
  references := by
    intro v hv
    rw [Table.get?_modify, Option.isSome_map]
    exact db.references v hv
  unique := db.unique

/-- A comment is deleted, and its votes with it. -/
def deleteComment (db : Db) (comment : ℕ) : Db where
  comments := db.comments.filter (·.id ≠ comment)
  votes := db.votes.filter (·.comment ≠ comment)
  references := by
    intro v hv
    obtain ⟨hv, hother⟩ := List.mem_filter.mp hv
    obtain ⟨c, hc⟩ := Option.isSome_iff_exists.mp (db.references v hv)
    have hkept : decide (c.id ≠ comment) = true := by
      rw [show c.id = v.comment from Table.key_of_get? hc]
      exact hother
    rw [Table.get?_filter_of_pos hc hkept]
    rfl
  unique := db.unique.sublist List.filter_sublist

end Db

/-- What `vote_comment` checks before it looks the comment up: the voter, and the number of the comment. -/
def VoteRequest.check (r : VoteRequest) : Except Response (Voter × ℤ) := do
  let some voter := r.user | throw redirectToLogin
  if |r.delta| ≠ 1 then throw (badRequest "Messing around, are we?")
  if !r.isPost then throw forbidden
  let some text := r.id | throw (badRequest "")
  if 10 < text.length then throw (badRequest "")
  if !voter.isStaff && !voter.hasAnySolves then
    throw (badRequest "You must solve at least one problem before you can vote.")
  if voter.mute then throw (badRequest "Your part is silent, little toad.")
  let some id := Text.readInt? text | throw (badRequest "")
  return (voter, id)

/-- The next statement of a request, and where it leads. -/
def VoteRequest.next (r : VoteRequest) (db : Db) : Stage → Db × Stage
  | .received =>
      match r.check with
      | .error response => (db, .answered response)
      | .ok (voter, id) =>
          match db.comment? id with
          | none => (db, .answered (notFound "Comment not found."))
          | some comment =>
              if comment.author = voter.id then
                (db, .answered (badRequest "You cannot vote on your own comments."))
              else (db, .saving comment.id voter.id)
  | .saving comment voter =>
      if h : db.Admits ⟨comment, voter, r.delta⟩ then (db.insert _ h, .saved comment)
      else (db, .refused comment voter)
  | .refused comment voter =>
      match db.vote? comment voter with
      | none => (db, .saving comment voter)
      | some vote =>
          if -vote.score ≠ r.delta then (db, .answered (badRequest "You already voted."))
          else (db.delete vote, .withdrawn comment vote.score)
  | .saved comment => (db.addScore comment r.delta, .answered success)
  | .withdrawn comment score => (db.addScore comment (-score), .answered success)
  | .answered response => (db, .answered response)

/-! ## Requests at the same time -/

/-- A request and how far it has come. -/
structure Running where
  request : VoteRequest
  stage : Stage := .received
  deriving DecidableEq

structure World where
  db : Db
  requests : List Running := []

/-- What happens next: a request arrives, or one runs its next statement. -/
inductive Act where
  | arrive (request : VoteRequest)
  | proceed (request : ℕ)

def World.act (w : World) : Act → World
  | .arrive request => { w with requests := w.requests ++ [{ request }] }
  | .proceed i =>
      match w.requests[i]? with
      | none => w
      | some r =>
          let (db, stage) := r.request.next w.db r.stage
          { db, requests := w.requests.set i { r with stage } }

def World.run (w : World) (acts : List Act) : World := acts.foldl World.act w

/-- No request is in progress. -/
def World.Idle (w : World) : Prop := ∀ r ∈ w.requests, ∃ response, r.stage = .answered response

/-! ## What a request owes -/

/-- What a request has still to add to the score of a comment. -/
def Running.owed (r : Running) (comment : ℕ) : ℤ :=
  match r.stage with
  | .saved c => if c = comment then r.request.delta else 0
  | .withdrawn c score => if c = comment then -score else 0
  | _ => 0

/-- The score of a comment, and the sum of its votes. -/
def Db.score (db : Db) (comment : ℕ) : ℤ := ((db.comments.get? comment).map (·.score)).getD 0

def Db.tally (db : Db) (comment : ℕ) : ℤ := ((db.votes.filter (·.comment = comment)).map (·.score)).sum

def World.owed (w : World) (comment : ℕ) : ℤ := (w.requests.map (·.owed comment)).sum

/-- The score of a comment, with what is owed to it, over its votes. -/
def World.balance (w : World) (comment : ℕ) : ℤ := w.db.score comment + w.owed comment - w.db.tally comment

section
variable {db : Db} {r : VoteRequest} {w : World} {comment : ℕ} {vote : CommentVote}

@[simp] theorem Db.score_insert (h : db.Admits vote) : (db.insert vote h).score comment = db.score comment := rfl

@[simp] theorem Db.score_delete : (db.delete vote).score comment = db.score comment := rfl

@[simp] theorem Db.tally_addScore {c : ℕ} {delta : ℤ} : (db.addScore c delta).tally comment = db.tally comment := rfl

@[simp] theorem Db.votes_addScore {c : ℕ} {delta : ℤ} : (db.addScore c delta).votes = db.votes := rfl

theorem Db.tally_insert (h : db.Admits vote) :
    (db.insert vote h).tally comment = db.tally comment + if vote.comment = comment then vote.score else 0 := by
  rw [Db.tally, Db.insert, List.filter_append, List.map_append, List.sum_append, ← Db.tally]
  by_cases hc : vote.comment = comment <;> simp [hc]

theorem Db.tally_delete (h : vote ∈ db.votes) :
    (db.delete vote).tally comment = db.tally comment - if vote.comment = comment then vote.score else 0 := by
  have hperm : (vote :: db.votes.erase vote).Perm db.votes := (List.perm_cons_erase h).symm
  have hsum := ((hperm.filter (·.comment = comment)).map (·.score)).sum_eq
  rw [Db.tally, Db.tally, Db.delete, ← hsum]
  by_cases hc : vote.comment = comment <;> simp [hc]

theorem Db.score_addScore {c : ℕ} {delta : ℤ} (h : (db.comments.get? comment).isSome) :
    (db.addScore c delta).score comment = db.score comment + if c = comment then delta else 0 := by
  obtain ⟨a, ha⟩ := Option.isSome_iff_exists.mp h
  have hid : a.id = comment := Table.key_of_get? ha
  simp only [Db.score, Db.addScore, Table.get?_modify, ha, Option.map_some, Option.getD_some, hid, decide_eq_true_eq]
  by_cases hc : comment = c
  · rw [if_pos hc, if_pos hc.symm]
  · rw [if_neg hc, if_neg (Ne.symm hc), add_zero]

/-! ## A statement -/

/-- A statement leaves the comments that there are. -/
theorem VoteRequest.next_comments (r : VoteRequest) (db : Db) (stage : Stage) (comment : ℕ) :
    ((r.next db stage).1.comments.get? comment).isSome = (db.comments.get? comment).isSome := by
  cases stage with
  | received =>
      simp only [VoteRequest.next]
      split
      · rfl
      · split
        · rfl
        · split <;> rfl
  | saving c voter =>
      simp only [VoteRequest.next]
      split <;> rfl
  | refused c voter =>
      simp only [VoteRequest.next]
      split
      · rfl
      · split <;> rfl
  | saved c => simp [VoteRequest.next, Db.addScore, Table.get?_modify]
  | withdrawn c score => simp [VoteRequest.next, Db.addScore, Table.get?_modify]
  | answered response => rfl

/-- A statement keeps the balance of every comment. -/
theorem VoteRequest.next_balance (r : VoteRequest) (db : Db) (stage : Stage)
    (h : (db.comments.get? comment).isSome) :
    (r.next db stage).1.score comment + (Running.mk r (r.next db stage).2).owed comment -
        (r.next db stage).1.tally comment =
      db.score comment + (Running.mk r stage).owed comment - db.tally comment := by
  cases stage with
  | received =>
      simp only [VoteRequest.next]
      split
      · rfl
      · split
        · rfl
        · split <;> rfl
  | saving c voter =>
      simp only [VoteRequest.next]
      split
      · rename_i hadmits
        simp only [Db.score_insert, Db.tally_insert, Running.owed]
        ring
      · rfl
  | refused c voter =>
      simp only [VoteRequest.next]
      split
      · rfl
      · rename_i vote hvote
        obtain ⟨hmem, hcomment, _⟩ := Db.vote?_eq_some hvote
        split
        · rfl
        · rw [Db.score_delete, Db.tally_delete hmem, hcomment]
          simp only [Running.owed]
          split <;> ring
  | saved c =>
      simp only [VoteRequest.next, Db.score_addScore h, Db.tally_addScore, Running.owed]
      ring
  | withdrawn c score =>
      simp only [VoteRequest.next, Db.score_addScore h, Db.tally_addScore, Running.owed]
      ring
  | answered response => rfl

/-! ## A run -/

theorem World.due_act (w : World) (act : Act) (h : (w.db.comments.get? comment).isSome) :
    ((w.act act).db.comments.get? comment).isSome ∧ (w.act act).balance comment = w.balance comment := by
  cases act with
  | arrive request =>
      refine ⟨h, ?_⟩
      simp [World.act, World.balance, World.owed, Running.owed]
  | proceed i =>
      simp only [World.act]
      split
      · exact ⟨h, rfl⟩
      · rename_i r hr
        obtain ⟨hlt, hget⟩ := List.getElem?_eq_some_iff.mp hr
        refine ⟨(r.request.next_comments w.db r.stage comment).trans h, ?_⟩
        have hnext := r.request.next_balance w.db r.stage h
        have howed := List.sum_set' (w.requests.map (·.owed comment)) i
          ((Running.mk r.request (r.request.next w.db r.stage).2).owed comment)
        rw [← List.map_set, dif_pos (by simpa using hlt), List.getElem_map, hget] at howed
        simp only [World.balance, World.owed] at howed ⊢
        rw [howed]
        linarith only [hnext]

theorem World.due_run (w : World) (acts : List Act) (h : (w.db.comments.get? comment).isSome) :
    (w.run acts).balance comment = w.balance comment := by
  induction acts generalizing w with
  | nil => rfl
  | cons act acts ih =>
      obtain ⟨hthere, hbalance⟩ := w.due_act act h
      exact (ih (w.act act) hthere).trans hbalance

theorem World.Idle.owed (h : w.Idle) : w.owed comment = 0 := by
  refine List.sum_eq_zero fun x hx => ?_
  obtain ⟨r, hr, rfl⟩ := List.mem_map.mp hx
  obtain ⟨response, hanswered⟩ := h r hr
  rw [Running.owed, hanswered]

/-- Every vote counts one, and so does what a request is about to save. -/
structure World.Unit (w : World) : Prop where
  votes : ∀ v ∈ w.db.votes, v.score = 1 ∨ v.score = -1
  requests : ∀ r ∈ w.requests, ∀ comment voter,
    r.stage = .saving comment voter ∨ r.stage = .refused comment voter → r.request.delta = 1 ∨ r.request.delta = -1

/-- A request that passes the checks is an upvote or a downvote. -/
theorem VoteRequest.check_delta {voter : Voter} {id : ℤ} (h : r.check = .ok (voter, id)) :
    r.delta = 1 ∨ r.delta = -1 := by
  have habs : |r.delta| = 1 := by
    by_contra hne
    cases huser : r.user with
    | none => simp [VoteRequest.check, huser] at h
    | some user =>
        simp only [VoteRequest.check, huser, ne_eq, hne, not_false_eq_true, if_true] at h
        cases h
  exact (abs_eq zero_le_one).mp habs

/-- A statement of a request counts one if what it saves does. -/
theorem VoteRequest.next_unit {stage : Stage} (hvotes : ∀ v ∈ db.votes, v.score = 1 ∨ v.score = -1)
    (hsaves : ∀ comment voter, stage = .saving comment voter ∨ stage = .refused comment voter →
      r.delta = 1 ∨ r.delta = -1) :
    (∀ v ∈ (r.next db stage).1.votes, v.score = 1 ∨ v.score = -1) ∧
      ∀ comment voter, (r.next db stage).2 = .saving comment voter ∨ (r.next db stage).2 = .refused comment voter →
        r.delta = 1 ∨ r.delta = -1 := by
  cases stage with
  | received =>
      simp only [VoteRequest.next]
      split
      · exact ⟨hvotes, fun _ _ h => by simp at h⟩
      · rename_i voter id hcheck
        split
        · exact ⟨hvotes, fun _ _ h => by simp at h⟩
        · split
          · exact ⟨hvotes, fun _ _ h => by simp at h⟩
          · exact ⟨hvotes, fun _ _ _ => VoteRequest.check_delta hcheck⟩
  | saving comment voter =>
      have hdelta := hsaves comment voter (.inl rfl)
      simp only [VoteRequest.next]
      split
      · refine ⟨fun v hv => ?_, fun _ _ _ => hdelta⟩
        rcases List.mem_append.mp hv with hv | hv
        · exact hvotes v hv
        · rw [List.mem_singleton.mp hv]
          exact hdelta
      · exact ⟨hvotes, fun _ _ _ => hdelta⟩
  | refused comment voter =>
      have hdelta := hsaves comment voter (.inr rfl)
      simp only [VoteRequest.next]
      split
      · exact ⟨hvotes, fun _ _ _ => hdelta⟩
      · split
        · exact ⟨hvotes, fun _ _ _ => hdelta⟩
        · exact ⟨fun v hv => hvotes v (List.mem_of_mem_erase hv), fun _ _ _ => hdelta⟩
  | saved comment => exact ⟨hvotes, fun _ _ h => by simp [VoteRequest.next] at h⟩
  | withdrawn comment score => exact ⟨hvotes, fun _ _ h => by simp [VoteRequest.next] at h⟩
  | answered response => exact ⟨hvotes, hsaves⟩

theorem World.Unit.act (h : w.Unit) (act : Act) : (w.act act).Unit := by
  cases act with
  | arrive request =>
      refine ⟨h.votes, fun r hr => ?_⟩
      rcases List.mem_append.mp hr with hr | hr
      · exact h.requests r hr
      · rw [List.mem_singleton.mp hr]
        intro _ _ hstage
        simp at hstage
  | proceed i =>
      simp only [World.act]
      split
      · exact h
      · rename_i r hr
        obtain ⟨hvotes, hsaves⟩ := VoteRequest.next_unit h.votes (h.requests r (List.mem_of_getElem? hr))
        refine ⟨hvotes, fun x hx => ?_⟩
        rcases List.mem_or_eq_of_mem_set hx with hx | rfl
        · exact h.requests x hx
        · exact hsaves

theorem World.Unit.run (h : w.Unit) (acts : List Act) : (w.run acts).Unit := by
  induction acts generalizing w with
  | nil => exact h
  | cons act acts ih => exact ih (h.act act)

theorem Db.one_vote (db : Db) (comment voter : ℕ) :
    db.votes.countP (fun v => v.comment = comment && v.voter = voter) ≤ 1 := by
  rw [List.countP_eq_length_filter]
  cases hfilter : db.votes.filter fun v => v.comment = comment && v.voter = voter with
  | nil => exact Nat.zero_le 1
  | cons v rest =>
      cases rest with
      | nil => exact le_refl 1
      | cons v' rest =>
          have hpair : ∀ x ∈ v :: v' :: rest, x.comment = comment ∧ x.voter = voter := fun x hx => by
            rw [← hfilter, List.mem_filter, Bool.and_eq_true, decide_eq_true_eq, decide_eq_true_eq] at hx
            exact hx.2
          have hne := List.rel_of_pairwise_cons (hfilter ▸ db.unique.filter _) List.mem_cons_self
          obtain ⟨hcomment, hvoter⟩ := hpair v List.mem_cons_self
          obtain ⟨hcomment', hvoter'⟩ := hpair v' (List.mem_cons_of_mem v List.mem_cons_self)
          exact absurd (by rw [hcomment, hvoter, hcomment', hvoter']) hne

end

/-- **The score of a comment follows its votes.** However the statements of any requests are interleaved, whenever none
    of them is in progress the score of every comment moved by what the sum of its votes moved, and every voter has one
    vote of it at most, which counts one. -/
theorem comment_votes (w : World) (hidle : w.Idle) (hvotes : ∀ v ∈ w.db.votes, v.score = 1 ∨ v.score = -1)
    (acts : List Act) :
    ((w.run acts).Idle → ∀ comment, (w.db.comments.get? comment).isSome →
        (w.run acts).db.score comment - w.db.score comment =
          (w.run acts).db.tally comment - w.db.tally comment) ∧
      (∀ comment voter,
        (w.run acts).db.votes.countP (fun v => v.comment = comment && v.voter = voter) ≤ 1) ∧
      ∀ v ∈ (w.run acts).db.votes, v.score = 1 ∨ v.score = -1 := by
  have hunit : w.Unit := ⟨hvotes, fun r hr _ _ hstage => by
    obtain ⟨response, hanswered⟩ := hidle r hr
    simp [hanswered] at hstage⟩
  refine ⟨fun hidle' comment hcomment => ?_, (w.run acts).db.one_vote, (hunit.run acts).votes⟩
  have hbalance := w.due_run acts hcomment
  rw [World.balance, World.balance, hidle.owed, hidle'.owed] at hbalance
  linarith only [hbalance]

/-- A comment without votes. -/
def plain : Db where
  comments := Table.empty.add { id := 1, author := 1 }
  votes := []
  references := fun _ hv => absurd hv List.not_mem_nil
  unique := List.Pairwise.nil

/-- A vote of the first comment. -/
def voteOf (delta : ℤ) : VoteRequest := { user := some { id := 2 }, delta, id := some (Text.ofString "1") }

/-- The same person votes both ways at the same time: the vote is saved, and the other request withdraws it before it
    is counted. -/
def bothWays : List Act :=
  [.arrive (voteOf 1), .arrive (voteOf (-1)), .proceed 0, .proceed 1, .proceed 0, .proceed 1, .proceed 1, .proceed 1,
    .proceed 0]

theorem comment_votes_both : (World.run ⟨plain, []⟩ bothWays).db.score 1 - plain.score 1 =
    (World.run ⟨plain, []⟩ bothWays).db.tally 1 - plain.tally 1 := by
  have hidle : (World.run ⟨plain, []⟩ bothWays).Idle := by
    have hstages : (World.run ⟨plain, []⟩ bothWays).requests.all fun r => r.stage = .answered success := by
      decide +kernel
    intro r hr
    exact ⟨success, by simpa using List.all_eq_true.mp hstages r hr⟩
  exact (comment_votes ⟨plain, []⟩ (fun r hr => absurd hr List.not_mem_nil)
    (fun v hv => absurd hv List.not_mem_nil) bothWays).1 hidle 1 rfl

end Comments
end CpcJudge
