import CpcJudge.Comments.Votes

/-!
# `Comments.Retry` — whether a vote request ends

The loop of `vote_comment` tries again whenever the insertion failed and there is no vote to blame for it. Once nobody
else runs, that happens at most once while the comment is there. A comment deleted since it was looked up makes every
insertion fail, and takes the votes with it: the loop never ends.
-/

namespace CpcJudge
namespace Comments

/-- A request that runs alone from here on, after `n` statements. -/
def VoteRequest.after (r : VoteRequest) : ℕ → Db → Stage → Db × Stage
  | 0, db, stage => (db, stage)
  | n + 1, db, stage => r.after n (r.next db stage).1 (r.next db stage).2

/-- The request has its response after `n` statements. -/
def VoteRequest.EndsIn (r : VoteRequest) (n : ℕ) (db : Db) (stage : Stage) : Prop :=
  ∃ response, (r.after n db stage).2 = .answered response

/-- The comment is still there for a request that tries to vote it. -/
def Stage.Stands (db : Db) : Stage → Prop
  | .saving comment _ | .refused comment _ => (db.comments.get? comment).isSome
  | _ => True

section
variable {r : VoteRequest} {db : Db} {comment voter n : ℕ} {stage : Stage}

theorem VoteRequest.EndsIn.next (h : r.EndsIn n (r.next db stage).1 (r.next db stage).2) : r.EndsIn (n + 1) db stage := h

theorem VoteRequest.endsIn_answered (r : VoteRequest) (db : Db) (response : Response) :
    ∀ n, r.EndsIn n db (.answered response)
  | 0 => ⟨response, rfl⟩
  | n + 1 => (r.endsIn_answered db response n).next

theorem VoteRequest.endsIn_saved (r : VoteRequest) (db : Db) (comment n : ℕ) : r.EndsIn (n + 1) db (.saved comment) :=
  (r.endsIn_answered _ _ n).next

theorem VoteRequest.endsIn_withdrawn (r : VoteRequest) (db : Db) (comment n : ℕ) (score : ℤ) :
    r.EndsIn (n + 1) db (.withdrawn comment score) :=
  (r.endsIn_answered _ _ n).next

/-! ## The comment is there -/

/-- A vote that is found is withdrawn, or the request is turned away. -/
theorem VoteRequest.endsIn_found {vote : CommentVote} (h : db.vote? comment voter = some vote) :
    r.EndsIn (n + 2) db (.refused comment voter) := by
  refine VoteRequest.EndsIn.next ?_
  simp only [VoteRequest.next, h]
  split
  · exact r.endsIn_answered db _ (n + 1)
  · exact r.endsIn_withdrawn _ comment n _

theorem VoteRequest.endsIn_saving (h : (db.comments.get? comment).isSome) :
    r.EndsIn (n + 3) db (.saving comment voter) := by
  refine VoteRequest.EndsIn.next ?_
  by_cases hadmits : db.Admits ⟨comment, voter, r.delta⟩
  · simp only [VoteRequest.next, dif_pos hadmits]
    exact r.endsIn_saved _ comment (n + 1)
  · simp only [VoteRequest.next, dif_neg hadmits]
    obtain ⟨vote, hvote⟩ : ∃ vote, db.vote? comment voter = some vote :=
      Option.ne_none_iff_exists'.mp fun hnone => hadmits ⟨h, hnone⟩
    exact VoteRequest.endsIn_found hvote

theorem VoteRequest.endsIn_refused (h : (db.comments.get? comment).isSome) :
    r.EndsIn (n + 3) db (.refused comment voter) := by
  cases hvote : db.vote? comment voter with
  | some vote => exact VoteRequest.endsIn_found hvote
  | none =>
      -- the vote was withdrawn meanwhile, so this time it is saved
      have hadmits : db.Admits ⟨comment, voter, r.delta⟩ := ⟨h, hvote⟩
      have hsaved : r.EndsIn (n + 2) db (.saving comment voter) := by
        refine VoteRequest.EndsIn.next ?_
        simp only [VoteRequest.next, dif_pos hadmits]
        exact r.endsIn_saved _ comment n
      refine VoteRequest.EndsIn.next ?_
      simpa only [VoteRequest.next, hvote] using hsaved

theorem VoteRequest.endsIn_received (r : VoteRequest) (db : Db) : r.EndsIn 4 db .received := by
  refine VoteRequest.EndsIn.next ?_
  simp only [VoteRequest.next]
  split
  · exact r.endsIn_answered db _ 3
  · split
    · exact r.endsIn_answered db _ 3
    · rename_i id _ _ c hfound
      split
      · exact r.endsIn_answered db _ 3
      · have hthere : (db.comments.get? c.id).isSome := by
          unfold Db.comment? at hfound
          split at hfound
          · have hget := (Option.filter_eq_some_iff.mp hfound).1
            rw [show c.id = id.toNat from Table.key_of_get? hget, hget]
            rfl
          · cases hfound
        exact VoteRequest.endsIn_saving hthere

/-! ## The comment is gone -/

/-- Neither an insertion nor a look at the votes gets any further. -/
theorem VoteRequest.next_gone (h : (db.comments.get? comment).isSome = false)
    (hstage : stage = .saving comment voter ∨ stage = .refused comment voter) :
    (r.next db stage).1 = db ∧
      ((r.next db stage).2 = .saving comment voter ∨ (r.next db stage).2 = .refused comment voter) := by
  rcases hstage with rfl | rfl
  · have hrefused : ¬ db.Admits ⟨comment, voter, r.delta⟩ := fun hadmits => by
      have hthere := hadmits.1
      simp [h] at hthere
    simp only [VoteRequest.next, dif_neg hrefused]
    exact ⟨trivial, .inr trivial⟩
  · have hnone : db.vote? comment voter = none := Db.vote?_eq_none.mpr fun v hv heq => by
      have hthere := db.references v hv
      rw [(Prod.mk.inj heq).1, h] at hthere
      cases hthere
    simp only [VoteRequest.next, hnone]
    exact ⟨trivial, .inl trivial⟩

theorem VoteRequest.after_gone (h : (db.comments.get? comment).isSome = false) :
    ∀ (n : ℕ) {stage : Stage}, stage = .saving comment voter ∨ stage = .refused comment voter →
      ¬ r.EndsIn n db stage
  | 0, stage, hstage, ⟨response, hended⟩ => by
    rcases hstage with rfl | rfl <;> cases hended
  | n + 1, stage, hstage, hended => by
    obtain ⟨hdb, hnext⟩ := VoteRequest.next_gone (r := r) h hstage
    refine VoteRequest.after_gone h n hnext ?_
    have hrest : r.EndsIn n (r.next db stage).1 (r.next db stage).2 := hended
    rwa [hdb] at hrest

end

/-- **A vote request ends, unless its comment is gone.** Whatever the others did to the comments and the votes, once
    none of them runs the request has its response within four statements if the comment it tries to vote is still
    there, and never otherwise. -/
theorem vote_ends (r : VoteRequest) (db : Db) (stage : Stage) :
    ((∃ n, r.EndsIn n db stage) ↔ stage.Stands db) ∧ (stage.Stands db → r.EndsIn 4 db stage) := by
  have hends : stage.Stands db → r.EndsIn 4 db stage := by
    intro h
    cases stage with
    | received => exact r.endsIn_received db
    | saving comment voter => exact VoteRequest.endsIn_saving h
    | refused comment voter => exact VoteRequest.endsIn_refused h
    | saved comment => exact r.endsIn_saved db comment 3
    | withdrawn comment score => exact r.endsIn_withdrawn db comment 3 score
    | answered response => exact r.endsIn_answered db response 4
  refine ⟨⟨fun hended => ?_, fun h => ⟨4, hends h⟩⟩, hends⟩
  by_contra hgone
  obtain ⟨n, hended⟩ := hended
  cases stage with
  | saving comment voter => exact VoteRequest.after_gone (by simpa [Stage.Stands] using hgone) n (.inl rfl) hended
  | refused comment voter => exact VoteRequest.after_gone (by simpa [Stage.Stands] using hgone) n (.inr rfl) hended
  | _ => exact hgone trivial

/-- The comment is deleted after the request looked it up, and the loop never ends. -/
theorem vote_of_deleted : ¬ ∀ (r : VoteRequest) (db : Db) (comment : ℕ), ∃ n,
    r.EndsIn n ((r.next db .received).1.deleteComment comment) (r.next db .received).2 := by
  intro h
  obtain ⟨n, hended⟩ := h (voteOf 1) plain 1
  have hstage : ((voteOf 1).next plain .received).2 = .saving 1 2 := by decide +kernel
  rw [hstage] at hended
  exact VoteRequest.after_gone rfl n (.inl rfl) hended

end Comments
end CpcJudge
