import CpcJudge.Lib.Table

/-!
# `Lib.Sync` — a table brought up to date

A stored table against the one worked out again: the rows that nobody worked out are deleted, those that are not the
same are overwritten, and the missing ones are inserted. What counts as the same is a parameter; it only has to hold
of a row and itself for nothing to be left to write afterwards.
-/

namespace CpcJudge
namespace Table
open Keyed

variable {α : Type*} [Keyed α] {t stored computed : Table α} {a b : α} {i : ℕ}

/-- `update_or_create`. -/
def upsert (t : Table α) (a : α) : Table α := (t.put a).add a

/-- Leave the stored rows as the computed ones, writing only those that are not the same. -/
def sync (same : α → α → Bool) (stored computed : Table α) : Table α :=
  computed.rows.foldl (fun t c => if (stored.get? (key c)).any (same · c) then t else t.upsert c)
    (stored.filter fun r => (computed.get? (key r)).isSome)

/-- How many rows `sync` would write or delete. -/
def differences (same : α → α → Bool) (stored computed : Table α) : ℕ :=
  (computed.rows.countP fun c => !(stored.get? (key c)).any (same · c)) +
    stored.rows.countP fun r => (computed.get? (key r)).isNone

theorem get?_upsert_self : (t.upsert a).get? (key a) = some a := by
  unfold upsert
  cases h : t.get? (key a) with
  | none => exact get?_add_self (get?_put_eq_none.mpr h)
  | some b =>
      have hput : (t.put a).get? (key a) = some a := get?_put_self h
      exact get?_eq_some_iff.mpr ⟨mem_add_of_mem (mem_of_get? hput), rfl⟩

theorem get?_upsert_of_ne (h : i ≠ key a) : (t.upsert a).get? i = t.get? i := by
  rw [upsert, get?_add_of_ne h, get?_put_of_ne h]

/-- A row under a new key goes after the others. -/
theorem rows_upsert (h : t.get? (key a) = none) : (t.upsert a).rows = t.rows ++ [a] := by
  have hput : (t.put a).rows = t.rows := by
    refine (List.map_congr_left fun r hr => ?_).trans (List.map_id _)
    exact if_neg (get?_eq_none_iff.mp h r hr)
  rw [upsert, rows_add (get?_put_eq_none.mpr h), hput]

theorem mem_upsert (h : b ∈ (t.upsert a).rows) : b = a ∨ (b ∈ t.rows ∧ key b ≠ key a) := by
  rcases mem_add h with rfl | h
  · exact .inl rfl
  · exact mem_put h

/-- A row changes a total by what it adds to the row that it replaces. -/
theorem sum_upsert {f : α → ℕ} : ((t.upsert a).rows.map f).sum + ((t.get? (key a)).map f).getD 0 =
    (t.rows.map f).sum + f a := by
  cases h : t.get? (key a) with
  | none =>
      rw [rows_upsert h, List.map_append, List.sum_append]
      simp
  | some b =>
      obtain ⟨l, r, hrows, hput⟩ := rows_put h
      have htaken : key a ∈ (t.put a).rows.map key :=
        List.mem_map_of_mem (mem_of_get? (get?_put_self h))
      have hupsert : t.upsert a = t.put a := by rw [upsert, add, dif_pos htaken]
      rw [hupsert, hput, hrows]
      simp only [List.map_append, List.map_cons, List.sum_append, List.sum_cons, Option.map_some, Option.getD_some]
      omega

/-- What is left under a key by a round of insertions. -/
theorem get?_foldl_upsert {skip : α → Bool} {l : List α} (hl : (l.map key).Nodup) :
    (l.foldl (fun t c => if skip c then t else t.upsert c) t).get? i =
      match l.find? (key · = i) with
      | none => t.get? i
      | some c => if skip c then t.get? i else some c := by
  induction l generalizing t with
  | nil => rfl
  | cons c l ih =>
      rw [List.map_cons, List.nodup_cons] at hl
      rw [List.foldl_cons, ih hl.2]
      by_cases hc : key c = i
      · -- no other row of the list has this key
        have hnone : l.find? (key · = i) = none := by
          rw [List.find?_eq_none]
          intro x hx hkey
          exact hl.1 (hc ▸ of_decide_eq_true hkey ▸ List.mem_map_of_mem hx)
        rw [hnone, List.find?_cons_of_pos (by simpa using hc)]
        by_cases hskip : skip c = true
        · simp only [if_pos hskip]
        · subst hc
          simp only [if_neg hskip]
          exact get?_upsert_self
      · rw [List.find?_cons_of_neg (by simpa using hc)]
        have hstep : (if skip c = true then t else t.upsert c).get? i = t.get? i := by
          split
          · rfl
          · exact get?_upsert_of_ne (Ne.symm hc)
        rw [hstep]

theorem get?_filter_of_key {p : ℕ → Bool} :
    (t.filter fun r => p (key r)).get? i = if p i then t.get? i else none := by
  cases hp : p i with
  | true =>
      cases hget : t.get? i with
      | none =>
          rw [if_pos rfl, get?_eq_none_iff]
          exact fun b hb => get?_eq_none_iff.mp hget b (mem_filter.mp hb).1
      | some b =>
          rw [if_pos rfl]
          refine get?_filter_of_pos hget ?_
          rw [key_of_get? hget]
          exact hp
  | false =>
      rw [if_neg (by simp), get?_eq_none_iff]
      intro b hb hkey
      have hpos := (mem_filter.mp hb).2
      rw [hkey, hp] at hpos
      cases hpos

/-- A synchronized table has the computed rows, as they were stored where they were the same. -/
theorem get?_sync {same : α → α → Bool} : (sync same stored computed).get? i =
    (computed.get? i).map fun c => ((stored.get? i).filter (same · c)).getD c := by
  unfold sync
  rw [get?_foldl_upsert computed.distinct]
  show (match computed.get? i with | none => _ | some c => _) = _
  rw [get?_filter_of_key (p := fun i => (computed.get? i).isSome)]
  cases hc : computed.get? i with
  | none => rfl
  | some c =>
      show (if (stored.get? (key c)).any (same · c) then _ else _) = _
      rw [key_of_get? hc, Option.map_some]
      cases hs : stored.get? i with
      | none => rfl
      | some s =>
          cases hsame : same s c with
          | true => simp [hsame, Option.filter]
          | false => simp [hsame, Option.filter]

theorem differences_eq_zero {same : α → α → Bool} : differences same stored computed = 0 ↔
    ∀ i, Option.Rel (fun s c => same s c = true) (stored.get? i) (computed.get? i) := by
  unfold differences
  rw [Nat.add_eq_zero_iff, List.countP_eq_zero, List.countP_eq_zero]
  constructor
  · rintro ⟨hwrite, hdelete⟩ i
    cases hc : computed.get? i with
    | none =>
        cases hs : stored.get? i with
        | none => exact .none
        | some s =>
            refine absurd ?_ (hdelete s (mem_of_get? hs))
            rw [key_of_get? hs, hc]
            rfl
    | some c =>
        have hany := hwrite c (mem_of_get? hc)
        rw [key_of_get? hc] at hany
        cases hs : stored.get? i with
        | none => simp [hs] at hany
        | some s =>
            refine .some ?_
            simpa [hs] using hany
  · intro h
    constructor
    · intro c hc
      have hrel := h (key c)
      rw [get?_of_mem hc] at hrel
      generalize stored.get? (key c) = s at hrel
      cases hrel with
      | some hsame => simp [hsame]
    · intro s hs
      have hrel := h (key s)
      rw [get?_of_mem hs] at hrel
      generalize computed.get? (key s) = c at hrel
      cases hrel with
      | some => simp

/-- Nothing is left to write. -/
theorem differences_sync {same : α → α → Bool} (hsame : ∀ a, same a a = true) :
    differences same (sync same stored computed) computed = 0 := by
  rw [differences_eq_zero]
  intro i
  rw [get?_sync]
  cases hc : computed.get? i with
  | none => exact .none
  | some c =>
      refine .some ?_
      show same (((stored.get? i).filter (same · c)).getD c) c = true
      cases hs : (stored.get? i).filter (same · c) with
      | none => exact hsame c
      | some s => exact (Option.filter_eq_some_iff.mp hs).2

end Table
end CpcJudge
