import Mathlib.Data.List.Basic
import Mathlib.Data.List.Nodup
import Mathlib.Tactic

/-!
# `Lib.Table` — tables of rows with a primary key

A table is a list of rows no two of which have the same key, in the order they were inserted. Rows are
found by key, replaced (`put`), inserted under a key nobody has (`add`) and deleted (`filter`). A proof
about a write only needs to know what a read of each key gives afterwards, so every operation comes with
its `get?` lemma and its membership lemma.
-/

namespace CpcJudge

/-- Rows with a primary key. -/
class Keyed (α : Type*) where
  key : α → ℕ

/-- Rows with distinct keys, in the order they were inserted. -/
structure Table (α : Type*) [Keyed α] where
  rows : List α
  distinct : (rows.map Keyed.key).Nodup

namespace Table
open Keyed

variable {α : Type*} [Keyed α] {t : Table α} {a b : α} {i : ℕ}

instance [DecidableEq α] : DecidableEq (Table α) := fun t u =>
  decidable_of_iff (t.rows = u.rows) ⟨fun h => by cases t; cases u; cases h; rfl, congrArg rows⟩

def empty : Table α := ⟨[], List.nodup_nil⟩

instance : Inhabited (Table α) := ⟨empty⟩

def get? (t : Table α) (i : ℕ) : Option α := t.rows.find? (key · = i)

/-- Replace the row with the key of `a`, if there is one. -/
def put (t : Table α) (a : α) : Table α where
  rows := t.rows.map fun r => if key r = key a then a else r
  distinct := by
    have hkeys : (t.rows.map fun r => if key r = key a then a else r).map key = t.rows.map key := by
      rw [List.map_map]
      refine List.map_congr_left fun r _ => ?_
      by_cases h : key r = key a
      · simp [h]
      · simp [h]
    rw [hkeys]
    exact t.distinct

/-- Insert `a` after the others, if its key is free. -/
def add (t : Table α) (a : α) : Table α :=
  if h : key a ∈ t.rows.map key then t
  else
    { rows := t.rows ++ [a]
      distinct := by
        rw [List.map_append, List.map_singleton, List.nodup_append']
        exact ⟨t.distinct, List.nodup_singleton _, by simpa using h⟩ }

/-- Keep the rows that satisfy `p`. -/
def filter (t : Table α) (p : α → Bool) : Table α where
  rows := t.rows.filter p
  distinct := (List.filter_sublist.map _).nodup t.distinct

/-- Change the rows that satisfy `p`, keeping their keys. -/
def modify (t : Table α) (p : α → Bool) (f : α → α) (hf : ∀ a, key (f a) = key a) : Table α where
  rows := t.rows.map fun r => if p r then f r else r
  distinct := by
    have hkeys : (t.rows.map fun r => if p r then f r else r).map key = t.rows.map key := by
      rw [List.map_map]
      refine List.map_congr_left fun r _ => ?_
      cases hp : p r
      · simp [hp]
      · simp [hp, hf]
    rw [hkeys]
    exact t.distinct

/-- Every row rewritten by a function that keeps its key. -/
def map (t : Table α) (f : α → α) (hf : ∀ a, key (f a) = key a) : Table α where
  rows := t.rows.map f
  distinct := by
    rw [List.map_map, show key ∘ f = key from funext hf]
    exact t.distinct

/-! ## Reading -/

theorem eq_of_key (ha : a ∈ t.rows) (hb : b ∈ t.rows) (h : key a = key b) : a = b :=
  List.inj_on_of_nodup_map t.distinct ha hb h

theorem get?_eq_some_iff : t.get? i = some a ↔ a ∈ t.rows ∧ key a = i := by
  constructor
  · intro h
    exact ⟨List.mem_of_find?_eq_some h, by simpa using List.find?_some h⟩
  · rintro ⟨hmem, rfl⟩
    cases hfind : t.get? (key a) with
    | none => exact absurd (List.find?_eq_none.mp hfind a hmem) (by simp)
    | some b =>
        have hkey : key b = key a := by simpa using List.find?_some hfind
        rw [eq_of_key (List.mem_of_find?_eq_some hfind) hmem hkey]

theorem get?_of_mem (h : a ∈ t.rows) : t.get? (key a) = some a := get?_eq_some_iff.mpr ⟨h, rfl⟩

theorem mem_of_get? (h : t.get? i = some a) : a ∈ t.rows := (get?_eq_some_iff.mp h).1

theorem key_of_get? (h : t.get? i = some a) : key a = i := (get?_eq_some_iff.mp h).2

theorem get?_eq_none_iff : t.get? i = none ↔ ∀ a ∈ t.rows, key a ≠ i := by
  simp [get?, List.find?_eq_none]

@[simp] theorem get?_empty : (empty : Table α).get? i = none := rfl

theorem nodup_rows (t : Table α) : t.rows.Nodup := t.distinct.of_map _

/-- One row satisfies `p`. -/
theorem countP_eq_one [DecidableEq α] {p : α → Bool} (ha : a ∈ t.rows)
    (honly : ∀ b ∈ t.rows, p b = true ↔ b = a) : t.rows.countP p = 1 := by
  have hcount : t.rows.countP p = t.rows.count a :=
    List.countP_congr fun b hb => (honly b hb).trans (by simp)
  rw [hcount]
  exact List.count_eq_one_of_mem t.nodup_rows ha

/-! ## Replacing a row -/

theorem mem_put (h : b ∈ (t.put a).rows) : b = a ∨ (b ∈ t.rows ∧ key b ≠ key a) := by
  obtain ⟨r, hr, hb⟩ := List.mem_map.mp h
  by_cases hkey : key r = key a
  · rw [if_pos hkey] at hb
    exact .inl hb.symm
  · rw [if_neg hkey] at hb
    subst hb
    exact .inr ⟨hr, hkey⟩

theorem mem_put_of_ne (hb : b ∈ t.rows) (h : key b ≠ key a) : b ∈ (t.put a).rows :=
  List.mem_map.mpr ⟨b, hb, if_neg h⟩

theorem get?_put_self (h : t.get? (key a) = some b) : (t.put a).get? (key a) = some a := by
  refine get?_eq_some_iff.mpr ⟨List.mem_map.mpr ⟨b, mem_of_get? h, ?_⟩, rfl⟩
  rw [if_pos (key_of_get? h)]

theorem get?_put_of_ne (h : i ≠ key a) : (t.put a).get? i = t.get? i := by
  cases hget : t.get? i with
  | none =>
      rw [get?_eq_none_iff] at hget ⊢
      intro b hb
      rcases mem_put hb with rfl | ⟨hb, _⟩
      · exact h.symm
      · exact hget b hb
  | some b =>
      have hb := get?_eq_some_iff.mp hget
      refine get?_eq_some_iff.mpr ⟨mem_put_of_ne hb.1 ?_, hb.2⟩
      rw [hb.2]
      exact h

/-- A row is absent after a replacement exactly when it was absent before. -/
theorem get?_put_eq_none : (t.put a).get? i = none ↔ t.get? i = none := by
  by_cases h : i = key a
  · subst h
    cases hget : t.get? (key a) with
    | none =>
        refine iff_of_true (get?_eq_none_iff.mpr fun b hb => ?_) rfl
        obtain ⟨r, hr, hb⟩ := List.mem_map.mp hb
        have hne := get?_eq_none_iff.mp hget r hr
        rw [if_neg hne] at hb
        exact hb ▸ hne
    | some b => simp [get?_put_self hget]
  · rw [get?_put_of_ne h]

theorem put_put (h : key a = key b) : (t.put a).put b = t.put b := by
  have hrows : ((t.put a).put b).rows = (t.put b).rows := by
    simp only [put, List.map_map]
    refine List.map_congr_left fun r _ => ?_
    by_cases hr : key r = key a
    · simp [hr, h]
    · simp [hr, h ▸ hr]
  cases hx : (t.put a).put b; cases hy : t.put b
  rw [hx, hy] at hrows
  cases hrows
  rfl

/-- A row replaced by itself. -/
theorem put_self (h : t.get? (key a) = some a) : t.put a = t := by
  have hrows : (t.put a).rows = t.rows := by
    refine (List.map_congr_left fun r hr => ?_).trans (List.map_id _)
    by_cases hr' : key r = key a
    · rw [if_pos hr', eq_of_key hr (mem_of_get? h) hr']
      rfl
    · rw [if_neg hr']
      rfl
  cases hx : t.put a
  rw [hx] at hrows
  cases hrows
  rfl

/-- A replaced row stands where the old one stood. -/
theorem rows_put (h : t.get? (key a) = some b) : ∃ l r, t.rows = l ++ b :: r ∧ (t.put a).rows = l ++ a :: r := by
  obtain ⟨hmem, hkey⟩ := get?_eq_some_iff.mp h
  obtain ⟨l, r, hsplit⟩ := List.append_of_mem hmem
  have hother : ∀ x ∈ l ++ r, key x ≠ key a := by
    intro x hx heq
    have hdistinct := t.distinct
    rw [hsplit, List.map_append, List.map_cons, List.nodup_middle, ← List.map_append,
      List.nodup_cons] at hdistinct
    exact hdistinct.1 (hkey ▸ heq ▸ List.mem_map_of_mem hx)
  have hsame : ∀ l' : List α, (∀ x ∈ l', key x ≠ key a) →
      l'.map (fun x => if key x = key a then a else x) = l' := by
    intro l' hl'
    rw [List.map_congr_left (fun x hx => if_neg (hl' x hx)), List.map_id']
  have hl := hsame l fun x hx => hother x (List.mem_append_left _ hx)
  have hr := hsame r fun x hx => hother x (List.mem_append_right _ hx)
  exact ⟨l, r, hsplit, by simp only [put, hsplit, List.map_append, List.map_cons, hl, hr, if_pos hkey]⟩

/-- Replacing a row moves a count by that row alone. -/
theorem countP_put (p : α → Bool) (h : t.get? (key a) = some b) :
    (t.put a).rows.countP p + (if p b then 1 else 0) = t.rows.countP p + (if p a then 1 else 0) := by
  obtain ⟨l, r, hrows, hput⟩ := rows_put h
  rw [hrows, hput]
  simp only [List.countP_append, List.countP_cons]
  omega

/-! ## Inserting and deleting -/

theorem rows_add (h : t.get? (key a) = none) : (t.add a).rows = t.rows ++ [a] := by
  have hfree : key a ∉ t.rows.map key := by
    intro hmem
    obtain ⟨b, hb, hkey⟩ := List.mem_map.mp hmem
    exact get?_eq_none_iff.mp h b hb hkey
  rw [add, dif_neg hfree]

theorem mem_add (h : b ∈ (t.add a).rows) : b = a ∨ b ∈ t.rows := by
  unfold add at h
  split at h
  · exact .inr h
  · rcases List.mem_append.mp h with h | h
    · exact .inr h
    · exact .inl (List.mem_singleton.mp h)

theorem mem_add_of_mem (h : b ∈ t.rows) : b ∈ (t.add a).rows := by
  unfold add
  split
  · exact h
  · exact List.mem_append_left _ h

theorem get?_add_self (h : t.get? (key a) = none) : (t.add a).get? (key a) = some a :=
  get?_of_mem (by rw [rows_add h]; simp)

theorem get?_add_of_ne (h : i ≠ key a) : (t.add a).get? i = t.get? i := by
  cases hget : t.get? i with
  | none =>
      rw [get?_eq_none_iff] at hget ⊢
      intro b hb
      rcases mem_add hb with rfl | hb
      · exact h.symm
      · exact hget b hb
  | some b =>
      obtain ⟨hb, hkey⟩ := get?_eq_some_iff.mp hget
      exact get?_eq_some_iff.mpr ⟨mem_add_of_mem hb, hkey⟩

theorem mem_foldl_add {l : List α} (h : b ∈ (l.foldl add t).rows) : b ∈ t.rows ∨ b ∈ l := by
  induction l generalizing t with
  | nil => exact .inl h
  | cons a l ih =>
      rcases ih h with h | h
      · rcases mem_add h with rfl | h
        · exact .inr List.mem_cons_self
        · exact .inl h
      · exact .inr (List.mem_cons_of_mem _ h)

theorem mem_foldl_add_of_mem {l : List α} (h : b ∈ t.rows) : b ∈ (l.foldl add t).rows := by
  induction l generalizing t with
  | nil => exact h
  | cons a l ih => exact ih (mem_add_of_mem h)

/-- A row inserted with others, the only one of them with its key. -/
theorem get?_foldl_add {l : List α} (ha : a ∈ l) (honly : ∀ b ∈ l, key b = key a → b = a)
    (h : t.get? (key a) = none) : (l.foldl add t).get? (key a) = some a := by
  induction l generalizing t with
  | nil => cases ha
  | cons b l ih =>
      by_cases hkey : key b = key a
      · obtain rfl := honly b List.mem_cons_self hkey
        refine get?_of_mem (?_ : b ∈ (l.foldl add (t.add b)).rows)
        exact mem_foldl_add_of_mem (mem_of_get? (get?_add_self h))
      · refine ih ?_ (fun c hc => honly c (List.mem_cons_of_mem _ hc)) ?_
        · exact (List.mem_cons.mp ha).resolve_left fun heq => hkey (congrArg key heq.symm)
        · rwa [get?_add_of_ne (Ne.symm hkey)]

theorem mem_modify {p : α → Bool} {f : α → α} {hf : ∀ a, key (f a) = key a} :
    b ∈ (t.modify p f hf).rows ↔ ∃ a ∈ t.rows, (if p a then f a else a) = b := List.mem_map

theorem get?_modify {p : α → Bool} {f : α → α} {hf : ∀ a, key (f a) = key a} :
    (t.modify p f hf).get? i = (t.get? i).map fun a => if p a then f a else a := by
  have hkey : ∀ a, key (if p a then f a else a) = key a := fun a => by
    cases p a
    · rfl
    · exact hf a
  cases hget : t.get? i with
  | none =>
      rw [Option.map_none, get?_eq_none_iff]
      intro b hb
      obtain ⟨a, ha, rfl⟩ := mem_modify.mp hb
      rw [hkey]
      exact get?_eq_none_iff.mp hget a ha
  | some a =>
      obtain ⟨ha, rfl⟩ := get?_eq_some_iff.mp hget
      exact get?_eq_some_iff.mpr ⟨mem_modify.mpr ⟨a, ha, rfl⟩, hkey a⟩

@[simp] theorem rows_map {f : α → α} {hf : ∀ a, key (f a) = key a} : (t.map f hf).rows = t.rows.map f := rfl

@[simp] theorem get?_map {f : α → α} {hf : ∀ a, key (f a) = key a} : (t.map f hf).get? i = (t.get? i).map f := by
  rw [get?, rows_map, List.find?_map, get?]
  simp only [Function.comp_def, hf]

theorem mem_filter {p : α → Bool} : b ∈ (t.filter p).rows ↔ b ∈ t.rows ∧ p b = true := List.mem_filter

theorem get?_filter_of_pos {p : α → Bool} (h : t.get? i = some b) (hp : p b = true) :
    (t.filter p).get? i = some b := by
  obtain ⟨hb, hkey⟩ := get?_eq_some_iff.mp h
  exact get?_eq_some_iff.mpr ⟨mem_filter.mpr ⟨hb, hp⟩, hkey⟩

theorem get?_filter {p : α → Bool} (h : (t.filter p).get? i = some b) :
    t.get? i = some b ∧ p b = true := by
  obtain ⟨hb, hkey⟩ := get?_eq_some_iff.mp h
  obtain ⟨hb, hp⟩ := mem_filter.mp hb
  exact ⟨get?_eq_some_iff.mpr ⟨hb, hkey⟩, hp⟩

/-! ## Rewriting the rows -/

/-- Every row of `t` is rewritten in place, by `R`. -/
def Maps (R : α → α → Prop) (t t' : Table α) : Prop :=
  ∃ f : α → α, t'.rows = t.rows.map f ∧ ∀ a ∈ t.rows, key (f a) = key a ∧ R a (f a)

namespace Maps
variable {R S : α → α → Prop} {t' t'' : Table α}

theorem refl (hrefl : ∀ a, R a a) (t : Table α) : Maps R t t :=
  ⟨id, (List.map_id _).symm, fun a _ => ⟨rfl, hrefl a⟩⟩

/-- What a function makes of the rows, when it cannot tell a row from the one it became. -/
theorem map_eq {f : α → α} {hf : ∀ a, key (f a) = key a} (h : Maps R t t')
    (hsame : ∀ a ∈ t.rows, ∀ b, R a b → f b = f a) : t'.map f hf = t.map f hf := by
  obtain ⟨g, hrows, hg⟩ := h
  have hmap : (t'.map f hf).rows = (t.map f hf).rows := by
    rw [rows_map, rows_map, hrows, List.map_map]
    exact List.map_congr_left fun a ha => hsame a ha _ (hg a ha).2
  cases hx : t'.map f hf
  cases hy : t.map f hf
  rw [hx, hy] at hmap
  cases hmap
  rfl

theorem mono (h : Maps R t t') (hRS : ∀ a b, a ∈ t.rows → R a b → S a b) : Maps S t t' := by
  obtain ⟨f, hrows, hf⟩ := h
  exact ⟨f, hrows, fun a ha => ⟨(hf a ha).1, hRS a _ ha (hf a ha).2⟩⟩

/-- Two rewritings, one after the other. -/
theorem comp {Q : α → α → Prop} (hcomp : ∀ a b c, R a b → S b c → Q a c) (h : Maps R t t')
    (h' : Maps S t' t'') : Maps Q t t'' := by
  obtain ⟨f, hrows, hf⟩ := h
  obtain ⟨g, hrows', hg⟩ := h'
  refine ⟨g ∘ f, by rw [hrows', hrows, List.map_map], fun a ha => ?_⟩
  have hfa : f a ∈ t'.rows := hrows ▸ List.mem_map_of_mem ha
  exact ⟨(hg _ hfa).1.trans (hf a ha).1, hcomp _ _ _ (hf a ha).2 (hg _ hfa).2⟩

theorem trans (htrans : ∀ a b c, R a b → R b c → R a c) (h : Maps R t t') (h' : Maps R t' t'') :
    Maps R t t'' := h.comp htrans h'

/-- One row is rewritten, and `R` allows the others to stay. -/
theorem put_row (hstay : ∀ r, key r ≠ key a → R r r) (h : t.get? (key a) = some b) (hR : R b a) :
    Maps R t (t.put a) := by
  refine ⟨_, rfl, fun r hr => ?_⟩
  by_cases hkey : key r = key a
  · rw [if_pos hkey]
    refine ⟨hkey.symm, ?_⟩
    rwa [eq_of_key hr (mem_of_get? h) (hkey.trans (key_of_get? h).symm)]
  · rw [if_neg hkey]
    exact ⟨rfl, hstay r hkey⟩

theorem put (hrefl : ∀ a, R a a) (h : t.get? (key a) = some b) (hR : R b a) : Maps R t (t.put a) :=
  put_row (fun r _ => hrefl r) h hR

theorem modify {p : α → Bool} {f : α → α} {hf : ∀ a, key (f a) = key a} (hrefl : ∀ a, R a a)
    (hR : ∀ a ∈ t.rows, p a = true → R a (f a)) : Maps R t (t.modify p f hf) := by
  refine ⟨_, rfl, fun r hr => ?_⟩
  cases hp : p r with
  | false => exact ⟨rfl, hrefl r⟩
  | true => exact ⟨hf r, hR r hr hp⟩

/-- What is known of the same rewriting. -/
theorem and (h : Maps R t t') (h' : Maps S t t') : Maps (fun a b => R a b ∧ S a b) t t' := by
  obtain ⟨f, hrows, hf⟩ := h
  obtain ⟨g, hrows', hg⟩ := h'
  refine ⟨f, hrows, fun a ha => ⟨(hf a ha).1, (hf a ha).2, ?_⟩⟩
  have hsame : f a = g a := eq_of_key (hrows ▸ List.mem_map_of_mem ha) (hrows' ▸ List.mem_map_of_mem ha)
    ((hf a ha).1.trans (hg a ha).1.symm)
  rw [hsame]
  exact (hg a ha).2

/-- A row of the new table comes from one of the old. -/
theorem back (h : Maps R t t') (hb : b ∈ t'.rows) : ∃ a ∈ t.rows, key b = key a ∧ R a b := by
  obtain ⟨f, hrows, hf⟩ := h
  rw [hrows] at hb
  obtain ⟨a, ha, rfl⟩ := List.mem_map.mp hb
  exact ⟨a, ha, hf a ha⟩

/-- A row of the old table is found in the new one. -/
theorem forth (h : Maps R t t') (ha : t.get? i = some a) : ∃ b, t'.get? i = some b ∧ R a b := by
  obtain ⟨f, hrows, hf⟩ := h
  have hmem := mem_of_get? ha
  refine ⟨f a, get?_eq_some_iff.mpr ⟨hrows ▸ List.mem_map_of_mem hmem, ?_⟩, (hf a hmem).2⟩
  exact (hf a hmem).1.trans (key_of_get? ha)

/-- A row found in the new table was found in the old one. -/
theorem back_get? (h : Maps R t t') (hb : t'.get? i = some b) : ∃ a, t.get? i = some a ∧ R a b := by
  obtain ⟨a, ha, hkey, hR⟩ := h.back (mem_of_get? hb)
  exact ⟨a, get?_eq_some_iff.mpr ⟨ha, hkey.symm.trans (key_of_get? hb)⟩, hR⟩

theorem get?_eq_none (h : Maps R t t') (hnone : t.get? i = none) : t'.get? i = none := by
  cases hget : t'.get? i with
  | none => rfl
  | some b =>
      obtain ⟨a, ha, -⟩ := h.back_get? hget
      rw [hnone] at ha
      cases ha

end Maps

end Table
end CpcJudge
