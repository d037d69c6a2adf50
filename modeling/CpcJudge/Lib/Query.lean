import Mathlib.Data.List.Dedup
import Mathlib.Tactic

/-!
# `Lib.Query` — filters on a row and on the rows related to it

A filter asks something of the columns of a row and of the rows related to it by some relations. It is
evaluated the way a database does: every relation it mentions is left joined once, each joined row is
tested by itself, and the row comes out once for each joined row that passes. `selects_or`, `selects_rel`
and `selects_and` turn that into a statement about the related rows alone. The one for `and` holds only
when its sides mention different relations: two lookups on one relation have to be met by one related
row.
-/

namespace CpcJudge.Query

variable {ι α : Type*} {R : ι → Type*}

/-! ## Left joins -/

/-- What a left join puts beside a row: one of its related rows, or nothing if it has none. -/
def leftJoin {β : Type*} : List β → List (Option β)
  | [] => [none]
  | x :: xs => (x :: xs).map some

theorem some_mem_leftJoin {β : Type*} {xs : List β} {x : β} : some x ∈ leftJoin xs ↔ x ∈ xs := by
  cases xs <;> simp [leftJoin]

theorem head?_mem_leftJoin {β : Type*} (xs : List β) : xs.head? ∈ leftJoin xs := by
  cases xs <;> simp [leftJoin]

/-- The joined rows of the relations of a list, by nested loops. -/
def joined [DecidableEq ι] (related : ∀ i, List (R i)) : List ι → List (∀ i, Option (R i))
  | [] => [fun _ => none]
  | i :: is => (joined related is).flatMap fun row => (leftJoin (related i)).map (Function.update row i)

section Joined

variable [DecidableEq ι] {related : ∀ i, List (R i)} {is : List ι} {row : ∀ i, Option (R i)}

theorem joined_beside (h : row ∈ joined related is) : ∀ i ∈ is, row i ∈ leftJoin (related i) := by
  induction is generalizing row with
  | nil => simp
  | cons i is ih =>
      obtain ⟨rest, hrest, x, hx, rfl⟩ := by simpa [joined] using h
      intro j hj
      by_cases hji : j = i
      · subst hji
        simpa using hx
      · rw [Function.update_of_ne hji]
        exact ih hrest j (by simpa [hji] using hj)

/-- Every choice of something beside the row is, on the joined relations, one of the joined rows. -/
theorem exists_joined (related : ∀ i, List (R i)) (is : List ι)
    (h : ∀ i ∈ is, row i ∈ leftJoin (related i)) :
    ∃ row' ∈ joined related is, ∀ i ∈ is, row' i = row i := by
  induction is with
  | nil => exact ⟨fun _ => none, by simp [joined], by simp⟩
  | cons i is ih =>
      obtain ⟨rest, hrest, hsame⟩ := ih fun j hj => h j (List.mem_cons_of_mem i hj)
      refine ⟨Function.update rest i (row i), ?_, ?_⟩
      · simp only [joined, List.mem_flatMap, List.mem_map]
        exact ⟨rest, hrest, row i, h i (by simp), rfl⟩
      · intro j hj
        by_cases hji : j = i
        · subst hji
          simp
        · rw [Function.update_of_ne hji]
          exact hsame j (by simpa [hji] using hj)

end Joined

/-! ## Filters -/

/-- What a filter asks: `col` of the columns of the row, `rel` of the row joined by a relation. -/
inductive Q (α : Type*) (R : ι → Type*) where
  | col (p : α → Bool)
  | rel (i : ι) (p : R i → Bool)
  | and (q r : Q α R)
  | or (q r : Q α R)

namespace Q

/-- A lookup on a relation that joined nothing is not met. -/
def eval (a : α) (row : ∀ i, Option (R i)) : Q α R → Bool
  | col p => p a
  | rel i p => (row i).any p
  | and q r => q.eval a row && r.eval a row
  | or q r => q.eval a row || r.eval a row

def relations : Q α R → List ι
  | col _ => []
  | rel i _ => [i]
  | and q r => q.relations ++ r.relations
  | or q r => q.relations ++ r.relations

section Lookups

variable {a : α} {row row' : ∀ i, Option (R i)} {q r : Q α R} {p : α → Bool} {i j : ι} {f : R i → Bool}

@[simp] theorem eval_col : (col p).eval a row = p a := rfl

@[simp] theorem eval_rel : (rel i f : Q α R).eval a row = (row i).any f := rfl

@[simp] theorem eval_and : (q.and r).eval a row = (q.eval a row && r.eval a row) := rfl

@[simp] theorem eval_or : (q.or r).eval a row = (q.eval a row || r.eval a row) := rfl

@[simp] theorem not_mem_relations_col : j ∉ (col p : Q α R).relations := List.not_mem_nil

@[simp] theorem mem_relations_rel : j ∈ (rel i f : Q α R).relations ↔ j = i := List.mem_singleton

@[simp] theorem mem_relations_and : j ∈ (q.and r).relations ↔ j ∈ q.relations ∨ j ∈ r.relations := List.mem_append

@[simp] theorem mem_relations_or : j ∈ (q.or r).relations ↔ j ∈ q.relations ∨ j ∈ r.relations := List.mem_append

theorem eval_congr (h : ∀ i ∈ q.relations, row i = row' i) : q.eval a row = q.eval a row' := by
  induction q with
  | col p => rfl
  | rel i p => rw [eval_rel, eval_rel, h i (mem_relations_rel.mpr rfl)]
  | and q r ihq ihr =>
      rw [eval_and, eval_and, ihq fun i hi => h i (mem_relations_and.mpr (.inl hi)),
        ihr fun i hi => h i (mem_relations_and.mpr (.inr hi))]
  | or q r ihq ihr =>
      rw [eval_or, eval_or, ihq fun i hi => h i (mem_relations_or.mpr (.inl hi)),
        ihr fun i hi => h i (mem_relations_or.mpr (.inr hi))]

end Lookups

/-- The filters mention different relations. -/
def Apart (q r : Q α R) : Prop := ∀ i ∈ q.relations, i ∉ r.relations

section Apart

variable {q r s : Q α R} {p : α → Bool} {i j : ι} {f : R i → Bool} {g : R j → Bool}

@[simp] theorem col_apart : (col p).Apart r := by simp [Apart]

@[simp] theorem apart_col : q.Apart (col p) := by simp [Apart]

@[simp] theorem rel_apart_rel : (rel i f : Q α R).Apart (rel j g) ↔ i ≠ j := by simp [Apart]

@[simp] theorem and_apart : (q.and r).Apart s ↔ q.Apart s ∧ r.Apart s := by
  simp [Apart, or_imp, forall_and]

@[simp] theorem or_apart : (q.or r).Apart s ↔ q.Apart s ∧ r.Apart s := by
  simp [Apart, or_imp, forall_and]

@[simp] theorem apart_and : q.Apart (r.and s) ↔ q.Apart r ∧ q.Apart s := by
  simp [Apart, forall_and]

@[simp] theorem apart_or : q.Apart (r.or s) ↔ q.Apart r ∧ q.Apart s := by
  simp [Apart, forall_and]

end Apart

/-- Some choice of what is joined to the row passes. -/
def Selects (related : ∀ i, List (R i)) (a : α) (q : Q α R) : Prop :=
  ∃ row : ∀ i, Option (R i), (∀ i, row i ∈ leftJoin (related i)) ∧ q.eval a row = true

end Q

section Selects
open Q

variable {related : ∀ i, List (R i)} {a : α} {q r : Q α R}

@[simp] theorem selects_col {p : α → Bool} : (col p : Q α R).Selects related a ↔ p a = true := by
  constructor
  · rintro ⟨_, _, h⟩
    exact h
  · intro h
    exact ⟨fun i => (related i).head?, fun i => head?_mem_leftJoin _, h⟩

@[simp] theorem selects_or :
    (q.or r).Selects related a ↔ q.Selects related a ∨ r.Selects related a := by
  constructor
  · rintro ⟨row, hrow, h⟩
    rcases Bool.or_eq_true_iff.mp h with h | h
    · exact .inl ⟨row, hrow, h⟩
    · exact .inr ⟨row, hrow, h⟩
  · rintro (⟨row, hrow, h⟩ | ⟨row, hrow, h⟩)
    · exact ⟨row, hrow, by simp [h]⟩
    · exact ⟨row, hrow, by simp [h]⟩

/-- Both sides may choose by themselves when they mention different relations. -/
theorem selects_and [DecidableEq ι] (h : q.Apart r) :
    (q.and r).Selects related a ↔ q.Selects related a ∧ r.Selects related a := by
  constructor
  · rintro ⟨row, hrow, hqr⟩
    obtain ⟨hq, hr⟩ := Bool.and_eq_true_iff.mp hqr
    exact ⟨⟨row, hrow, hq⟩, row, hrow, hr⟩
  · rintro ⟨⟨row, hrow, hq⟩, row', hrow', hr⟩
    refine ⟨fun i => if i ∈ q.relations then row i else row' i, ?_, ?_⟩
    · intro i
      dsimp only
      split
      · exact hrow i
      · exact hrow' i
    · have hleft : q.eval a (fun i => if i ∈ q.relations then row i else row' i) = q.eval a row :=
        eval_congr fun i hi => if_pos hi
      have hright : r.eval a (fun i => if i ∈ q.relations then row i else row' i) = r.eval a row' :=
        eval_congr fun i hi => if_neg fun hi' => h i hi' hi
      exact Bool.and_eq_true_iff.mpr ⟨hleft.trans hq, hright.trans hr⟩

variable [DecidableEq ι] {i : ι} {p p' : R i → Bool}

/-- Two lookups on one relation are met by one related row. -/
theorem selects_rel_rel : ((rel i p).and (rel i p') : Q α R).Selects related a ↔
    ∃ x ∈ related i, p x = true ∧ p' x = true := by
  constructor
  · rintro ⟨row, hrow, h⟩
    cases hx : row i with
    | none => simp [hx] at h
    | some x => exact ⟨x, some_mem_leftJoin.mp (hx ▸ hrow i), by simpa [hx] using h⟩
  · rintro ⟨x, hx, h⟩
    refine ⟨Function.update (fun j => (related j).head?) i (some x), ?_, by simp [h]⟩
    intro j
    by_cases hji : j = i
    · subst hji
      simpa using some_mem_leftJoin.mpr hx
    · simpa [Function.update_of_ne hji] using head?_mem_leftJoin (related j)

@[simp] theorem selects_rel : (rel i p : Q α R).Selects related a ↔ ∃ x ∈ related i, p x = true := by
  have hdouble : (rel i p : Q α R).Selects related a ↔
      ((rel i p).and (rel i p) : Q α R).Selects related a := by simp [Selects]
  rw [hdouble, selects_rel_rel]
  simp

end Selects

/-! ## The rows a filter returns -/

variable [DecidableEq ι]

/-- A row comes out once for each of its joined rows that passes. -/
def filter (related : α → ∀ i, List (R i)) (q : Q α R) (rows : List α) : List α :=
  rows.flatMap fun a =>
    ((joined (related a) q.relations.dedup).filter fun row => q.eval a row).map fun _ => a

theorem mem_filter {related : α → ∀ i, List (R i)} {q : Q α R} {rows : List α} {a : α} :
    a ∈ filter related q rows ↔ a ∈ rows ∧ q.Selects (related a) a := by
  simp only [filter, List.mem_flatMap, List.mem_map, List.mem_filter]
  constructor
  · rintro ⟨b, hb, row, ⟨hrow, heval⟩, rfl⟩
    -- beside the relations the filter does not mention, anything goes
    refine ⟨hb, fun i => if i ∈ q.relations then row i else (related b i).head?, ?_, ?_⟩
    · intro i
      dsimp only
      split
      · exact joined_beside hrow i (List.mem_dedup.mpr ‹_›)
      · exact head?_mem_leftJoin _
    · exact (Q.eval_congr fun i hi => if_pos hi).trans heval
  · rintro ⟨ha, row, hrow, heval⟩
    obtain ⟨row', hrow', hsame⟩ := exists_joined (related a) q.relations.dedup fun i _ => hrow i
    refine ⟨a, ha, row', ⟨hrow', ?_⟩, rfl⟩
    exact (Q.eval_congr fun i hi => hsame i (List.mem_dedup.mpr hi)).trans heval

end CpcJudge.Query
