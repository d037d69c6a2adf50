import Mathlib.Tactic

/-!
# `Arena.Basic` — slots, moments and the identifiers of rows

The small types every arena module shares. A moment is a whole number of microseconds, the resolution of
a `datetime`; a row of the database is named by its primary key.
-/

namespace CpcJudge
namespace Arena

/-- A moment: microseconds, the resolution of a `datetime`. -/
abbrev Time := ℤ

/-- `timedelta(seconds=n)`. -/
def seconds (n : ℤ) : Time := n * 1000000

/-- `timedelta(minutes=n)`. -/
def minutes (n : ℤ) : Time := seconds (n * 60)

abbrev ProfileId := ℕ
abbrev ProblemId := ℕ
abbrev MatchId := ℕ
abbrev GameId := ℕ
abbrev TournamentId := ℕ
abbrev ScreenId := ℕ
abbrev BankId := ℕ

/-- The two sides of a battle: `SLOT_A` and `SLOT_B`. -/
inductive Slot where
  | a
  | b
  deriving DecidableEq, Repr

/-- `engine.other`. -/
def Slot.other : Slot → Slot
  | .a => .b
  | .b => .a

@[simp] theorem Slot.other_other (s : Slot) : s.other.other = s := by cases s <;> rfl

@[simp] theorem Slot.other_ne (s : Slot) : s.other ≠ s := by cases s <;> simp [Slot.other]

theorem Slot.eq_other_of_ne {s t : Slot} (h : s ≠ t) : s = t.other := by
  cases s <;> cases t <;> simp_all [Slot.other]

/-- Two values kept one for each slot, as the `_a` and `_b` columns of a row. -/
structure Pair (α : Type*) where
  a : α
  b : α
  deriving DecidableEq, Repr

namespace Pair
variable {α β : Type*}

/-- The value of a slot. -/
def get (p : Pair α) : Slot → α
  | .a => p.a
  | .b => p.b

/-- `setattr(row, name + slot, value)`. -/
def set (p : Pair α) (s : Slot) (x : α) : Pair α :=
  match s with
  | .a => { p with a := x }
  | .b => { p with b := x }

def map (f : α → β) (p : Pair α) : Pair β := ⟨f p.a, f p.b⟩

/-- Both slots hold the same value. -/
def both (x : α) : Pair α := ⟨x, x⟩

@[simp] theorem get_set_self (p : Pair α) (s : Slot) (x : α) : (p.set s x).get s = x := by
  cases s <;> rfl

theorem get_set_of_ne (p : Pair α) {s t : Slot} (x : α) (h : t ≠ s) : (p.set s x).get t = p.get t := by
  cases s <;> cases t <;> first | rfl | exact absurd rfl h

@[simp] theorem get_set_other (p : Pair α) (s : Slot) (x : α) : (p.set s x).get s.other = p.get s.other :=
  p.get_set_of_ne x s.other_ne

@[simp] theorem get_map (f : α → β) (p : Pair α) (s : Slot) : (p.map f).get s = f (p.get s) := by
  cases s <;> rfl

@[simp] theorem get_both (x : α) (s : Slot) : (both x).get s = x := by cases s <;> rfl

theorem ext_get {p q : Pair α} (h : ∀ s, p.get s = q.get s) : p = q := by
  cases p; cases q
  exact congrArg₂ Pair.mk (h .a) (h .b)

end Pair

end Arena
end CpcJudge
