import Mathlib.Logic.Function.Basic
import Mathlib.Logic.Relation
import Mathlib.Order.Basic

/-!
# `Lib.Locks` — transactions that wait for each other

A transaction takes its locks one at a time, along a list of its own, waits while another one holds the next of them,
and gives them all back when it ends. Under `Guarded` some locks are only taken by whoever already holds the lock that
guards them, and the others along an order. Nobody waits for a guarded lock, so nobody waits in a circle.
-/

namespace CpcJudge.Locks

variable {L P : Type*}

/-- The locks a transaction has, and those it will take, in order. -/
structure Holder (L : Type*) where
  held : List L := []
  next : List L := []

/-- A transaction that has not begun, or has ended. -/
def Holder.idle : Holder L := {}

/-- The transactions at one time. -/
abbrev State (P L : Type*) := P → Holder L

/-- The discipline: a lock with a gate comes after it, and one without comes after locks of lower rank only. -/
def Guarded (gate : L → Option L) (rank : L → ℕ) (locks : List L) : Prop :=
  ∀ before l after, locks = before ++ l :: after →
    (∀ g, gate l = some g → g ∈ before) ∧ (gate l = none → ∀ k ∈ before, rank k < rank l)

section
variable [DecidableEq P]

/-- A transaction with any of the lists of `plans` begins, one takes its next lock, or one ends, refused or not. -/
inductive Step (plans : List L → Prop) (s : State P L) : State P L → Prop
  | begin (p : P) (locks : List L) (idle : s p = .idle) (ok : plans locks) :
      Step plans s (Function.update s p { next := locks })
  | take (p : P) (l : L) (rest : List L) (next : (s p).next = l :: rest) (free : ∀ q, q ≠ p → l ∉ (s q).held) :
      Step plans s (Function.update s p { held := (s p).held ++ [l], next := rest })
  | finish (p : P) : Step plans s (Function.update s p .idle)

/-- The states that are reached from the one where no transaction is under way. -/
def Reached (plans : List L → Prop) : State P L → Prop := Relation.ReflTransGen (Step plans) fun _ => .idle

end

/-- `p` waits for a lock that `q` has. -/
def Waits (s : State P L) (p q : P) : Prop := p ≠ q ∧ ∃ l rest, (s p).next = l :: rest ∧ l ∈ (s q).held

/-- Every transaction is somewhere along a guarded list, and no lock is held twice. -/
structure Orderly (gate : L → Option L) (rank : L → ℕ) (s : State P L) : Prop where
  guarded : ∀ p, Guarded gate rank ((s p).held ++ (s p).next)
  exclusive : ∀ p q l, l ∈ (s p).held → l ∈ (s q).held → p = q

variable {gate : L → Option L} {rank : L → ℕ} {plans : List L → Prop} {s t : State P L} {p q r : P} {locks : List L}

theorem Guarded.nil : Guarded gate rank [] := fun before _ _ h => by cases before <;> cases h

section
variable [DecidableEq P]

theorem Orderly.step (h : Orderly gate rank s) (hplans : ∀ locks, plans locks → Guarded gate rank locks)
    (hstep : Step plans s t) : Orderly gate rank t := by
  cases hstep with
  | begin p locks _ ok =>
      refine ⟨fun x => ?_, fun x y l hx hy => ?_⟩
      · by_cases hxp : x = p
        · subst hxp
          rw [Function.update_self]
          exact hplans locks ok
        · rw [Function.update_of_ne hxp]
          exact h.guarded x
      · have hold : ∀ z, l ∈ (Function.update s p { next := locks } z).held → l ∈ (s z).held := by
          intro z hz
          by_cases hzp : z = p
          · subst hzp
            rw [Function.update_self] at hz
            cases hz
          · rwa [Function.update_of_ne hzp] at hz
        exact h.exclusive x y l (hold x hx) (hold y hy)
  | take p l rest next free =>
      refine ⟨fun x => ?_, fun x y k hx hy => ?_⟩
      · by_cases hxp : x = p
        · subst hxp
          have hguarded := h.guarded x
          rw [next] at hguarded
          rw [Function.update_self, List.append_assoc]
          exact hguarded
        · rw [Function.update_of_ne hxp]
          exact h.guarded x
      · have hold : ∀ z, k ∈ (Function.update s p { held := (s p).held ++ [l], next := rest } z).held →
            k ∈ (s z).held ∨ (z = p ∧ k = l) := by
          intro z hz
          by_cases hzp : z = p
          · subst hzp
            rw [Function.update_self] at hz
            rcases List.mem_append.mp hz with hz | hz
            · exact .inl hz
            · exact .inr ⟨rfl, List.mem_singleton.mp hz⟩
          · rw [Function.update_of_ne hzp] at hz
            exact .inl hz
        rcases hold x hx with hxk | ⟨rfl, hkl⟩ <;> rcases hold y hy with hyk | ⟨rfl, hkl'⟩
        · exact h.exclusive x y k hxk hyk
        · by_contra hne
          exact free x hne (hkl' ▸ hxk)
        · by_contra hne
          exact free y (Ne.symm hne) (hkl ▸ hyk)
        · rfl
  | finish p =>
      refine ⟨fun x => ?_, fun x y l hx hy => ?_⟩
      · by_cases hxp : x = p
        · subst hxp
          rw [Function.update_self]
          exact .nil
        · rw [Function.update_of_ne hxp]
          exact h.guarded x
      · have hold : ∀ z, l ∈ (Function.update s p .idle z).held → l ∈ (s z).held := by
          intro z hz
          by_cases hzp : z = p
          · subst hzp
            rw [Function.update_self] at hz
            cases hz
          · rwa [Function.update_of_ne hzp] at hz
        exact h.exclusive x y l (hold x hx) (hold y hy)

theorem Reached.orderly (h : Reached plans s) (hplans : ∀ locks, plans locks → Guarded gate rank locks) :
    Orderly gate rank s := by
  induction h with
  | refl => exact ⟨fun _ => .nil, fun _ _ _ h => absurd h List.not_mem_nil⟩
  | tail _ hstep ih => exact ih.step hplans hstep

end

/-- A lock that is waited for has no gate: whoever holds it would hold its gate, which is held by the one that waits. -/
theorem Orderly.gate_eq_none (h : Orderly gate rank s) {l : L} {rest : List L} (hne : p ≠ q)
    (hnext : (s p).next = l :: rest) (hheld : l ∈ (s q).held) : gate l = none := by
  by_contra hgate
  obtain ⟨g, hg⟩ := Option.ne_none_iff_exists'.mp hgate
  have hp : g ∈ (s p).held := ((h.guarded p) (s p).held l rest (by rw [hnext])).1 g hg
  obtain ⟨before, after, hsplit⟩ := List.append_of_mem hheld
  have hq : g ∈ before :=
    ((h.guarded q) before l (after ++ (s q).next) (by rw [hsplit, List.append_assoc, List.cons_append])).1 g hg
  exact hne (h.exclusive p q g hp (hsplit ▸ List.mem_append_left _ hq))

/-- The locks that are waited for, one after another, have higher and higher ranks. -/
theorem Orderly.lt_of_waits (h : Orderly gate rank s) (hpq : Waits s p q) (hqr : Waits s q r) :
    ∃ l l', (s p).next.head? = some l ∧ (s q).next.head? = some l' ∧ rank l < rank l' := by
  obtain ⟨hne, l, rest, hnext, hheld⟩ := hpq
  obtain ⟨hne', l', rest', hnext', hheld'⟩ := hqr
  refine ⟨l, l', by rw [hnext, List.head?_cons], by rw [hnext', List.head?_cons], ?_⟩
  have hfree : gate l' = none := h.gate_eq_none hne' hnext' hheld'
  exact ((h.guarded q) (s q).held l' rest' (by rw [hnext'])).2 hfree l hheld

theorem Orderly.acyclic (h : Orderly gate rank s) (p : P) : ¬ Relation.TransGen (Waits s) p p := by
  have hrank : ∀ q, Relation.TransGen (Waits s) p q → ∀ r, Waits s q r →
      ∃ l l', (s p).next.head? = some l ∧ (s q).next.head? = some l' ∧ rank l < rank l' := by
    intro q hpq
    induction hpq with
    | single hpq => exact fun r hqr => h.lt_of_waits hpq hqr
    | tail _ hxq ih =>
        intro r hqr
        obtain ⟨l, l', hl, hl', hlt⟩ := ih _ hxq
        obtain ⟨k, k', hk, hk', hlt'⟩ := h.lt_of_waits hxq hqr
        obtain rfl := Option.some.inj (hl'.symm.trans hk)
        exact ⟨l, k', hl, hk', Nat.lt_trans hlt hlt'⟩
  intro hcycle
  obtain ⟨q, hpq, _⟩ := Relation.TransGen.head'_iff.mp hcycle
  obtain ⟨l, l', hl, hl', hlt⟩ := hrank p hcycle q hpq
  obtain rfl := Option.some.inj (hl.symm.trans hl')
  exact Nat.lt_irrefl _ hlt

/-- No transactions wait for each other in a circle. -/
theorem Reached.acyclic [DecidableEq P] (h : Reached plans s) (hplans : ∀ locks, plans locks → Guarded gate rank locks)
    (p : P) : ¬ Relation.TransGen (Waits s) p p := (h.orderly hplans).acyclic p

end CpcJudge.Locks
