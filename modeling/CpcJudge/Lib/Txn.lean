import Mathlib.Tactic

/-!
# `Lib.Txn` — reasoning about transactions

A transaction reads and writes a state and may be refused (`EStateM`). Two ways of reasoning about one:

* *inversion*: a transaction that succeeded made every one of its steps succeed. The `_ok` lemmas, one for
  each way to build a transaction, turn `x s = .ok a t` into what each step returned;
* *triples*: `Triple P x Q E` says where `x` can end, whether it succeeds or is refused, without unfolding
  what it calls. `Keeps I x` is the special case of an invariant.
-/

namespace CpcJudge
namespace Txn

variable {ε σ α β : Type}

/-! ## Inversion -/

theorem bind_ok {x : EStateM ε σ α} {f : α → EStateM ε σ β} {s t : σ} {b : β} :
    (x >>= f) s = .ok b t ↔ ∃ a u, x s = .ok a u ∧ f a u = .ok b t := by
  show EStateM.bind x f s = _ ↔ _
  unfold EStateM.bind
  cases hx : x s with
  | ok a u =>
      constructor
      · intro h; exact ⟨a, u, rfl, h⟩
      · rintro ⟨a', u', heq, h⟩
        cases heq
        exact h
  | error e u =>
      constructor
      · intro h; cases h
      · rintro ⟨_, _, heq, _⟩; cases heq

theorem map_ok {x : EStateM ε σ α} {f : α → β} {s t : σ} {b : β} :
    (f <$> x) s = .ok b t ↔ ∃ a, x s = .ok a t ∧ b = f a := by
  show EStateM.map f x s = _ ↔ _
  unfold EStateM.map
  cases hx : x s with
  | ok a u =>
      constructor
      · intro h; cases h; exact ⟨a, rfl, rfl⟩
      · rintro ⟨_, heq, rfl⟩
        cases heq
        rfl
  | error e u =>
      constructor
      · intro h; cases h
      · rintro ⟨_, heq, _⟩; cases heq

theorem pure_ok {a b : α} {s t : σ} : (pure a : EStateM ε σ α) s = .ok b t ↔ b = a ∧ t = s := by
  constructor
  · intro h; cases h; exact ⟨rfl, rfl⟩
  · rintro ⟨rfl, rfl⟩; rfl

theorem throw_ok {e : ε} {b : α} {s t : σ} : (throw e : EStateM ε σ α) s = .ok b t ↔ False :=
  ⟨fun h => (by cases h), False.elim⟩

theorem get_ok {s t b : σ} : (get : EStateM ε σ σ) s = .ok b t ↔ b = s ∧ t = s := by
  constructor
  · intro h; cases h; exact ⟨rfl, rfl⟩
  · rintro ⟨rfl, rfl⟩; rfl

theorem modify_ok {f : σ → σ} {s t : σ} {u : PUnit} :
    (modify f : EStateM ε σ PUnit) s = .ok u t ↔ t = f s := by
  constructor
  · intro h; cases h; rfl
  · rintro rfl; rfl

theorem ite_ok {c : Prop} [Decidable c] {x y : EStateM ε σ α} {s t : σ} {a : α} :
    (if c then x else y) s = .ok a t ↔ (c ∧ x s = .ok a t) ∨ (¬ c ∧ y s = .ok a t) := by
  by_cases hc : c
  · simp [hc]
  · simp [hc]

theorem set_ok {x s t : σ} {u : PUnit} : (set x : EStateM ε σ PUnit) s = .ok u t ↔ t = x := by
  constructor
  · intro h; cases h; rfl
  · rintro rfl; rfl

/-- Refuse if `c`. -/
def refuseIf (c : Prop) [Decidable c] (e : ε) : EStateM ε σ Unit := if c then throw e else pure ()

/-- The value, or a refusal when there is none. -/
def orRefuse (value : Option α) (e : ε) : EStateM ε σ α :=
  match value with
  | none => throw e
  | some a => pure a

theorem refuseIf_ok {c : Prop} [Decidable c] {e : ε} {s t : σ} {u : Unit} :
    (refuseIf c e : EStateM ε σ Unit) s = .ok u t ↔ ¬ c ∧ t = s := by
  by_cases hc : c
  · simp [refuseIf, hc, throw_ok]
  · simp [refuseIf, hc, pure_ok]

theorem orRefuse_ok {value : Option α} {e : ε} {s t : σ} {a : α} :
    (orRefuse value e : EStateM ε σ α) s = .ok a t ↔ value = some a ∧ t = s := by
  cases value with
  | none => simp [orRefuse, throw_ok]
  | some b => simp [orRefuse, pure_ok, eq_comm]

/-! ## Triples -/

/-- From a state in `P`, `x` ends in `Q`, or it is refused and ends in `E`. -/
def Triple (P : σ → Prop) (x : EStateM ε σ α) (Q : α → σ → Prop) (E : ε → σ → Prop) : Prop :=
  ∀ s, P s → match x s with
    | .ok a t => Q a t
    | .error e t => E e t

namespace Triple
variable {P P' : σ → Prop} {Q : α → σ → Prop} {R : β → σ → Prop} {E : ε → σ → Prop}
  {x y : EStateM ε σ α} {f : α → EStateM ε σ β}

theorem ok (h : Triple P x Q E) {s t : σ} {a : α} (hs : P s) (hx : x s = .ok a t) : Q a t := by
  have := h s hs
  rwa [hx] at this

theorem error (h : Triple P x Q E) {s t : σ} {e : ε} (hs : P s) (hx : x s = .error e t) : E e t := by
  have := h s hs
  rwa [hx] at this

theorem of_pre (h : Triple P x Q E) (hP : ∀ s, P' s → P s) : Triple P' x Q E :=
  fun s hs => h s (hP s hs)

theorem weaken {Q' : α → σ → Prop} (h : Triple P x Q E) (hQ : ∀ a s, Q a s → Q' a s) :
    Triple P x Q' E := by
  intro s hs
  have := h s hs
  split
  · rename_i heq; rw [heq] at this; exact hQ _ _ this
  · rename_i heq; rw [heq] at this; exact this

theorem weakenError {E' : ε → σ → Prop} (h : Triple P x Q E) (hE : ∀ e s, E e s → E' e s) : Triple P x Q E' := by
  intro s hs
  have := h s hs
  split
  · rename_i heq; rw [heq] at this; exact this
  · rename_i heq; rw [heq] at this; exact hE _ _ this

theorem bind (hx : Triple P x Q E) (hf : ∀ a, Triple (Q a) (f a) R E) : Triple P (x >>= f) R E := by
  intro s hs
  have h := hx s hs
  show match EStateM.bind x f s with | .ok a t => R a t | .error e t => E e t
  unfold EStateM.bind
  cases hxs : x s with
  | ok a t => rw [hxs] at h; exact hf a t h
  | error e t => rw [hxs] at h; exact h

theorem map {g : α → β} (h : Triple P x (fun a => R (g a)) E) : Triple P (g <$> x) R E := by
  intro s hs
  have hrun := h s hs
  show match EStateM.map g x s with | .ok a t => R a t | .error e t => E e t
  unfold EStateM.map
  cases hx : x s with
  | ok a t => rw [hx] at hrun; exact hrun
  | error e t => rw [hx] at hrun; exact hrun

theorem discard {S : σ → Prop} (h : Triple P x (fun _ => S) E) : Triple P (discard x) (fun _ => S) E :=
  map (g := Function.const α PUnit.unit) h

theorem ret (a : α) (h : ∀ s, P s → Q a s) : Triple P (pure a) Q E := fun s hs => h s hs

theorem refused (e : ε) (h : ∀ s, P s → E e s) : Triple P (throw e : EStateM ε σ α) Q E :=
  fun s hs => h s hs

theorem ite {c : Prop} [Decidable c] (hx : c → Triple P x Q E) (hy : ¬ c → Triple P y Q E) :
    Triple P (if c then x else y) Q E := by
  by_cases hc : c
  · rw [if_pos hc]; exact hx hc
  · rw [if_neg hc]; exact hy hc

theorem read {R : σ → σ → Prop} (h : ∀ s, P s → R s s) : Triple P (get : EStateM ε σ σ) R E :=
  fun s hs => h s hs

theorem write {g : σ → σ} {R : PUnit → σ → Prop} (h : ∀ s, P s → R ⟨⟩ (g s)) :
    Triple P (modify g : EStateM ε σ PUnit) R E := fun s hs => h s hs

/-- What a transaction wrote before it was refused is still there where the refusal is handled. -/
theorem handled {E' : ε → σ → Prop} {h : ε → EStateM ε σ α} (hx : Triple P x Q E') (hh : ∀ e, Triple (E' e) (h e) Q E) :
    Triple P (tryCatch x h) Q E := by
  intro s hs
  have hrun := hx s hs
  show match EStateM.tryCatch x h s with | .ok a t => Q a t | .error e t => E e t
  unfold EStateM.tryCatch
  cases hxs : x s with
  | ok a t => rw [hxs] at hrun; exact hrun
  | error e t => rw [hxs] at hrun; exact hh e t hrun

/-- One state at a time. -/
theorem each (h : ∀ s, P s → Triple (· = s) x Q E) : Triple P x Q E := fun s hs => h s hs s rfl

/-- A fact that does not speak of the state can be assumed on entry. -/
theorem assume {c : Prop} (h : c → Triple P x Q E) : Triple (fun s => c ∧ P s) x Q E :=
  fun s hs => h hs.1 s hs.2

end Triple

/-- `x`, and whether it ended without being refused. -/
def attempt (x : EStateM ε σ PUnit) : EStateM ε σ Bool := tryCatch (do x; pure true) fun _ => pure false

theorem Triple.attempt {P Q : σ → Prop} {E' : ε → σ → Prop} {E : ε → σ → Prop} {x : EStateM ε σ PUnit}
    (h : Triple P x (fun _ => Q) E') : Triple P (attempt x) (fun ended s => if ended then Q s else ∃ e, E' e s) E := by
  apply Triple.handled
  · exact h.bind fun _ => Triple.ret _ fun s hs => by simpa using hs
  · intro e
    exact Triple.ret _ fun s hs => by simpa using ⟨e, hs⟩

/-- `x` ends without being refused. -/
def Completes (x : EStateM ε σ α) (s : σ) : Prop := ∃ a t, x s = .ok a t

theorem Triple.completes {P : σ → Prop} {Q : α → σ → Prop} {x : EStateM ε σ α} {s : σ}
    (h : Triple P x Q fun _ _ => False) (hs : P s) : Completes x s := by
  cases hx : x s with
  | ok a t => exact ⟨a, t, hx⟩
  | error e t => exact (h.error hs hx).elim

theorem not_completes {x : EStateM ε σ α} {s t : σ} {e : ε} (h : x s = .error e t) : ¬ Completes x s := by
  rintro ⟨a, t, hok⟩
  cases h.symm.trans hok

/-- The state at the end of `x`, refused or not. -/
def endOf (x : EStateM ε σ α) (s : σ) : σ :=
  match x s with
  | .ok _ t => t
  | .error _ t => t

theorem bind_run {x : EStateM ε σ α} {f : α → EStateM ε σ β} {s t : σ} {a : α} (h : x s = .ok a t) :
    (x >>= f) s = f a t := by
  show EStateM.bind x f s = _
  unfold EStateM.bind
  rw [h]

theorem bind_error {x : EStateM ε σ α} {f : α → EStateM ε σ β} {s t : σ} {e : ε} (h : x s = .error e t) :
    (x >>= f) s = .error e t := by
  show EStateM.bind x f s = _
  unfold EStateM.bind
  rw [h]

namespace Triple
variable {P : σ → Prop} {R : β → σ → Prop} {E : ε → σ → Prop}

/-- The rest of a transaction that reads the state knows it. -/
theorem getBind {f : σ → EStateM ε σ β} (h : ∀ s, P s → Triple (· = s) (f s) R E) : Triple P (get >>= f) R E :=
  fun s hs => h s hs s rfl

theorem refuseIfBind {c : Prop} [Decidable c] {e : ε} {f : Unit → EStateM ε σ β} (he : c → ∀ s, P s → E e s)
    (h : ¬ c → Triple P (f ()) R E) : Triple P (refuseIf c e >>= f) R E := by
  intro s hs
  by_cases hc : c
  · have hrun : (refuseIf c e : EStateM ε σ Unit) s = .error e s := by
      rw [refuseIf, if_pos hc]
      rfl
    rw [bind_error hrun]
    exact he hc s hs
  · rw [bind_run (refuseIf_ok.mpr ⟨hc, rfl⟩)]
    exact h hc s hs

theorem orRefuseBind {value : Option α} {e : ε} (he : value = none → ∀ s, P s → E e s)
    (h : ∀ a, value = some a → Triple P (f a) R E) : Triple P (orRefuse value e >>= f) R E := by
  cases value with
  | none => exact fun s hs => he rfl s hs
  | some a => exact fun s hs => h a rfl s hs

/-- A step that only gives a value. -/
theorem givesBind {x : EStateM ε σ α} {f : α → EStateM ε σ β} {a : α} (hx : ∀ s, P s → x s = .ok a s)
    (h : Triple P (f a) R E) : Triple P (x >>= f) R E := by
  intro s hs
  rw [bind_run (hx s hs)]
  exact h s hs

theorem modifyBind {g : σ → σ} {f : PUnit → EStateM ε σ β} {s : σ} (h : Triple (· = g s) (f ⟨⟩) R E) :
    Triple (· = s) (modify g >>= f) R E := by
  rintro _ rfl
  exact h _ rfl

end Triple

theorem completes_bind {x : EStateM ε σ α} {f : α → EStateM ε σ β} {s t : σ} {a : α} (h : x s = .ok a t) :
    Completes (x >>= f) s ↔ Completes (f a) t := by
  unfold Completes
  rw [bind_run h]

theorem attempt_ok {x : EStateM ε σ PUnit} {s t : σ} {u : PUnit} (h : x s = .ok u t) : attempt x s = .ok true t := by
  show EStateM.tryCatch (x >>= fun _ => pure true) _ s = _
  unfold EStateM.tryCatch
  rw [bind_run h]
  rfl

theorem endOf_ok {x : EStateM ε σ α} {s t : σ} {a : α} (h : x s = .ok a t) : endOf x s = t := by
  unfold endOf
  rw [h]

/-- What is done before the last step of a transaction goes through. -/
theorem endOf_bind {x : EStateM ε σ α} {f : α → EStateM ε σ β} {s t : σ} {a : α} (h : x s = .ok a t) :
    endOf (x >>= f) s = endOf (f a) t := by
  unfold endOf
  rw [bind_run h]

theorem Triple.endOf {P R : σ → Prop} {x : EStateM ε σ α} (h : Triple P x (fun _ => R) fun _ => R) {s : σ} (hs : P s) :
    R (endOf x s) := by
  have hrun := h s hs
  unfold Txn.endOf
  split
  · rename_i heq
    rwa [heq] at hrun
  · rename_i heq
    rwa [heq] at hrun

/-- `x` keeps the invariant `I`, and is only refused in `E`. -/
def Keeps (I : σ → Prop) (x : EStateM ε σ α) (E : ε → σ → Prop) : Prop := Triple I x (fun _ => I) E

namespace Keeps
variable {I : σ → Prop} {E : ε → σ → Prop} {x y : EStateM ε σ α} {f : α → EStateM ε σ β}

theorem bind (hx : Keeps I x E) (hf : ∀ a, Keeps I (f a) E) : Keeps I (x >>= f) E := Triple.bind hx hf

theorem ret (a : α) : Keeps I (pure a : EStateM ε σ α) E := Triple.ret a fun _ h => h

theorem ite {c : Prop} [Decidable c] (hx : c → Keeps I x E) (hy : ¬ c → Keeps I y E) :
    Keeps I (if c then x else y) E := Triple.ite hx hy

theorem read : Keeps I (get : EStateM ε σ σ) E := Triple.read fun _ h => h

theorem write {g : σ → σ} (h : ∀ s, I s → I (g s)) : Keeps I (modify g : EStateM ε σ PUnit) E :=
  Triple.write h

theorem forM {l : List β} {g : β → EStateM ε σ PUnit} (h : ∀ b ∈ l, Keeps I (g b) E) :
    Keeps I (l.forM g) E := by
  induction l with
  | nil => exact ret _
  | cons b l ih => exact bind (h b (by simp)) fun _ => ih fun c hc => h c (by simp [hc])

end Keeps

end Txn
end CpcJudge
