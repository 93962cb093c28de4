import AxiomDesktop.Lib.Machine
import Mathlib.Logic.Function.Basic

/-!
# Tasks that share a state

A program (`Prog`) asks for effects, one after another, and goes on with their answers. A pool of
tasks runs programs in any interleaving over a shared state (`TaskSystem`): one step performs the
next effect of one task, and every answer the environment may give is a step of its own.

What a program does is stated by a `Protocol`: a state of its own per task, what an effect asks of
it, and how an answer moves it. `Protocol.Keeps` says that a program keeps to a protocol whatever
the answers; it is proved along the text of the program (`keeps_bind`), with no word about the other
tasks. `Protocol.run_sound` is the rule that joins the two sides: where the protocol states of all
tasks and the shared state are related by an invariant, and each effect that keeps to the protocol
keeps the invariant, the invariant holds in every state of every run.
-/

namespace AxiomDesktop

/-! ## Programs -/

/-- A program that ends with a value of `α`. -/
inductive Prog (E : Type) (R : E → Type) (α : Type) where
  | ret (a : α)
  | ask (e : E) (k : R e → Prog E R α)

namespace Prog

variable {E : Type} {R : E → Type} {α β γ : Type}

def bind : Prog E R α → (α → Prog E R β) → Prog E R β
  | ret a, f => f a
  | ask e k, f => ask e fun r => (k r).bind f

/-- One effect. -/
def effect (e : E) : Prog E R (R e) := ask e ret

instance : Monad (Prog E R) where
  pure := ret
  bind := bind

@[simp] theorem pure_eq (a : α) : (pure a : Prog E R α) = ret a := rfl

@[simp] theorem ret_bind (a : α) (f : α → Prog E R β) : (ret a >>= f) = f a := rfl

@[simp] theorem ask_bind (e : E) (k : R e → Prog E R α) (f : α → Prog E R β) :
    (ask e k >>= f) = ask e fun r => k r >>= f := rfl

/-- A program has nothing left to do. -/
def isDone : Prog E R α → Bool
  | ret _ => true
  | ask _ _ => false

end Prog

/-! ## Protocols -/

/-- A protocol for programs: what an effect asks of the protocol state, which answers there may be,
and where an answer leads. -/
structure Protocol (E : Type) (R : E → Type) (Φ : Type) where
  requires : E → Φ → Prop
  admits : (e : E) → Φ → R e → Prop
  next : (e : E) → Φ → R e → Φ

namespace Protocol

variable {E : Type} {R : E → Type} {Φ : Type} (P : Protocol E R Φ) {α β : Type}
  {Q Q' : α → Φ → Prop} {φ : Φ}

/-- The program keeps to the protocol from a protocol state, and ends in `Q`. -/
def Keeps : Prog E R α → (α → Φ → Prop) → Φ → Prop
  | .ret a, Q, φ => Q a φ
  | .ask e k, Q, φ => P.requires e φ ∧ ∀ r, P.admits e φ r → Keeps (k r) Q (P.next e φ r)

@[simp] theorem keeps_ret (a : α) : P.Keeps (.ret a) Q φ ↔ Q a φ := Iff.rfl

@[simp] theorem keeps_pure (a : α) : P.Keeps (pure a) Q φ ↔ Q a φ := Iff.rfl

@[simp] theorem keeps_ask (e : E) (k : R e → Prog E R α) :
    P.Keeps (.ask e k) Q φ ↔
      P.requires e φ ∧ ∀ r, P.admits e φ r → P.Keeps (k r) Q (P.next e φ r) :=
  Iff.rfl

theorem keeps_effect (e : E) {Q : R e → Φ → Prop} :
    P.Keeps (Prog.effect e) Q φ ↔
      P.requires e φ ∧ ∀ r, P.admits e φ r → Q r (P.next e φ r) :=
  Iff.rfl

/-- A program that keeps to the protocol ends in what its end implies. -/
theorem Keeps.mono {p : Prog E R α} (h : P.Keeps p Q φ) (hQ : ∀ a ψ, Q a ψ → Q' a ψ) :
    P.Keeps p Q' φ := by
  induction p generalizing φ with
  | ret a => exact hQ a φ h
  | ask e k ih => exact ⟨h.1, fun r hr => ih r (h.2 r hr)⟩

/-- **The rule of sequence.** -/
theorem keeps_bind {p : Prog E R α} {f : α → Prog E R β} {Q : β → Φ → Prop} :
    P.Keeps (p >>= f) Q φ ↔ P.Keeps p (fun a ψ => P.Keeps (f a) Q ψ) φ := by
  induction p generalizing φ with
  | ret a => exact Iff.rfl
  | ask e k ih => exact and_congr Iff.rfl (forall_congr' fun r => imp_congr Iff.rfl (ih r))

/-- One effect, and the program that goes on with its answer. -/
theorem keeps_effect_bind {e : E} {f : R e → Prog E R β} {Q : β → Φ → Prop} :
    P.Keeps (Prog.effect e >>= f) Q φ ↔
      P.requires e φ ∧ ∀ r, P.admits e φ r → P.Keeps (f r) Q (P.next e φ r) :=
  P.keeps_bind

/-- A program after one whose end is known. -/
theorem Keeps.bind {p : Prog E R α} {f : α → Prog E R β} {Q' : β → Φ → Prop}
    (h : P.Keeps p Q φ) (hf : ∀ a ψ, Q a ψ → P.Keeps (f a) Q' ψ) : P.Keeps (p >>= f) Q' φ :=
  P.keeps_bind.mpr (Keeps.mono P h hf)

end Protocol

/-! ## Pools of tasks -/

/-- How tasks act on a shared state: a task's effect with a choice of the environment, an event of
the environment, and the program a new task runs. `none` is what cannot happen. -/
structure TaskSystem (σ : Type) (E : Type) (R : E → Type) (χ ε ο : Type) where
  exec : σ → Nat → (e : E) → χ → Option (σ × R e)
  event : σ → ε → Option σ
  start : σ → Nat → ο → Option (σ × Prog E R Unit)

/-- A shared state and the tasks over it. -/
structure Pool (σ : Type) (E : Type) (R : E → Type) where
  shared : σ
  tasks : Nat → Option (Prog E R Unit) := fun _ => none
  next : Nat := 0

/-- One step of a pool. -/
inductive PoolStep (χ ε ο : Type) where
  | run (task : Nat) (choice : χ)
  | event (e : ε)
  | start (operation : ο)

namespace TaskSystem

variable {σ E : Type} {R : E → Type} {χ ε ο : Type} (S : TaskSystem σ E R χ ε ο)

/-- The pool after a step; what cannot happen changes nothing. -/
def step (pool : Pool σ E R) : PoolStep χ ε ο → Pool σ E R
  | .run task choice =>
    match pool.tasks task with
    | some (.ask e k) =>
      match S.exec pool.shared task e choice with
      | some (shared, r) =>
        { pool with shared, tasks := Function.update pool.tasks task (some (k r)) }
      | none => pool
    | _ => pool
  | .event e =>
    match S.event pool.shared e with
    | some shared => { pool with shared }
    | none => pool
  | .start operation =>
    match S.start pool.shared pool.next operation with
    | some (shared, program) =>
      { shared, tasks := Function.update pool.tasks pool.next (some program)
        next := pool.next + 1 }
    | none => pool

/-- The interleavings of a pool. -/
def machine : Machine (Pool σ E R) (PoolStep χ ε ο) Empty where
  step pool step := (S.step pool step, [])

variable {S} {Φ : Type} {P : Protocol E R Φ} {Inv : σ → (Nat → Φ) → Prop} {φ₀ : Φ}
  {Post : Φ → Prop} {C : Pool σ E R → PoolStep χ ε ο → Prop}

/-- The protocol state of a task is the one its program goes on from; a number that was not given
yet has the first one. -/
structure Related (P : Protocol E R Φ) (Inv : σ → (Nat → Φ) → Prop) (φ₀ : Φ) (Post : Φ → Prop)
    (pool : Pool σ E R) (φ : Nat → Φ) : Prop where
  inv : Inv pool.shared φ
  tasks : ∀ i p, pool.tasks i = some p → P.Keeps p (fun _ ψ => Post ψ) (φ i)
  fresh : ∀ i, pool.next ≤ i → φ i = φ₀ ∧ pool.tasks i = none

/-- The invariant is kept by what happens to the shared state. -/
structure Sound (S : TaskSystem σ E R χ ε ο) (P : Protocol E R Φ) (Inv : σ → (Nat → Φ) → Prop)
    (φ₀ : Φ) (Post : Φ → Prop) (C : Pool σ E R → PoolStep χ ε ο → Prop) : Prop where
  exec : ∀ pool φ i e k c s' r, Inv pool.shared φ → pool.tasks i = some (.ask e k) →
    C pool (.run i c) → P.requires e (φ i) → S.exec pool.shared i e c = some (s', r) →
    P.admits e (φ i) r ∧ Inv s' (Function.update φ i (P.next e (φ i) r))
  event : ∀ pool φ e s', Inv pool.shared φ → C pool (.event e) →
    S.event pool.shared e = some s' → Inv s' φ
  start : ∀ pool φ o s' p, Inv pool.shared φ → φ pool.next = φ₀ → C pool (.start o) →
    S.start pool.shared pool.next o = some (s', p) →
    P.Keeps p (fun _ ψ => Post ψ) φ₀ ∧ Inv s' φ

theorem Related.step {pool : Pool σ E R} {φ : Nat → Φ} (hS : Sound S P Inv φ₀ Post C)
    (h : Related P Inv φ₀ Post pool φ) {step : PoolStep χ ε ο} (hC : C pool step) :
    ∃ φ', Related P Inv φ₀ Post (S.step pool step) φ' := by
  cases step with
  | run i c =>
    simp only [TaskSystem.step]
    split
    · next e k hi =>
      split
      · next s' r hexec =>
        obtain ⟨hrequires, hk⟩ := h.tasks i _ hi
        obtain ⟨hadmits, hinv⟩ := hS.exec pool φ i e k c s' r h.inv hi hC hrequires hexec
        refine ⟨Function.update φ i (P.next e (φ i) r), hinv, ?_, ?_⟩
        · intro j p hj
          have hj : Function.update pool.tasks i (some (k r)) j = some p := hj
          by_cases hji : j = i
          · subst hji
            rw [Function.update_self, Option.some.injEq] at hj
            rw [Function.update_self, ← hj]
            exact hk r hadmits
          · rw [Function.update_of_ne hji] at hj ⊢
            exact h.tasks j p hj
        · intro j hj
          obtain ⟨hφ, hnone⟩ := h.fresh j hj
          have hji : j ≠ i := by
            rintro rfl
            rw [hi] at hnone
            cases hnone
          show _ ∧ Function.update pool.tasks i (some (k r)) j = none
          rw [Function.update_of_ne hji, Function.update_of_ne hji]
          exact ⟨hφ, hnone⟩
      · exact ⟨φ, h⟩
    · exact ⟨φ, h⟩
  | event e =>
    simp only [TaskSystem.step]
    split
    · next s' hevent => exact ⟨φ, hS.event pool φ e s' h.inv hC hevent, h.tasks, h.fresh⟩
    · exact ⟨φ, h⟩
  | start o =>
    simp only [TaskSystem.step]
    split
    · next s' p hstart =>
      obtain ⟨hφ, -⟩ := h.fresh pool.next (Nat.le_refl _)
      obtain ⟨hkeeps, hinv⟩ := hS.start pool φ o s' p h.inv hφ hC hstart
      refine ⟨φ, hinv, ?_, ?_⟩
      · intro j q hj
        have hj : Function.update pool.tasks pool.next (some p) j = some q := hj
        by_cases hjn : j = pool.next
        · subst hjn
          rw [Function.update_self, Option.some.injEq] at hj
          rw [hφ, ← hj]
          exact hkeeps
        · rw [Function.update_of_ne hjn] at hj
          exact h.tasks j q hj
      · intro j hj
        have hj : pool.next + 1 ≤ j := hj
        obtain ⟨hφj, hnone⟩ := h.fresh j (by omega)
        refine ⟨hφj, ?_⟩
        show Function.update pool.tasks pool.next (some p) j = none
        rw [Function.update_of_ne (by omega)]
        exact hnone
    · exact ⟨φ, h⟩

/-- A run goes on from related states. -/
theorem Related.run {pool : Pool σ E R} {φ : Nat → Φ} (hS : Sound S P Inv φ₀ Post C)
    (h : Related P Inv φ₀ Post pool φ) {steps : List (PoolStep χ ε ο)}
    (hC : S.machine.Meets C pool steps) :
    ∃ φ', Related P Inv φ₀ Post (S.machine.run pool steps).1 φ' := by
  refine S.machine.run_invariant (P := fun pool => ∃ φ, Related P Inv φ₀ Post pool φ) ?_ ⟨φ, h⟩ hC
  rintro pool step ⟨φ, h⟩ hstep
  exact h.step hS hstep

/-- **The rule for pools.** The invariant holds, with some protocol states, at the end of every run
whose steps meet the condition. -/
theorem Sound.run {s : σ} (hS : Sound S P Inv φ₀ Post C) (hs : Inv s fun _ => φ₀)
    {steps : List (PoolStep χ ε ο)} (hC : S.machine.Meets C { shared := s } steps) :
    ∃ φ, Related P Inv φ₀ Post (S.machine.run { shared := s } steps).1 φ := by
  have hstart : Related P Inv φ₀ Post ({ shared := s } : Pool σ E R) fun _ => φ₀ :=
    ⟨hs, nofun, fun _ _ => ⟨rfl, rfl⟩⟩
  exact hstart.run hS hC

end TaskSystem

end AxiomDesktop
