import Mathlib.Data.List.Induction
import Mathlib.Tactic.Common

/-!
# Machines and their runs

A machine takes one input at a time, moves to a new state and answers with a list of outputs. A
run feeds it a list of inputs and concatenates the answers. The module gives the two rules every
safety proof about a machine uses:

* `Machine.run_induction`, induction on the inputs read so far, for a property of the inputs, the
  outputs and the state together;
* `Machine.run_invariant`, its case for a property of the state alone;
* `Machine.run_always`, for a property every output has beside those before it (`Always`).

The first two take the steps of the run to meet a condition `C` on the state before the step and the
input (`Machine.Meets`), so that a result about the runs that stay inside a condition is proved by
the same rules as a result about all of them.
-/

namespace AxiomDesktop

universe u v w

/-- A machine over states `σ`, inputs `ι` and outputs `ο`. -/
structure Machine (σ : Type u) (ι : Type v) (ο : Type w) where
  /-- The state after one input, and the outputs it causes, in order. -/
  step : σ → ι → σ × List ο

namespace Machine

variable {σ : Type u} {ι : Type v} {ο : Type w} (M : Machine σ ι ο)

/-- The run over a list of inputs: the last state and all outputs, in order. -/
def run (s : σ) : List ι → σ × List ο
  | [] => (s, [])
  | i :: is =>
    let r := M.step s i
    let q := run r.1 is
    (q.1, r.2 ++ q.2)

/-- Every step of the run over the inputs meets `C`, a condition on the state before the step and
its input. -/
def Meets (C : σ → ι → Prop) (s : σ) : List ι → Prop
  | [] => True
  | i :: is => C s i ∧ Meets C (M.step s i).1 is

instance decidableMeets (C : σ → ι → Prop) [∀ s i, Decidable (C s i)] :
    (s : σ) → (is : List ι) → Decidable (M.Meets C s is)
  | _, [] => .isTrue trivial
  | s, i :: is =>
    have := decidableMeets C (M.step s i).1 is
    inferInstanceAs (Decidable (C s i ∧ _))

@[simp] theorem run_nil (s : σ) : M.run s [] = (s, []) := rfl

@[simp] theorem run_cons (s : σ) (i : ι) (is : List ι) :
    M.run s (i :: is) =
      ((M.run (M.step s i).1 is).1, (M.step s i).2 ++ (M.run (M.step s i).1 is).2) := rfl

@[simp] theorem meets_nil (C : σ → ι → Prop) (s : σ) : M.Meets C s [] := trivial

@[simp] theorem meets_cons (C : σ → ι → Prop) (s : σ) (i : ι) (is : List ι) :
    M.Meets C s (i :: is) ↔ C s i ∧ M.Meets C (M.step s i).1 is := Iff.rfl

/-- A run over two lists of inputs is the run over the first followed by the run over the second. -/
theorem run_append (s : σ) (is js : List ι) :
    M.run s (is ++ js) =
      ((M.run (M.run s is).1 js).1, (M.run s is).2 ++ (M.run (M.run s is).1 js).2) := by
  induction is generalizing s with
  | nil => rfl
  | cons i is ih => rw [List.cons_append, run_cons, ih, run_cons, List.append_assoc]

/-- The last step of a run. -/
theorem run_snoc (s : σ) (is : List ι) (i : ι) :
    M.run s (is ++ [i]) =
      ((M.step (M.run s is).1 i).1, (M.run s is).2 ++ (M.step (M.run s is).1 i).2) := by
  rw [run_append]
  simp

/-- The steps of a run over two lists meet `C` exactly when those of both parts do. -/
theorem meets_append (C : σ → ι → Prop) (s : σ) (is js : List ι) :
    M.Meets C s (is ++ js) ↔ M.Meets C s is ∧ M.Meets C (M.run s is).1 js := by
  induction is generalizing s with
  | nil => simp
  | cons i is ih => simp [ih, and_assoc]

/-- Where every input meets the condition in every state, so does the whole run. -/
theorem meets_of_forall {C : σ → ι → Prop} {is : List ι} (h : ∀ i ∈ is, ∀ s, C s i) (s : σ) :
    M.Meets C s is := by
  induction is generalizing s with
  | nil => trivial
  | cons i is ih =>
    rw [List.forall_mem_cons] at h
    exact ⟨h.1 s, ih h.2 _⟩

/-- The steps of a run meet two conditions together. -/
theorem Meets.and {C C' : σ → ι → Prop} {s : σ} {is : List ι} (h : M.Meets C s is)
    (h' : M.Meets C' s is) : M.Meets (fun s i => C s i ∧ C' s i) s is := by
  induction is generalizing s with
  | nil => trivial
  | cons i is ih => exact ⟨⟨h.1, h'.1⟩, ih h.2 h'.2⟩

/-- **Induction over a run.** A property of the inputs read, the outputs given and the state
reached that holds before the first input and is kept by every step that meets `C` holds at the
end of every run whose steps meet `C`. -/
theorem run_induction {C : σ → ι → Prop} {motive : List ι → List ο → σ → Prop} {s : σ}
    (start : motive [] [] s)
    (step : ∀ is os t i, motive is os t → C t i →
      motive (is ++ [i]) (os ++ (M.step t i).2) (M.step t i).1)
    (is : List ι) (hC : M.Meets C s is) : motive is (M.run s is).2 (M.run s is).1 := by
  induction is using List.reverseRecOn with
  | nil => exact start
  | append_singleton is i ih =>
    rw [meets_append] at hC
    rw [run_snoc]
    exact step is _ _ i (ih hC.1) hC.2.1

/-- **The invariant rule.** A property of the state that every step meeting `C` keeps holds at
the end of every run whose steps meet `C`. -/
theorem run_invariant {C : σ → ι → Prop} {P : σ → Prop}
    (hstep : ∀ s i, P s → C s i → P (M.step s i).1) {s : σ} (hs : P s) {is : List ι}
    (hC : M.Meets C s is) : P (M.run s is).1 :=
  M.run_induction (C := C) (motive := fun _ _ t => P t) hs
    (fun _ _ t i ht hi => hstep t i ht hi) is hC

/-- The invariant rule for a property that every step keeps. -/
theorem run_invariant' {P : σ → Prop} (hstep : ∀ s i, P s → P (M.step s i).1) {s : σ} (hs : P s)
    (is : List ι) : P (M.run s is).1 :=
  M.run_invariant (C := fun _ _ => True) (fun s i h _ => hstep s i h) hs
    (M.meets_of_forall (fun _ _ _ => trivial) s)

/-- What a step that does not meet the condition brings about, and every step keeps. -/
theorem run_of_not_meets {C : σ → ι → Prop} {P : σ → Prop}
    (hbroken : ∀ s i, ¬C s i → P (M.step s i).1) (hstep : ∀ s i, P s → P (M.step s i).1) {s : σ}
    {is : List ι} (h : ¬M.Meets C s is) : P (M.run s is).1 := by
  induction is generalizing s with
  | nil => exact absurd trivial h
  | cons i is ih =>
    rw [run_cons]
    by_cases hi : C s i
    · exact ih fun hrest => h ⟨hi, hrest⟩
    · exact M.run_invariant' hstep (hbroken s i hi) is

end Machine

/-! ## What every output has beside those before it -/

section Always

variable {ο : Type w} {P Q : List ο → ο → Prop} {os os' : List ο} {o : ο}

/-- Every element of the list has the property beside the elements before it. -/
def Always (P : List ο → ο → Prop) (os : List ο) : Prop :=
  ∀ before o after, os = before ++ o :: after → P before o

@[simp] theorem always_nil : Always P ([] : List ο) := by
  intro before o after h
  simp at h

@[simp] theorem always_cons :
    Always P (o :: os) ↔ P [] o ∧ Always (fun before => P (o :: before)) os := by
  constructor
  · intro h
    exact ⟨h [] o os rfl, fun before o' after e => h (o :: before) o' after (by rw [e]; rfl)⟩
  · rintro ⟨hhead, htail⟩ before o' after e
    cases before with
    | nil =>
      obtain ⟨rfl, -⟩ := List.cons.inj e
      exact hhead
    | cons b before =>
      obtain ⟨rfl, erest⟩ := List.cons.inj e
      exact htail before o' after erest

theorem always_append :
    Always P (os ++ os') ↔ Always P os ∧ Always (fun before => P (os ++ before)) os' := by
  induction os generalizing P with
  | nil => simp
  | cons o os ih => simp [ih, and_assoc]

theorem Always.mono (h : Always P os) (hPQ : ∀ before, ∀ o ∈ os, P before o → Q before o) :
    Always Q os := by
  intro before o after e
  exact hPQ before o (by simp [e]) (h before o after e)

/-- What no element behind a point changes is what it was there. -/
theorem Always.unchanged {α : Type*} {f : List ο → α} {before after : List ο}
    (h : Always P (before ++ after))
    (hf : ∀ more o, P (before ++ more) o → f (before ++ (more ++ [o])) = f (before ++ more)) :
    f (before ++ after) = f before := by
  rw [always_append] at h
  obtain ⟨-, h⟩ := h
  induction after using List.reverseRecOn with
  | nil => rw [List.append_nil]
  | append_singleton after o ih =>
    rw [always_append, always_cons] at h
    obtain ⟨hafter, ho, -⟩ := h
    rw [List.append_nil] at ho
    rw [hf after o ho, ih hafter]

theorem Machine.run_always {σ : Type u} {ι : Type v} (M : Machine σ ι ο)
    {I : List ο → σ → Prop} {s : σ} (start : I [] s)
    (step : ∀ os t i, I os t → I (os ++ (M.step t i).2) (M.step t i).1 ∧
      Always (fun before => P (os ++ before)) (M.step t i).2)
    (is : List ι) : I (M.run s is).2 (M.run s is).1 ∧ Always P (M.run s is).2 := by
  refine M.run_induction (C := fun _ _ => True)
    (motive := fun _ os t => I os t ∧ Always P os) ⟨start, always_nil⟩ ?_ is
    (M.meets_of_forall (fun _ _ _ => trivial) s)
  intro _ os t i h _
  obtain ⟨hI, hP⟩ := step os t i h.1
  exact ⟨hI, always_append.mpr ⟨h.2, hP⟩⟩

end Always

/-! ## What has happened since -/

section Since

variable {ο : Type w} {P Q : ο → Prop} {os os' : List ο} {o : ο}

/-- The property held of an element, and since then the other one has held of none. -/
def Since (P Q : ο → Prop) (os : List ο) : Prop :=
  ∃ before o after, os = before ++ o :: after ∧ P o ∧ ∀ o' ∈ after, ¬ Q o'

theorem not_since_nil : ¬ Since P Q [] := by
  rintro ⟨before, o, after, h, -⟩
  simp at h

theorem since_snoc : Since P Q (os ++ [o]) ↔ P o ∨ Since P Q os ∧ ¬ Q o := by
  constructor
  · rintro ⟨before, a, after, h, ha, hafter⟩
    obtain rfl | ⟨after, b, rfl⟩ := List.eq_nil_or_concat after
    · obtain ⟨-, h⟩ := List.append_inj' h rfl
      obtain rfl : o = a := by simpa using h
      exact .inl ha
    · rw [List.concat_eq_append] at h hafter
      rw [← List.cons_append, ← List.append_assoc] at h
      obtain ⟨rfl, h⟩ := List.append_inj' h rfl
      obtain rfl : o = b := by simpa using h
      refine .inr ⟨⟨before, a, after, rfl, ha, fun o' ho' => ?_⟩, ?_⟩
      · exact hafter o' (List.mem_append_left _ ho')
      · exact hafter o (List.mem_append_right _ List.mem_cons_self)
  · rintro (ho | ⟨⟨before, a, after, rfl, ha, hafter⟩, ho⟩)
    · exact ⟨os, o, [], rfl, ho, fun _ h => absurd h List.not_mem_nil⟩
    · refine ⟨before, a, after ++ [o], by simp, ha, fun o' ho' => ?_⟩
      obtain ho' | ho' := List.mem_append.mp ho'
      · exact hafter o' ho'
      · rwa [List.mem_singleton.mp ho']

theorem Since.append (h : Since P Q os) (hmore : ∀ o ∈ os', ¬ Q o) : Since P Q (os ++ os') := by
  obtain ⟨before, o, after, rfl, ho, hafter⟩ := h
  refine ⟨before, o, after ++ os', by simp, ho, fun o' ho' => ?_⟩
  rcases List.mem_append.mp ho' with ho' | ho'
  · exact hafter o' ho'
  · exact hmore o' ho'

end Since

end AxiomDesktop
