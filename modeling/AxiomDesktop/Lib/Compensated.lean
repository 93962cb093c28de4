import AxiomDesktop.Lib.Fallible

/-!
# Computations with a compensation

A request that changes several stores in turn undoes its earlier changes where a later one fails:
`orUndo x undo` runs `undo` before it passes the failure of `x` on. Faults are injected by `faulty`.
Both come with their rules for weakest preconditions (`wp_orUndo`, `wp_faulty`), by which a proof
follows every failure to the end of its compensation.
-/

namespace AxiomDesktop.Fallible

universe u

variable {ε σ α : Type u}

/-- The computation and, where it fails, a compensation before the failure is passed on. What
becomes of the compensation does not count. -/
def orUndo (x : Fallible ε σ α) (undo : Fallible ε σ PUnit) : Fallible ε σ α := do
  match ← attempt x with
  | .ok a => pure a
  | .error e => do
    let _ ← attempt undo
    throw e

/-- The computation, or a fault in its place. -/
def faulty (fault : Option ε) (x : Fallible ε σ α) : Fallible ε σ α :=
  match fault with
  | some e => throw e
  | none => x

/-- A compensation whose failure is passed over. -/
def bestEffort (x : Fallible ε σ α) : Fallible ε σ PUnit := do
  let _ ← attempt x
  pure ⟨⟩

section Wp

variable {ok : α → σ → Prop} {err : ε → σ → Prop} {s : σ}

/-- **The rule of a compensation.** A failure is followed by it, however it ends. -/
@[simp] theorem wp_orUndo {x : Fallible ε σ α} {undo : Fallible ε σ PUnit} :
    (orUndo x undo).Wp ok err s ↔
      x.Wp ok (fun e t => undo.Wp (fun _ r => err e r) (fun _ r => err e r) t) s := by
  unfold orUndo
  rw [wp_bind, wp_attempt]
  have hok : ∀ a t, (pure a : Fallible ε σ α).Wp ok err t ↔ ok a t := fun _ _ => wp_pure _
  have herr : ∀ e t, (do let _ ← attempt undo; throw e : Fallible ε σ α).Wp ok err t ↔
      undo.Wp (fun _ r => err e r) (fun _ r => err e r) t := by
    intro e t
    rw [wp_bind, wp_attempt]
    exact Iff.rfl
  simp only [hok, herr]

@[simp] theorem wp_faulty {fault : Option ε} {x : Fallible ε σ α} :
    (faulty fault x).Wp ok err s ↔
      (∀ e, fault = some e → err e s) ∧ (fault = none → x.Wp ok err s) := by
  cases fault <;> simp [faulty]

/-- A fault is one more failure that leaves the state. -/
theorem Wp.faulty {fault : Option ε} {x : Fallible ε σ α} (hx : x.Wp ok err s)
    (herr : ∀ e, err e s) : (Fallible.faulty fault x).Wp ok err s :=
  wp_faulty.mpr ⟨fun e _ => herr e, fun _ => hx⟩

@[simp] theorem wp_bestEffort {x : Fallible ε σ α} {ok : PUnit → σ → Prop} :
    (bestEffort x).Wp ok err s ↔ x.Wp (fun _ t => ok ⟨⟩ t) (fun _ t => ok ⟨⟩ t) s := by
  unfold bestEffort
  rw [wp_bind, wp_attempt]
  exact Iff.rfl

end Wp

end AxiomDesktop.Fallible
