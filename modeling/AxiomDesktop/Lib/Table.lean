import Mathlib.Logic.Function.Basic

/-!
# Tables

A hash map is a function to `Option`, changed at a key by `Function.update`. The module has the
facts about such an update that a statement about every entry needs.
-/

namespace AxiomDesktop.Table

variable {α : Type*} {β : Type*} [DecidableEq α] {f : α → Option β} {a : α} {b : β}

/-- A property of every entry, after an entry that has it was put. -/
theorem forall_update {P : α → β → Prop} (h : ∀ a b, f a = some b → P a b) (hb : P a b) :
    ∀ a' b', Function.update f a (some b) a' = some b' → P a' b' := by
  intro a' b' h'
  by_cases e : a' = a
  · subst e
    rw [Function.update_self, Option.some.injEq] at h'
    exact h' ▸ hb
  · rw [Function.update_of_ne e] at h'
    exact h a' b' h'

/-- The keys, after an entry was put. -/
theorem isSome_update (a' : α) :
    (Function.update f a (some b) a').isSome = true ↔ a' = a ∨ (f a').isSome = true := by
  by_cases e : a' = a
  · subst e
    simp
  · simp [e]

/-- An entry put in the place of another leaves the keys. -/
theorem isSome_update_of_isSome (ha : (f a).isSome = true) (a' : α) :
    (Function.update f a (some b) a').isSome = (f a').isSome := by
  by_cases e : a' = a
  · subst e
    simp [ha]
  · rw [Function.update_of_ne e]

end AxiomDesktop.Table
