import Mathlib.Data.List.Pairwise
import Mathlib.Order.Defs.Unbundled
import Mathlib.Tactic.Common

/-!
# Lists of outermost elements

A list of elements, none of which lies within another. An element is added (`addOutermost`)
where none of the list holds it already; it takes the place of those it holds, and the list has
a bound. The elements stay apart (`Outermost.addOutermost`) and within the bound, and what the
list held it holds (`held_of_addOutermost`).
-/

namespace AxiomDesktop

universe u

section

variable {α : Type u} (holds : α → α → Prop) [DecidableRel holds]

/-- Adds an element, if there is room for it; `holds a b` says that `b` lies within `a`. -/
def addOutermost (bound : Nat) (as : List α) (a : α) : Option (List α) :=
  if ∃ b ∈ as, holds b a then some as
  else if bound ≤ as.length ∧ ¬∃ b ∈ as, holds a b then none
  else some (as.filter (fun b => ¬holds a b) ++ [a])

/-- No element lies within another. -/
def Outermost (as : List α) : Prop := as.Pairwise fun a b => ¬holds a b ∧ ¬holds b a

variable {holds} {bound : Nat} {as bs : List α} {a b : α}

/-- What an addition comes to. -/
theorem addOutermost_cases (h : addOutermost holds bound as a = some bs) :
    ((∃ b ∈ as, holds b a) ∧ bs = as) ∨
      (∀ b ∈ as, ¬holds b a) ∧ (as.length < bound ∨ ∃ b ∈ as, holds a b) ∧
        bs = as.filter (fun b => ¬holds a b) ++ [a] := by
  unfold addOutermost at h
  split at h
  · next hheld => exact .inl ⟨hheld, (Option.some.inj h).symm⟩
  · next hfree =>
    split at h
    · cases h
    · next hroom =>
      refine .inr ⟨fun b hb hholds => hfree ⟨b, hb, hholds⟩, ?_, (Option.some.inj h).symm⟩
      rw [not_and_or, Nat.not_le, not_not] at hroom
      exact hroom

theorem mem_addOutermost (h : addOutermost holds bound as a = some bs) :
    b ∈ bs → b ∈ as ∨ b = a := by
  intro hb
  obtain ⟨-, rfl⟩ | ⟨-, -, rfl⟩ := addOutermost_cases h
  · exact .inl hb
  · obtain hb | hb := List.mem_append.mp hb
    · exact .inl (List.mem_filter.mp hb).1
    · exact .inr (List.mem_singleton.mp hb)

theorem Outermost.addOutermost (has : Outermost holds as)
    (h : addOutermost holds bound as a = some bs) : Outermost holds bs := by
  obtain ⟨-, rfl⟩ | ⟨hfree, -, rfl⟩ := addOutermost_cases h
  · exact has
  · refine List.pairwise_append.mpr ⟨has.filter _, List.pairwise_singleton _ _, ?_⟩
    intro b hb c hc
    obtain ⟨hb, hnot⟩ := List.mem_filter.mp hb
    rw [List.mem_singleton.mp hc]
    exact ⟨hfree b hb, of_decide_eq_true hnot⟩

theorem length_addOutermost (has : as.length ≤ bound)
    (h : addOutermost holds bound as a = some bs) : bs.length ≤ bound := by
  obtain ⟨-, rfl⟩ | ⟨-, hroom, rfl⟩ := addOutermost_cases h
  · exact has
  · rw [List.length_append, List.length_singleton]
    obtain hroom | ⟨b, hb, hholds⟩ := hroom
    · have := List.length_filter_le (fun b => decide ¬holds a b) as
      omega
    · have : (as.filter (fun b => ¬holds a b)).length < as.length :=
        List.length_filter_lt_length_iff_exists.mpr ⟨b, hb, by simpa using hholds⟩
      omega

variable [IsPreorder α holds]

/-- What an element of the list held, some element holds, and so is what was added. -/
theorem held_of_addOutermost (h : addOutermost holds bound as a = some bs) {c : α}
    (hc : (∃ b ∈ as, holds b c) ∨ holds a c) : ∃ b ∈ bs, holds b c := by
  obtain ⟨⟨d, hd, hda⟩, rfl⟩ | ⟨-, -, rfl⟩ := addOutermost_cases h
  · obtain hc | hac := hc
    · exact hc
    · exact ⟨d, hd, trans_of holds hda hac⟩
  · have hlast : holds a c → ∃ b ∈ as.filter (fun b => ¬holds a b) ++ [a], holds b c :=
      fun hac => ⟨a, List.mem_append_right _ (List.mem_singleton.mpr rfl), hac⟩
    obtain ⟨b, hb, hbc⟩ | hac := hc
    · by_cases hab : holds a b
      · exact hlast (trans_of holds hab hbc)
      · exact ⟨b, List.mem_append_left _ (List.mem_filter.mpr ⟨hb, decide_eq_true hab⟩), hbc⟩
    · exact hlast hac

end

end AxiomDesktop
