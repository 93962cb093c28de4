import Mathlib.Data.Finset.Card
import Mathlib.Data.List.Destutter
import Mathlib.Data.List.Sort
import Mathlib.Order.Lattice
import Mathlib.Tactic.Common

/-!
# The first distinct values of a list

A list that is sorted, freed of repetitions and cut (`firsts`). What is cut shows in the length: a
value of the list is among the first ones, or they are as many as may be (`mem_firsts`).
-/

namespace AxiomDesktop.Firsts

variable {α : Type*} [LinearOrder α]

/-- The values of a list in their order, each once. -/
def distinct (l : List α) : List α := (l.mergeSort fun a b => decide (a ≤ b)).destutter (· ≠ ·)

/-- The first of them. -/
def firsts (count : Nat) (l : List α) : List α := (distinct l).take count

variable {l l' : List α} {a : α} {count : Nat}

theorem mem_destutter' (b : α) : a ∈ b :: l → a ∈ l.destutter' (· ≠ ·) b := by
  induction l generalizing b with
  | nil => exact id
  | cons c rest ih =>
    intro h
    by_cases hbc : b ≠ c
    · rw [List.destutter'_cons_pos rest hbc]
      rcases List.mem_cons.mp h with rfl | hrest
      · exact List.mem_cons_self
      · exact List.mem_cons_of_mem _ (ih c hrest)
    · rw [List.destutter'_cons_neg rest hbc]
      obtain rfl := not_not.mp hbc
      rcases List.mem_cons.mp h with rfl | hrest
      · exact ih _ List.mem_cons_self
      · exact ih _ hrest

theorem mem_distinct : a ∈ distinct l ↔ a ∈ l := by
  have hperm := List.mergeSort_perm l fun a b => decide (a ≤ b)
  rw [distinct, ← hperm.mem_iff]
  refine ⟨(List.destutter_sublist _ _).mem, fun h => ?_⟩
  cases hsort : l.mergeSort fun a b => decide (a ≤ b) with
  | nil =>
    rw [hsort] at h
    cases h
  | cons b rest =>
    rw [hsort] at h
    exact mem_destutter' b h

/-- A sorted list whose neighbours differ increases. -/
theorem isChain_lt (hle : l.Pairwise (· ≤ ·)) (hne : l.IsChain (· ≠ ·)) : l.IsChain (· < ·) := by
  induction l with
  | nil => exact .nil
  | cons a rest ih =>
    obtain ⟨ha, hrest⟩ := List.pairwise_cons.mp hle
    cases rest with
    | nil => exact .singleton a
    | cons b rest =>
      obtain ⟨hab, hne⟩ := List.isChain_cons_cons.mp hne
      exact List.isChain_cons_cons.mpr ⟨lt_of_le_of_ne (ha b List.mem_cons_self) hab, ih hrest hne⟩

theorem distinct_nodup (l : List α) : (distinct l).Nodup := by
  have hsorted : (l.mergeSort fun a b => decide (a ≤ b)).Pairwise (· ≤ ·) := by
    have h := @List.pairwise_mergeSort α (fun a b => decide (a ≤ b))
      (fun a b c hab hbc => by simpa using le_trans (of_decide_eq_true hab) (of_decide_eq_true hbc))
      (fun a b => by simpa using le_total a b) l
    exact h.imp of_decide_eq_true
  have hle : (distinct l).Pairwise (· ≤ ·) := hsorted.sublist (List.destutter_sublist _ _)
  have hlt := isChain_lt hle (List.isChain_destutter _ _)
  exact hlt.pairwise.imp fun h => ne_of_lt h

theorem length_distinct (l : List α) : (distinct l).length = l.toFinset.card := by
  rw [← List.toFinset_card_of_nodup (distinct_nodup l)]
  congr 1
  ext a
  rw [List.mem_toFinset, List.mem_toFinset, mem_distinct]

theorem length_firsts (count : Nat) (l : List α) :
    (firsts count l).length = min count l.toFinset.card := by
  rw [firsts, List.length_take, length_distinct]

theorem firsts_nodup (count : Nat) (l : List α) : (firsts count l).Nodup :=
  (distinct_nodup l).sublist (List.take_sublist _ _)

theorem firsts_subset : firsts count l ⊆ l := fun _ h => mem_distinct.mp (List.mem_of_mem_take h)

theorem firsts_eq_nil (hcount : 0 < count) : firsts count l = [] ↔ l = [] := by
  rw [← List.length_eq_zero_iff, length_firsts, ← List.toFinset_eq_empty_iff, ← Finset.card_eq_zero]
  omega

/-- A value is among the first ones, where these are not as many as may be. -/
theorem mem_firsts (h : l.toFinset.card < count) : a ∈ firsts count l ↔ a ∈ l := by
  rw [firsts, List.take_of_length_le (by rw [length_distinct]; omega), mem_distinct]

/-- The first values of two lists are among the first values of both. -/
theorem card_firsts_append (count : Nat) (l l' : List α) :
    min count (firsts count l ++ firsts count l').toFinset.card = min count (l ++ l').toFinset.card := by
  have hsub : (firsts count l ++ firsts count l').toFinset ⊆ (l ++ l').toFinset := by
    intro a ha
    rw [List.mem_toFinset, List.mem_append] at ha ⊢
    exact ha.imp (fun h => firsts_subset h) fun h => firsts_subset h
  have hcard := Finset.card_le_card hsub
  have hfull : ∀ k : List α, k = l ∨ k = l' → count ≤ k.toFinset.card →
      count ≤ (firsts count l ++ firsts count l').toFinset.card := by
    intro k hk hle
    have hlength := length_firsts count k
    rw [min_eq_left hle, ← List.toFinset_card_of_nodup (firsts_nodup count k)] at hlength
    refine hlength.symm.trans_le (Finset.card_le_card fun a ha => ?_)
    rw [List.mem_toFinset] at ha ⊢
    rcases hk with rfl | rfl
    · exact List.mem_append_left _ ha
    · exact List.mem_append_right _ ha
  by_cases hl : count ≤ l.toFinset.card
  · have := hfull l (.inl rfl) hl
    omega
  · by_cases hl' : count ≤ l'.toFinset.card
    · have := hfull l' (.inr rfl) hl'
      omega
    · have heq : (firsts count l ++ firsts count l').toFinset = (l ++ l').toFinset := by
        ext a
        rw [List.mem_toFinset, List.mem_toFinset, List.mem_append, List.mem_append,
          mem_firsts (Nat.not_le.mp hl), mem_firsts (Nat.not_le.mp hl')]
      rw [heq]

/-- A value of one of two lists is among the first of their first values, where these are not as
many as may be. -/
theorem mem_firsts_append (h : (l ++ l').toFinset.card < count) :
    a ∈ firsts count (firsts count l ++ firsts count l') ↔ a ∈ l ++ l' := by
  have hcard := card_firsts_append count l l'
  have hleft : l.toFinset.card ≤ (l ++ l').toFinset.card :=
    Finset.card_le_card fun a ha => by
      rw [List.mem_toFinset] at ha ⊢
      exact List.mem_append_left _ ha
  have hright : l'.toFinset.card ≤ (l ++ l').toFinset.card :=
    Finset.card_le_card fun a ha => by
      rw [List.mem_toFinset] at ha ⊢
      exact List.mem_append_right _ ha
  rw [mem_firsts (by omega), List.mem_append, List.mem_append, mem_firsts (by omega), mem_firsts (by omega)]

theorem length_firsts_append (count : Nat) (l l' : List α) :
    (firsts count (firsts count l ++ firsts count l')).length = min count (l ++ l').toFinset.card := by
  rw [length_firsts, card_firsts_append]

end AxiomDesktop.Firsts
