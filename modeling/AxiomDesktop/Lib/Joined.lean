import Mathlib.Algebra.BigOperators.Group.List.Basic
import Mathlib.Algebra.GroupWithZero.Nat
import Mathlib.Tactic.Common

/-!
# Parts joined by a separator

What is shown of parts that are joined by a separator, when the joined list is cut somewhere, is the
first parts and a beginning of the next one (`Joined.Shows`). A part is in it wholly, or at least in
part, by where it begins in the joined list (`Joined.Wholly`, `Joined.Included`), and both are read
off the cut (`Shows.wholly_iff`, `Shows.included_iff`). Where no part has the separator in it, the
shown list splits into the parts that it shows (`Shows.splitOn`).
-/

namespace AxiomDesktop.Joined

variable {α : Type*} {sep : α} {parts : List (List α)} {shown part : List α} {k m : Nat}

/-- Where a part begins in the joined list. -/
def offset (parts : List (List α)) (m : Nat) : Nat :=
  ((parts.take m).map fun part => part.length + 1).sum

/-- A part is in what is shown of the joined list. -/
def Wholly (parts : List (List α)) (shown : List α) (m : Nat) : Prop :=
  ∃ part, parts[m]? = some part ∧ offset parts m + part.length ≤ shown.length

/-- A part, or some of it, is in what is shown of the joined list. -/
def Included (parts : List (List α)) (shown : List α) (m : Nat) : Prop :=
  Wholly parts shown m ∨ (m < parts.length ∧ offset parts m < shown.length)

/-- A list is the first parts, and a beginning of the next one. -/
structure Shows (sep : α) (parts : List (List α)) (shown : List α) (k : Nat) (part : List α) : Prop where
  lt : k < parts.length
  begins : part <+: parts[k]
  eq : shown = [sep].intercalate (parts.take k ++ [part])

theorem offset_succ (h : m < parts.length) :
    offset parts (m + 1) = offset parts m + parts[m].length + 1 := by
  rw [offset, offset, List.take_add_one, List.getElem?_eq_getElem h]
  simp only [Option.toList_some, List.map_append, List.map_cons, List.map_nil, List.sum_append,
    List.sum_cons, List.sum_nil]
  omega

theorem offset_mono {n : Nat} (h : m ≤ n) : offset parts m ≤ offset parts n := by
  induction h with
  | refl => exact Nat.le_refl _
  | @step n _ ih =>
    by_cases hn : n < parts.length
    · rw [offset_succ hn]
      omega
    · rw [offset, offset, List.take_of_length_le (by omega : parts.length ≤ n + 1)]
      rw [offset, offset, List.take_of_length_le (by omega : parts.length ≤ n)] at ih
      exact ih

theorem offset_lt {n : Nat} (h : m < n) : offset parts (m + 1) ≤ offset parts n := offset_mono h

theorem length_intercalate_concat (parts : List (List α)) (part : List α) :
    ([sep].intercalate (parts ++ [part])).length =
      (parts.map fun part => part.length + 1).sum + part.length := by
  induction parts with
  | nil => simp
  | cons first rest ih =>
    rw [List.cons_append, List.intercalate_cons_of_ne_nil (by simp), List.length_append,
      List.length_append, ih, List.map_cons, List.sum_cons, List.length_singleton]
    omega

theorem intercalate_append {front back : List (List α)} (hfront : front ≠ []) (hback : back ≠ []) :
    [sep].intercalate (front ++ back) = [sep].intercalate front ++ sep :: [sep].intercalate back := by
  induction front with
  | nil => exact absurd rfl hfront
  | cons first rest ih =>
    cases rest with
    | nil =>
      rw [List.singleton_append, List.intercalate_cons_of_ne_nil hback, List.intercalate_singleton]
      simp
    | cons second rest =>
      rw [List.cons_append, List.intercalate_cons_of_ne_nil (by simp), ih (by simp),
        List.intercalate_cons_cons]
      simp

/-- The first parts, with the separator behind them, begin the joined list. -/
theorem prefix_take (hk : k + 1 < parts.length) :
    [sep].intercalate (parts.take (k + 1)) ++ [sep] <+: [sep].intercalate parts := by
  have htake : parts.take (k + 1) ≠ [] := List.ne_nil_of_length_pos (by rw [List.length_take]; omega)
  have hdrop : parts.drop (k + 1) ≠ [] := List.ne_nil_of_length_pos (by rw [List.length_drop]; omega)
  conv_rhs => rw [← List.take_append_drop (k + 1) parts, intercalate_append htake hdrop]
  exact ⟨[sep].intercalate (parts.drop (k + 1)), by simp⟩

/-- A list that is cut off a joined one shows its first parts. -/
theorem shows_of_prefix (hne : parts ≠ []) (h : shown <+: [sep].intercalate parts) :
    ∃ k part, Shows sep parts shown k part := by
  induction parts generalizing shown with
  | nil => exact absurd rfl hne
  | cons first rest ih =>
    cases rest with
    | nil =>
      rw [List.intercalate_singleton] at h
      exact ⟨0, shown, Nat.zero_lt_one, h, (List.intercalate_singleton).symm⟩
    | cons second rest =>
      obtain ⟨tail, htail⟩ := h
      rw [List.intercalate_cons_cons, List.append_assoc] at htail
      rcases List.append_eq_append_iff.mp htail with ⟨more, hfirst, _⟩ | ⟨more, hshown, hmore⟩
      · exact ⟨0, shown, Nat.zero_lt_succ _, ⟨more, hfirst.symm⟩, (List.intercalate_singleton).symm⟩
      · cases more with
        | nil =>
          rw [List.append_nil] at hshown
          exact ⟨0, shown, Nat.zero_lt_succ _, hshown ▸ List.prefix_rfl, (List.intercalate_singleton).symm⟩
        | cons c more =>
          obtain ⟨hc, hrest⟩ := List.cons.inj hmore
          obtain ⟨k, part, hlt, hpart, heq⟩ := ih (List.cons_ne_nil _ _) ⟨tail, hrest.symm⟩
          refine ⟨k + 1, part, Nat.succ_lt_succ hlt, hpart, ?_⟩
          rw [List.take_succ_cons, List.cons_append, List.intercalate_cons_of_ne_nil (by simp), ← heq,
            hshown, ← hc]
          simp

namespace Shows

variable (h : Shows sep parts shown k part)
include h

theorem length_eq : shown.length = offset parts k + part.length := by
  rw [h.eq, length_intercalate_concat]
  rfl

theorem part_length : part.length ≤ (getElem parts k h.lt).length := h.begins.length_le

omit h in
theorem lt_of_included (hm : Included parts shown m) : m < parts.length := by
  rcases hm with ⟨_, hget, _⟩ | ⟨hlt, _⟩
  · exact (List.getElem?_eq_some_iff.mp hget).1
  · exact hlt

/-- The parts that are shown wholly are the first ones, and the next where it is shown to
its end. -/
theorem wholly_iff : Wholly parts shown m ↔ m < k ∨ (m = k ∧ part = getElem parts k h.lt) := by
  have hlength := h.length_eq
  have hpart := h.part_length
  constructor
  · rintro ⟨found, hget, hle⟩
    obtain ⟨hlt, rfl⟩ := List.getElem?_eq_some_iff.mp hget
    rcases Nat.lt_trichotomy m k with hmk | rfl | hkm
    · exact .inl hmk
    · exact .inr ⟨rfl, h.begins.eq_of_length_le (by omega)⟩
    · have hsucc := offset_succ h.lt
      have hmono : offset parts (k + 1) ≤ offset parts m := offset_lt hkm
      omega
  · rintro (hmk | ⟨rfl, heq⟩)
    · have hlt : m < parts.length := Nat.lt_trans hmk h.lt
      have hsucc := offset_succ hlt
      have hmono : offset parts (m + 1) ≤ offset parts k := offset_lt hmk
      exact ⟨parts[m], List.getElem?_eq_getElem hlt, by omega⟩
    · refine ⟨getElem parts m h.lt, List.getElem?_eq_getElem h.lt, ?_⟩
      exact Nat.le_of_eq (by rw [hlength, ← congrArg List.length heq])

/-- The next part is shown where some of it is, or where there is nothing in it. -/
theorem included_iff :
    Included parts shown m ↔ m < k ∨ (m = k ∧ (part ≠ [] ∨ getElem parts k h.lt = [])) := by
  have hlength := h.length_eq
  rw [Included, h.wholly_iff]
  constructor
  · rintro ((hmk | ⟨rfl, heq⟩) | ⟨hlt, hless⟩)
    · exact .inl hmk
    · refine .inr ⟨rfl, ?_⟩
      by_cases hnil : part = []
      · exact .inr (heq ▸ hnil)
      · exact .inl hnil
    · rcases Nat.lt_trichotomy m k with hmk | rfl | hkm
      · exact .inl hmk
      · refine .inr ⟨rfl, .inl fun hnil => ?_⟩
        rw [hnil, List.length_nil] at hlength
        omega
      · have hsucc := offset_succ h.lt
        have hmono : offset parts (k + 1) ≤ offset parts m := offset_lt hkm
        have hpart := h.part_length
        omega
  · rintro (hmk | ⟨rfl, hpart | hnil⟩)
    · exact .inl (.inl hmk)
    · have hpos : 0 < part.length := List.length_pos_of_ne_nil hpart
      exact .inr ⟨h.lt, by omega⟩
    · have hpart := h.begins
      rw [hnil, List.prefix_nil] at hpart
      exact .inl (.inr ⟨rfl, hpart.trans hnil.symm⟩)

/-- The shown list splits into the parts that it shows. -/
theorem splitOn [BEq α] [LawfulBEq α] (hsep : ∀ p ∈ parts, sep ∉ p) : shown.splitOn sep = parts.take k ++ [part] := by
  rw [h.eq]
  refine List.splitOn_intercalate sep (fun p hp => ?_) (by simp)
  rcases List.mem_append.mp hp with htake | hlast
  · exact hsep p (List.mem_of_mem_take htake)
  · rw [List.mem_singleton.mp hlast]
    exact fun hmem => hsep _ (List.getElem_mem h.lt) (h.begins.mem hmem)

omit h in
/-- What is shown determines the cut. -/
theorem unique [BEq α] [LawfulBEq α] (hsep : ∀ p ∈ parts, sep ∉ p) {k' : Nat} {part' : List α}
    (h : Shows sep parts shown k part) (h' : Shows sep parts shown k' part') : k = k' ∧ part = part' := by
  have heq := (h.splitOn hsep).symm.trans (h'.splitOn hsep)
  obtain ⟨htake, hpart⟩ := List.append_inj' heq rfl
  refine ⟨?_, (List.cons.inj hpart).1⟩
  have hlength := congrArg List.length htake
  have hlt := h.lt
  have hlt' := h'.lt
  rw [List.length_take, List.length_take] at hlength
  omega

end Shows

/-- The joined list shows all parts. -/
theorem shows_self (hne : parts ≠ []) :
    Shows sep parts ([sep].intercalate parts) (parts.length - 1) (parts.getLast hne) where
  lt := by
    have hpos := List.length_pos_of_ne_nil hne
    omega
  begins := ⟨[], by rw [List.append_nil, List.getLast_eq_getElem hne]⟩
  eq := by
    rw [← List.dropLast_eq_take, List.dropLast_append_getLast]

/-- All parts are shown wholly where the whole of the joined list is. -/
theorem forall_wholly_iff (h : shown <+: [sep].intercalate parts) :
    (∀ m < parts.length, Wholly parts shown m) ↔ shown = [sep].intercalate parts := by
  by_cases hne : parts = []
  · subst hne
    have hnil : shown = [] := List.prefix_nil.mp h
    exact ⟨fun _ => hnil, fun _ m hm => absurd hm (Nat.not_lt_zero m)⟩
  · have hself : Shows sep parts _ _ _ := shows_self hne
    constructor
    · intro hall
      obtain ⟨part, hget, hle⟩ := hall _ hself.lt
      obtain ⟨_, rfl⟩ := List.getElem?_eq_some_iff.mp hget
      refine h.eq_of_length_le ?_
      rw [hself.length_eq, List.getLast_eq_getElem hne]
      exact hle
    · intro heq m hm
      rw [heq, hself.wholly_iff]
      rcases Nat.lt_or_eq_of_le (Nat.le_sub_one_of_lt hm) with hlt | heq
      · exact .inl hlt
      · exact .inr ⟨heq, List.getLast_eq_getElem hne⟩

end AxiomDesktop.Joined
