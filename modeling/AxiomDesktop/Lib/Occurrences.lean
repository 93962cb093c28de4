import Mathlib.Data.List.Basic
import Mathlib.Data.List.Infix
import Mathlib.Tactic.Common

/-!
# Occurrences of a list in a list

A pattern occurs in a list behind a front of it (`Occurs`). `countFrom` counts the occurrences that
are found from left to right, none of which overlaps another, and `replaceFirst` puts a list in the
place of the first. Where one is counted, that one is replaced (`count_one`), and every other
occurrence overlaps it (`overlaps_of_count_one`).
-/

namespace AxiomDesktop.Occurrences

variable {α : Type*}

/-- A pattern occurs in a list behind a front of it. -/
def Occurs (p as front : List α) : Prop := ∃ back, as = front ++ p ++ back

theorem Occurs.begins {p as front : List α} (h : Occurs p as front) : front ++ p <+: as := by
  obtain ⟨back, rfl⟩ := h
  exact List.prefix_append _ _

/-- Of two fronts of a list one goes on to the other. -/
theorem fronts_of_length_le {p as front front' : List α} (h : Occurs p as front)
    (h' : Occurs p as front') (hle : front.length ≤ front'.length) : front <+: front' :=
  List.prefix_of_prefix_length_le ((List.prefix_append _ _).trans h.begins)
    ((List.prefix_append _ _).trans h'.begins) hle

theorem front_unique {p as front front' : List α} (h : Occurs p as front) (h' : Occurs p as front')
    (hlength : front.length = front'.length) : front = front' :=
  (fronts_of_length_le h h' hlength.le).eq_of_length hlength

variable [DecidableEq α]

/-- The number of occurrences of a pattern that are found from left to right, behind so many
elements that the last one has taken. -/
def countFrom (p : List α) : Nat → List α → Nat
  | _, [] => 0
  | skip + 1, _ :: as => countFrom p skip as
  | 0, a :: as =>
    if p.isPrefixOf (a :: as) then countFrom p (p.length - 1) as + 1 else countFrom p 0 as

/-- The list with the first occurrence of a pattern replaced. -/
def replaceFirst (p q : List α) : List α → List α
  | [] => []
  | a :: as =>
    if p.isPrefixOf (a :: as) then q ++ (a :: as).drop p.length else a :: replaceFirst p q as

variable {p q as front : List α}

theorem countFrom_skip (p : List α) (skip : Nat) (as : List α) :
    countFrom p skip as = countFrom p 0 (as.drop skip) := by
  induction as generalizing skip with
  | nil => cases skip <;> simp [countFrom]
  | cons a as ih =>
    cases skip with
    | zero => rfl
    | succ skip => exact ih skip

/-- A pattern that occurs is counted. -/
theorem countFrom_pos (hp : p ≠ []) (h : Occurs p as front) : 0 < countFrom p 0 as := by
  induction as generalizing front with
  | nil =>
    obtain ⟨back, hback⟩ := h
    have := (List.append_eq_nil_iff.mp (List.append_eq_nil_iff.mp hback.symm).1).2
    exact absurd this hp
  | cons a as ih =>
    rw [countFrom]
    split
    · exact Nat.succ_pos _
    · next hno =>
      cases front with
      | nil => exact absurd (List.isPrefixOf_iff_prefix.mpr h.begins) hno
      | cons b front =>
        obtain ⟨back, hback⟩ := h
        exact ih ⟨back, (List.cons.inj hback).2⟩

/-- **One is counted.** The pattern occurs behind some front, which is replaced there, and every
other front it occurs behind ends in that occurrence. -/
theorem count_one (hp : p ≠ []) (hcount : countFrom p 0 as = 1) :
    ∃ front back, as = front ++ p ++ back ∧ replaceFirst p q as = front ++ q ++ back ∧
      ∀ front', Occurs p as front' →
        front.length ≤ front'.length ∧ front'.length < front.length + p.length := by
  induction as with
  | nil => cases hcount
  | cons a as ih =>
    rw [countFrom] at hcount
    split at hcount
    · next hpre =>
      obtain ⟨back, hback⟩ := List.isPrefixOf_iff_prefix.mp hpre
      refine ⟨[], back, hback.symm, ?_, fun front' h' => ⟨Nat.zero_le _, ?_⟩⟩
      · rw [replaceFirst, if_pos hpre, ← hback, List.drop_left]
        rfl
      · -- behind the first occurrence nothing is counted
        have hnone : countFrom p 0 back = 0 := by
          rw [countFrom_skip] at hcount
          have hdrop : as.drop (p.length - 1) = back := by
            have := congrArg (List.drop p.length) hback
            rw [List.drop_left] at this
            obtain ⟨n, hn⟩ := Nat.exists_eq_succ_of_ne_zero
              (fun h => hp (List.length_eq_zero_iff.mp h))
            rw [this, hn]
            rfl
          rw [← hdrop]
          omega
        by_contra hge
        have hge : p.length ≤ front'.length := by simpa using hge
        obtain ⟨rest, hrest⟩ : p <+: front' :=
          List.prefix_of_prefix_length_le ⟨back, hback⟩
            ((List.prefix_append _ _).trans h'.begins) hge
        obtain ⟨back', hback'⟩ := h'
        rw [← hback, ← hrest, List.append_assoc, List.append_assoc] at hback'
        have hoccurs : Occurs p back rest :=
          ⟨back', by rw [List.append_cancel_left hback', List.append_assoc]⟩
        exact absurd (countFrom_pos hp hoccurs) (by omega)
    · next hno =>
      obtain ⟨front, back, rfl, hreplace, hothers⟩ := ih hcount
      refine ⟨a :: front, back, rfl, ?_, fun front' h' => ?_⟩
      · rw [replaceFirst, if_neg hno, hreplace]
        rfl
      · cases front' with
        | nil => exact absurd (List.isPrefixOf_iff_prefix.mpr h'.begins) hno
        | cons b front' =>
          obtain ⟨back', hback'⟩ := h'
          have hlengths := hothers front' ⟨back', (List.cons.inj hback').2⟩
          simp only [List.length_cons]
          omega

end AxiomDesktop.Occurrences
