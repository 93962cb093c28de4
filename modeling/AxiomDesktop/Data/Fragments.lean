import Mathlib.Algebra.BigOperators.Group.List.Basic
import Mathlib.Algebra.GroupWithZero.Nat
import Mathlib.Tactic.Common

/-!
# Fragments of a text

A text cut into fragments of at most so many bytes, each as long as the characters allow
(`fragments`). The cut is made at a byte offset, which goes back to the boundary of a character
before it (`splitBelow`); a character has at most four bytes, so that with room for four of them no
fragment is empty, and the cutting ends.
-/

namespace AxiomDesktop.Text

/-- The bytes of characters. -/
def byteSize (cs : List Char) : Nat := (cs.map Char.utf8Size).sum

@[simp] theorem byteSize_nil : byteSize [] = 0 := rfl

@[simp] theorem byteSize_cons (c : Char) (cs : List Char) :
    byteSize (c :: cs) = c.utf8Size + byteSize cs := by
  rw [byteSize, List.map_cons, List.sum_cons]
  rfl

theorem utf8ByteSize_ofList (cs : List Char) : (String.ofList cs).utf8ByteSize = byteSize cs := by
  induction cs with
  | nil => rfl
  | cons c cs ih =>
    rw [String.ofList_cons, String.utf8ByteSize_append, String.utf8ByteSize_singleton, ih,
      byteSize_cons]

theorem utf8ByteSize_toList (s : String) : s.utf8ByteSize = byteSize s.toList := by
  rw [← utf8ByteSize_ofList, String.ofList_toList]

theorem byteSize_append (cs ds : List Char) : byteSize (cs ++ ds) = byteSize cs + byteSize ds := by
  rw [byteSize, List.map_append, List.sum_append]
  rfl

theorem length_le_byteSize (cs : List Char) : cs.length ≤ byteSize cs := by
  induction cs with
  | nil => exact Nat.le_refl _
  | cons c cs ih =>
    have hpos := c.utf8Size_pos
    rw [byteSize_cons, List.length_cons]
    omega

theorem byteSize_le (cs : List Char) : byteSize cs ≤ 4 * cs.length := by
  induction cs with
  | nil => exact Nat.le_refl _
  | cons c cs ih =>
    have hmax := c.utf8Size_le_four
    rw [byteSize_cons, List.length_cons]
    omega

theorem byteSize_eq_zero {cs : List Char} : byteSize cs = 0 ↔ cs = [] := by
  cases cs with
  | nil => simp
  | cons c cs =>
    have hpos := c.utf8Size_pos
    simp only [byteSize_cons, reduceCtorEq, iff_false]
    omega

/-! ## The cut at an offset -/

/-- The characters before an offset in bytes and those behind it, where it is between characters. -/
def splitAt? : List Char → Nat → Option (List Char × List Char)
  | cs, 0 => some ([], cs)
  | [], _ + 1 => none
  | c :: cs, n + 1 =>
    if c.utf8Size ≤ n + 1 then
      (splitAt? cs (n + 1 - c.utf8Size)).map fun parts => (c :: parts.1, parts.2)
    else none

/-- The cut at the last boundary that is at most an offset. -/
def splitBelow (cs : List Char) : Nat → List Char × List Char
  | 0 => ([], cs)
  | offset + 1 =>
    match splitAt? cs (offset + 1) with
    | some parts => parts
    | none => splitBelow cs offset

theorem splitAt?_some {cs before behind : List Char} {n : Nat}
    (h : splitAt? cs n = some (before, behind)) : before ++ behind = cs ∧ byteSize before = n := by
  induction cs, n using splitAt?.induct generalizing before with
  | case1 cs =>
    rw [splitAt?] at h
    cases h
    exact ⟨rfl, rfl⟩
  | case2 n =>
    rw [splitAt?] at h
    cases h
  | case3 c cs n hc ih =>
    rw [splitAt?, if_pos hc] at h
    obtain ⟨⟨first, rest⟩, hrest, heq⟩ := Option.map_eq_some_iff.mp h
    cases heq
    obtain ⟨rfl, hsize⟩ := ih hrest
    refine ⟨rfl, ?_⟩
    rw [byteSize_cons, hsize]
    omega
  | case4 c cs n hc =>
    rw [splitAt?, if_neg hc] at h
    cases h

/-- There is a boundary behind the first character. -/
theorem splitAt?_head (c : Char) (cs : List Char) :
    splitAt? (c :: cs) c.utf8Size = some ([c], cs) := by
  obtain ⟨n, hn⟩ := Nat.exists_eq_succ_of_ne_zero (Nat.ne_of_gt c.utf8Size_pos)
  rw [hn, splitAt?, if_pos (Nat.le_of_eq hn), hn, Nat.sub_self, splitAt?]
  rfl

variable {cs : List Char} {n : Nat}

theorem splitBelow_append (cs : List Char) (n : Nat) :
    (splitBelow cs n).1 ++ (splitBelow cs n).2 = cs := by
  induction n with
  | zero => rfl
  | succ n ih =>
    rw [splitBelow]
    split
    · next parts hparts => exact (splitAt?_some hparts).1
    · exact ih

theorem byteSize_splitBelow (cs : List Char) (n : Nat) : byteSize (splitBelow cs n).1 ≤ n := by
  induction n with
  | zero => exact Nat.le_refl 0
  | succ n ih =>
    rw [splitBelow]
    split
    · next parts hparts => exact Nat.le_of_eq (splitAt?_some hparts).2
    · exact Nat.le_succ_of_le ih

/-- A cut with room for the first character has it before it. -/
theorem splitBelow_ne_nil {c : Char} (h : c.utf8Size ≤ n) : (splitBelow (c :: cs) n).1 ≠ [] := by
  induction n with
  | zero => exact absurd c.utf8Size_pos (Nat.not_lt.mpr h)
  | succ n ih =>
    rw [splitBelow]
    split
    · next parts hparts =>
      intro hnil
      have hsize := (splitAt?_some hparts).2
      rw [hnil, byteSize_nil] at hsize
      cases hsize
    · next hnone =>
      have hne : c.utf8Size ≠ n + 1 := by
        intro heq
        rw [← heq, splitAt?_head] at hnone
        cases hnone
      exact ih (by omega)

/-! ## The fragments -/

/-- With room for four bytes, a cut leaves fewer characters. -/
theorem length_splitBelow (hmax : 4 ≤ n) (c : Char) (cs : List Char) :
    (splitBelow (c :: cs) (min n (byteSize (c :: cs)))).2.length < (c :: cs).length := by
  have hne : (splitBelow (c :: cs) (min n (byteSize (c :: cs)))).1 ≠ [] := by
    refine splitBelow_ne_nil (Nat.le_min.mpr ⟨Nat.le_trans c.utf8Size_le_four hmax, ?_⟩)
    rw [byteSize_cons]
    exact Nat.le_add_right _ _
  have hlength := congrArg List.length
    (splitBelow_append (c :: cs) (min n (byteSize (c :: cs))))
  rw [List.length_append] at hlength
  have hpos := List.length_pos_iff.mpr hne
  omega

/-- The fragments of characters, of at most so many bytes each. -/
def fragments (maxBytes : Nat) (hmax : 4 ≤ maxBytes) : List Char → List (List Char)
  | [] => []
  | c :: cs =>
    let parts := splitBelow (c :: cs) (min maxBytes (byteSize (c :: cs)))
    parts.1 :: fragments maxBytes hmax parts.2
termination_by cs => cs.length
decreasing_by exact length_splitBelow hmax c cs

theorem fragments_cons (hmax : 4 ≤ n) (c : Char) (cs : List Char) :
    fragments n hmax (c :: cs) =
      (splitBelow (c :: cs) (min n (byteSize (c :: cs)))).1 ::
        fragments n hmax (splitBelow (c :: cs) (min n (byteSize (c :: cs)))).2 := by
  rw [fragments]

/-- The fragments are the text. -/
theorem flatten_fragments (hmax : 4 ≤ n) (cs : List Char) : (fragments n hmax cs).flatten = cs := by
  induction cs using fragments.induct n hmax with
  | case1 => simp [fragments]
  | case2 c cs parts ih => rw [fragments_cons, List.flatten_cons, ih, splitBelow_append]

/-- A fragment is not empty, and has at most so many bytes. -/
theorem fragments_bounds (hmax : 4 ≤ n) {cs fragment : List Char}
    (h : fragment ∈ fragments n hmax cs) : fragment ≠ [] ∧ byteSize fragment ≤ n := by
  induction cs using fragments.induct n hmax with
  | case1 => simp [fragments] at h
  | case2 c cs parts ih =>
    rw [fragments_cons] at h
    rcases List.mem_cons.mp h with rfl | h
    · refine ⟨splitBelow_ne_nil (Nat.le_min.mpr ⟨Nat.le_trans c.utf8Size_le_four hmax, ?_⟩), ?_⟩
      · rw [byteSize_cons]
        exact Nat.le_add_right _ _
      · exact Nat.le_trans (byteSize_splitBelow _ _) (Nat.min_le_left _ _)
    · exact ih h

theorem fragments_ne_nil (hmax : 4 ≤ n) (h : cs ≠ []) : fragments n hmax cs ≠ [] := by
  obtain ⟨c, cs, rfl⟩ := List.exists_cons_of_ne_nil h
  rw [fragments_cons]
  exact List.cons_ne_nil _ _

end AxiomDesktop.Text
