import AxiomDesktop.Data.Text
import Mathlib.Tactic.Common

/-!
# Pieces and lines of a text

The pieces of a text between a character (`Text.splitChar`), and its lines (`Text.lines`), which are
the pieces between line feeds without an empty one at the end (`Text.length_lines`).
-/

namespace AxiomDesktop.Text

theorem splitChar_eq_splitOn (c : Char) (cs : List Char) : splitChar c cs = cs.splitOn c := by
  induction cs with
  | nil => rfl
  | cons d ds ih =>
    rw [splitChar, ih, List.splitOn_cons_eq_if_modifyHead]
    by_cases hd : d = c
    · rw [if_pos hd, if_pos (beq_iff_eq.mpr hd)]
    · rw [if_neg hd, if_neg (mt beq_iff_eq.mp hd)]
      rcases hsplit : ds.splitOn c with _ | ⟨piece, rest⟩
      · exact absurd hsplit (List.splitOn_ne_nil c ds)
      · rfl

/-- A text is its pieces with the separator between them. -/
theorem intercalate_splitChar (c : Char) (cs : List Char) : [c].intercalate (splitChar c cs) = cs := by
  rw [splitChar_eq_splitOn, List.intercalate_splitOn]

theorem splitChar_of_notMem {c : Char} {cs : List Char} (h : c ∉ cs) : splitChar c cs = [cs] := by
  rw [splitChar_eq_splitOn, List.splitOn_eq_singleton h]

theorem notMem_of_mem_splitChar {c : Char} {cs piece : List Char} (h : piece ∈ splitChar c cs) :
    c ∉ piece := by
  induction cs generalizing piece with
  | nil =>
    cases List.mem_singleton.mp h
    exact List.not_mem_nil
  | cons d ds ih =>
    rw [splitChar] at h
    split at h
    · rcases List.mem_cons.mp h with rfl | h
      · exact List.not_mem_nil
      · exact ih h
    · next hd =>
      split at h
      · cases List.mem_singleton.mp h
        simpa using Ne.symm hd
      · next first rest hsplit =>
        rcases List.mem_cons.mp h with rfl | h
        · exact List.not_mem_cons_of_ne_of_not_mem (Ne.symm hd) (ih (hsplit ▸ List.mem_cons_self))
        · exact ih (hsplit ▸ List.mem_cons_of_mem _ h)

/-! ## Lines -/

/-- What `str::lines` leaves of a line that a line feed ends. -/
def stripReturn (line : List Char) : List Char := (stripSuffix ['\r'] line).getD line

/-- `str::lines`: the pieces between line feeds, without a carriage return before one, and without
an empty piece at the end. -/
def lines (cs : List Char) : List (List Char) :=
  let pieces := splitChar '\n' cs
  pieces.dropLast.map stripReturn ++ (pieces.getLast?.filter (· ≠ [])).toList

/-- Every piece is a line, but for an empty one at the end. -/
theorem length_lines {cs last : List Char} {pieces : List (List Char)}
    (h : splitChar '\n' cs = pieces ++ [last]) :
    (lines cs).length = pieces.length + if last = [] then 0 else 1 := by
  rw [lines, h]
  simp only [List.dropLast_concat, List.length_append, List.length_map, List.getLast?_concat]
  by_cases hnil : last = []
  · simp [hnil]
  · simp [hnil]

theorem prefix_stripReturn (line : List Char) : stripReturn line <+: line := by
  unfold stripReturn stripSuffix
  split
  · exact List.take_prefix _ _
  · exact List.prefix_rfl

/-- There is no line feed in a line. -/
theorem notMem_of_mem_lines {cs line : List Char} (h : line ∈ lines cs) : '\n' ∉ line := by
  rw [lines, List.mem_append, List.mem_map] at h
  rcases h with ⟨piece, hpiece, rfl⟩ | hlast
  · have hplain := notMem_of_mem_splitChar (List.dropLast_subset _ hpiece)
    exact fun hmem => hplain ((prefix_stripReturn piece).mem hmem)
  · rw [Option.mem_toList, Option.filter_eq_some_iff] at hlast
    exact notMem_of_mem_splitChar (List.mem_of_getLast? hlast.1)

theorem length_splitChar_le (c : Char) (cs : List Char) : (splitChar c cs).length ≤ cs.length + 1 := by
  induction cs with
  | nil => exact Nat.le_refl _
  | cons d ds ih =>
    rw [splitChar]
    split
    · exact Nat.succ_le_succ ih
    · split
      · simp
      · next piece rest hsplit =>
        rw [hsplit] at ih
        exact Nat.le_succ_of_le ih

/-- There are no more lines than characters. -/
theorem length_lines_le (cs : List Char) : (lines cs).length ≤ cs.length + 1 := by
  have hpieces := length_splitChar_le '\n' cs
  have hne : splitChar '\n' cs ≠ [] := by
    rw [splitChar_eq_splitOn]
    exact List.splitOn_ne_nil _ _
  obtain ⟨pieces, last, hconcat⟩ := (List.eq_nil_or_concat _).resolve_left hne
  rw [List.concat_eq_append] at hconcat
  rw [hconcat, List.length_append, List.length_singleton] at hpieces
  rw [length_lines hconcat]
  split
  · omega
  · omega

end AxiomDesktop.Text
