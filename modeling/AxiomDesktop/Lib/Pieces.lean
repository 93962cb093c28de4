import Mathlib.Data.List.Basic

/-!
# Pieces of a list

A list cut behind every element that satisfies a predicate (`pieces`). The pieces are the list
again (`flatten_pieces`), and a list that is put together from parts, each of which is of one piece
(`OnePiece`), is cut as its parts are (`pieces_flatMap`).
-/

namespace AxiomDesktop

universe u v

variable {α : Type u} {β : Type v} {p : α → Bool}

/-- The pieces of a list: every one but the last ends in the only element it has with `p`. -/
def pieces (p : α → Bool) : List α → List (List α)
  | [] => []
  | a :: as =>
    if p a then [a] :: pieces p as
    else
      match pieces p as with
      | [] => [[a]]
      | piece :: rest => (a :: piece) :: rest

theorem pieces_congr {q : α → Bool} {as : List α} (h : ∀ a ∈ as, p a = q a) :
    pieces p as = pieces q as := by
  induction as with
  | nil => rfl
  | cons a as ih =>
    rw [pieces, pieces, h a List.mem_cons_self, ih fun b hb => h b (List.mem_cons_of_mem a hb)]

/-- Whether a list ends in an element with `p`. -/
def endsWith (p : α → Bool) (as : List α) : Bool := as.getLast?.any p

/-- A list that is not empty and has no element with `p` before its last one. -/
def OnePiece (p : α → Bool) (as : List α) : Prop := as ≠ [] ∧ ∀ a ∈ as.dropLast, p a = false

/-- The pieces are the list. -/
theorem flatten_pieces (p : α → Bool) (as : List α) : (pieces p as).flatten = as := by
  induction as with
  | nil => rfl
  | cons a as ih =>
    unfold pieces
    split
    · rw [List.flatten_cons, ih]
      rfl
    · cases hrest : pieces p as with
      | nil =>
        rw [hrest] at ih
        rw [← ih]
        rfl
      | cons piece rest =>
        rw [hrest] at ih
        rw [← ih]
        rfl

/-- A piece before a list is cut off, or it is put before the first piece of the list. -/
theorem pieces_append {piece : List α} (h : OnePiece p piece) (as : List α) :
    pieces p (piece ++ as) =
      if endsWith p piece then piece :: pieces p as
      else
        match pieces p as with
        | [] => [piece]
        | first :: rest => (piece ++ first) :: rest := by
  obtain ⟨hne, hbefore⟩ := h
  induction piece with
  | nil => exact absurd rfl hne
  | cons a tail ih =>
    cases tail with
    | nil => rfl
    | cons b tail =>
      have ha : p a = false := hbefore a List.mem_cons_self
      have hends : endsWith p (a :: b :: tail) = endsWith p (b :: tail) := by
        rw [endsWith, List.getLast?_cons_cons]
        rfl
      have htail := ih (List.cons_ne_nil b tail) fun c hc => hbefore c (List.mem_cons_of_mem a hc)
      show (if p a = true then [a] :: pieces p (b :: tail ++ as)
        else
          match pieces p (b :: tail ++ as) with
          | [] => [[a]]
          | first :: rest => (a :: first) :: rest) = _
      rw [ha, if_neg Bool.false_ne_true, htail, hends]
      cases endsWith p (b :: tail) with
      | true => rfl
      | false => cases pieces p as <;> rfl

/-- Every piece is one piece. -/
theorem onePiece_of_mem {as piece : List α} (h : piece ∈ pieces p as) : OnePiece p piece := by
  induction as generalizing piece with
  | nil => cases h
  | cons a as ih =>
    unfold pieces at h
    split at h
    · obtain rfl | h := List.mem_cons.mp h
      · exact ⟨List.cons_ne_nil a [], fun _ h => absurd h List.not_mem_nil⟩
      · exact ih h
    · rename_i ha
      cases hrest : pieces p as with
      | nil =>
        rw [hrest] at h
        obtain rfl := List.mem_singleton.mp h
        exact ⟨List.cons_ne_nil a [], fun _ h => absurd h List.not_mem_nil⟩
      | cons first rest =>
        rw [hrest] at h
        obtain rfl | h := List.mem_cons.mp h
        · obtain ⟨hne, hbefore⟩ := ih (hrest ▸ List.mem_cons_self)
          refine ⟨List.cons_ne_nil a first, ?_⟩
          rw [List.dropLast_cons_of_ne_nil hne]
          exact List.forall_mem_cons.mpr ⟨by simpa using ha, hbefore⟩
        · exact ih (hrest ▸ List.mem_cons_of_mem first h)

/-- **A list is cut as its parts are.** Of parts that are one piece each, those up to one that ends
with `p` make one piece of the list. -/
theorem pieces_flatMap {f : β → List α} {parts : List β} (h : ∀ b ∈ parts, OnePiece p (f b)) :
    pieces p (parts.flatMap f) =
      (pieces (fun b => endsWith p (f b)) parts).map fun part => part.flatMap f := by
  induction parts with
  | nil => rfl
  | cons b parts ih =>
    rw [List.flatMap_cons, pieces_append (h b List.mem_cons_self),
      ih fun c hc => h c (List.mem_cons_of_mem b hc), pieces]
    split
    · simp
    · cases pieces (fun b => endsWith p (f b)) parts <;> simp

theorem endsWith_cons {a : α} {as : List α} (h : as ≠ []) : endsWith p (a :: as) = endsWith p as := by
  obtain ⟨b, tail, rfl⟩ := List.exists_cons_of_ne_nil h
  rw [endsWith, List.getLast?_cons_cons]
  rfl

/-- The pieces of a list, but for the last, end with `p`. -/
theorem endsWith_of_mem_dropLast {as piece : List α} (h : piece ∈ (pieces p as).dropLast) :
    endsWith p piece = true := by
  induction as generalizing piece with
  | nil => cases h
  | cons a as ih =>
    unfold pieces at h
    cases hrest : pieces p as with
    | nil =>
      rw [hrest] at h
      split at h
      · cases h
      · cases h
    | cons first rest =>
      rw [hrest] at h ih
      split at h
      · rename_i ha
        obtain rfl | h := List.mem_cons.mp h
        · exact ha
        · exact ih h
      · cases rest with
        | nil => cases h
        | cons second rest =>
          obtain rfl | h := List.mem_cons.mp h
          · have hmem : first ∈ pieces p as := hrest ▸ List.mem_cons_self
            rw [endsWith_cons (onePiece_of_mem hmem).1]
            exact ih List.mem_cons_self
          · exact ih (List.mem_cons_of_mem first h)

/-- A list all of whose elements but the last have `p` is cut into its elements. -/
theorem pieces_of_dropLast {as : List α} (h : ∀ a ∈ as.dropLast, p a = true) :
    pieces p as = as.map fun a => [a] := by
  induction as with
  | nil => rfl
  | cons a as ih =>
    cases as with
    | nil =>
      unfold pieces
      split <;> rfl
    | cons b rest =>
      have ha : p a = true := h a List.mem_cons_self
      rw [pieces, if_pos ha, ih fun c hc => h c (List.mem_cons_of_mem a hc)]
      rfl

end AxiomDesktop
