import AxiomDesktop.Tui.Cursor

/-!
# Motions between the rows of the composer

The row of an offset is the last one that begins at it or before (`Tiles.length_takeWhile`). So a
motion to a row is on that row, but for one case: where the next row begins where the row ends, as
it does where a word is cut, and the row is no wider than the column the motion goes to, the motion
goes to the end of the row, which is the beginning of the next one. A motion that is `Clear` of
that is on the row it goes to, and motions that all are visit the rows one after another
(`navigation_agrees`). The cursor is in the view in any case.
-/

namespace AxiomDesktop

/-! ## The row of an offset -/

theorem length_takeWhile_eq {α : Type*} {p : α → Bool} {as : List α} {k : Nat} (hk : k < as.length)
    (hfirst : ∀ i ≤ k, ∀ a ∈ as[i]?, p a = true) (hnext : ∀ a ∈ as[k + 1]?, p a = false) :
    (as.takeWhile p).length = k + 1 := by
  induction k generalizing as with
  | zero =>
    cases as with
    | nil => cases hk
    | cons a rest =>
      rw [List.takeWhile_cons_of_pos (hfirst 0 (Nat.le_refl 0) a rfl)]
      cases rest with
      | nil => rfl
      | cons b rest =>
        rw [List.takeWhile_cons_of_neg (by simp [hnext b rfl])]
        rfl
  | succ k ih =>
    cases as with
    | nil => cases hk
    | cons a rest =>
      rw [List.takeWhile_cons_of_pos (hfirst 0 (Nat.zero_le _) a rfl), List.length_cons,
        ih (Nat.lt_of_succ_lt_succ hk) (fun i hi => hfirst (i + 1) (Nat.succ_le_succ hi)) hnext]

namespace Tiles

variable {text : List Char} {lines : List VisualLine} {start offset : Nat}

theorem start_le (h : Tiles text start lines) {i j : Nat} {line next : VisualLine} (hij : i ≤ j)
    (hline : lines[i]? = some line) (hnext : lines[j]? = some next) :
    line.sourceStart ≤ next.sourceStart := by
  induction hij generalizing next with
  | refl => rw [Option.some.inj (hline.symm.trans hnext)]
  | @step j _ ih =>
    have hlt := (List.getElem?_eq_some_iff.mp hnext).1
    have hbefore : lines[j]? = some lines[j] := List.getElem?_eq_getElem (by omega)
    exact Nat.le_trans (ih hbefore) (Nat.le_of_lt (h.start_lt hbefore hnext))

/-- The rows that begin at an offset or before are those up to a row, where this one does and the
next one does not. -/
theorem length_takeWhile (h : Tiles text start lines) {k : Nat} {line : VisualLine}
    (hline : lines[k]? = some line) (hle : line.sourceStart ≤ offset)
    (hnext : ∀ next ∈ lines[k + 1]?, offset < next.sourceStart) :
    (lines.takeWhile (·.sourceStart ≤ offset)).length = k + 1 := by
  refine length_takeWhile_eq (List.getElem?_eq_some_iff.mp hline).1 ?_ ?_
  · intro i hi first hfirst
    exact decide_eq_true (Nat.le_trans (h.start_le hi hfirst hline) hle)
  · intro next hn
    exact decide_eq_false (Nat.not_le.mpr (hnext next hn))

end Tiles

namespace ComposerBuffer

variable {u : Unicode} {b : ComposerBuffer} {width : Nat} {direction : Direction}

theorem getElem?_rowAt {row : Nat} (h : row < (u.wrapSource b.text width).length) :
    (u.wrapSource b.text width)[row]? = some (b.rowAt u width row) := by
  rw [rowAt, List.getD_eq_getElem?_getD, List.getElem?_eq_getElem h, Option.getD_some]

/-- The row of the cursor. -/
theorem position_eq {row : Nat} (hrow : row < (u.wrapSource b.text width).length)
    (hle : (b.rowAt u width row).sourceStart ≤ b.cursor)
    (hnext : row + 1 < (u.wrapSource b.text width).length →
      b.cursor < (b.rowAt u width (row + 1)).sourceStart) :
    (b.position u width).1 = row := by
  obtain ⟨rows, -, htiles⟩ := wrapSource_tiles u b.text width
  have hlen := htiles.length_takeWhile (getElem?_rowAt hrow) hle fun next hn => by
    have hlt := (List.getElem?_eq_some_iff.mp hn).1
    rw [getElem?_rowAt hlt] at hn
    exact Option.some.inj hn ▸ hnext hlt
  rw [position, Unicode.cursorPosition]
  dsimp only
  rw [hlen]
  omega

/-! ## Clear motions -/

/-- The motion does not go to the end of a row that is the beginning of the next one. -/
def Clear (u : Unicode) (b : ComposerBuffer) (width : Nat) (direction : Direction) : Prop :=
  ∀ target ∈ b.target? u width direction,
    target + 1 < (u.wrapSource b.text width).length →
    (b.rowAt u width target).displayEnd = (b.rowAt u width (target + 1)).sourceStart →
      b.preferred u width < u.sliceWidth (slice b.text (b.rowAt u width target).sourceStart
        (b.rowAt u width target).displayEnd)

/-- A row that is shown ends where the next one begins, or before. -/
theorem displayEnd_le {row : Nat} (h : row + 1 < (u.wrapSource b.text width).length) :
    (b.rowAt u width row).displayEnd ≤ (b.rowAt u width (row + 1)).sourceStart := by
  obtain ⟨rows, -, htiles⟩ := wrapSource_tiles u b.text width
  obtain ⟨r, hr⟩ := rowAt_eq (Nat.lt_of_succ_lt h)
  have hle := hr ▸ r.display_le
  rcases htiles.adjacent (getElem?_rowAt (Nat.lt_of_succ_lt h)) (getElem?_rowAt h) with
    ⟨hstart, -⟩ | ⟨-, hstart, -⟩ <;> omega

/-- The offset at a column of a row is in the row, or it is the end of what is shown of it. -/
theorem byteAtColumn_bounds {row : Nat} (hrow : row < (u.wrapSource b.text width).length)
    (column : Nat) :
    (b.rowAt u width row).sourceStart ≤ u.byteAtColumn b.text (b.rowAt u width row) column ∧
      (u.byteAtColumn b.text (b.rowAt u width row) column = (b.rowAt u width row).displayEnd ∧
          u.sliceWidth (slice b.text (b.rowAt u width row).sourceStart
            (b.rowAt u width row).displayEnd) ≤ column ∨
        u.byteAtColumn b.text (b.rowAt u width row) column < (b.rowAt u width row).displayEnd ∧
          column < u.sliceWidth (slice b.text (b.rowAt u width row).sourceStart
            (b.rowAt u width row).displayEnd)) := by
  obtain ⟨r, hr⟩ := rowAt_eq hrow
  rw [hr]
  obtain ⟨hat, hle⟩ | ⟨front, g, back, hshown, hat, hlt⟩ := r.byteAtColumn_cases column
  · refine ⟨?_, .inl ⟨hat, hle⟩⟩
    rw [hat]
    exact Nat.le_add_right _ _
  · rw [hat]
    refine ⟨Nat.le_add_right _ _, .inr ⟨?_, hlt⟩⟩
    have hmem : g ∈ u.clusters r.line := by
      rw [r.clusters_eq, hshown]
      simp
    have hpos := List.length_pos_iff.mpr (u.ne_nil hmem)
    show _ < r.start + r.shown.flatten.length
    rw [hshown, List.flatten_append, List.flatten_cons, List.length_append, List.length_append]
    omega

/-- **A motion is on the row it goes to exactly where it is clear.** -/
theorem position_moveVertical_iff (h : b.Coherent u) {target : Nat}
    (htarget : b.target? u width direction = some target) :
    ((b.moveVertical u width direction).1.position u width).1 = target ↔
      b.Clear u width direction := by
  have hlt := target_lt htarget
  obtain ⟨cache, -, heq⟩ := moveVertical_eq h width direction
  rw [htarget] at heq
  obtain ⟨hstart, hat⟩ := byteAtColumn_bounds hlt (b.preferred u width)
  have hclear : b.Clear u width direction ↔ (target + 1 < (u.wrapSource b.text width).length →
      (b.rowAt u width target).displayEnd = (b.rowAt u width (target + 1)).sourceStart →
        b.preferred u width < u.sliceWidth (slice b.text (b.rowAt u width target).sourceStart
          (b.rowAt u width target).displayEnd)) := by
    simp [Clear, htarget]
  rw [hclear, heq]
  dsimp only
  rcases hat with ⟨hend, hle⟩ | ⟨hbefore, hwide⟩
  · constructor
    · intro hrow hnext hmeet
      exfalso
      obtain ⟨rows, -, htiles⟩ := wrapSource_tiles u b.text width
      -- the cursor is at the beginning of the next row
      have hbehind : (position u { b with
          wrapCache := cache
          cursor := u.byteAtColumn b.text (b.rowAt u width target) (b.preferred u width)
          preferredColumn := some (b.preferred u width) } width).1 = target + 1 :=
        position_eq hnext (hend.trans hmeet).ge fun hafter =>
          (hend.trans hmeet).trans_lt
            (htiles.start_lt (getElem?_rowAt hnext) (getElem?_rowAt hafter))
      omega
    · intro hsafe
      refine position_eq hlt hstart fun hnext => ?_
      refine lt_of_le_of_ne (hend.trans_le (displayEnd_le hnext)) fun hmeet => ?_
      exact Nat.not_lt.mpr hle (hsafe hnext (hend.symm.trans hmeet))
  · refine iff_of_true ?_ fun _ _ => hwide
    exact position_eq hlt hstart fun hnext => hbefore.trans_le (displayEnd_le hnext)

/-! ## Moves one after another -/

/-- The rows there are in a direction. -/
def rowsLeft (u : Unicode) (b : ComposerBuffer) (width : Nat) : Direction → Nat
  | .up => (b.position u width).1
  | .down => (u.wrapSource b.text width).length - 1 - (b.position u width).1

/-- The row so many rows away. -/
def Direction.after (row k : Nat) : Direction → Nat
  | .up => row - k
  | .down => row + k

/-- The buffer after so many moves. -/
def moves (u : Unicode) (b : ComposerBuffer) (width : Nat) (direction : Direction) :
    Nat → ComposerBuffer
  | 0 => b
  | k + 1 => ((b.moves u width direction k).moveVertical u width direction).1

theorem moveVertical_snd (h : b.Coherent u) (width : Nat) (direction : Direction) :
    (b.moveVertical u width direction).2 = (b.target? u width direction).isSome := by
  obtain ⟨cache, -, heq⟩ := moveVertical_eq h width direction
  rw [heq]
  cases b.target? u width direction <;> rfl

theorem text_moveVertical (h : b.Coherent u) (width : Nat) (direction : Direction) :
    (b.moveVertical u width direction).1.text = b.text := by
  obtain ⟨cache, -, heq⟩ := moveVertical_eq h width direction
  rw [heq]
  split <;> rfl

theorem moves_kept (h : b.Coherent u) (width : Nat) (direction : Direction) (k : Nat) :
    (b.moves u width direction k).Coherent u ∧ (b.moves u width direction k).text = b.text := by
  induction k with
  | zero => exact ⟨h, rfl⟩
  | succ k ih =>
    exact ⟨ih.1.call (.moveVertical width direction),
      (text_moveVertical ih.1 width direction).trans ih.2⟩

/-- The row a move goes to after so many moves that each were on the next row. -/
theorem target?_eq {b' : ComposerBuffer} (htext : b'.text = b.text) {k : Nat}
    (hk : k ≤ b.rowsLeft u width direction)
    (hrow : (b'.position u width).1 = direction.after (b.position u width).1 k) :
    b'.target? u width direction =
      if k < b.rowsLeft u width direction then
        some (direction.after (b.position u width).1 (k + 1))
      else none := by
  have hlt := position_lt u b width
  cases direction with
  | up =>
    have hrow' : (b'.position u width).1 = (b.position u width).1 - k := hrow
    show (if (b'.position u width).1 = 0 then none else some ((b'.position u width).1 - 1)) =
      if k < (b.position u width).1 then some ((b.position u width).1 - (k + 1)) else none
    rw [hrow']
    by_cases h : k < (b.position u width).1
    · rw [if_neg (by omega), if_pos h]
      rfl
    · rw [if_pos (by omega), if_neg h]
  | down =>
    have hrow' : (b'.position u width).1 = (b.position u width).1 + k := hrow
    have hleft : b.rowsLeft u width .down =
        (u.wrapSource b.text width).length - 1 - (b.position u width).1 := rfl
    show (if (b'.position u width).1 + 1 < (u.wrapSource b'.text width).length then
        some ((b'.position u width).1 + 1) else none) =
      if k < b.rowsLeft u width .down then some ((b.position u width).1 + (k + 1)) else none
    rw [hrow', htext]
    by_cases h : k < b.rowsLeft u width .down
    · rw [if_pos (by omega), if_pos h]
      rfl
    · rw [if_neg (by omega), if_neg h]

/-- **Moves visit the rows one after another and end exactly where they are clear.** -/
theorem moves_iff (h : b.Coherent u) (width : Nat) (direction : Direction) :
    (∀ k ≤ b.rowsLeft u width direction,
      ((b.moves u width direction k).position u width).1 =
          direction.after (b.position u width).1 k ∧
        ((b.moves u width direction k).moveVertical u width direction).2 =
          decide (k < b.rowsLeft u width direction)) ↔
      ∀ k < b.rowsLeft u width direction,
        (b.moves u width direction k).Clear u width direction := by
  constructor
  · intro hvisit k hk
    obtain ⟨hcoherent, htext⟩ := moves_kept h width direction k
    have htarget := target?_eq htext (Nat.le_of_lt hk) (hvisit k (Nat.le_of_lt hk)).1
    rw [if_pos hk] at htarget
    exact (position_moveVertical_iff hcoherent htarget).mp (hvisit (k + 1) hk).1
  · intro hclear
    have hrows : ∀ k ≤ b.rowsLeft u width direction,
        ((b.moves u width direction k).position u width).1 =
          direction.after (b.position u width).1 k := by
      intro k hk
      induction k with
      | zero => cases direction <;> rfl
      | succ k ih =>
        obtain ⟨hcoherent, htext⟩ := moves_kept h width direction k
        have hlt : k < b.rowsLeft u width direction := hk
        have htarget := target?_eq htext (Nat.le_of_lt hk) (ih (Nat.le_of_lt hk))
        rw [if_pos hlt] at htarget
        exact (position_moveVertical_iff hcoherent htarget).mpr (hclear k hk)
    intro k hk
    obtain ⟨hcoherent, htext⟩ := moves_kept h width direction k
    refine ⟨hrows k hk, ?_⟩
    rw [moveVertical_snd hcoherent, target?_eq htext hk (hrows k hk)]
    split
    · next hlt => simp [hlt]
    · next hlt => simp [hlt]

/-! ## The view -/

theorem saturateU16_le (n : Nat) : saturateU16 n ≤ n := by
  rw [saturateU16]
  split <;> omega

/-- The cursor is in the view. -/
theorem view_inside (h : b.Coherent u) (width height : Nat) :
    (b.view u width height).1.cursorRow < max height 1 ∧
      (b.view u width height).1.cursorRow < (b.view u width height).1.lines.length ∧
      (b.view u width height).1.cursorColumn < max width 1 := by
  have hlines := wrappedLines_fst h (max width 1)
  obtain ⟨cache, hcache⟩ := wrappedLines_snd u b (max width 1)
  rw [Nat.max_assoc, Nat.max_self, wrapSource_max] at hlines
  have hrow := position_lt u b width
  have hcolumn : (b.position u width).2 < max width 1 := by
    rw [position, Unicode.cursorPosition]
    dsimp only
    omega
  have hscroll : b.scrollFor (b.position u width).1 (max height 1)
        (u.wrapSource b.text width).length ≤ (b.position u width).1 ∧
      (b.position u width).1 - b.scrollFor (b.position u width).1 (max height 1)
        (u.wrapSource b.text width).length < max height 1 := by
    unfold scrollFor
    dsimp only
    split
    · omega
    · split <;> omega
  have hview : (b.view u width height).1.cursorRow = saturateU16 ((b.position u width).1 -
        b.scrollFor (b.position u width).1 (max height 1) (u.wrapSource b.text width).length) ∧
      (b.view u width height).1.cursorColumn = saturateU16 (b.position u width).2 ∧
      (b.view u width height).1.lines.length = min (max height 1)
        ((u.wrapSource b.text width).length - b.scrollFor (b.position u width).1 (max height 1)
          (u.wrapSource b.text width).length) := by
    unfold view
    dsimp only
    rw [hcache, hlines]
    refine ⟨rfl, rfl, ?_⟩
    rw [List.length_map, List.length_take, List.length_drop]
    rfl
  obtain ⟨hcursorRow, hcursorColumn, hlength⟩ := hview
  have hrowSat := saturateU16_le ((b.position u width).1 -
    b.scrollFor (b.position u width).1 (max height 1) (u.wrapSource b.text width).length)
  have hcolumnSat := saturateU16_le (b.position u width).2
  rw [hcursorRow, hcursorColumn, hlength]
  omega

/-- **Navigation agrees with rendering.** In every state a new buffer reaches, at every width: a
motion between rows says that it moved exactly where there is a row to move to; it is on that row
if and only if it is clear; motions one after another visit the rows there are, each once, and end,
if and only if each of them is clear; and the cursor of a view is on a row and a column of it. -/
theorem navigation_agrees (u : Unicode) (calls : List Call) (width : Nat) :
    let b := ((machine u).run {} calls).1
    (∀ direction : Direction, (b.moveVertical u width direction).2 = true ↔
      0 < b.rowsLeft u width direction) ∧
    (∀ direction : Direction, 0 < b.rowsLeft u width direction →
      (((b.moveVertical u width direction).1.position u width).1 =
          direction.after (b.position u width).1 1 ↔ b.Clear u width direction)) ∧
    (∀ direction : Direction, (∀ k ≤ b.rowsLeft u width direction,
        ((b.moves u width direction k).position u width).1 =
            direction.after (b.position u width).1 k ∧
          ((b.moves u width direction k).moveVertical u width direction).2 =
            decide (k < b.rowsLeft u width direction)) ↔
      ∀ k < b.rowsLeft u width direction, (b.moves u width direction k).Clear u width direction) ∧
    ∀ height, (b.view u width height).1.cursorRow < max height 1 ∧
      (b.view u width height).1.cursorRow < (b.view u width height).1.lines.length ∧
      (b.view u width height).1.cursorColumn < max width 1 := by
  intro b
  have hcoherent : b.Coherent u :=
    (machine u).run_invariant' (fun _ c h => h.call c) (nofun) calls
  have htarget : ∀ direction : Direction, b.target? u width direction =
      if 0 < b.rowsLeft u width direction then
        some (direction.after (b.position u width).1 1)
      else none := by
    intro direction
    exact target?_eq rfl (Nat.zero_le _) (by cases direction <;> rfl)
  refine ⟨?_, ?_, fun direction => moves_iff hcoherent width direction,
    fun height => view_inside hcoherent width height⟩
  · intro direction
    rw [moveVertical_snd hcoherent, htarget]
    split
    · next hleft => simp [hleft]
    · next hleft => simp [hleft]
  · intro direction hleft
    have hsome := htarget direction
    rw [if_pos hleft] at hsome
    exact position_moveVertical_iff hcoherent hsome

/-- Above a row that a wide grapheme begins, the row is one column narrower than the terminal. A
move up from the last column says that it moved, and the cursor is on the row it was on. -/
theorem moveUp_same_row :
    let b := ((machine .plain).run {} [.setText ['a', 'b', 'c', '界', 'd']]).1
    (b.position .plain 4).1 = 1 ∧ (b.moveVertical .plain 4 .up).2 = true ∧
      ((b.moveVertical .plain 4 .up).1.position .plain 4).1 = 1 := by
  decide

end ComposerBuffer

end AxiomDesktop
