import AxiomDesktop.Data.Text
import AxiomDesktop.Lib.Clusters
import AxiomDesktop.Lib.Machine

/-!
# The composer of the terminal

The prompt that is being written (`ComposerBuffer`), its edits and the motions of its cursor, and
the rows it is shown in: `wrapSource` cuts the text into rows, each a range of the text, and the
view and the motions up and down read these rows. Where a text is cut into graphemes, and how wide
one is on the terminal, is a parameter (`Unicode`).

An offset counts the characters before it, and not their bytes: the offsets of the program are all
between two characters.
-/

namespace AxiomDesktop

/-- The graphemes of a text and their widths, by the crates `unicode_segmentation` and
`unicode_width`. The rules on line feeds are those of the Unicode standard: nothing is joined to a
line feed (GB4), and a line feed is joined to a carriage return (GB3) and to nothing else (GB5). -/
structure Unicode extends Segmentation Char where
  /-- `UnicodeWidthStr::width`. -/
  strWidth : List Char → Nat
  boundary_after_lineFeed : ∀ as bs, toSegmentation.Boundary (as ++ ['\n']) bs
  boundary_before_lineFeed : ∀ as bs, as.getLast? ≠ some '\r' →
    toSegmentation.Boundary as ('\n' :: bs)
  not_boundary_crlf : ∀ as bs, ¬ toSegmentation.Boundary (as ++ ['\r']) ('\n' :: bs)

namespace Unicode

/-- The rules on letters, ideographs, combining marks and line ends: whether a character joins one
before it. -/
def joinsPlain (last c : Char) : Bool :=
  if c = '\n' then last == '\r'
  else last != '\n' && last != '\r' && 0x300 ≤ c.toNat && c.toNat < 0x370

/-- The graphemes by these rules. -/
def plainSegmentation : Segmentation Char := .ofJoins fun g c => g.getLast?.any (joinsPlain · c)

theorem boundary_plain {as bs : List Char} {last c : Char} (h : as.getLast? = some last) :
    plainSegmentation.Boundary as (c :: bs) ↔ joinsPlain last c = false := by
  have hne : as ≠ [] := by
    rintro rfl
    cases h
  obtain ⟨g, hg, hiff⟩ := Segmentation.boundary_ofJoins hne
  rw [plainSegmentation, hiff, hg, h, Option.any_some]

/-- Texts of letters, ideographs, combining marks and line ends. -/
def plain : Unicode where
  toSegmentation := plainSegmentation
  strWidth g := if g.any fun c => 0x4e00 ≤ c.toNat && c.toNat < 0xa000 then 2 else 1
  boundary_after_lineFeed as bs := by
    cases bs with
    | nil => exact Segmentation.boundary_nil_right
    | cons c bs =>
      rw [boundary_plain List.getLast?_concat]
      simp [joinsPlain]
  boundary_before_lineFeed as bs h := by
    cases hlast : as.getLast? with
    | none =>
      rw [List.getLast?_eq_none_iff.mp hlast]
      exact Segmentation.boundary_nil_left
    | some last =>
      rw [boundary_plain hlast, joinsPlain, if_pos rfl]
      simpa [hlast] using h
  not_boundary_crlf as bs := by
    rw [boundary_plain List.getLast?_concat]
    simp [joinsPlain]

end Unicode

/-- `VisualLine`: a row of the text, of which the part up to `displayEnd` is shown. -/
structure VisualLine where
  sourceStart : Nat
  sourceEnd : Nat
  displayEnd : Nat
  deriving DecidableEq, Repr, Inhabited

/-- `SourceGrapheme`. -/
structure SourceGrapheme where
  start : Nat
  stop : Nat
  width : Nat
  whitespace : Bool
  deriving DecidableEq, Repr

/-- `TAB_WIDTH`. -/
def tabWidth : Nat := 4

/-- `&text[start..stop]`. -/
def slice (text : List Char) (start stop : Nat) : List Char := (text.take stop).drop start

/-- Graphemes, each with the offset it begins at. -/
def indexed : Nat → List (List Char) → List (Nat × List Char)
  | _, [] => []
  | offset, g :: gs => (offset, g) :: indexed (offset + g.length) gs

/-- `display_slice`. -/
def displaySlice (source : List Char) : List Char :=
  source.flatMap fun c => if c = '\t' then List.replicate tabWidth ' ' else [c]

namespace Unicode

variable (u : Unicode) (text : List Char)

/-- `grapheme_indices(true)`. -/
def graphemeIndices : List (Nat × List Char) := indexed 0 (u.clusters text)

/-- `grapheme_width`. -/
def graphemeWidth (grapheme : List Char) : Nat :=
  if grapheme = ['\t'] then tabWidth else u.strWidth grapheme

/-- `slice_width`. -/
def sliceWidth (source : List Char) : Nat := ((u.clusters source).map u.graphemeWidth).sum

/-- `trim_breakable_end`. -/
def trimBreakableEnd (start stop : Nat) : Nat :=
  ((u.graphemeIndices (slice text start stop)).reverse.find? fun g =>
    !g.2.all Text.isWhitespace).elim start fun g => start + g.1 + g.2.length

/-! ## Rows -/

section Rows

variable (graphemes : List SourceGrapheme) (width : Nat)

/-- The loop over the graphemes of one row, from `index` on: the row and the index the next row
begins at, and nothing where the graphemes end first. The list is that of the graphemes from
`index` on. -/
def scanRow (sourceStart lineStart : Nat) :
    List SourceGrapheme → (index used : Nat) → (lastBreak : Option Nat) → (hasText : Bool) →
      Option (VisualLine × Nat)
  | [], _, _, _, _ => none
  | grapheme :: rest, index, used, lastBreak, hasText =>
    if width < used + grapheme.width ∧ lineStart < index then
      if grapheme.whitespace && hasText then
        some (⟨sourceStart, grapheme.stop, u.trimBreakableEnd text sourceStart grapheme.start⟩,
          index + 1)
      else
        match lastBreak with
        | some breakIndex =>
          let sourceEnd := (graphemes[breakIndex - 1]?).elim 0 (·.stop)
          some (⟨sourceStart, sourceEnd, u.trimBreakableEnd text sourceStart sourceEnd⟩, breakIndex)
        | none =>
          let sourceEnd := (graphemes[index - 1]?).elim 0 (·.stop)
          some (⟨sourceStart, sourceEnd, sourceEnd⟩, index)
    else if grapheme.whitespace then
      scanRow sourceStart lineStart rest (index + 1) (used + grapheme.width)
        (if hasText then some (index + 1) else lastBreak) hasText
    else scanRow sourceStart lineStart rest (index + 1) (used + grapheme.width) lastBreak true

/-- The loop over the rows of a line that ends at `stop`, for so many rows at most; nothing where
it has not ended then. -/
def wrapRows (stop : Nat) : (fuel lineStart : Nat) → Option (List VisualLine)
  | fuel, lineStart =>
    match graphemes[lineStart]? with
    | none => some []
    | some first =>
      match fuel with
      | 0 => none
      | fuel + 1 =>
        match u.scanRow text graphemes width first.start lineStart (graphemes.drop lineStart)
            lineStart 0 none false with
        | some (line, next) => (wrapRows stop fuel next).map (line :: ·)
        | none => some [⟨first.start, stop, stop⟩]

end Rows

/-- The graphemes of `text[start..stop]`. -/
def sourceGraphemes (start stop : Nat) : List SourceGrapheme :=
  (u.graphemeIndices (slice text start stop)).map fun g =>
    { start := start + g.1
      stop := start + g.1 + g.2.length
      width := u.graphemeWidth g.2
      whitespace := g.2.all Text.isWhitespace }

/-- `wrap_logical_line`. Its loop ends within as many rows as the line has graphemes
(`wrapRows_ends`). -/
def wrapLogicalLine (start stop width : Nat) (lines : List VisualLine) : List VisualLine :=
  if start = stop then lines ++ [⟨start, stop, stop⟩]
  else
    let graphemes := u.sourceGraphemes text start stop
    lines ++ (u.wrapRows text graphemes width stop graphemes.length 0).getD []

/-- The last row is full, so that what is written next has no place in it. -/
def fullRow (width logicalEnd : Nat) (lines : List VisualLine) : Bool :=
  lines.getLast?.any fun line =>
    line.sourceEnd = logicalEnd ∧ width ≤ u.sliceWidth (slice text line.sourceStart line.displayEnd)

/-- The loop of `wrap_source` over the logical lines. -/
def wrapLogicalLines (width : Nat) : List (List Char) → (logicalStart : Nat) → List VisualLine →
    List VisualLine
  | [], _, lines => lines
  | logical :: rest, logicalStart, lines =>
    let logicalEnd := logicalStart + logical.length
    let lines := u.wrapLogicalLine text logicalStart logicalEnd width lines
    let lines :=
      if rest = [] ∧ text.getLast? ≠ some '\n' ∧ u.fullRow text width logicalEnd lines then
        lines ++ [⟨logicalEnd, logicalEnd, logicalEnd⟩]
      else lines
    wrapLogicalLines width rest (logicalEnd + 1) lines

/-- `wrap_source`. -/
def wrapSource (width : Nat) : List VisualLine :=
  let lines := u.wrapLogicalLines text (max width 1) (Text.splitChar '\n' text) 0 []
  if lines = [] then [⟨0, 0, 0⟩] else lines

/-! ## Positions in the rows -/

/-- `cursor_position`: the row and the column of an offset. -/
def cursorPosition (lines : List VisualLine) (width cursor : Nat) : Nat × Nat :=
  let row := min ((lines.takeWhile (·.sourceStart ≤ cursor)).length - 1) (lines.length - 1)
  let line := lines.getD row default
  let visibleCursor := max (min cursor line.displayEnd) line.sourceStart
  (row, min (u.sliceWidth (slice text line.sourceStart visibleCursor)) (width - 1))

/-- The offset of the first grapheme that ends behind a column. -/
def pastColumn (target : Nat) : List (List Char) → (offset column : Nat) → Option Nat
  | [], _, _ => none
  | g :: gs, offset, column =>
    let next := column + u.graphemeWidth g
    if target < next then some offset else pastColumn target gs (offset + g.length) next

/-- `byte_at_column`. -/
def byteAtColumn (line : VisualLine) (target : Nat) : Nat :=
  (u.pastColumn target (u.clusters (slice text line.sourceStart line.displayEnd)) 0 0).elim
    line.displayEnd (line.sourceStart + ·)

end Unicode

/-! ## The buffer -/

/-- `WrapCache`. -/
structure WrapCache where
  width : Nat
  lines : List VisualLine
  deriving DecidableEq

/-- `ComposerBuffer`. -/
structure ComposerBuffer where
  text : List Char := []
  cursor : Nat := 0
  preferredColumn : Option Nat := none
  wrapCache : Option WrapCache := none
  viewportScroll : Nat := 0
  deriving DecidableEq

/-- `ComposerView`. -/
structure ComposerView where
  lines : List (List Char)
  cursorRow : Nat
  cursorColumn : Nat
  scroll : Nat
  totalLines : Nat
  deriving DecidableEq

/-- `u16::try_from(n).unwrap_or(u16::MAX)`. -/
def saturateU16 (n : Nat) : Nat := if n < 2 ^ 16 then n else 2 ^ 16 - 1

/-- `str::rfind`. -/
def rfind (c : Char) (cs : List Char) : Option Nat :=
  (cs.reverse.findIdx? (· = c)).map (cs.length - 1 - ·)

namespace ComposerBuffer

variable (u : Unicode) (b : ComposerBuffer)

/-- `after_edit`. -/
def afterEdit : ComposerBuffer := { b with preferredColumn := none, wrapCache := none }

/-- `set_text`. -/
def setText (text : List Char) : ComposerBuffer :=
  afterEdit { b with text := text, cursor := text.length }

/-- `take_text`. -/
def takeText : List Char × ComposerBuffer :=
  (b.text, { b with
    text := [], cursor := 0, preferredColumn := none, viewportScroll := 0, wrapCache := none })

/-- `clear`. -/
def clear : ComposerBuffer := afterEdit { b with text := [], cursor := 0 }

/-- `insert_str`. -/
def insertStr (text : List Char) : ComposerBuffer :=
  afterEdit { b with
    text := b.text.take b.cursor ++ text ++ b.text.drop b.cursor
    cursor := b.cursor + text.length }

/-- `insert_char`. -/
def insertChar (character : Char) : ComposerBuffer := b.insertStr [character]

/-- `backspace`. -/
def backspace : ComposerBuffer × Bool :=
  match (u.graphemeIndices (b.text.take b.cursor)).getLast? with
  | none => (b, false)
  | some (previous, _) =>
    (afterEdit { b with
      text := b.text.take previous ++ b.text.drop b.cursor
      cursor := previous }, true)

/-- `delete_forward`. -/
def deleteForward : ComposerBuffer × Bool :=
  match u.clusters (b.text.drop b.cursor) with
  | [] => (b, false)
  | grapheme :: _ =>
    (afterEdit { b with
      text := b.text.take b.cursor ++ b.text.drop (b.cursor + grapheme.length) }, true)

/-- `move_left`. -/
def moveLeft : ComposerBuffer × Bool :=
  match (u.graphemeIndices (b.text.take b.cursor)).getLast? with
  | none => (b, false)
  | some (previous, _) => ({ b with cursor := previous, preferredColumn := none }, true)

/-- `move_right`. -/
def moveRight : ComposerBuffer × Bool :=
  match u.clusters (b.text.drop b.cursor) with
  | [] => (b, false)
  | grapheme :: _ =>
    ({ b with cursor := b.cursor + grapheme.length, preferredColumn := none }, true)

/-- A motion to an offset, and whether the cursor was elsewhere. -/
def moveTo (offset : Nat) : ComposerBuffer × Bool :=
  ({ b with cursor := offset, preferredColumn := none }, offset != b.cursor)

/-- `move_to_line_start`. -/
def moveToLineStart : ComposerBuffer × Bool :=
  b.moveTo ((rfind '
' (b.text.take b.cursor)).elim 0 (· + 1))

/-- `move_to_document_start`. -/
def moveToDocumentStart : ComposerBuffer × Bool := b.moveTo 0

/-- The end of the line of the cursor. -/
def lineEnd : Nat :=
  ((b.text.drop b.cursor).findIdx? (· = '
')).elim b.text.length (b.cursor + ·)

/-- `move_to_line_end`. -/
def moveToLineEnd : ComposerBuffer × Bool := b.moveTo b.lineEnd

/-- `move_to_document_end`. -/
def moveToDocumentEnd : ComposerBuffer × Bool := b.moveTo b.text.length

/-- `wrapped_lines`: the rows, from the cache where they are there at this width. -/
def wrappedLines (width : Nat) : List VisualLine × ComposerBuffer :=
  let width := max width 1
  let fresh : WrapCache := ⟨width, u.wrapSource b.text width⟩
  match b.wrapCache with
  | some cache => if cache.width = width then (cache.lines, b) else
      (fresh.lines, { b with wrapCache := some fresh })
  | none => (fresh.lines, { b with wrapCache := some fresh })

/-- `desired_height`. -/
def desiredHeight (width : Nat) : Nat × ComposerBuffer :=
  let (lines, b) := b.wrappedLines u width
  (saturateU16 lines.length, b)

/-- The scroll of the viewport that has the row of the cursor in it. -/
def scrollFor (cursorRow height total : Nat) : Nat :=
  let scroll := min b.viewportScroll (total - height)
  if cursorRow < scroll then cursorRow
  else if scroll + height ≤ cursorRow then cursorRow + 1 - height
  else scroll

/-- `view`. -/
def view (width height : Nat) : ComposerView × ComposerBuffer :=
  let width := max width 1
  let height := max height 1
  let (lines, b) := b.wrappedLines u width
  let (cursorRow, cursorColumn) := u.cursorPosition b.text lines width b.cursor
  let scroll := b.scrollFor cursorRow height lines.length
  let visible := ((lines.drop scroll).take height).map fun line =>
    displaySlice (slice b.text line.sourceStart line.displayEnd)
  ({ lines := visible
     cursorRow := saturateU16 (cursorRow - scroll)
     cursorColumn := saturateU16 cursorColumn
     scroll := scroll
     totalLines := lines.length }, { b with viewportScroll := scroll })

/-- A direction of a motion between rows. -/
inductive Direction where
  | up
  | down
  deriving DecidableEq

/-- The row next to a row, where there is one. -/
def Direction.target (total row : Nat) : Direction → Option Nat
  | .up => if row = 0 then none else some (row - 1)
  | .down => if row + 1 < total then some (row + 1) else none

/-- `move_vertical`: `move_up` and `move_down`. -/
def moveVertical (width : Nat) (direction : Direction) : ComposerBuffer × Bool :=
  let (lines, b) := b.wrappedLines u (max width 1)
  let (row, column) := u.cursorPosition b.text lines (max width 1) b.cursor
  let preferred := b.preferredColumn.getD column
  match direction.target lines.length row with
  | none => (b, false)
  | some target =>
    ({ b with
      cursor := u.byteAtColumn b.text (lines.getD target default) preferred
      preferredColumn := some preferred }, true)

/-- A call of the buffer. -/
inductive Call where
  | setText (text : List Char)
  | takeText
  | clear
  | insertChar (character : Char)
  | insertStr (text : List Char)
  | backspace
  | deleteForward
  | moveLeft
  | moveRight
  | moveToLineStart
  | moveToDocumentStart
  | moveToLineEnd
  | moveToDocumentEnd
  | moveVertical (width : Nat) (direction : Direction)
  | desiredHeight (width : Nat)
  | view (width height : Nat)
  deriving DecidableEq

/-- The buffer after a call. -/
def call : Call → ComposerBuffer
  | .setText text => b.setText text
  | .takeText => b.takeText.2
  | .clear => b.clear
  | .insertChar character => b.insertChar character
  | .insertStr text => b.insertStr text
  | .backspace => (b.backspace u).1
  | .deleteForward => (b.deleteForward u).1
  | .moveLeft => (b.moveLeft u).1
  | .moveRight => (b.moveRight u).1
  | .moveToLineStart => b.moveToLineStart.1
  | .moveToDocumentStart => b.moveToDocumentStart.1
  | .moveToLineEnd => b.moveToLineEnd.1
  | .moveToDocumentEnd => b.moveToDocumentEnd.1
  | .moveVertical width direction => (b.moveVertical u width direction).1
  | .desiredHeight width => (b.desiredHeight u width).2
  | .view width height => (b.view u width height).2

/-- A buffer and the calls of it. -/
def machine : Machine ComposerBuffer Call Empty where
  step b c := (b.call u c, [])

end ComposerBuffer

end AxiomDesktop
