import AxiomDesktop.Tui.Tiling

/-!
# The cursor of the composer

The cursor is between the text before it and the text behind it (`Split`), and on a boundary where
these meet at one (`OnBoundary`). Most calls keep it there. The edits put texts side by side, of
which the second may join the first; and the motions to the end of a line go before a line feed,
which may belong to a carriage return. `Safe` says of a call that neither happens, and a run keeps
the cursor on a boundary exactly where its calls are safe (`onBoundary_iff_safe`).
-/

namespace AxiomDesktop

/-- A place between a carriage return and a line feed. -/
def CrLf (text : List Char) (offset : Nat) : Prop :=
  (text.take offset).getLast? = some '\r' ∧ (text.drop offset).head? = some '\n'

instance (text : List Char) (offset : Nat) : Decidable (CrLf text offset) :=
  inferInstanceAs (Decidable (_ ∧ _))

namespace Unicode

variable {u : Unicode} {left right : List Char}

theorem boundary_lineFeed_iff : u.Boundary left ('\n' :: right) ↔ left.getLast? ≠ some '\r' := by
  constructor
  · intro h hlast
    obtain hnil | ⟨front, c, hleft⟩ := List.eq_nil_or_concat left
    · rw [hnil] at hlast
      cases hlast
    · rw [hleft, List.concat_eq_append] at h hlast
      obtain rfl : c = '\r' := by simpa using hlast
      exact u.not_boundary_crlf front right h
  · exact u.boundary_before_lineFeed left right

theorem crLf_append : CrLf (left ++ right) left.length ↔
    left.getLast? = some '\r' ∧ right.head? = some '\n' := by
  rw [CrLf, List.take_left, List.drop_left]

/-- A boundary is not between a carriage return and a line feed. -/
theorem not_crLf_of_boundary (h : u.Boundary left right) : ¬ CrLf (left ++ right) left.length := by
  rw [crLf_append]
  rintro ⟨hleft, hright⟩
  cases right with
  | nil => cases hright
  | cons c right =>
    obtain rfl : c = '\n' := by simpa using hright
    exact boundary_lineFeed_iff.mp h hleft

end Unicode

namespace ComposerBuffer

variable {u : Unicode} {b : ComposerBuffer} {left right : List Char}

/-- The text before the cursor. -/
def before (b : ComposerBuffer) : List Char := b.text.take b.cursor

/-- The text behind the cursor. -/
def behind (b : ComposerBuffer) : List Char := b.text.drop b.cursor

/-- The texts on both sides of the cursor. -/
structure Split (b : ComposerBuffer) (left right : List Char) : Prop where
  text_eq : b.text = left ++ right
  cursor_eq : b.cursor = left.length

theorem Split.before_eq (h : b.Split left right) : b.before = left := by
  rw [before, h.text_eq, h.cursor_eq, List.take_left]

theorem Split.behind_eq (h : b.Split left right) : b.behind = right := by
  rw [behind, h.text_eq, h.cursor_eq, List.drop_left]

/-- The cursor is on a grapheme boundary of the text. -/
def OnBoundary (u : Unicode) (b : ComposerBuffer) : Prop :=
  b.cursor ≤ b.text.length ∧ u.Boundary b.before b.behind

instance : Decidable (b.OnBoundary u) := inferInstanceAs (Decidable (_ ∧ _))

theorem Split.onBoundary_iff (h : b.Split left right) : b.OnBoundary u ↔ u.Boundary left right := by
  rw [OnBoundary, h.before_eq, h.behind_eq, h.text_eq, h.cursor_eq]
  simp

theorem OnBoundary.split (h : b.OnBoundary u) : b.Split b.before b.behind where
  text_eq := (List.take_append_drop _ _).symm
  cursor_eq := (List.length_take_of_le h.1).symm

/-! ## The cache of the rows -/

/-- The rows in the cache are those of the text. -/
def Coherent (u : Unicode) (b : ComposerBuffer) : Prop :=
  ∀ cache ∈ b.wrapCache, cache.lines = u.wrapSource b.text cache.width

theorem wrappedLines_fst (h : b.Coherent u) (width : Nat) :
    (b.wrappedLines u width).1 = u.wrapSource b.text (max width 1) := by
  unfold wrappedLines
  dsimp only
  split
  · next cache hcache =>
    split
    · next hwidth => exact hwidth ▸ h cache hcache
    · rfl
  · rfl

/-- `wrapped_lines` changes the cache only. -/
theorem wrappedLines_snd (u : Unicode) (b : ComposerBuffer) (width : Nat) :
    ∃ cache, (b.wrappedLines u width).2 = { b with wrapCache := cache } := by
  unfold wrappedLines
  dsimp only
  split
  · split
    · exact ⟨_, rfl⟩
    · exact ⟨_, rfl⟩
  · exact ⟨_, rfl⟩

theorem Coherent.wrappedLines (h : b.Coherent u) (width : Nat) :
    (b.wrappedLines u width).2.Coherent u := by
  unfold ComposerBuffer.wrappedLines
  dsimp only
  split
  · split
    · exact h
    · intro cache hcache
      cases hcache
      rfl
  · intro cache hcache
    cases hcache
    rfl

theorem wrapSource_max (u : Unicode) (text : List Char) (width : Nat) :
    u.wrapSource text (max width 1) = u.wrapSource text width := by
  rw [Unicode.wrapSource, Unicode.wrapSource, Nat.max_assoc, Nat.max_self]

end ComposerBuffer

/-! ## Offsets in a row -/

namespace LogicalLine

variable {u : Unicode} {text : List Char} (L : LogicalLine text) {gs hs : List (List Char)}

theorem boundary_before : u.Boundary L.before (L.line ++ L.after) := by
  obtain h | ⟨front, h⟩ := L.opens
  · rw [h]
    exact Segmentation.boundary_nil_left
  · rw [h]
    exact u.boundary_after_lineFeed front _

/-- A place between two graphemes of a line is a boundary of the text. -/
theorem boundary_of_clusters (h : u.clusters L.line = gs ++ hs) (hne : hs ≠ []) :
    u.Boundary (L.before ++ gs.flatten) (hs.flatten ++ L.after) := by
  have hline : L.line = gs.flatten ++ hs.flatten := by
    rw [← u.flatten_clusters L.line, h, List.flatten_append]
  have hnonempty : hs.flatten ≠ [] := by
    obtain ⟨g, rest, rfl⟩ := List.exists_cons_of_ne_nil hne
    have hg : g ∈ u.clusters L.line := by
      rw [h]
      simp
    simp [u.ne_nil hg]
  have hinside := (Segmentation.boundary_of_clusters h).append hnonempty L.after
  have hbefore : u.Boundary L.before (gs.flatten ++ (hs.flatten ++ L.after)) := by
    rw [← List.append_assoc, ← hline]
    exact L.boundary_before
  exact hbefore.trans hinside

/-- The end of a line is a boundary of the text, unless a line feed belongs to a carriage return
there. -/
theorem boundary_end_iff :
    u.Boundary (L.before ++ L.line) L.after ↔ ¬ CrLf text (L.before.length + L.line.length) := by
  have htext : CrLf text (L.before.length + L.line.length) ↔
      (L.before ++ L.line).getLast? = some '\r' ∧ L.after.head? = some '\n' := by
    rw [← List.length_append, ← Unicode.crLf_append, ← L.text_eq]
  rw [htext]
  obtain h | ⟨back, h⟩ := L.closes
  · rw [h]
    simp
  · rw [h, Unicode.boundary_lineFeed_iff]
    simp

end LogicalLine

namespace Unicode

variable {u : Unicode} {text : List Char} {target : Nat}

theorem pastColumn_cases (gs : List (List Char)) (offset : Nat) {column : Nat}
    (hcolumn : column ≤ target) :
    (u.pastColumn target gs offset column = none ∧
        column + (gs.map u.graphemeWidth).sum ≤ target) ∨
      ∃ front g back, gs = front ++ g :: back ∧
        u.pastColumn target gs offset column = some (offset + front.flatten.length) ∧
          target < column + (gs.map u.graphemeWidth).sum := by
  induction gs generalizing offset column with
  | nil => exact .inl ⟨rfl, hcolumn⟩
  | cons g gs ih =>
    by_cases hpast : target < column + u.graphemeWidth g
    · refine .inr ⟨[], g, gs, rfl, by simp [pastColumn, hpast], ?_⟩
      rw [List.map_cons, List.sum_cons]
      omega
    · have hgo : u.pastColumn target (g :: gs) offset column =
          u.pastColumn target gs (offset + g.length) (column + u.graphemeWidth g) := by
        simp [pastColumn, hpast]
      rw [hgo, List.map_cons, List.sum_cons, ← Nat.add_assoc]
      obtain h | ⟨front, g', back, rfl, hsome, hlt⟩ := ih (offset + g.length) (Nat.not_lt.mp hpast)
      · exact .inl h
      · refine .inr ⟨g :: front, g', back, rfl, ?_, hlt⟩
        rw [hsome, List.flatten_cons, List.length_append, Nat.add_assoc]

end Unicode

namespace Row

variable {u : Unicode} {text : List Char} {width target : Nat} (r : Row u text width)

/-- The offset at a column of a row is between two of the graphemes it shows, and behind the last
of them where they are no wider than the column. -/
theorem byteAtColumn_cases (target : Nat) :
    (u.byteAtColumn text r.visual target = r.visual.displayEnd ∧
        u.sliceWidth (slice text r.visual.sourceStart r.visual.displayEnd) ≤ target) ∨
      ∃ front g back, r.shown = front ++ g :: back ∧
        u.byteAtColumn text r.visual target = r.start + front.flatten.length ∧
          target < u.sliceWidth (slice text r.visual.sourceStart r.visual.displayEnd) := by
  rw [r.sliceWidth_shown]
  unfold Unicode.byteAtColumn
  rw [r.slice_shown, r.clusters_shown]
  obtain ⟨hnone, hle⟩ | ⟨front, g, back, hshown, hsome, hlt⟩ :=
    Unicode.pastColumn_cases (u := u) r.shown 0 (Nat.zero_le target)
  · rw [hnone]
    exact .inl ⟨rfl, by omega⟩
  · rw [hsome, Nat.zero_add]
    exact .inr ⟨front, g, back, hshown, rfl, by omega⟩

/-- The text on both sides of an offset behind some of the graphemes of a row. -/
theorem text_eq_append {front back : List (List Char)} (h : r.shown = front ++ back) :
    text = (r.before ++ (r.done ++ front).flatten) ++
      ((back ++ r.trimmed ++ r.rest).flatten ++ r.after) := by
  refine r.text_eq.trans ?_
  rw [← u.flatten_clusters r.line, r.clusters_eq, h]
  simp

/-- **The motion to a column of a row goes to a boundary,** unless it goes before the line feed of a
carriage return. -/
theorem boundary_byteAtColumn_iff (target : Nat) :
    ∃ left right, text = left ++ right ∧ u.byteAtColumn text r.visual target = left.length ∧
      (u.Boundary left right ↔
        (u.sliceWidth (slice text r.visual.sourceStart r.visual.displayEnd) ≤ target →
          ¬ CrLf text r.visual.displayEnd)) := by
  obtain ⟨hat, hle⟩ | ⟨front, g, back, hshown, hat, hlt⟩ := r.byteAtColumn_cases target
  · have hsplit := r.text_eq_append (List.append_nil r.shown).symm
    have hlen : r.visual.displayEnd = (r.before ++ (r.done ++ r.shown).flatten).length := by
      simp [visual, start, Nat.add_assoc]
    refine ⟨_, _, hsplit, hat.trans hlen, ?_⟩
    have hwhen : (u.sliceWidth (slice text r.visual.sourceStart r.visual.displayEnd) ≤ target →
        ¬ CrLf text r.visual.displayEnd) ↔
          ¬ CrLf text (r.before ++ (r.done ++ r.shown).flatten).length := by
      rw [← hlen]
      exact ⟨fun h => h hle, fun h _ => h⟩
    rw [hwhen, List.nil_append]
    by_cases hend : r.trimmed ++ r.rest = []
    · have hline : r.line = (r.done ++ r.shown).flatten := by
        rw [← u.flatten_clusters r.line, r.clusters_eq]
        obtain ⟨htrimmed, hrest⟩ := List.append_eq_nil_iff.mp hend
        rw [htrimmed, hrest]
        simp
      have hiff := r.boundary_end_iff (u := u)
      rw [← List.length_append, hline] at hiff
      rw [hend, List.flatten_nil, List.nil_append, hiff]
    · have hboundary := r.boundary_of_clusters r.clusters_eq_shown hend
      refine iff_of_true hboundary ?_
      have hcrlf := Unicode.not_crLf_of_boundary hboundary
      rw [List.nil_append] at hsplit
      rwa [← hsplit] at hcrlf
  · have hsplit := r.text_eq_append hshown
    refine ⟨_, _, hsplit, hat.trans (by simp [start, Nat.add_assoc]), ?_⟩
    refine iff_of_true (r.boundary_of_clusters ?_ (by simp)) fun hle =>
      absurd hlt (Nat.not_lt.mpr hle)
    rw [r.clusters_eq, hshown]
    simp

end Row

namespace ComposerBuffer

variable {u : Unicode} {b : ComposerBuffer} {left right : List Char}

/-! ## Motions between rows -/

/-- The row and the column of the cursor. -/
def position (u : Unicode) (b : ComposerBuffer) (width : Nat) : Nat × Nat :=
  u.cursorPosition b.text (u.wrapSource b.text width) (max width 1) b.cursor

/-- The column a motion between rows goes to. -/
def preferred (u : Unicode) (b : ComposerBuffer) (width : Nat) : Nat :=
  b.preferredColumn.getD (b.position u width).2

/-- The row a motion goes to. -/
def target? (u : Unicode) (b : ComposerBuffer) (width : Nat) (direction : Direction) : Option Nat :=
  direction.target (u.wrapSource b.text width).length (b.position u width).1

/-- A row of the text. -/
def rowAt (u : Unicode) (b : ComposerBuffer) (width row : Nat) : VisualLine :=
  (u.wrapSource b.text width).getD row default

/-- A motion between rows goes to the column in the row, if there is one; for the rest it changes
the cache only. -/
theorem moveVertical_eq (h : b.Coherent u) (width : Nat) (direction : Direction) :
    ∃ cache, ({ b with wrapCache := cache } : ComposerBuffer).Coherent u ∧
      b.moveVertical u width direction =
        match b.target? u width direction with
        | none => ({ b with wrapCache := cache }, false)
        | some target =>
          ({ b with
            wrapCache := cache
            cursor := u.byteAtColumn b.text (b.rowAt u width target) (b.preferred u width)
            preferredColumn := some (b.preferred u width) }, true) := by
  have hlines := wrappedLines_fst h (max width 1)
  obtain ⟨cache, hcache⟩ := wrappedLines_snd u b (max width 1)
  have hcoherent := h.wrappedLines (max width 1)
  rw [hcache] at hcoherent
  rw [Nat.max_assoc, Nat.max_self, wrapSource_max] at hlines
  refine ⟨cache, hcoherent, ?_⟩
  unfold moveVertical
  dsimp only
  rw [hcache, hlines]
  rfl

theorem position_lt (u : Unicode) (b : ComposerBuffer) (width : Nat) :
    (b.position u width).1 < (u.wrapSource b.text width).length := by
  obtain ⟨rows, -, htiles⟩ := wrapSource_tiles u b.text width
  have hpos := List.length_pos_iff.mpr htiles.ne_nil
  rw [position, Unicode.cursorPosition]
  dsimp only
  omega

theorem target_lt {width target : Nat} {direction : Direction}
    (h : b.target? u width direction = some target) :
    target < (u.wrapSource b.text width).length := by
  have hrow := position_lt u b width
  cases direction with
  | up =>
    rw [target?, Direction.target] at h
    split at h
    · cases h
    · cases h
      omega
  | down =>
    rw [target?, Direction.target] at h
    split at h
    · cases h
      assumption
    · cases h

/-- Every row of the text is a row of its graphemes. -/
theorem rowAt_eq {width target : Nat} (h : target < (u.wrapSource b.text width).length) :
    ∃ r : Row u b.text (max width 1), b.rowAt u width target = r.visual := by
  obtain ⟨rows, hrows, -⟩ := wrapSource_tiles u b.text width
  have hmem : b.rowAt u width target ∈ u.wrapSource b.text width := by
    rw [rowAt, List.getD_eq_getElem?_getD, List.getElem?_eq_getElem h, Option.getD_some]
    exact List.getElem_mem h
  rw [hrows] at hmem
  obtain ⟨r, -, hr⟩ := List.mem_map.mp hmem
  exact ⟨r, hr.symm⟩

/-! ## Calls that keep the cursor on a boundary -/

/-- The call puts no texts side by side of which the second joins the first, and does not go before
the line feed of a carriage return. -/
def Safe (u : Unicode) (b : ComposerBuffer) : Call → Prop
  | .insertChar c => ¬ u.Joined (b.before ++ [c]) b.behind
  | .insertStr text => ¬ u.Joined (b.before ++ text) b.behind
  | .backspace => ¬ u.Joined (u.clusters b.before).dropLast.flatten b.behind
  | .deleteForward => ¬ u.Joined b.before (u.clusters b.behind).tail.flatten
  | .moveToLineEnd => ¬ CrLf b.text b.lineEnd
  | .moveVertical width direction =>
    ∀ target ∈ b.target? u width direction,
      u.sliceWidth (slice b.text (b.rowAt u width target).sourceStart
        (b.rowAt u width target).displayEnd) ≤ b.preferred u width →
          ¬ CrLf b.text (b.rowAt u width target).displayEnd
  | _ => True

theorem safe_backspace :
    b.Safe u .backspace ↔ ¬ u.Joined (u.clusters b.before).dropLast.flatten b.behind := Iff.rfl

theorem safe_deleteForward :
    b.Safe u .deleteForward ↔ ¬ u.Joined b.before (u.clusters b.behind).tail.flatten := Iff.rfl

theorem safe_moveToLineEnd : b.Safe u .moveToLineEnd ↔ ¬ CrLf b.text b.lineEnd := Iff.rfl

theorem safe_moveVertical (width : Nat) (direction : Direction) :
    b.Safe u (.moveVertical width direction) ↔ ∀ target ∈ b.target? u width direction,
      u.sliceWidth (slice b.text (b.rowAt u width target).sourceStart
        (b.rowAt u width target).displayEnd) ≤ b.preferred u width →
          ¬ CrLf b.text (b.rowAt u width target).displayEnd := Iff.rfl

/-! ## Edits -/

theorem split_insertStr (h : b.Split left right) (text : List Char) :
    (b.insertStr text).Split (left ++ text) right where
  text_eq := by
    show b.before ++ text ++ b.behind = _
    rw [h.before_eq, h.behind_eq]
  cursor_eq := by
    show b.cursor + text.length = _
    rw [h.cursor_eq, List.length_append]

/-- The offset of the last grapheme. -/
theorem getLast?_graphemeIndices {gs : List (List Char)} {g : List Char}
    (h : u.clusters left = gs ++ [g]) :
    (u.graphemeIndices left).getLast? = some (gs.flatten.length, g) := by
  rw [Unicode.graphemeIndices, h, indexed_append, Nat.zero_add]
  exact List.getLast?_concat

/-- There is nothing before the cursor, or there is a last grapheme of it. -/
theorem Split.before_cases (h : b.Split left right) :
    (left = [] ∧ (u.graphemeIndices (b.text.take b.cursor)).getLast? = none) ∨
      ∃ gs g, u.clusters left = gs ++ [g] ∧ left = gs.flatten ++ g ∧
        (u.graphemeIndices (b.text.take b.cursor)).getLast? = some (gs.flatten.length, g) := by
  have hbefore : b.text.take b.cursor = left := h.before_eq
  rw [hbefore]
  obtain hnil | ⟨gs, g, hgs⟩ := List.eq_nil_or_concat (u.clusters left)
  · have hleft := Segmentation.clusters_eq_nil_iff.mp hnil
    refine .inl ⟨hleft, ?_⟩
    rw [hleft, Unicode.graphemeIndices, Segmentation.clusters_nil]
    rfl
  · rw [List.concat_eq_append] at hgs
    refine .inr ⟨gs, g, hgs, ?_, getLast?_graphemeIndices hgs⟩
    rw [← u.flatten_clusters left, hgs, List.flatten_append, List.flatten_singleton]

theorem onBoundary_backspace_iff (h : b.OnBoundary u) :
    (b.backspace u).1.OnBoundary u ↔ b.Safe u .backspace := by
  have hsplit := h.split
  unfold backspace
  obtain ⟨hnil, hlast⟩ | ⟨gs, g, hgs, hbefore, hlast⟩ := hsplit.before_cases (u := u)
  · rw [hlast]
    refine iff_of_true h ?_
    rw [safe_backspace, hnil]
    simp [Segmentation.Joined]
  · rw [hlast]
    have hafter : Split (afterEdit { b with
        text := b.text.take gs.flatten.length ++ b.text.drop b.cursor
        cursor := gs.flatten.length }) gs.flatten b.behind := by
      refine ⟨?_, rfl⟩
      show b.text.take gs.flatten.length ++ b.behind = _
      rw [hsplit.text_eq, hbefore, List.append_assoc, List.take_left]
    rw [hafter.onBoundary_iff, Segmentation.boundary_iff_not_joined, safe_backspace, hgs,
      List.dropLast_concat]

theorem onBoundary_deleteForward_iff (h : b.OnBoundary u) :
    (b.deleteForward u).1.OnBoundary u ↔ b.Safe u .deleteForward := by
  have hsplit := h.split
  have hbehind : b.text.drop b.cursor = b.behind := rfl
  unfold deleteForward
  rw [hbehind]
  cases hcs : u.clusters b.behind with
  | nil =>
    refine iff_of_true h ?_
    rw [safe_deleteForward, hcs]
    simp [Segmentation.Joined]
  | cons g rest =>
    have hright : b.behind = g ++ rest.flatten := by
      rw [← u.flatten_clusters b.behind, hcs, List.flatten_cons]
    have hafter : Split (afterEdit { b with
        text := b.text.take b.cursor ++ b.text.drop (b.cursor + g.length) })
          b.before rest.flatten := by
      refine ⟨?_, hsplit.cursor_eq⟩
      show b.before ++ b.text.drop (b.cursor + g.length) = _
      rw [← List.drop_drop, hbehind, hright, List.drop_left]
    dsimp only
    rw [hafter.onBoundary_iff, Segmentation.boundary_iff_not_joined,
      safe_deleteForward, hcs, List.tail_cons]

/-! ## Motions -/

/-- A motion to the place between two texts. -/
theorem split_moveTo (htext : b.text = left ++ right) : (b.moveTo left.length).1.Split left right :=
  ⟨htext, rfl⟩

theorem onBoundary_moveLeft (h : b.OnBoundary u) : (b.moveLeft u).1.OnBoundary u := by
  have hsplit := h.split
  unfold moveLeft
  obtain ⟨-, hlast⟩ | ⟨gs, g, hgs, hbefore, hlast⟩ := hsplit.before_cases (u := u)
  · rw [hlast]
    exact h
  · rw [hlast]
    have hboundary := h.2.left hgs
    rw [List.flatten_singleton] at hboundary
    refine (Split.onBoundary_iff ⟨?_, rfl⟩).mpr hboundary
    show b.text = _
    rw [← List.append_assoc, ← hbefore]
    exact hsplit.text_eq

theorem onBoundary_moveRight (h : b.OnBoundary u) : (b.moveRight u).1.OnBoundary u := by
  have hsplit := h.split
  have hbehind : b.text.drop b.cursor = b.behind := rfl
  unfold moveRight
  rw [hbehind]
  cases hcs : u.clusters b.behind with
  | nil => exact h
  | cons g rest =>
    have hright : b.behind = g ++ rest.flatten := by
      rw [← u.flatten_clusters b.behind, hcs, List.flatten_cons]
    have hinside : u.Boundary g rest.flatten := by
      have hcut : u.clusters b.behind = [g] ++ rest := hcs
      have hboundary := Segmentation.boundary_of_clusters hcut
      rwa [List.flatten_singleton] at hboundary
    have hboundary : u.Boundary b.before (g ++ rest.flatten) := hright ▸ h.2
    refine (Split.onBoundary_iff ⟨?_, ?_⟩).mpr (hboundary.trans hinside)
    · show b.text = _
      rw [List.append_assoc, ← hright]
      exact hsplit.text_eq
    · show b.cursor + g.length = _
      rw [hsplit.cursor_eq, List.length_append]

/-- The last line feed of a text. -/
theorem rfind_cases (cs : List Char) : rfind '\n' cs = none ∨
    ∃ front back, cs = front ++ ['\n'] ++ back ∧ rfind '\n' cs = some front.length := by
  rw [rfind]
  cases hfind : cs.reverse.findIdx? (· = '\n') with
  | none => exact .inl rfl
  | some k =>
    obtain ⟨hk, hfeed, -⟩ := List.findIdx?_eq_some_iff_getElem.mp hfind
    rw [List.length_reverse] at hk
    rw [List.getElem_reverse] at hfeed
    refine .inr ⟨cs.take (cs.length - 1 - k), cs.drop (cs.length - 1 - k + 1), ?_, ?_⟩
    · have hdrop := List.drop_eq_getElem_cons (show cs.length - 1 - k < cs.length by omega)
      rw [of_decide_eq_true hfeed] at hdrop
      rw [List.append_assoc, List.singleton_append, ← hdrop, List.take_append_drop]
    · rw [Option.map_some, List.length_take_of_le (by omega)]

theorem onBoundary_moveToLineStart (h : b.OnBoundary u) : b.moveToLineStart.1.OnBoundary u := by
  have hsplit := h.split
  unfold moveToLineStart
  obtain hnone | ⟨front, back, hbefore, hsome⟩ := rfind_cases b.before
  · have hnone' : rfind '\n' (b.text.take b.cursor) = none := hnone
    rw [hnone']
    exact (split_moveTo (List.nil_append b.text).symm).onBoundary_iff.mpr
      Segmentation.boundary_nil_left
  · have hsome' : rfind '\n' (b.text.take b.cursor) = some front.length := hsome
    have htext : b.text = (front ++ ['\n']) ++ (back ++ b.behind) := by
      rw [← List.append_assoc, ← hbefore]
      exact hsplit.text_eq
    rw [hsome']
    have hmove := split_moveTo htext
    rw [List.length_append] at hmove
    exact hmove.onBoundary_iff.mpr (u.boundary_after_lineFeed front _)

/-- The end of the line of the cursor is the end of the text, or a line feed is behind it. -/
theorem lineEnd_cases (b : ComposerBuffer) (hsplit : b.Split b.before b.behind) :
    b.lineEnd = b.text.length ∨
      ∃ left right, b.text = left ++ '\n' :: right ∧ b.lineEnd = left.length := by
  rw [lineEnd]
  have hbehind : b.text.drop b.cursor = b.behind := rfl
  rw [hbehind]
  cases hfind : b.behind.findIdx? (· = '\n') with
  | none => exact .inl rfl
  | some k =>
    obtain ⟨hk, hfeed, -⟩ := List.findIdx?_eq_some_iff_getElem.mp hfind
    refine .inr ⟨b.before ++ b.behind.take k, b.behind.drop (k + 1), ?_, ?_⟩
    · have hdrop := List.drop_eq_getElem_cons hk
      rw [of_decide_eq_true hfeed] at hdrop
      rw [List.append_assoc, ← hdrop, List.take_append_drop]
      exact hsplit.text_eq
    · rw [List.length_append, List.length_take_of_le (Nat.le_of_lt hk), ← hsplit.cursor_eq]
      rfl

theorem onBoundary_moveToLineEnd_iff (h : b.OnBoundary u) :
    b.moveToLineEnd.1.OnBoundary u ↔ b.Safe u .moveToLineEnd := by
  rw [moveToLineEnd, safe_moveToLineEnd]
  obtain hend | ⟨left, right, htext, hend⟩ := lineEnd_cases b h.split
  · rw [hend]
    refine iff_of_true ?_ ?_
    · exact (split_moveTo (List.append_nil b.text).symm).onBoundary_iff.mpr
        Segmentation.boundary_nil_right
    · simp [CrLf]
  · rw [hend, (split_moveTo htext).onBoundary_iff, Unicode.boundary_lineFeed_iff, htext,
      Unicode.crLf_append]
    simp

theorem onBoundary_moveVertical_iff (h : b.OnBoundary u) (hcoherent : b.Coherent u) (width : Nat)
    (direction : Direction) :
    (b.moveVertical u width direction).1.OnBoundary u ↔
      b.Safe u (.moveVertical width direction) := by
  obtain ⟨cache, -, heq⟩ := moveVertical_eq hcoherent width direction
  rw [heq, safe_moveVertical]
  cases htarget : b.target? u width direction with
  | none => exact iff_of_true h nofun
  | some target =>
    obtain ⟨r, hr⟩ := rowAt_eq (target_lt htarget)
    obtain ⟨left, right, htext, hat, hiff⟩ := r.boundary_byteAtColumn_iff (b.preferred u width)
    rw [← hr] at hat hiff
    have hafter : Split { b with
        wrapCache := cache
        cursor := u.byteAtColumn b.text (b.rowAt u width target) (b.preferred u width)
        preferredColumn := some (b.preferred u width) } left right := ⟨htext, hat⟩
    dsimp only
    rw [hafter.onBoundary_iff, hiff]
    simp

/-! ## Runs -/

/-- A call keeps the cache. -/
theorem Coherent.call (h : b.Coherent u) (c : Call) : (b.call u c).Coherent u := by
  cases c with
  | setText | takeText | clear | insertChar | insertStr => exact nofun
  | backspace =>
    show (b.backspace u).1.Coherent u
    unfold backspace
    split
    · exact h
    · exact nofun
  | deleteForward =>
    show (b.deleteForward u).1.Coherent u
    unfold deleteForward
    split
    · exact h
    · exact nofun
  | moveLeft =>
    show (b.moveLeft u).1.Coherent u
    unfold moveLeft
    split <;> exact h
  | moveRight =>
    show (b.moveRight u).1.Coherent u
    unfold moveRight
    split <;> exact h
  | moveToLineStart | moveToDocumentStart | moveToLineEnd | moveToDocumentEnd => exact h
  | moveVertical width direction =>
    obtain ⟨cache, hcache, heq⟩ := moveVertical_eq h width direction
    show (b.moveVertical u width direction).1.Coherent u
    rw [heq]
    split <;> exact hcache
  | desiredHeight width => exact h.wrappedLines width
  | view width height =>
    have hlines := h.wrappedLines (max width 1)
    exact hlines

/-- `view` changes the cache and the scroll only. -/
theorem onBoundary_view_iff (width height : Nat) :
    (b.view u width height).2.OnBoundary u ↔ b.OnBoundary u := by
  obtain ⟨cache, hcache⟩ := wrappedLines_snd u b (max width 1)
  unfold view
  dsimp only
  rw [hcache]
  rfl

/-- **A call keeps the cursor on a boundary exactly where it is safe.** -/
theorem onBoundary_call_iff (h : b.OnBoundary u) (hcoherent : b.Coherent u) (c : Call) :
    (b.call u c).OnBoundary u ↔ b.Safe u c := by
  cases c with
  | setText text =>
    have hafter : (b.setText text).Split text [] := ⟨(List.append_nil text).symm, rfl⟩
    exact iff_of_true (hafter.onBoundary_iff.mpr Segmentation.boundary_nil_right) trivial
  | takeText | clear => exact iff_of_true ⟨Nat.le_refl 0, Segmentation.boundary_nil_left⟩ trivial
  | insertChar c =>
    exact (split_insertStr h.split [c]).onBoundary_iff.trans Segmentation.boundary_iff_not_joined
  | insertStr text =>
    exact (split_insertStr h.split text).onBoundary_iff.trans Segmentation.boundary_iff_not_joined
  | backspace => exact onBoundary_backspace_iff h
  | deleteForward => exact onBoundary_deleteForward_iff h
  | moveLeft => exact iff_of_true (onBoundary_moveLeft h) trivial
  | moveRight => exact iff_of_true (onBoundary_moveRight h) trivial
  | moveToLineStart => exact iff_of_true (onBoundary_moveToLineStart h) trivial
  | moveToDocumentStart =>
    exact iff_of_true ⟨Nat.zero_le _, Segmentation.boundary_nil_left⟩ trivial
  | moveToLineEnd => exact onBoundary_moveToLineEnd_iff h
  | moveToDocumentEnd =>
    have hafter : b.moveToDocumentEnd.1.Split b.text [] :=
      split_moveTo (List.append_nil b.text).symm
    exact iff_of_true (hafter.onBoundary_iff.mpr Segmentation.boundary_nil_right) trivial
  | moveVertical width direction => exact onBoundary_moveVertical_iff h hcoherent width direction
  | desiredHeight width =>
    obtain ⟨cache, hcache⟩ := wrappedLines_snd u b width
    refine iff_of_true ?_ trivial
    show (b.wrappedLines u width).2.OnBoundary u
    rw [hcache]
    exact h
  | view width height => exact iff_of_true ((onBoundary_view_iff width height).mpr h) trivial

/-- **A run keeps the cursor on a boundary exactly where its calls are safe.** The cursor is on a
grapheme boundary in every state of a run of a new buffer if and only if no edit of it puts a text
behind one that it joins, and no motion goes before the line feed of a carriage return. -/
theorem onBoundary_iff_safe (u : Unicode) (calls : List Call) :
    (∀ front, front <+: calls → ((machine u).run {} front).1.OnBoundary u) ↔
      (machine u).Meets (Safe u) {} calls := by
  have hrun : ∀ b : ComposerBuffer, b.OnBoundary u → b.Coherent u →
      ((∀ front, front <+: calls → ((machine u).run b front).1.OnBoundary u) ↔
        (machine u).Meets (Safe u) b calls) := by
    induction calls with
    | nil =>
      intro b h _
      refine iff_of_true ?_ trivial
      intro front hfront
      rw [List.prefix_nil.mp hfront]
      exact h
    | cons c calls ih =>
      intro b h hcoherent
      have hcall := onBoundary_call_iff h hcoherent c
      constructor
      · intro hall
        have hnext : (b.call u c).OnBoundary u := hall [c] ⟨calls, rfl⟩
        refine ⟨hcall.mp hnext, (ih _ hnext (hcoherent.call c)).mp fun front hfront => ?_⟩
        exact hall (c :: front) (List.prefix_cons_inj c |>.mpr hfront)
      · rintro ⟨hsafe, hrest⟩ front hfront
        have hnext := hcall.mpr hsafe
        cases front with
        | nil => exact h
        | cons c' front =>
          obtain ⟨rfl, htail⟩ := List.cons_prefix_cons.mp hfront
          exact (ih _ hnext (hcoherent.call c')).mpr hrest front htail
  exact hrun {} ⟨Nat.le_refl 0, Segmentation.boundary_nil_left⟩ nofun

/-- A letter that is put before a combining mark is joined by it, and the cursor is between the
two. -/
theorem not_onBoundary_insertChar :
    ¬ ((machine .plain).run {} [.setText ['\u0301'], .moveLeft, .insertChar 'e']).1.OnBoundary
      .plain := by
  decide

end ComposerBuffer

end AxiomDesktop
