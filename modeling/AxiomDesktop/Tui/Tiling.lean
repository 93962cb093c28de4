import AxiomDesktop.Tui.Rows

/-!
# The rows of a text

The rows of a text tile it (`wrapSource_tiles`): each begins where the one before it ends, or
behind the line feed there, so that every other character is in exactly one of them
(`Tiles.count_holds`), and what a row does not show is blank (`wrapSource_partition`).
-/

namespace AxiomDesktop

/-- Rows that are the text from an offset on, each behind the one before it or behind the line feed
at its end. -/
inductive Tiles (text : List Char) : Nat → List VisualLine → Prop
  | last {line : VisualLine} : line.sourceStart ≤ line.sourceEnd → line.sourceEnd = text.length →
      Tiles text line.sourceStart [line]
  | wrap {line : VisualLine} {lines : List VisualLine} : line.sourceStart < line.sourceEnd →
      Tiles text line.sourceEnd lines → Tiles text line.sourceStart (line :: lines)
  | newline {line : VisualLine} {lines : List VisualLine} : line.sourceStart ≤ line.sourceEnd →
      text[line.sourceEnd]? = some '\n' → Tiles text (line.sourceEnd + 1) lines →
      Tiles text line.sourceStart (line :: lines)

section

variable {u : Unicode} {text : List Char} {width : Nat} {L : LogicalLine text}
  {done : List (List Char)} {rows more : List (Row u text width)} {r : Row u text width}

theorem Row.clusters_eq_shown (r : Row u text width) :
    u.clusters r.line = r.done ++ r.shown ++ (r.trimmed ++ r.rest) := by
  rw [r.clusters_eq]
  simp

theorem Row.slice_shown (r : Row u text width) :
    slice text r.visual.sourceStart r.visual.displayEnd = r.shown.flatten :=
  r.slice_clusters r.clusters_eq_shown

theorem Row.clusters_shown (r : Row u text width) : u.clusters r.shown.flatten = r.shown :=
  r.clusters_flatten r.clusters_eq_shown

/-- The width of a row is that of the graphemes it shows. -/
theorem Row.sliceWidth_shown (r : Row u text width) :
    u.sliceWidth (slice text r.visual.sourceStart r.visual.displayEnd) =
      (r.shown.map u.graphemeWidth).sum := by
  rw [r.slice_shown, Unicode.sliceWidth, r.clusters_shown]

/-- A row that shows something takes up some of the text. -/
theorem Row.visual_lt (r : Row u text width) (hne : r.shown ++ r.trimmed ≠ []) :
    r.visual.sourceStart < r.visual.sourceEnd := by
  obtain ⟨g, gs, hgs⟩ := List.exists_cons_of_ne_nil hne
  have hmem : g ∈ u.clusters r.line := by
    rw [r.clusters_eq, hgs]
    simp
  have hpos := List.length_pos_iff.mpr (u.ne_nil hmem)
  show r.start < r.start + (r.shown ++ r.trimmed).flatten.length
  rw [hgs, List.flatten_cons, List.length_append]
  omega

/-- The last row of a line ends where the line does. -/
theorem Row.stop_of_last (hL : r.toLogicalLine = L) (hrest : r.rest = []) :
    r.visual.sourceEnd = L.before.length + L.line.length := by
  have hline := u.flatten_clusters r.line
  rw [r.clusters_eq, hrest, List.append_nil, List.flatten_append] at hline
  rw [← hL, ← hline, List.length_append, ← Nat.add_assoc]
  rfl

theorem Row.visual_le (r : Row u text width) : r.visual.sourceStart ≤ r.visual.sourceEnd :=
  Nat.le_add_right _ _

/-- The rows of a line tile it, where its last row and what is behind it tile the rest. -/
theorem LineRows.tiles (h : LineRows u width L done rows)
    (hlast : ∀ r ∈ rows.getLast?, r.toLogicalLine = L → r.rest = [] →
      Tiles text r.visual.sourceStart (r.visual :: more.map Row.visual)) :
    Tiles text (L.before.length + done.flatten.length) ((rows ++ more).map Row.visual) := by
  induction h with
  | last hL hdone hrest =>
    have htiles := hlast _ rfl hL hrest
    subst hL hdone
    exact htiles
  | @cons done r rows hL hdone hne hrows ih =>
    have htail := ih fun r' hr' => hlast r' (by
      rw [List.getLast?_cons, Option.mem_def.mp hr']
      rfl)
    subst hL hdone
    rw [List.flatten_append, List.length_append, ← Nat.add_assoc] at htail
    exact Tiles.wrap (r.visual_lt hne) htail

/-- A row that is full shows something. -/
theorem shown_ne_nil_of_fullRow {lines : List VisualLine} {logicalEnd : Nat} (hwidth : 0 < width)
    (hr : lines.getLast? = some r.visual) (h : u.fullRow text width logicalEnd lines = true) :
    r.shown ≠ [] := by
  rw [Unicode.fullRow, hr, Option.any_some, decide_eq_true_iff, r.sliceWidth_shown] at h
  intro hshown
  rw [hshown] at h
  simp at h
  omega

theorem LineRows.ne_nil (h : LineRows u width L done rows) : rows ≠ [] := by
  cases h <;> exact List.cons_ne_nil _ _

end

variable {u : Unicode} {text : List Char} {width : Nat}

/-- **The loop over the logical lines** puts rows behind those before that tile the rest of the
text. -/
theorem wrapLogicalLines_rows (hwidth : 0 < width) {logicals : List (List Char)}
    (hne : logicals ≠ [])
    (hlogicals : ∀ line ∈ logicals, '\n' ∉ line) {before : List Char}
    (hopens : before = [] ∨ ∃ front, before = front ++ ['\n'])
    (htext : text = before ++ ['\n'].intercalate logicals) (lines : List VisualLine) :
    ∃ rows : List (Row u text width), Tiles text before.length (rows.map Row.visual) ∧
      u.wrapLogicalLines text width logicals before.length lines =
        lines ++ rows.map Row.visual := by
  induction logicals generalizing before lines with
  | nil => exact absurd rfl hne
  | cons line rest ih =>
    obtain ⟨hline, hrest⟩ := List.forall_mem_cons.mp hlogicals
    unfold Unicode.wrapLogicalLines
    dsimp only
    cases rest with
    | nil =>
      let L : LogicalLine text := {
        before := before, line := line, after := []
        text_eq := by rw [htext, List.intercalate_singleton, List.append_nil]
        opens := hopens
        closes := .inl rfl
        notMem := hline }
      obtain ⟨rows, hrows, hwrap⟩ : ∃ rows : List (Row u text width), _ :=
        L.wrapLogicalLine_rows lines
      have hend : before.length + line.length = text.length := by
        rw [htext, List.intercalate_singleton, List.length_append]
      have hstop : ∀ r : Row u text width, r.toLogicalLine = L → r.rest = [] →
          r.visual.sourceEnd = text.length := fun r hL hr => (r.stop_of_last hL hr).trans hend
      have hwrap' : u.wrapLogicalLine text before.length (before.length + line.length) width lines =
          lines ++ rows.map Row.visual := hwrap
      have hlast : (lines ++ rows.map Row.visual).getLast? = rows.getLast?.map Row.visual := by
        rw [List.getLast?_append_of_ne_nil _ (by simpa using hrows.ne_nil), List.getLast?_map]
      rw [hwrap']
      split
      · next hfull =>
        -- the row for what is written next
        let extra : Row u text width := { L with
          done := u.clusters line, shown := [], trimmed := [], rest := []
          clusters_eq := by simp [L]
          blank := nofun
          fits := .inl (Nat.zero_le _) }
        have hextra : extra.visual = ⟨before.length + line.length, before.length + line.length,
            before.length + line.length⟩ := by
          simp [Row.visual, Row.start, extra, L, u.flatten_clusters]
        refine ⟨rows ++ [extra], ?_, by simp [Unicode.wrapLogicalLines, hextra]⟩
        refine hrows.tiles fun r hr hL hrest => ?_
        have hshown := shown_ne_nil_of_fullRow hwidth (r := r) (by rw [hlast, hr]; rfl) hfull.2.2
        refine .wrap (r.visual_lt (by simp [hshown])) ?_
        have hstart : extra.visual.sourceStart = r.visual.sourceEnd := by
          rw [hextra, hstop r hL hrest, ← hend]
        rw [← hstart]
        exact .last (Nat.le_refl _) (by rw [hextra, ← hend])
      · refine ⟨rows, ?_, by simp [Unicode.wrapLogicalLines]⟩
        have htiles := @LineRows.tiles u text width L [] rows [] hrows fun r _ hL hrest =>
          .last r.visual_le (hstop r hL hrest)
        rwa [List.append_nil] at htiles
    | cons second rest =>
      let L : LogicalLine text := {
        before := before, line := line, after := '\n' :: ['\n'].intercalate (second :: rest)
        text_eq := by rw [htext, List.intercalate_cons_cons]; simp
        opens := hopens
        closes := .inr ⟨_, rfl⟩
        notMem := hline }
      obtain ⟨rows, hrows, hwrap⟩ : ∃ rows : List (Row u text width), _ :=
        L.wrapLogicalLine_rows lines
      have hlen : (before ++ line ++ ['\n']).length = before.length + line.length + 1 := by
        simp [Nat.add_assoc]
      obtain ⟨more, hmore, htail⟩ := ih (List.cons_ne_nil second rest) hrest
        (.inr ⟨before ++ line, rfl⟩) (by rw [L.text_eq]; simp [L]) (lines ++ rows.map Row.visual)
      rw [hlen] at hmore htail
      refine ⟨rows ++ more, ?_, ?_⟩
      · refine hrows.tiles fun r _ hL hrest => ?_
        have hstop : r.visual.sourceEnd = before.length + line.length := r.stop_of_last hL hrest
        refine .newline r.visual_le ?_ (hstop ▸ hmore)
        rw [hstop, htext, List.intercalate_cons_cons]
        simp
      · have hwrap' : u.wrapLogicalLine text before.length (before.length + line.length) width
            lines = lines ++ rows.map Row.visual := hwrap
        rw [if_neg (by simp), hwrap', htail]
        simp

namespace Tiles

variable {text : List Char} {lines : List VisualLine} {start : Nat}

theorem head_eq (h : Tiles text start lines) : ∃ line rest, lines = line :: rest ∧
    line.sourceStart = start := by
  cases h <;> exact ⟨_, _, rfl, rfl⟩

theorem ne_nil (h : Tiles text start lines) : lines ≠ [] := by
  obtain ⟨line, rest, rfl, -⟩ := h.head_eq
  exact List.cons_ne_nil line rest

theorem getLast_eq (h : Tiles text start lines) :
    ∀ line ∈ lines.getLast?, line.sourceEnd = text.length := by
  induction h with
  | last _ hend =>
    intro line hline
    cases hline
    exact hend
  | @wrap line lines _ htail ih | @newline line lines _ _ htail ih =>
    obtain ⟨next, rest, rfl, -⟩ := htail.head_eq
    exact ih

/-- A row begins where the one before it ends, or behind the line feed there. -/
theorem adjacent (h : Tiles text start lines) {i : Nat} {line next : VisualLine}
    (hline : lines[i]? = some line) (hnext : lines[i + 1]? = some next) :
    next.sourceStart = line.sourceEnd ∧ line.sourceStart < line.sourceEnd ∨
      text[line.sourceEnd]? = some '\n' ∧ next.sourceStart = line.sourceEnd + 1 ∧
        line.sourceStart ≤ line.sourceEnd := by
  induction h generalizing i with
  | last => simp at hnext
  | @wrap first lines hlt htail ih =>
    cases i with
    | zero =>
      obtain ⟨second, rest, rfl, hsecond⟩ := htail.head_eq
      cases hline
      cases hnext
      exact .inl ⟨hsecond, hlt⟩
    | succ i => exact ih hline hnext
  | @newline first lines hle hfeed htail ih =>
    cases i with
    | zero =>
      obtain ⟨second, rest, rfl, hsecond⟩ := htail.head_eq
      cases hline
      cases hnext
      exact .inr ⟨hfeed, hsecond, hle⟩
    | succ i => exact ih hline hnext

/-- Rows begin one behind the other. -/
theorem start_lt (h : Tiles text start lines) {i : Nat} {line next : VisualLine}
    (hline : lines[i]? = some line) (hnext : lines[i + 1]? = some next) :
    line.sourceStart < next.sourceStart := by
  rcases h.adjacent hline hnext with ⟨hstart, hlt⟩ | ⟨-, hstart, hle⟩ <;> omega

end Tiles

/-- **The rows of a text** tile it. -/
theorem wrapSource_tiles (u : Unicode) (text : List Char) (width : Nat) :
    ∃ rows : List (Row u text (max width 1)), u.wrapSource text width = rows.map Row.visual ∧
      Tiles text 0 (u.wrapSource text width) := by
  have hwidth : 0 < max width 1 := by omega
  have hsplit : Text.splitChar '\n' text ≠ [] := by
    rw [Text.splitChar_eq_splitOn]
    exact List.splitOn_ne_nil _ _
  obtain ⟨rows, htiles, hrows⟩ := wrapLogicalLines_rows (u := u) hwidth hsplit
    (fun _ h => Text.notMem_of_mem_splitChar h) (.inl rfl)
    (Text.intercalate_splitChar '\n' text).symm []
  have heq : u.wrapSource text width = rows.map Row.visual := by
    rw [Unicode.wrapSource]
    rw [List.length_nil, List.nil_append] at hrows
    rw [hrows, if_neg]
    intro hnil
    exact htiles.ne_nil hnil
  exact ⟨rows, heq, heq ▸ htiles⟩

/-- A row has the character at an offset. -/
def VisualLine.Holds (line : VisualLine) (offset : Nat) : Prop :=
  line.sourceStart ≤ offset ∧ offset < line.sourceEnd

instance (line : VisualLine) (offset : Nat) : Decidable (line.Holds offset) :=
  inferInstanceAs (Decidable (_ ∧ _))

theorem VisualLine.not_holds_of_lt {line : VisualLine} {offset : Nat}
    (h : offset < line.sourceStart) : ¬ line.Holds offset := fun hholds => Nat.not_lt.mpr hholds.1 h

theorem VisualLine.not_holds_of_le {line : VisualLine} {offset : Nat}
    (h : line.sourceEnd ≤ offset) : ¬ line.Holds offset := fun hholds => Nat.not_lt.mpr h hholds.2

namespace Tiles

variable {text : List Char} {lines : List VisualLine} {start offset : Nat}

theorem count_before (h : Tiles text start lines) (hoffset : offset < start) :
    lines.countP (·.Holds offset) = 0 := by
  induction h with
  | last => simp [VisualLine.not_holds_of_lt hoffset]
  | @wrap line lines hlt htail ih =>
    rw [List.countP_cons_of_neg (by simp [VisualLine.not_holds_of_lt hoffset])]
    exact ih (by omega)
  | @newline line lines hle _ htail ih =>
    rw [List.countP_cons_of_neg (by simp [VisualLine.not_holds_of_lt hoffset])]
    exact ih (by omega)

/-- **Every character but the line feeds is in exactly one row.** -/
theorem count_holds (h : Tiles text start lines) {c : Char} (hoffset : start ≤ offset)
    (hc : text[offset]? = some c)
    (hfeed : ∀ line ∈ lines, line.Holds offset → c ≠ '\n') :
    lines.countP (·.Holds offset) = if c = '\n' then 0 else 1 := by
  induction h with
  | @last line hle hend =>
    have hlt := (List.getElem?_eq_some_iff.mp hc).1
    have hholds : line.Holds offset := ⟨hoffset, by omega⟩
    rw [if_neg (hfeed line List.mem_cons_self hholds)]
    simp [hholds]
  | @wrap line lines hlt htail ih =>
    by_cases hin : offset < line.sourceEnd
    · have hholds : line.Holds offset := ⟨hoffset, hin⟩
      rw [if_neg (hfeed line List.mem_cons_self hholds), List.countP_cons_of_pos (by simp [hholds]),
        htail.count_before hin]
    · rw [List.countP_cons_of_neg (by simp [VisualLine.not_holds_of_le (Nat.not_lt.mp hin)])]
      exact ih (by omega) fun l hl => hfeed l (List.mem_cons_of_mem line hl)
  | @newline line lines hle hat htail ih =>
    by_cases hin : offset < line.sourceEnd
    · have hholds : line.Holds offset := ⟨hoffset, hin⟩
      rw [if_neg (hfeed line List.mem_cons_self hholds), List.countP_cons_of_pos (by simp [hholds]),
        htail.count_before (by omega)]
    · rw [List.countP_cons_of_neg (by simp [VisualLine.not_holds_of_le (Nat.not_lt.mp hin)])]
      by_cases hbehind : offset = line.sourceEnd
      · rw [hbehind, hat] at hc
        rw [if_pos (Option.some.inj hc).symm, htail.count_before (by omega)]
      · exact ih (by omega) fun l hl => hfeed l (List.mem_cons_of_mem line hl)

end Tiles

namespace Row

variable {u : Unicode} {text : List Char} {width : Nat} (r : Row u text width)

/-- A row shows no more than it has. -/
theorem display_le : r.visual.displayEnd ≤ r.visual.sourceEnd := by
  show r.start + r.shown.flatten.length ≤ r.start + (r.shown ++ r.trimmed).flatten.length
  rw [List.flatten_append, List.length_append]
  omega

/-- What a row has and does not show. -/
theorem slice_trimmed : slice text r.visual.displayEnd r.visual.sourceEnd = r.trimmed.flatten := by
  have hcut : u.clusters r.line = (r.done ++ r.shown) ++ r.trimmed ++ r.rest := by
    rw [r.clusters_eq]
    simp
  have hslice := r.slice_clusters hcut
  simpa [visual, start, Nat.add_assoc] using hslice

theorem slice_source : slice text r.visual.sourceStart r.visual.sourceEnd =
    (r.shown ++ r.trimmed).flatten :=
  r.slice_clusters r.clusters_eq

/-- No row has a line feed. -/
theorem ne_lineFeed {offset : Nat} {c : Char} (hholds : r.visual.Holds offset)
    (hc : text[offset]? = some c) : c ≠ '\n' := by
  have hmem : c ∈ slice text r.visual.sourceStart r.visual.sourceEnd := by
    obtain ⟨k, hk⟩ := Nat.exists_eq_add_of_le hholds.1
    refine List.mem_of_getElem? (i := k) ?_
    rw [slice, List.getElem?_drop, ← hk, List.getElem?_take_of_lt hholds.2, hc]
  rw [r.slice_source] at hmem
  have hline : c ∈ r.line := by
    rw [← u.flatten_clusters r.line, r.clusters_eq, List.flatten_append, List.flatten_append]
    exact List.mem_append_left _ (List.mem_append_right _ hmem)
  exact fun heq => r.notMem (heq ▸ hline)

end Row

/-- **The rows of a text are a partition of it.** They are in order, each begins where the one
before it ends or behind the line feed there, and every other character is in exactly one of them.
What a row does not show is whitespace at its end, and it is no wider than the terminal, unless it
shows one grapheme only. The loop that makes the rows of a line ends. -/
theorem wrapSource_partition (u : Unicode) (text : List Char) (width : Nat) :
    let lines := u.wrapSource text width
    ((∃ first rest, lines = first :: rest ∧ first.sourceStart = 0) ∧
      (∀ line ∈ lines.getLast?, line.sourceEnd = text.length) ∧
      (∀ i line next, lines[i]? = some line → lines[i + 1]? = some next →
        line.sourceStart < next.sourceStart ∧ (next.sourceStart = line.sourceEnd ∨
          text[line.sourceEnd]? = some '\n' ∧ next.sourceStart = line.sourceEnd + 1))) ∧
    (∀ offset c, text[offset]? = some c →
      lines.countP (·.Holds offset) = if c = '\n' then 0 else 1) ∧
    (∀ line ∈ lines, line.sourceStart ≤ line.displayEnd ∧ line.displayEnd ≤ line.sourceEnd ∧
      (∀ c ∈ slice text line.displayEnd line.sourceEnd, Text.isWhitespace c = true) ∧
      (u.sliceWidth (slice text line.sourceStart line.displayEnd) ≤ max width 1 ∨
        ∃ g, u.clusters (slice text line.sourceStart line.displayEnd) = [g])) ∧
    ∀ L : LogicalLine text, ∃ rows,
      u.wrapRows text
        (u.sourceGraphemes text L.before.length (L.before.length + L.line.length)) (max width 1)
        (L.before.length + L.line.length)
        (u.sourceGraphemes text L.before.length (L.before.length + L.line.length)).length 0 =
          some rows := by
  intro lines
  obtain ⟨rows, hrows, htiles⟩ := wrapSource_tiles u text width
  refine ⟨⟨htiles.head_eq, htiles.getLast_eq, ?_⟩, ?_, ?_, ?_⟩
  · intro i line next hline hnext
    refine ⟨htiles.start_lt hline hnext, ?_⟩
    rcases htiles.adjacent hline hnext with ⟨hstart, -⟩ | ⟨hfeed, hstart, -⟩
    · exact .inl hstart
    · exact .inr ⟨hfeed, hstart⟩
  · intro offset c hc
    refine htiles.count_holds (Nat.zero_le offset) hc fun line hline hholds => ?_
    rw [hrows] at hline
    obtain ⟨r, -, rfl⟩ := List.mem_map.mp hline
    exact r.ne_lineFeed hholds hc
  · intro line hline
    rw [show lines = rows.map Row.visual from hrows] at hline
    obtain ⟨r, -, rfl⟩ := List.mem_map.mp hline
    refine ⟨Nat.le_add_right _ _, r.display_le, ?_, ?_⟩
    · intro c hc
      rw [r.slice_trimmed] at hc
      obtain ⟨g, hg, hmem⟩ := List.mem_flatten.mp hc
      exact List.all_eq_true.mp (r.blank g hg) c hmem
    · rw [r.sliceWidth_shown]
      refine r.fits.imp id fun ⟨g, hg⟩ => ⟨g, ?_⟩
      rw [r.slice_shown, r.clusters_shown, hg]
  · intro L
    exact L.wrapRows_isSome

end AxiomDesktop
