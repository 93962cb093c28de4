import AxiomDesktop.Data.Lines
import AxiomDesktop.Tui.Composer
import Mathlib.Algebra.BigOperators.Group.List.Basic
import Mathlib.Algebra.Order.BigOperators.Group.List

/-!
# The rows of the composer

A row is a run of the graphemes of one logical line, of which those at its end that are not shown
are blank (`Row`). The loop over the graphemes of a row gives such a row (`scanRow_row`), and the
loop over the rows ends and gives rows that are the line together (`wrapRows_ends`).
-/

namespace AxiomDesktop

/-! ## Slices and offsets -/

theorem slice_of_eq {text before mid after : List Char} (h : text = before ++ mid ++ after)
    {start : Nat} (hstart : start = before.length) :
    slice text start (start + mid.length) = mid := by
  rw [h, hstart, slice, ← List.length_append, List.take_left, List.drop_left]

theorem indexed_append (offset : Nat) (gs hs : List (List Char)) :
    indexed offset (gs ++ hs) = indexed offset gs ++ indexed (offset + gs.flatten.length) hs := by
  induction gs generalizing offset with
  | nil => simp [indexed]
  | cons g gs ih => simp [indexed, ih, Nat.add_assoc]

theorem map_indexed (start offset : Nat) (gs : List (List Char)) :
    (indexed offset gs).map (fun g => (start + g.1, g.2)) = indexed (start + offset) gs := by
  induction gs generalizing offset with
  | nil => rfl
  | cons g gs ih => simp [indexed, ih, Nat.add_assoc]

theorem length_indexed (offset : Nat) (gs : List (List Char)) :
    (indexed offset gs).length = gs.length := by
  induction gs generalizing offset with
  | nil => rfl
  | cons g gs ih => simp [indexed, ih]

namespace Unicode

variable {u : Unicode} {text : List Char} {width : Nat} {gs hs : List (List Char)}

/-- A grapheme of whitespace. -/
def Blank (g : List Char) : Prop := g.all Text.isWhitespace = true

/-- Graphemes with their offsets, from an offset on. -/
def graphemesAt (u : Unicode) (start : Nat) (gs : List (List Char)) : List SourceGrapheme :=
  (indexed start gs).map fun g =>
    { start := g.1
      stop := g.1 + g.2.length
      width := u.graphemeWidth g.2
      whitespace := g.2.all Text.isWhitespace }

theorem sourceGraphemes_eq (start stop : Nat) :
    u.sourceGraphemes text start stop =
      u.graphemesAt start (u.clusters (slice text start stop)) := by
  rw [graphemesAt, ← Nat.add_zero start, ← map_indexed, List.map_map]
  rfl

theorem graphemesAt_append (start : Nat) :
    u.graphemesAt start (gs ++ hs) =
      u.graphemesAt start gs ++ u.graphemesAt (start + gs.flatten.length) hs := by
  rw [graphemesAt, indexed_append, List.map_append]
  rfl

theorem length_graphemesAt (start : Nat) : (u.graphemesAt start gs).length = gs.length := by
  rw [graphemesAt, List.length_map, length_indexed]

/-- The end of the last of some graphemes. -/
theorem stop_of_append (start : Nat) (hgs : gs ≠ []) (hs : List (List Char)) :
    ((u.graphemesAt start (gs ++ hs))[gs.length - 1]?).elim 0 (·.stop) =
      start + gs.flatten.length := by
  obtain ⟨front, g, rfl⟩ : ∃ front g, gs = front ++ [g] := by
    obtain rfl | ⟨front, g, rfl⟩ := List.eq_nil_or_concat gs
    · exact absurd rfl hgs
    · exact ⟨front, g, List.concat_eq_append⟩
  have hlen : (front ++ [g]).length - 1 = (u.graphemesAt start front).length := by
    rw [length_graphemesAt, List.length_append, List.length_singleton, Nat.add_sub_cancel]
  rw [hlen, List.append_assoc, graphemesAt_append, List.getElem?_append_right (Nat.le_refl _),
    Nat.sub_self]
  simp [graphemesAt, indexed, Nat.add_assoc]

theorem wrapRows_of_none {graphemes : List SourceGrapheme} {stop fuel lineStart : Nat}
    (h : graphemes[lineStart]? = none) :
    u.wrapRows text graphemes width stop fuel lineStart = some [] := by
  unfold wrapRows
  rw [h]

/-! ## What is shown of graphemes -/

/-- Graphemes have a place in a row: they are no wider than it, or there is one only. -/
def Fits (u : Unicode) (width : Nat) (gs : List (List Char)) : Prop :=
  (gs.map u.graphemeWidth).sum ≤ width ∨ ∃ g, gs = [g]

theorem Fits.of_append (h : u.Fits width (gs ++ hs)) : u.Fits width gs := by
  obtain h | ⟨g, h⟩ := h
  · left
    rw [List.map_append, List.sum_append] at h
    omega
  · cases gs with
    | nil => exact .inl (Nat.zero_le _)
    | cons first gs =>
      have htail : gs ++ hs = [] := (List.cons.inj h).2
      obtain ⟨rfl, -⟩ := List.append_eq_nil_iff.mp htail
      exact .inr ⟨first, rfl⟩

/-- `trim_breakable_end` leaves blank graphemes out. -/
theorem trimBreakableEnd_eq {start stop : Nat} (hslice : slice text start stop = gs.flatten)
    (hgs : u.clusters gs.flatten = gs) :
    ∃ shown blanks, gs = shown ++ blanks ∧ (∀ g ∈ blanks, Blank g) ∧
      u.trimBreakableEnd text start stop = start + shown.flatten.length := by
  have hfind : ∀ hs : List (List Char), ∃ shown blanks, hs = shown ++ blanks ∧
      (∀ g ∈ blanks, Blank g) ∧
        (((indexed 0 hs).reverse.find? fun g => !g.2.all Text.isWhitespace).elim start
          fun g => start + g.1 + g.2.length) = start + shown.flatten.length := by
    intro hs
    induction hs using List.reverseRecOn with
    | nil => exact ⟨[], [], rfl, nofun, rfl⟩
    | append_singleton hs g ih =>
      rw [indexed_append, List.reverse_append]
      cases hblank : g.all Text.isWhitespace with
      | true =>
        obtain ⟨shown, blanks, rfl, hblanks, heq⟩ := ih
        refine ⟨shown, blanks ++ [g], by simp, ?_, ?_⟩
        · intro g' hg'
          rcases List.mem_append.mp hg' with hg' | hg'
          · exact hblanks g' hg'
          · rw [List.mem_singleton.mp hg']
            exact hblank
        · rw [← heq]
          simp [indexed, hblank]
      | false =>
        refine ⟨hs ++ [g], [], by simp, nofun, ?_⟩
        simp [indexed, hblank, Nat.add_assoc]
  obtain ⟨shown, blanks, heq, hblanks, htrim⟩ := hfind gs
  refine ⟨shown, blanks, heq, hblanks, ?_⟩
  rw [trimBreakableEnd, graphemeIndices, hslice, hgs, htrim]

end Unicode

/-! ## Rows -/

/-- A logical line of a text: the text between two line feeds. -/
structure LogicalLine (text : List Char) where
  before : List Char
  line : List Char
  after : List Char
  text_eq : text = before ++ line ++ after
  opens : before = [] ∨ ∃ front, before = front ++ ['\n']
  closes : after = [] ∨ ∃ back, after = '\n' :: back
  notMem : '\n' ∉ line

/-- A row of a text: graphemes of a logical line one after another, first those it shows and then
blank ones. -/
structure Row (u : Unicode) (text : List Char) (width : Nat) extends LogicalLine text where
  done : List (List Char)
  shown : List (List Char)
  trimmed : List (List Char)
  rest : List (List Char)
  clusters_eq : u.clusters line = done ++ (shown ++ trimmed) ++ rest
  blank : ∀ g ∈ trimmed, Unicode.Blank g
  fits : u.Fits width shown

namespace Row

variable {u : Unicode} {text : List Char} {width : Nat} (r : Row u text width)

/-- The offset the row begins at. -/
def start : Nat := r.before.length + r.done.flatten.length

/-- The row as the program has it. -/
def visual : VisualLine :=
  { sourceStart := r.start
    sourceEnd := r.start + (r.shown ++ r.trimmed).flatten.length
    displayEnd := r.start + r.shown.flatten.length }

end Row

namespace LogicalLine

variable {u : Unicode} {text : List Char} {width : Nat} (L : LogicalLine text)
  {done row rest gs : List (List Char)}

/-- The text of some graphemes of a line. -/
theorem slice_clusters (h : u.clusters L.line = done ++ gs ++ rest) :
    slice text (L.before.length + done.flatten.length)
      (L.before.length + done.flatten.length + gs.flatten.length) = gs.flatten := by
  have hline : L.line = done.flatten ++ gs.flatten ++ rest.flatten := by
    rw [← u.flatten_clusters L.line, h, List.flatten_append, List.flatten_append]
  have htext : text = (L.before ++ done.flatten) ++ gs.flatten ++ (rest.flatten ++ L.after) := by
    refine L.text_eq.trans ?_
    rw [hline]
    simp only [List.append_assoc]
  exact slice_of_eq htext (List.length_append).symm

/-- Some graphemes of a line are the graphemes of their text. -/
theorem clusters_flatten (h : u.clusters L.line = done ++ gs ++ rest) :
    u.clusters gs.flatten = gs :=
  Segmentation.clusters_flatten (show gs <:+: u.clusters L.line from ⟨done, rest, h.symm⟩)

theorem slice_line : slice text L.before.length (L.before.length + L.line.length) = L.line :=
  slice_of_eq L.text_eq rfl

/-- `trim_breakable_end` of a run of graphemes of a line. -/
theorem trimBreakableEnd_eq (h : u.clusters L.line = done ++ gs ++ rest) :
    ∃ shown blanks, gs = shown ++ blanks ∧ (∀ g ∈ blanks, Unicode.Blank g) ∧
      u.trimBreakableEnd text (L.before.length + done.flatten.length)
        (L.before.length + done.flatten.length + gs.flatten.length) =
          L.before.length + done.flatten.length + shown.flatten.length :=
  Unicode.trimBreakableEnd_eq (L.slice_clusters h) (L.clusters_flatten h)

/-- The graphemes of a line, as the program collects them. -/
theorem sourceGraphemes_eq :
    u.sourceGraphemes text L.before.length (L.before.length + L.line.length) =
      u.graphemesAt L.before.length (u.clusters L.line) := by
  rw [Unicode.sourceGraphemes_eq, slice_line]

/-- The loop over the graphemes of a row has gone through those of `row`. -/
structure Scanned (u : Unicode) (width : Nat) (done row : List (List Char)) (used : Nat)
    (lastBreak : Option Nat) : Prop where
  used_eq : used = (row.map u.graphemeWidth).sum
  fits : u.Fits width row
  breaks : ∀ b ∈ lastBreak, ∃ front back, row = front ++ back ∧ front ≠ [] ∧
    b = done.length + front.length

/-- The loop has gone through the next grapheme too, which has a place in the row or is its first.
-/
theorem Scanned.step {used : Nat} {lastBreak lastBreak' : Option Nat} {g : List Char}
    (h : Scanned u width done row used lastBreak)
    (hfits : ¬ (width < used + u.graphemeWidth g ∧ done.length < done.length + row.length))
    (hbreaks : ∀ b ∈ lastBreak', b ∈ lastBreak ∨ b = done.length + row.length + 1) :
    Scanned u width done (row ++ [g]) (used + u.graphemeWidth g) lastBreak' := by
  refine ⟨by simp [h.used_eq], ?_, ?_⟩
  · rw [h.used_eq] at hfits
    by_cases hne : row = []
    · subst hne
      exact .inr ⟨g, rfl⟩
    · left
      have hpos := List.length_pos_iff.mpr hne
      rw [List.map_append, List.sum_append, List.map_singleton, List.sum_singleton]
      omega
  · intro b hb
    obtain hb | rfl := hbreaks b hb
    · obtain ⟨front, back, rfl, hfront, rfl⟩ := h.breaks b hb
      exact ⟨front, back ++ [g], by simp, hfront, rfl⟩
    · exact ⟨row ++ [g], [], by simp, by simp, by simp [Nat.add_assoc]⟩

/-- What the loop over the graphemes of a row gives: a row and the index behind it, or nothing
where what is left is one row. -/
def Scans (u : Unicode) (L : LogicalLine text) (width : Nat) (done gs : List (List Char)) :
    Option (VisualLine × Nat) → Prop
  | none => u.Fits width gs
  | some (line, next) => ∃ r : Row u text width, r.toLogicalLine = L ∧ r.done = done ∧
      gs = r.shown ++ r.trimmed ++ r.rest ∧ r.shown ++ r.trimmed ≠ [] ∧ line = r.visual ∧
        next = done.length + (r.shown ++ r.trimmed).length

/-- **A row is cut.** The loop over the graphemes of a row ends at a row, by each of its three
breaks. -/
theorem scanRow_row {used : Nat} {lastBreak : Option Nat} {hasText : Bool}
    (h : u.clusters L.line = done ++ (row ++ rest))
    (hrow : Scanned u width done row used lastBreak) :
    Scans u L width done (row ++ rest)
      (u.scanRow text (u.graphemesAt L.before.length (u.clusters L.line)) width
        (L.before.length + done.flatten.length) done.length
        (u.graphemesAt (L.before.length + (done ++ row).flatten.length) rest)
        (done.length + row.length) used lastBreak hasText) := by
  induction rest generalizing row used lastBreak hasText with
  | nil =>
    rw [List.append_nil]
    exact hrow.fits
  | cons g rest ih =>
    have hcons : u.graphemesAt (L.before.length + (done ++ row).flatten.length) (g :: rest) =
        ⟨L.before.length + (done ++ row).flatten.length,
          L.before.length + (done ++ row).flatten.length + g.length, u.graphemeWidth g,
          g.all Text.isWhitespace⟩ ::
        u.graphemesAt (L.before.length + (done ++ (row ++ [g])).flatten.length) rest := by
      simp [Unicode.graphemesAt, indexed, Nat.add_assoc]
    have hnext : u.clusters L.line = done ++ ((row ++ [g]) ++ rest) := by
      rw [h, List.append_assoc row, List.singleton_append]
    rw [hcons]
    unfold Unicode.scanRow
    dsimp only
    split
    · rename_i hover
      have hne : row ≠ [] := by
        rintro rfl
        simp at hover
      split
      · -- the row ends behind a blank grapheme that has no place in it
        rename_i hblank
        obtain ⟨hblank, -⟩ := Bool.and_eq_true_iff.mp hblank
        have hfirst : u.clusters L.line = done ++ row ++ g :: rest := by rw [h, List.append_assoc]
        obtain ⟨shown, blanks, rfl, hblanks, htrim⟩ := L.trimBreakableEnd_eq hfirst
        refine ⟨{ L with
          done := done, shown := shown, trimmed := blanks ++ [g], rest := rest
          clusters_eq := by rw [h]; simp
          blank := by
            intro g' hg'
            rcases List.mem_append.mp hg' with hg' | hg'
            · exact hblanks g' hg'
            · exact List.mem_singleton.mp hg' ▸ hblank
          fits := hrow.fits.of_append }, rfl, rfl, by simp, by simp, ?_, by simp; omega⟩
        rw [List.flatten_append, List.length_append, ← Nat.add_assoc, htrim]
        simp [Row.visual, Row.start, Nat.add_assoc]
      · split
        · -- it ends behind the last blank grapheme
          rename_i b
          obtain ⟨front, back, rfl, hfront, rfl⟩ := hrow.breaks b rfl
          have hstop : ((u.graphemesAt L.before.length (u.clusters L.line))[done.length +
              front.length - 1]?).elim 0 (·.stop) =
                L.before.length + done.flatten.length + front.flatten.length := by
            have hsplit : u.clusters L.line = (done ++ front) ++ (back ++ g :: rest) := by
              rw [h]
              simp
            have hne : done ++ front ≠ [] := by simp [hfront]
            have hstop := Unicode.stop_of_append (u := u) L.before.length hne (back ++ g :: rest)
            rwa [← hsplit, List.length_append, List.flatten_append, List.length_append,
              ← Nat.add_assoc] at hstop
          rw [hstop]
          have hfirst : u.clusters L.line = done ++ front ++ (back ++ g :: rest) := by
            rw [h]
            simp
          obtain ⟨shown, blanks, rfl, hblanks, htrim⟩ := L.trimBreakableEnd_eq hfirst
          refine ⟨{ L with
            done := done, shown := shown, trimmed := blanks, rest := back ++ g :: rest
            clusters_eq := by rw [h]; simp
            blank := hblanks
            fits := hrow.fits.of_append.of_append }, rfl, rfl, by simp, hfront, ?_, rfl⟩
          rw [htrim]
          rfl
        · -- it ends inside a word
          have hne' : done ++ row ≠ [] := by simp [hne]
          have hstop := Unicode.stop_of_append (u := u) L.before.length hne' (g :: rest)
          rw [List.append_assoc, ← h, List.length_append, List.flatten_append, List.length_append,
            ← Nat.add_assoc] at hstop
          rw [hstop]
          refine ⟨{ L with
            done := done, shown := row, trimmed := [], rest := g :: rest
            clusters_eq := by rw [h]; simp
            blank := nofun
            fits := hrow.fits }, rfl, rfl, by simp, by simpa using hne, ?_, by simp⟩
          simp [Row.visual, Row.start]
    · rename_i hfits
      have hgo : ∀ lastBreak' hasText',
          (∀ b ∈ lastBreak', b ∈ lastBreak ∨ b = done.length + row.length + 1) →
          Scans u L width done (row ++ g :: rest)
            (u.scanRow text (u.graphemesAt L.before.length (u.clusters L.line)) width
              (L.before.length + done.flatten.length) done.length
              (u.graphemesAt (L.before.length + (done ++ (row ++ [g])).flatten.length) rest)
              (done.length + row.length + 1) (used + u.graphemeWidth g) lastBreak' hasText') := by
        intro lastBreak' hasText' hbreaks
        have hrest := @ih _ _ _ hasText' hnext (hrow.step hfits hbreaks)
        rwa [List.append_assoc, List.singleton_append, List.length_append, List.length_singleton,
          ← Nat.add_assoc] at hrest
      split
      · refine hgo _ _ ?_
        intro b hb
        split at hb
        · exact .inr (Option.mem_some_iff.mp hb).symm
        · exact .inl hb
      · exact hgo _ _ fun b hb => .inl hb

end LogicalLine

/-! ## The rows of a logical line -/

/-- Rows of a logical line one after another, from behind some of its graphemes to its end. Every
one that another row follows has graphemes. -/
inductive LineRows (u : Unicode) {text : List Char} (width : Nat) (L : LogicalLine text) :
    List (List Char) → List (Row u text width) → Prop
  | last {done : List (List Char)} {r : Row u text width} : r.toLogicalLine = L → r.done = done →
      r.rest = [] → LineRows u width L done [r]
  | cons {done : List (List Char)} {r : Row u text width} {rows : List (Row u text width)} :
      r.toLogicalLine = L → r.done = done → r.shown ++ r.trimmed ≠ [] →
      LineRows u width L (done ++ (r.shown ++ r.trimmed)) rows → LineRows u width L done (r :: rows)

namespace LogicalLine

variable {u : Unicode} {text : List Char} {width : Nat} (L : LogicalLine text)
  {done rest : List (List Char)}

theorem drop_graphemesAt (h : u.clusters L.line = done ++ rest) :
    (u.graphemesAt L.before.length (u.clusters L.line)).drop done.length =
      u.graphemesAt (L.before.length + done.flatten.length) rest := by
  rw [h, Unicode.graphemesAt_append, List.drop_left' (Unicode.length_graphemesAt _)]

/-- **The loop over the rows ends**, with rows that are the rest of the line. -/
theorem wrapRows_ends {fuel : Nat} (h : u.clusters L.line = done ++ rest) (hrest : rest ≠ [])
    (hfuel : rest.length ≤ fuel) :
    ∃ rows : List (Row u text width), LineRows u width L done rows ∧
      u.wrapRows text (u.graphemesAt L.before.length (u.clusters L.line)) width
        (L.before.length + L.line.length) fuel done.length = some (rows.map Row.visual) := by
  induction fuel generalizing done rest with
  | zero => exact absurd (List.eq_nil_of_length_eq_zero (Nat.le_zero.mp hfuel)) hrest
  | succ fuel ih =>
    obtain ⟨g, tail, rfl⟩ := List.exists_cons_of_ne_nil hrest
    have hdrop := L.drop_graphemesAt h
    have hfirst : (u.graphemesAt L.before.length (u.clusters L.line))[done.length]? =
        some ⟨L.before.length + done.flatten.length,
          L.before.length + done.flatten.length + g.length, u.graphemeWidth g,
          g.all Text.isWhitespace⟩ := by
      rw [← List.head?_drop, hdrop]
      rfl
    have hscanned : Scanned u width done [] 0 none := ⟨rfl, .inl (Nat.zero_le _), nofun⟩
    have hscan := @scanRow_row u text width L done [] (g :: tail) 0 none false h hscanned
    rw [List.append_nil, List.nil_append, List.length_nil, Nat.add_zero] at hscan
    unfold Unicode.wrapRows
    rw [hfirst]
    dsimp only
    rw [hdrop]
    split
    · next line next hsome =>
      rw [hsome] at hscan
      obtain ⟨r, hL, hdone, hcut, hne, rfl, rfl⟩ := hscan
      have hnext : u.clusters L.line = (done ++ (r.shown ++ r.trimmed)) ++ r.rest := by
        rw [h, hcut]
        exact (List.append_assoc _ _ _).symm
      have hlen : done.length + (r.shown ++ r.trimmed).length =
          (done ++ (r.shown ++ r.trimmed)).length := List.length_append.symm
      rw [hlen]
      by_cases hend : r.rest = []
      · refine ⟨[r], .last hL hdone hend, ?_⟩
        have hbehind : (u.graphemesAt L.before.length (u.clusters L.line))[(done ++ (r.shown ++
            r.trimmed)).length]? = none := by
          rw [List.getElem?_eq_none_iff, Unicode.length_graphemesAt, hnext, hend, List.append_nil]
        rw [Unicode.wrapRows_of_none hbehind]
        rfl
      · have hpos := List.length_pos_iff.mpr hne
        have htotal := congrArg List.length hcut
        rw [List.length_append] at htotal
        obtain ⟨rows, hrows, hwrap⟩ := ih hnext hend (by omega)
        exact ⟨r :: rows, .cons hL hdone hne hrows, by rw [hwrap]; rfl⟩
    · next hnone =>
      rw [hnone] at hscan
      refine ⟨[{ L with
        done := done, shown := g :: tail, trimmed := [], rest := []
        clusters_eq := by rw [h]; simp
        blank := nofun
        fits := hscan }], .last rfl rfl rfl, ?_⟩
      have hline : L.before.length + L.line.length =
          L.before.length + done.flatten.length + (g :: tail).flatten.length := by
        rw [← u.flatten_clusters L.line, h, List.flatten_append, List.length_append, Nat.add_assoc]
      rw [hline]
      simp [Row.visual, Row.start]

/-- The loop over the rows of a line ends within as many rows as the line has graphemes. -/
theorem wrapRows_isSome : ∃ lines,
    u.wrapRows text (u.sourceGraphemes text L.before.length (L.before.length + L.line.length)) width
      (L.before.length + L.line.length)
      (u.sourceGraphemes text L.before.length (L.before.length + L.line.length)).length 0 =
        some lines := by
  rw [sourceGraphemes_eq, Unicode.length_graphemesAt]
  by_cases hline : u.clusters L.line = []
  · refine ⟨[], Unicode.wrapRows_of_none ?_⟩
    rw [hline]
    rfl
  · obtain ⟨rows, -, hwrap⟩ : ∃ rows : List (Row u text width), _ :=
      L.wrapRows_ends (List.nil_append _).symm hline (Nat.le_refl _)
    exact ⟨_, hwrap⟩

/-- `wrap_logical_line` puts the rows of the line behind those before. -/
theorem wrapLogicalLine_rows (lines : List VisualLine) :
    ∃ rows : List (Row u text width), LineRows u width L [] rows ∧
      u.wrapLogicalLine text L.before.length (L.before.length + L.line.length) width lines =
        lines ++ rows.map Row.visual := by
  unfold Unicode.wrapLogicalLine
  by_cases hline : L.line = []
  · refine ⟨[{ L with
      done := [], shown := [], trimmed := [], rest := []
      clusters_eq := by rw [hline]; simp
      blank := nofun
      fits := .inl (Nat.zero_le _) }], .last rfl rfl rfl, ?_⟩
    rw [if_pos (by simp [hline])]
    simp [Row.visual, Row.start, hline]
  · have hne : u.clusters L.line ≠ [] := mt Segmentation.clusters_eq_nil_iff.mp hline
    have hnil : u.clusters L.line = [] ++ u.clusters L.line := rfl
    obtain ⟨rows, hrows, hwrap⟩ : ∃ rows : List (Row u text width), _ :=
      L.wrapRows_ends hnil hne (Nat.le_refl _)
    refine ⟨rows, hrows, ?_⟩
    have hpos := List.length_pos_iff.mpr hline
    rw [if_neg (by omega), sourceGraphemes_eq]
    dsimp only
    rw [Unicode.length_graphemesAt]
    rw [List.length_nil] at hwrap
    rw [hwrap]
    rfl

end LogicalLine

end AxiomDesktop
