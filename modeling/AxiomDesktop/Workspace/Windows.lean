import AxiomDesktop.Data.Fragments
import AxiomDesktop.Data.Lines
import AxiomDesktop.Lib.Joined
import AxiomDesktop.Workspace.Prepare

/-!
# What a read reports of its window

The report of a read is exact (`Exact`) where its content is the text of the lines of the
window, its last line is the last one in the content, and the lines behind that one are the ones
it left out. The last line is counted again from the content, and a blank line at its end is not
counted: so the report is exact where the window has a line to give, and no blank line behind
its first ends the content (`read_exact`). In a walk of such reads every line of the file is
read once (`walk_flatten`).
-/

/-!
## Reads of text files

`Workspace::read` with what it calls: a window of the lines of a file, joined again
and cut at a number of bytes. A read that succeeds is the window of a file that the
path names (`wp_read`), and the cut is the longest beginning that the bytes have room
for (`truncateUtf8_prefix`, `prefix_truncateUtf8`).
-/

namespace AxiomDesktop

open Fallible

structure FileRead where
  path : PathBuf
  content : String
  startLine : Nat
  endLine : Nat
  sha256 : String
  truncated : Bool
  sizeBytes : Nat
  deriving DecidableEq, Repr

def MAX_INSPECT_BYTES : Nat := 8 * 1024 * 1024

/-- `usize::saturating_add`. -/
def addUsize (a b : Nat) : Nat := min (a + b) (2 ^ 64 - 1)

theorem addUsize_eq {a b : Nat} (h : a + b < 2 ^ 64) : addUsize a b = a + b :=
  Nat.min_eq_left (Nat.le_pred_of_lt h)

theorem min_addUsize {a b : Nat} (h : a < 2 ^ 64) : min a (addUsize a b) = a :=
  Nat.min_eq_left (Nat.le_min.mpr ⟨Nat.le_add_right a b, Nat.le_pred_of_lt h⟩)

/-- One more line than asked for tells whether there are more. -/
theorem lt_length_take_addUsize {α : Type*} {l : List α} {n : Nat} (hn : n < 2 ^ 64)
    (h : l.length < 2 ^ 64 - 1) : n < (l.take (addUsize n 1)).length ↔ n < l.length := by
  rw [List.length_take, Nat.lt_min]
  refine ⟨fun hlt => hlt.2, fun hlt => ⟨?_, hlt⟩⟩
  have hnext : n + 1 < 2 ^ 64 := by omega
  rw [addUsize_eq hnext]
  exact Nat.lt_succ_self n

/-- The text of a file, without a byte order mark. -/
def decodeFile (bytes : ByteArray) : Option String :=
  let bs := bytes.data.toList
  Text.fromUtf8 (if [0xef, 0xbb, 0xbf].isPrefixOf bs then bs.drop 3 else bs)

/-- The lines of a window, and whether more lines follow it. -/
def windowLines (full : String) (startLine maxLines : Nat) : List (List Char) × Bool :=
  let lines := ((Text.lines full.toList).drop (startLine - 1)).take (addUsize maxLines 1)
  (lines.take maxLines, lines.length > maxLines)

/-- What `Workspace::read` makes of the bytes of a file. -/
def readBytes (host : Host) (relative : PathBuf) (bytes : ByteArray)
    (startLine maxLines maxBytes : UInt64) : Except AxiomError FileRead :=
  if (bytes.data.toList.take 8192).any (· == 0) then
    .error (.tool s!"binary file cannot be read as text: {relative}")
  else
    match decodeFile bytes with
    | none => .error (.tool s!"text file is not valid UTF-8: {relative}")
    | some full =>
      let startLine := max startLine.toNat 1
      let (lines, more) := windowLines full startLine maxLines.toNat
      let selected := String.ofList (['\n'].intercalate lines)
      let (content, cut) := truncateUtf8 selected maxBytes.toNat
      let lineCount := (Text.lines content.toList).length
      .ok
        { path := relative
          content
          startLine
          endLine := addUsize startLine (lineCount - 1)
          sha256 := host.sha256 bytes
          truncated := more || cut
          sizeBytes := bytes.size }

/-- `Workspace::read`. -/
def Workspace.read (host : Host) (ws : Workspace) (input : PathBuf)
    (startLine maxLines maxBytes : UInt64) : PatchM FileRead := do
  let path ← ws.resolveExisting host input
  let node ← openVerified host path ws.root
  -- The metadata are read, and then the content.
  syscallRead host .main fun _ => .ok PUnit.unit
  match node with
  | .file bytes _ => do
    failIf (bytes.size > MAX_INSPECT_BYTES)
      (.tool (s!"large file omitted: {ws.relative path} is {bytes.size} bytes (limit {MAX_INSPECT_BYTES}); " ++
        "inspect metadata or select a smaller source file"))
    syscallRead host .main fun _ => .ok PUnit.unit
    ofResult (readBytes host (ws.relative path) bytes startLine maxLines maxBytes)
  | _ => throw (.tool s!"special file cannot be read: {ws.relative path}")

/-- **A read gives the window of a file** that the path names, and leaves the file system alone. -/
theorem wp_read {host : Host} {ws : Workspace} {w : World} {input : PathBuf}
    {startLine maxLines maxBytes : UInt64} :
    (ws.read host input startLine maxLines maxBytes).Wp
      (fun r w' => w.Same w' ∧ ∃ target bytes mode, ws.Names w.fs input target ∧
        w.fs target = some (.file bytes mode) ∧ bytes.size ≤ MAX_INSPECT_BYTES ∧
        readBytes host (ws.relative target) bytes startLine maxLines maxBytes = .ok r)
      (fun _ w' => w.Same w') w := by
  rw [Workspace.read, wp_bind]
  refine wp_resolveExisting (fun _ w' h => h) fun p w₁ hsame₁ hnames => ?_
  simp only [openVerified, wp_bind]
  refine wp_syscallRead (fun _ w' h => hsame₁.trans h) fun opened w₂ hopen hsame₂ => ?_
  have hsame₂ := hsame₁.trans hsame₂
  refine wp_syscallRead (fun _ w' h => hsame₂.trans h) fun actual w₃ _ hsame₃ => ?_
  have hsame₃ := hsame₂.trans hsame₃
  simp only [wp_failIf, wp_pure]
  refine ⟨fun _ => hsame₃, fun _ => ?_⟩
  refine wp_syscallRead (fun _ w' h => hsame₃.trans h) fun _ w₄ _ hsame₄ => ?_
  have hsame₄ := hsame₃.trans hsame₄
  obtain ⟨q, node⟩ := opened
  rcases node with ⟨bytes, mode⟩ | _ | target
  · simp only [wp_bind, wp_failIf]
    refine ⟨fun _ => hsame₄, fun hsize => ?_⟩
    refine wp_syscallRead (fun _ w' h => hsame₄.trans h) fun _ w₅ _ hsame₅ => ?_
    have hsame₅ := hsame₄.trans hsame₅
    rw [wp_ofResult]
    refine ⟨fun _ _ => hsame₅, fun r hr => ⟨hsame₅, p, bytes, mode, hnames, ?_, Nat.le_of_not_lt hsize, hr⟩⟩
    obtain ⟨candidate, _, hcanon, _⟩ := hnames
    have hcanonical := (FileSystem.canonical_of_canonicalize hcanon).1
    rw [hsame₁.1, FileSystem.openRead, FileSystem.locate_of_canonical hcanonical] at hopen
    cases p with
    | nil => cases hopen
    | cons c cs =>
      rcases hnode : w.fs (c :: cs) with _ | (⟨bytes', mode'⟩ | _ | target) <;>
        simp only [hnode] at hopen <;> cases hopen
      rfl
  · exact hsame₄
  · exact hsame₄

/-! ### The cut at a number of bytes -/

theorem keep_prefix (budget : Nat) (cs : List Char) : truncateUtf8.keep budget cs <+: cs := by
  induction cs generalizing budget with
  | nil => exact List.prefix_rfl
  | cons c cs ih =>
    rw [truncateUtf8.keep]
    split
    · exact List.prefix_cons_inj c |>.mpr (ih _)
    · exact List.nil_prefix

theorem byteSize_keep (budget : Nat) (cs : List Char) :
    Text.byteSize (truncateUtf8.keep budget cs) ≤ budget := by
  induction cs generalizing budget with
  | nil => exact Nat.zero_le _
  | cons c cs ih =>
    rw [truncateUtf8.keep]
    split
    · have hrest := ih (budget - c.utf8Size)
      rw [Text.byteSize_cons]
      omega
    · exact Nat.zero_le _

/-- Every beginning that there is room for is kept. -/
theorem prefix_keep {budget : Nat} {cs shorter : List Char} (h : shorter <+: cs)
    (hsize : Text.byteSize shorter ≤ budget) : shorter <+: truncateUtf8.keep budget cs := by
  induction cs generalizing budget shorter with
  | nil => exact h
  | cons c cs ih =>
    rcases List.prefix_cons_iff.mp h with rfl | ⟨rest, rfl, hrest⟩
    · exact List.nil_prefix
    · rw [Text.byteSize_cons] at hsize
      rw [truncateUtf8.keep, if_pos (by omega)]
      exact List.prefix_cons_inj c |>.mpr (ih hrest (by omega))

section Truncate

variable (s : String) (maxBytes : Nat)

theorem truncateUtf8_toList : (truncateUtf8 s maxBytes).1.toList =
    if s.utf8ByteSize ≤ maxBytes then s.toList else truncateUtf8.keep maxBytes s.toList := by
  unfold truncateUtf8
  split
  · rfl
  · exact String.toList_ofList

theorem truncateUtf8_prefix : (truncateUtf8 s maxBytes).1.toList <+: s.toList := by
  rw [truncateUtf8_toList]
  split
  · exact List.prefix_rfl
  · exact keep_prefix _ _

theorem byteSize_truncateUtf8 : Text.byteSize (truncateUtf8 s maxBytes).1.toList ≤ maxBytes := by
  rw [truncateUtf8_toList]
  split
  · next hfits => exact Text.utf8ByteSize_toList s ▸ hfits
  · exact byteSize_keep _ _

theorem prefix_truncateUtf8 {shorter : List Char} (h : shorter <+: s.toList)
    (hsize : Text.byteSize shorter ≤ maxBytes) : shorter <+: (truncateUtf8 s maxBytes).1.toList := by
  rw [truncateUtf8_toList]
  split
  · exact h
  · exact prefix_keep h hsize

/-- A text is cut where something of it is left out. -/
theorem truncateUtf8_cut :
    (truncateUtf8 s maxBytes).2 = true ↔ (truncateUtf8 s maxBytes).1.toList ≠ s.toList := by
  have hsize := byteSize_truncateUtf8 s maxBytes
  unfold truncateUtf8 at *
  split
  · simp
  · next hlong =>
    rw [if_neg hlong] at hsize
    refine iff_of_true rfl fun heq => hlong ?_
    rw [Text.utf8ByteSize_toList, ← heq]
    exact hsize

end Truncate

end AxiomDesktop

namespace AxiomDesktop

open Fallible Joined

/-! ## Windows -/

/-- The lines of a file from a line on. -/
def linesFrom (full : String) (startLine : Nat) : List (List Char) :=
  (Text.lines full.toList).drop (startLine - 1)

/-- The text of lines. -/
def lineText (lines : List (List Char)) : List Char := ['\n'].intercalate lines

/-- The report of a read is what it gives of the lines from the one with a number on. -/
structure Exact (rest : List (List Char)) (number maxLines maxBytes : Nat) (r : FileRead) : Prop where
  startLine : r.startLine = number
  /-- The content is the text of the lines of the window. -/
  content : r.content.toList <+: lineText (rest.take maxLines)
  /-- It is cut only where there is no room for more. -/
  room : Text.byteSize r.content.toList ≤ maxBytes ∧
    ∀ longer, longer <+: lineText (rest.take maxLines) → Text.byteSize longer ≤ maxBytes →
      longer <+: r.content.toList
  /-- The last line that is in the content at least in part has the number reported. -/
  endLine : ∀ m, Included (rest.take maxLines) r.content.toList m →
    (∀ n, Included (rest.take maxLines) r.content.toList n → n ≤ m) → r.endLine = number + m
  /-- It is reported whether a line is not wholly in the content. -/
  truncated : r.truncated = true ↔
    ∃ m < rest.length, ¬ Wholly (rest.take maxLines) r.content.toList m
  /-- Where only lines are left out, they are those behind the last line that is reported. -/
  resumes : r.truncated = true → r.content.toList = lineText (rest.take maxLines) →
    ∀ m < rest.length,
      Included (rest.take maxLines) r.content.toList m ↔ number + m ≤ r.endLine

/-- A blank line behind the first ends a window, or reaches the limit of bytes. -/
def EndsBlank (window : List (List Char)) (maxBytes : Nat) : Prop :=
  ∃ m, 1 ≤ m ∧ window[m]? = some [] ∧ Text.byteSize (lineText (window.take (m + 1))) ≤ maxBytes ∧
    (m + 1 = window.length ∨ Text.byteSize (lineText (window.take (m + 1))) = maxBytes)

/-- The window has a line where there is one, and no blank line behind its first ends
its content. -/
def Clear (rest : List (List Char)) (maxLines maxBytes : Nat) : Prop :=
  (maxLines = 0 → rest = []) ∧ ¬ EndsBlank (rest.take maxLines) maxBytes

/-! ## The lines of a file -/

theorem decodeFile_length {bytes : ByteArray} {full : String} (h : decodeFile bytes = some full) :
    full.toList.length ≤ bytes.size := by
  have hdecoded : ∀ bs : List UInt8, Text.fromUtf8 bs = some full → full.toList.length ≤ bs.length := by
    intro bs hbs
    unfold Text.fromUtf8 String.fromUTF8? at hbs
    split at hbs
    · have hfull := Option.some.inj hbs
      have hsize : full.utf8ByteSize = bs.length := by
        rw [← hfull]
        rfl
      rw [← hsize, Text.utf8ByteSize_toList]
      exact Text.length_le_byteSize _
    · cases hbs
  dsimp only [decodeFile] at h
  split at h
  · have hle := hdecoded _ h
    rw [List.length_drop] at hle
    exact Nat.le_trans hle (Nat.sub_le _ _)
  · exact hdecoded _ h

/-- A file that is read has fewer lines than a number of 64 bits counts. -/
theorem length_lines_lt {bytes : ByteArray} {full : String} (h : decodeFile bytes = some full)
    (hsize : bytes.size ≤ MAX_INSPECT_BYTES) : (Text.lines full.toList).length < 2 ^ 64 - 1 := by
  have hlines := Text.length_lines_le full.toList
  have hlength := decodeFile_length h
  unfold MAX_INSPECT_BYTES at hsize
  omega

/-! ## The content of a window -/

section Content

variable {window : List (List Char)} {content part : List Char} {maxBytes k : Nat}

/-- The lines that are counted in the content are those before the cut, and what stands at it. -/
theorem lines_of_shows (hplain : ∀ line ∈ window, '\n' ∉ line) (h : Joined.Shows '\n' window content k part) :
    (Text.lines content).length = k + if part = [] then 0 else 1 := by
  have hsplit : Text.splitChar '\n' content = window.take k ++ [part] := by
    rw [Text.splitChar_eq_splitOn, h.splitOn hplain]
  rw [Text.length_lines hsplit, List.length_take_of_le (Nat.le_of_lt h.lt)]

/-- No more lines are counted in the content than the window has. -/
theorem length_lines_content (hplain : ∀ line ∈ window, '\n' ∉ line) (h : content <+: lineText window) :
    (Text.lines content).length ≤ window.length := by
  by_cases hnil : window = []
  · subst hnil
    have hcontent : content = [] := List.prefix_nil.mp h
    rw [hcontent]
    exact Nat.le_refl _
  · obtain ⟨k, part, hshows⟩ := shows_of_prefix hnil h
    have hlt := hshows.lt
    rw [lines_of_shows hplain hshows]
    split
    · omega
    · omega

theorem eq_of_prefix_of_byteSize {shorter longer : List Char} (h : shorter <+: longer)
    (hsize : Text.byteSize longer ≤ Text.byteSize shorter) : shorter = longer := by
  obtain ⟨rest, rfl⟩ := h
  have hrest : Text.byteSize rest = 0 := by
    rw [Text.byteSize_append] at hsize
    omega
  rw [Text.byteSize_eq_zero.mp hrest, List.append_nil]

theorem prefix_lineText_take (k : Nat) (hk : k < window.length) :
    lineText (window.take (k + 1)) <+: lineText window := by
  rcases Nat.lt_or_eq_of_le (Nat.succ_le_of_lt hk) with hlt | heq
  · exact (List.prefix_append _ _).trans (prefix_take hlt)
  · have hall := List.take_of_length_le (Nat.le_of_eq heq.symm)
    exact ⟨[], by rw [List.append_nil, hall]⟩

/-- A blank line behind the first ends the content where the cut is at one. -/
theorem endsBlank_iff (hplain : ∀ line ∈ window, '\n' ∉ line)
    (hsize : Text.byteSize content ≤ maxBytes)
    (hlongest : ∀ longer, longer <+: lineText window → Text.byteSize longer ≤ maxBytes →
      longer <+: content)
    (hpre : content <+: lineText window) (h : Joined.Shows '\n' window content k part) :
    EndsBlank window maxBytes ↔ 1 ≤ k ∧ part = [] ∧ getElem window k h.lt = [] := by
  constructor
  · rintro ⟨m, hm, hget, hfits, hends⟩
    obtain ⟨hlt, hblank⟩ := List.getElem?_eq_some_iff.mp hget
    have hbegins := hlongest _ (prefix_lineText_take m hlt) hfits
    have hcontent : content = lineText (window.take (m + 1)) := by
      rcases hends with hlast | hfull
      · rw [List.take_of_length_le (Nat.le_of_eq hlast.symm)] at hbegins ⊢
        exact hpre.eq_of_length_le hbegins.length_le
      · exact (eq_of_prefix_of_byteSize hbegins (hfull ▸ hsize)).symm
    have hshows : Joined.Shows '\n' window content m [] := by
      refine ⟨hlt, List.nil_prefix, ?_⟩
      rw [hcontent, List.take_add_one, hget]
      rfl
    obtain ⟨rfl, rfl⟩ := h.unique hplain hshows
    exact ⟨hm, rfl, hblank⟩
  · rintro ⟨hk, rfl, hblank⟩
    have hget := List.getElem?_eq_getElem h.lt
    rw [hblank] at hget
    have hcontent : content = lineText (window.take (k + 1)) := by
      rw [h.eq, List.take_add_one, hget]
      rfl
    refine ⟨k, hk, hget, hcontent ▸ hsize, ?_⟩
    rcases Nat.lt_or_eq_of_le (Nat.succ_le_of_lt h.lt) with hlt | heq
    · refine .inr (Nat.le_antisymm (hcontent ▸ hsize) (Nat.le_of_not_lt fun hroom => ?_))
      -- There is room for the line feed, so the content would be longer.
      have hlonger := hlongest _ (prefix_take hlt) (by
        rw [Text.byteSize_append]
        exact hroom)
      have hlength := hlonger.length_le
      rw [hcontent, List.length_append, List.length_singleton] at hlength
      exact absurd hlength (Nat.not_succ_le_self _)
    · exact .inl heq

/-! ## One read -/

variable {rest : List (List Char)} {number maxLines : Nat} {r : FileRead}

/-- What a read reports of the lines from the one with a number on. -/
structure Reports (rest : List (List Char)) (number maxLines maxBytes : Nat) (r : FileRead) : Prop where
  plain : ∀ line ∈ rest, '\n' ∉ line
  startLine : r.startLine = number
  content : r.content =
    (truncateUtf8 (String.ofList (lineText (rest.take maxLines))) maxBytes).1
  endLine : r.endLine = number + ((Text.lines r.content.toList).length - 1)
  truncated : r.truncated = true ↔
    maxLines < rest.length ∨ r.content.toList ≠ lineText (rest.take maxLines)

theorem Reports.prefix (h : Reports rest number maxLines maxBytes r) :
    r.content.toList <+: lineText (rest.take maxLines) := by
  have hpre := truncateUtf8_prefix (String.ofList (lineText (rest.take maxLines))) maxBytes
  rw [String.toList_ofList, ← h.content] at hpre
  exact hpre

theorem Reports.room (h : Reports rest number maxLines maxBytes r) :
    Text.byteSize r.content.toList ≤ maxBytes ∧
      ∀ longer, longer <+: lineText (rest.take maxLines) → Text.byteSize longer ≤ maxBytes →
        longer <+: r.content.toList := by
  constructor
  · rw [h.content]
    exact byteSize_truncateUtf8 _ _
  · intro longer hlonger hsize
    rw [h.content]
    exact prefix_truncateUtf8 _ _ (by rw [String.toList_ofList]; exact hlonger) hsize

theorem Reports.plain_take (h : Reports rest number maxLines maxBytes r) :
    ∀ line ∈ rest.take maxLines, '\n' ∉ line :=
  fun line hline => h.plain line (List.mem_of_mem_take hline)

/-- What is truncated is left out of the content. -/
theorem Reports.truncated_iff (h : Reports rest number maxLines maxBytes r) :
    r.truncated = true ↔ ∃ m < rest.length, ¬ Wholly (rest.take maxLines) r.content.toList m := by
  rw [h.truncated]
  have hall := forall_wholly_iff h.prefix
  constructor
  · rintro (hmore | hcut)
    · refine ⟨maxLines, hmore, ?_⟩
      rintro ⟨line, hget, _⟩
      have hlt := (List.getElem?_eq_some_iff.mp hget).1
      rw [List.length_take] at hlt
      omega
    · have hsome := mt hall.mp hcut
      push Not at hsome
      obtain ⟨m, hm, hwholly⟩ := hsome
      refine ⟨m, ?_, hwholly⟩
      rw [List.length_take] at hm
      omega
  · rintro ⟨m, hm, hwholly⟩
    by_contra hnot
    push Not at hnot
    obtain ⟨hfew, hwhole⟩ := hnot
    refine hwholly (hall.mpr hwhole m ?_)
    rw [List.length_take]
    omega

/-- A window without a line has nothing to report, and is behind the last line. -/
theorem Reports.exact_of_nil (h : Reports rest number maxLines maxBytes r)
    (hnil : rest.take maxLines = []) :
    Exact rest number maxLines maxBytes r ↔ Clear rest maxLines maxBytes := by
  have hnone : ∀ m, ¬ Included (rest.take maxLines) r.content.toList m := by
    intro m hm
    have hlt := Joined.Shows.lt_of_included hm
    rw [hnil] at hlt
    exact absurd hlt (Nat.not_lt_zero m)
  have hcontent : r.content.toList = [] := by
    have hpre := h.prefix
    rw [hnil] at hpre
    exact List.prefix_nil.mp hpre
  have hclear : Clear rest maxLines maxBytes ↔ rest = [] := by
    constructor
    · rintro ⟨hzero, -⟩
      rcases List.take_eq_nil_iff.mp hnil with hmax | hrest
      · exact hzero hmax
      · exact hrest
    · refine fun hrest => ⟨fun _ => hrest, ?_⟩
      rintro ⟨m, -, hget, -⟩
      rw [hnil] at hget
      cases hget
  rw [hclear]
  constructor
  · intro hexact
    by_contra hne
    have hpos := List.length_pos_of_ne_nil hne
    have htruncated : r.truncated = true :=
      h.truncated_iff.mpr ⟨0, hpos, fun hwholly => hnone 0 (.inl hwholly)⟩
    -- The first line is reported, but it is not in the window.
    have hwhole : r.content.toList = lineText (rest.take maxLines) := by
      rw [hcontent, hnil]
      rfl
    refine hnone 0 ((hexact.resumes htruncated hwhole 0 hpos).mpr ?_)
    rw [h.endLine]
    omega
  · intro hrest
    exact
      { startLine := h.startLine
        content := h.prefix
        room := h.room
        endLine := fun m hm => absurd hm (hnone m)
        truncated := h.truncated_iff
        resumes := fun _ _ m hm => by
          rw [hrest] at hm
          exact absurd hm (Nat.not_lt_zero m) }

/-- The number of the last line reported, by the cut. -/
theorem Reports.endLine_eq (h : Reports rest number maxLines maxBytes r)
    (hshows : Joined.Shows '\n' (rest.take maxLines) r.content.toList k part) :
    r.endLine = number + (if part = [] then k - 1 else k) := by
  rw [h.endLine, lines_of_shows h.plain_take hshows]
  split
  · rfl
  · rfl

/-- The whole of a window is shown to the end of its last line. -/
theorem Reports.whole (h : Reports rest number maxLines maxBytes r)
    (hshows : Joined.Shows '\n' (rest.take maxLines) r.content.toList k part)
    (hwhole : r.content.toList = lineText (rest.take maxLines)) :
    k + 1 = (rest.take maxLines).length ∧ part = getElem (rest.take maxLines) k hshows.lt := by
  have hlt := hshows.lt
  have hall := (forall_wholly_iff h.prefix).mpr hwhole
  have hlast : (rest.take maxLines).length ≤ k + 1 := by
    by_contra hmore
    have hnext := hshows.wholly_iff.mp (hall (k + 1) (by omega))
    omega
  refine ⟨by omega, ?_⟩
  rcases hshows.wholly_iff.mp (hall k hlt) with hless | ⟨-, hpart⟩
  · exact absurd hless (Nat.lt_irrefl k)
  · exact hpart

/-- A window with a line is reported as it is where no blank line behind its first ends
the content. -/
theorem Reports.exact_of_shows (h : Reports rest number maxLines maxBytes r)
    (hshows : Joined.Shows '\n' (rest.take maxLines) r.content.toList k part) :
    Exact rest number maxLines maxBytes r ↔ Clear rest maxLines maxBytes := by
  have hends := endsBlank_iff h.plain_take h.room.1 h.room.2 h.prefix hshows
  have hlt := hshows.lt
  have hend := h.endLine_eq hshows
  have hmax : maxLines ≠ 0 := by
    rintro rfl
    rw [List.take_zero] at hlt
    exact absurd hlt (Nat.not_lt_zero k)
  have hclear : Clear rest maxLines maxBytes ↔
      ¬ (1 ≤ k ∧ part = [] ∧ getElem (rest.take maxLines) k hlt = []) := by
    rw [Clear, hends]
    exact and_iff_right fun hzero => absurd hzero hmax
  rw [hclear]
  constructor
  · rintro hexact ⟨hk, hpart, hblank⟩
    have hlast : ∀ n, Included (rest.take maxLines) r.content.toList n → n ≤ k := by
      intro n hn
      rcases hshows.included_iff.mp hn with hless | ⟨rfl, -⟩
      · omega
      · exact Nat.le_refl _
    have hnumber := hexact.endLine k (hshows.included_iff.mpr (.inr ⟨rfl, .inr hblank⟩)) hlast
    rw [hend, if_pos hpart] at hnumber
    omega
  · intro hgood
    refine ⟨h.startLine, h.prefix, h.room, fun m hm hlast => ?_, h.truncated_iff, ?_⟩
    · rw [hend]
      by_cases hpart : part = []
      · rw [if_pos hpart]
        by_cases hblank : getElem (rest.take maxLines) k hlt = []
        · have hk : k = 0 := by
            by_contra hk
            exact hgood ⟨by omega, hpart, hblank⟩
          rcases hshows.included_iff.mp hm with hless | ⟨rfl, -⟩
          · omega
          · omega
        · -- The line at the cut is not in the content, but those before it are.
          have hless : m < k := by
            rcases hshows.included_iff.mp hm with hless | ⟨rfl, hpart' | hblank'⟩
            · exact hless
            · exact absurd hpart hpart'
            · exact absurd hblank' hblank
          have hbefore := hlast (k - 1) (hshows.included_iff.mpr (.inl (by omega)))
          omega
      · rw [if_neg hpart]
        have hcut := hlast k (hshows.included_iff.mpr (.inr ⟨rfl, .inl hpart⟩))
        rcases hshows.included_iff.mp hm with hless | ⟨rfl, -⟩
        · omega
        · rfl
    · intro htruncated hwhole m hm
      obtain ⟨hlength, hpart⟩ := h.whole hshows hwhole
      have hincluded : Included (rest.take maxLines) r.content.toList m ↔ m ≤ k := by
        rw [hshows.included_iff]
        constructor
        · rintro (hless | ⟨rfl, -⟩)
          · omega
          · exact Nat.le_refl _
        · intro hle
          rcases Nat.lt_or_eq_of_le hle with hless | rfl
          · exact .inl hless
          · refine .inr ⟨rfl, ?_⟩
            by_cases hnil : part = []
            · exact .inr (hpart ▸ hnil)
            · exact .inl hnil
      rw [hincluded, hend]
      by_cases hnil : part = []
      · rw [if_pos hnil]
        have hk : k = 0 := by
          by_contra hk
          exact hgood ⟨by omega, hnil, hpart ▸ hnil⟩
        omega
      · rw [if_neg hnil]
        omega

/-- **The report is exact** where the window has a line to give, and no blank line ends it. -/
theorem Reports.exact_iff (h : Reports rest number maxLines maxBytes r) :
    Exact rest number maxLines maxBytes r ↔ Clear rest maxLines maxBytes := by
  by_cases hnil : rest.take maxLines = []
  · exact h.exact_of_nil hnil
  · obtain ⟨k, part, hshows⟩ := shows_of_prefix hnil h.prefix
    exact h.exact_of_shows hshows

end Content

/-! ## Reads of a file -/

section Read

variable {host : Host} {ws : Workspace} {w w' : World} {input : PathBuf} {target : Path}
  {bytes : ByteArray} {mode : Nat} {full : String} {startLine maxLines maxBytes : UInt64} {r : FileRead}

theorem readBytes_reports {relative : PathBuf} (hfull : decodeFile bytes = some full)
    (hsize : bytes.size ≤ MAX_INSPECT_BYTES)
    (h : readBytes host relative bytes startLine maxLines maxBytes = .ok r) :
    Reports (linesFrom full (max startLine.toNat 1)) (max startLine.toNat 1) maxLines.toNat
      maxBytes.toNat r := by
  have hlines := length_lines_lt hfull hsize
  have hmax := maxLines.toNat_lt
  have hstart := startLine.toNat_lt
  have hplain : ∀ line ∈ linesFrom full (max startLine.toNat 1), '\n' ∉ line :=
    fun line hline => Text.notMem_of_mem_lines (List.mem_of_mem_drop hline)
  have hlength : (linesFrom full (max startLine.toNat 1)).length =
      (Text.lines full.toList).length - (max startLine.toNat 1 - 1) := List.length_drop
  unfold readBytes at h
  split at h
  · cases h
  · rw [hfull] at h
    simp only [windowLines, List.take_take] at h
    rw [min_addUsize hmax] at h
    cases h
    have hpre := truncateUtf8_prefix
      (String.ofList (lineText ((linesFrom full (max startLine.toNat 1)).take maxLines.toNat))) maxBytes.toNat
    rw [String.toList_ofList] at hpre
    have hcount := length_lines_content (fun line hline => hplain line (List.mem_of_mem_take hline)) hpre
    rw [List.length_take] at hcount
    refine ⟨hplain, rfl, rfl, ?_, ?_⟩
    · refine addUsize_eq ?_
      unfold lineText linesFrom at hcount hlength
      omega
    · show (decide _ || _) = true ↔ _
      rw [Bool.or_eq_true, decide_eq_true_eq, truncateUtf8_cut, String.toList_ofList]
      exact or_congr (lt_length_take_addUsize hmax (by rw [List.length_drop]; omega)) Iff.rfl

theorem Workspace.Names.unique {fs : FileSystem} {target' : Path} (h : ws.Names fs input target)
    (h' : ws.Names fs input target') : target = target' := by
  obtain ⟨candidate, hcandidate, hcanon, _⟩ := h
  obtain ⟨candidate', hcandidate', hcanon', _⟩ := h'
  rw [hcandidate] at hcandidate'
  cases hcandidate'
  rw [hcanon] at hcanon'
  exact Except.ok.inj hcanon'

/-- What a read reports of a text file, which it leaves as it is. -/
theorem read_reports (hnames : ws.Names w.fs input target) (hfile : w.fs target = some (.file bytes mode))
    (hfull : decodeFile bytes = some full)
    (h : (ws.read host input startLine maxLines maxBytes).exec w = (.ok r, w')) :
    w.Same w' ∧ Reports (linesFrom full (max startLine.toNat 1)) (max startLine.toNat 1) maxLines.toNat
      maxBytes.toNat r := by
  have hread : (ws.read host input startLine maxLines maxBytes).Wp _ _ w := wp_read
  unfold Fallible.Wp at hread
  rw [h] at hread
  obtain ⟨hsame, target', bytes', mode', hnames', hfile', hsize, hr⟩ := hread
  cases hnames.unique hnames'
  rw [hfile] at hfile'
  cases hfile'
  exact ⟨hsame, readBytes_reports hfull hsize hr⟩

/-- A walk: a read, and from the line behind the last one that it reports the next, where the lines
of the window are not all. -/
inductive Walk (host : Host) (ws : Workspace) (input : PathBuf) (maxLines maxBytes : UInt64)
    (full : String) : World → UInt64 → List FileRead → Prop where
  | last {w w' : World} {startLine : UInt64} {r : FileRead}
      (hread : (ws.read host input startLine maxLines maxBytes).exec w = (.ok r, w'))
      (hdone : r.truncated = false) : Walk host ws input maxLines maxBytes full w startLine [r]
  | next {w w' : World} {startLine following : UInt64} {r : FileRead} {rs : List FileRead}
      (hread : (ws.read host input startLine maxLines maxBytes).exec w = (.ok r, w'))
      (htruncated : r.truncated = true)
      (hlines : r.content.toList = lineText ((linesFrom full r.startLine).take maxLines.toNat))
      (hfollowing : following.toNat = r.endLine + 1)
      (hwalk : Walk host ws input maxLines maxBytes full w' following rs) :
      Walk host ws input maxLines maxBytes full w startLine (r :: rs)

/-- The line behind a window whose lines are not all. -/
theorem Reports.next {rest : List (List Char)} {number maxLines maxBytes : Nat}
    (h : Reports rest number maxLines maxBytes r) (hclear : Clear rest maxLines maxBytes)
    (htruncated : r.truncated = true) (hlines : r.content.toList = lineText (rest.take maxLines)) :
    r.endLine + 1 = number + maxLines := by
  have hexact := h.exact_iff.mpr hclear
  have hmore : maxLines < rest.length := by
    rcases h.truncated.mp htruncated with hmore | hcut
    · exact hmore
    · exact absurd hlines hcut
  have hpos : 0 < maxLines := by
    refine Nat.pos_of_ne_zero fun hzero => ?_
    rw [hclear.1 hzero] at hmore
    exact absurd hmore (Nat.not_lt_zero _)
  have hwindow : (rest.take maxLines).length = maxLines := List.length_take_of_le (Nat.le_of_lt hmore)
  have hwholly := (forall_wholly_iff h.prefix).mpr hlines (maxLines - 1) (by omega)
  have hlast := (hexact.resumes htruncated hlines (maxLines - 1) (by omega)).mp (.inl hwholly)
  have hnot : ¬ number + maxLines ≤ r.endLine := by
    intro hle
    have hincluded := (hexact.resumes htruncated hlines maxLines hmore).mpr hle
    have hlt := Joined.Shows.lt_of_included hincluded
    omega
  omega

/-- **A walk reads every line once.** -/
theorem walk_flatten {rs : List FileRead} (hnames : ws.Names w.fs input target)
    (hfile : w.fs target = some (.file bytes mode)) (hfull : decodeFile bytes = some full)
    (hwalk : Walk host ws input maxLines maxBytes full w startLine rs)
    (hclear : ∀ r ∈ rs, Clear (linesFrom full r.startLine) maxLines.toNat maxBytes.toNat) :
    (∀ r ∈ rs, r.content.toList = lineText ((linesFrom full r.startLine).take maxLines.toNat)) ∧
      (rs.flatMap fun r => (linesFrom full r.startLine).take maxLines.toNat) =
        linesFrom full (max startLine.toNat 1) := by
  induction hwalk with
  | last hread hdone =>
    obtain ⟨_, hreports⟩ := read_reports hnames hfile hfull hread
    have hwhole := mt hreports.truncated.mpr (Bool.eq_false_iff.mp hdone)
    rw [not_or, not_not] at hwhole
    obtain ⟨hfew, hcontent⟩ := hwhole
    rw [← hreports.startLine] at hfew hcontent ⊢
    refine ⟨fun r' hr' => ?_, ?_⟩
    · cases List.mem_singleton.mp hr'
      exact hcontent
    · rw [List.flatMap_singleton, List.take_of_length_le (Nat.le_of_not_lt hfew)]
  | @next w w' startLine following r rs hread htruncated hlines hfollowing hwalk ih =>
    obtain ⟨hsame, hreports⟩ := read_reports hnames hfile hfull hread
    have hnumber := hreports.startLine
    rw [← hnumber] at hreports
    have hnext := hreports.next (hclear r List.mem_cons_self) htruncated hlines
    obtain ⟨hcontents, hflatten⟩ := ih (hsame.1.symm ▸ hnames) (hsame.1.symm ▸ hfile)
      fun r' hr' => hclear r' (List.mem_cons_of_mem _ hr')
    refine ⟨fun r' hr' => ?_, ?_⟩
    · rcases List.mem_cons.mp hr' with rfl | hr'
      · exact hlines
      · exact hcontents r' hr'
    · have hstart : 1 ≤ r.startLine := hnumber ▸ Nat.le_max_right _ _
      have hrest : linesFrom full (max following.toNat 1) =
          (linesFrom full r.startLine).drop maxLines.toNat := by
        rw [linesFrom, linesFrom, List.drop_drop]
        congr 1
        omega
      rw [List.flatMap_cons, hflatten, hrest, List.take_append_drop, hnumber]

/-- **A read of a text file reports its window exactly**, and reads that follow one another walk
through all of its lines, where the windows have lines to give and no blank line behind the first of
one ends it. -/
theorem read_exact (hnames : ws.Names w.fs input target) (hfile : w.fs target = some (.file bytes mode))
    (hfull : decodeFile bytes = some full) :
    (∀ r w', (ws.read host input startLine maxLines maxBytes).exec w = (.ok r, w') →
      (Exact (linesFrom full (max startLine.toNat 1)) (max startLine.toNat 1) maxLines.toNat maxBytes.toNat r ↔
        Clear (linesFrom full (max startLine.toNat 1)) maxLines.toNat maxBytes.toNat)) ∧
    ∀ rs, Walk host ws input maxLines maxBytes full w startLine rs →
      (∀ r ∈ rs, Clear (linesFrom full r.startLine) maxLines.toNat maxBytes.toNat) →
      (∀ r ∈ rs, r.content.toList = lineText ((linesFrom full r.startLine).take maxLines.toNat)) ∧
      (rs.flatMap fun r => (linesFrom full r.startLine).take maxLines.toNat) =
        linesFrom full (max startLine.toNat 1) :=
  ⟨fun _ _ hread => (read_reports hnames hfile hfull hread).2.exact_iff,
    fun _ hwalk hclear => walk_flatten hnames hfile hfull hwalk hclear⟩

end Read

/-! ## A blank line is read twice -/

/-- A host on which no system call fails. -/
def steadyHost : Host where
  fault _ _ := none
  shortWrite _ content := content
  uuid _ := ""
  createMode := 0o644
  sha256 _ := ""
  unifiedDiff _ _ := ""

/-- The workspace of one directory. -/
def oneDirectory : Workspace where
  root := ["w"]
  canonical := canonical_w

/-- A directory with one file. -/
def oneFile (text : String) : World where
  fs p := if p = ["w"] then some .dir else if p = ["w", "f"] then some (.file text.toUTF8 0o644) else none

theorem oneFile_names (text : String) : oneDirectory.Names (oneFile text).fs "f" ["w", "f"] :=
  ⟨["w", "f"], by decide +kernel, by rfl, by decide⟩

/-- The first of the lines `a`, a blank one and `b`, on its own. -/
theorem read_exact_first : ∃ r w',
    (oneDirectory.read steadyHost "f" 1 1 100).exec (oneFile "a\n\nb\n") = (.ok r, w') ∧
      Exact (linesFrom "a\n\nb\n" 1) 1 1 100 r := by
  let r : FileRead := ⟨"f", "a", 1, 1, "", true, 5⟩
  have hread : ((oneDirectory.read steadyHost "f" 1 1 100).exec (oneFile "a\n\nb\n")).1 = .ok r := by
    decide +kernel
  have hclear : Clear (linesFrom "a\n\nb\n" 1) 1 100 := by
    refine ⟨fun h => absurd h (by decide), ?_⟩
    have hwindow : (linesFrom "a\n\nb\n" 1).take 1 = [['a']] := by decide +kernel
    rintro ⟨m, hm, hget, -⟩
    rw [hwindow, List.getElem?_eq_none hm] at hget
    cases hget
  exact ⟨r, _, Prod.ext hread rfl,
    ((read_exact (oneFile_names _) rfl (by decide +kernel)).1 r _ (Prod.ext hread rfl)).mpr hclear⟩

/-- The first two of them end in a blank line, which the report does not count: the read from the
next number on gives it again. -/
theorem blank_line_repeated : ∃ r w',
    (oneDirectory.read steadyHost "f" 1 2 100).exec (oneFile "a\n\nb\n") = (.ok r, w') ∧
      ¬ Exact (linesFrom "a\n\nb\n" 1) 1 2 100 r ∧
      ((oneDirectory.read steadyHost "f" 2 2 100).exec (oneFile "a\n\nb\n")).1 =
        .ok ⟨"f", "\nb", 2, 3, "", false, 5⟩ := by
  let r : FileRead := ⟨"f", "a\n", 1, 1, "", true, 5⟩
  have hread : ((oneDirectory.read steadyHost "f" 1 2 100).exec (oneFile "a\n\nb\n")).1 = .ok r := by
    decide +kernel
  refine ⟨r, _, Prod.ext hread rfl, fun hexact => ?_, by decide +kernel⟩
  have hlines : linesFrom "a\n\nb\n" 1 = [['a'], [], ['b']] := by decide +kernel
  rw [hlines] at hexact
  have hblank := (hexact.resumes rfl (by decide +kernel) 1 (by decide)).mp
    (.inl ⟨[], rfl, by decide +kernel⟩)
  exact absurd hblank (by decide)

end AxiomDesktop
