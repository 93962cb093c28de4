import AxiomDesktop.Data.Fragments
import AxiomDesktop.Data.Lines
import AxiomDesktop.Lib.Occurrences
import AxiomDesktop.Workspace.Atomicity

/-!
# Replacing a text in a file

`Workspace::apply_replacement` replaces a text that matches exactly once. The matches are counted
from left to right, none of which overlaps another, so that the text may occur a second time where
it overlaps the match: the occurrence that is replaced is the only one exactly if no two occurrences
overlap (`applyReplacement_once_iff`). All else of the file system stays, and everything where the
call fails.
-/

namespace AxiomDesktop

open Fallible Occurrences

structure PatchOutcome where
  path : PathBuf
  oldSha256 : Option String
  newSha256 : String
  diff : String

/-- `old_content.matches(old).count()`. -/
def matchCount (oldContent old : String) : Nat := countFrom old.toList 0 oldContent.toList

/-- `old_content.replacen(old, new, 1)`. -/
def replaceOne (oldContent old new : String) : String :=
  String.ofList (replaceFirst old.toList new.toList oldContent.toList)

/-- The new content `apply_replacement` computes. -/
def replacedContent (oldContent old new : String) : Except AxiomError String :=
  if old = "" then
    if oldContent = "" then .ok new
    else .error (.tool "empty replacement is allowed only for a new/empty file")
  else
    let count := matchCount oldContent old
    if count ≠ 1 then
      .error (.tool s!"replacement must match exactly once; found {count} matches")
    else .ok (replaceOne oldContent old new)

namespace Workspace

variable (host : Host) (ws : Workspace)

/-- The content of the file that `apply_replacement` edits, with its digest where it exists. -/
def replacementTarget (path : Path) (old : String) (expectedSha256 : Option String) :
    PatchM (String × Option String) := do
  let w ← get
  if w.fs.exists? path then
    let (bytes, _) ← readEditTarget host path ws.root (8 * 1024 * 1024)
    let sha := host.sha256 bytes
    let expected := expectedSha256.getD sha
    failIf (expected ≠ sha) (.tool s!"stale edit: expected {expected}, found {sha}")
    let content ← okOr (String.fromUTF8? bytes) (.tool "cannot edit a non-UTF-8 file")
    pure (content, some sha)
  else
    failIf (old ≠ "") (.tool "new file replacement must use an empty old string")
    pure ("", none)

/-- The edit `apply_replacement` makes of a new content. -/
def replacementEdit (relative : PathBuf) (oldSha256 : Option String) (newContent : String) :
    EditIntent :=
  match oldSha256 with
  | some sha => .update relative sha newContent false
  | none => .create relative newContent none

/-- `Workspace::apply_replacement`. -/
def applyReplacement (input : PathBuf) (old new : String) (expectedSha256 : Option String) :
    PatchM PatchOutcome := do
  let path ← ws.resolveForWrite host input
  let (oldContent, oldSha256) ← ws.replacementTarget host path old expectedSha256
  let newContent ← ofResult (replacedContent oldContent old new)
  let relative := ws.relative path
  let _ ← ws.applyStructuredPatch host ⟨[replacementEdit relative oldSha256 newContent]⟩ (128 * 1024)
  pure
    { path := relative
      oldSha256
      newSha256 := host.sha256 newContent.toUTF8
      diff := host.unifiedDiff oldContent newContent }

end Workspace

/-! ## Occurrences in a text -/

/-- A text occurs at a byte position of another. -/
def OccursAt (old content : String) (position : Nat) : Prop :=
  ∃ before behind, content = before ++ old ++ behind ∧ before.utf8ByteSize = position

/-- Two occurrences of a text overlap. -/
def Overlaps (old content : String) : Prop :=
  ∃ i j, OccursAt old content i ∧ OccursAt old content j ∧ i < j ∧ j < i + old.utf8ByteSize

theorem occursAt_iff {old content : String} {position : Nat} :
    OccursAt old content position ↔ ∃ front, Occurs old.toList content.toList front ∧
      Text.byteSize front = position := by
  constructor
  · rintro ⟨before, behind, rfl, rfl⟩
    refine ⟨before.toList, ⟨behind.toList, ?_⟩, (Text.utf8ByteSize_toList before).symm⟩
    rw [String.toList_append, String.toList_append]
  · rintro ⟨front, ⟨back, hback⟩, rfl⟩
    refine ⟨String.ofList front, String.ofList back, ?_, Text.utf8ByteSize_ofList front⟩
    refine String.toList_inj.mp ?_
    rw [hback, String.toList_append, String.toList_append, String.toList_ofList,
      String.toList_ofList]

/-- Of two fronts of a text the shorter one has fewer bytes. -/
theorem byteSize_lt {cs front front' : List Char} (h : front <+: cs) (h' : front' <+: cs) :
    front.length < front'.length ↔ Text.byteSize front < Text.byteSize front' := by
  have hlonger : ∀ {front front' : List Char}, front <+: cs → front' <+: cs →
      front.length < front'.length → Text.byteSize front < Text.byteSize front' := by
    intro front front' h h' hlt
    obtain ⟨rest, rfl⟩ := List.prefix_of_prefix_length_le h h' hlt.le
    have hpos : Text.byteSize rest ≠ 0 := fun hzero => by
      rw [Text.byteSize_eq_zero.mp hzero, List.append_nil] at hlt
      exact lt_irrefl _ hlt
    rw [Text.byteSize_append]
    omega
  refine ⟨hlonger h h', fun hlt => Nat.not_le.mp fun hle => ?_⟩
  obtain heq | hlt' := Nat.eq_or_lt_of_le hle
  · rw [(List.prefix_of_prefix_length_le h' h hle).eq_of_length heq] at hlt
    exact lt_irrefl _ hlt
  · exact lt_asymm hlt (hlonger h' h hlt')

/-- **One match.** A text with one match has it replaced, and it occurs nowhere else exactly if no
two of its occurrences overlap. -/
theorem replaced_once {oldContent old new newContent : String} (hold : old ≠ "")
    (h : replacedContent oldContent old new = .ok newContent) :
    ∃ before behind, oldContent = before ++ old ++ behind ∧ newContent = before ++ new ++ behind ∧
      ((∃! position, OccursAt old oldContent position) ↔ ¬Overlaps old oldContent) := by
  unfold replacedContent at h
  rw [if_neg hold] at h
  dsimp only at h
  split at h
  · cases h
  · next hcount =>
    have hne : old.toList ≠ [] := fun hnil => hold (String.toList_eq_nil_iff.mp hnil)
    obtain ⟨front, back, hcontent, hreplaced, hothers⟩ :=
      count_one (q := new.toList) hne (not_not.mp hcount)
    refine ⟨String.ofList front, String.ofList back, ?_, ?_, ?_⟩
    · refine String.toList_inj.mp ?_
      rw [hcontent, String.toList_append, String.toList_append, String.toList_ofList,
        String.toList_ofList]
    · rw [← Except.ok.inj h, replaceOne, hreplaced]
      refine String.toList_inj.mp ?_
      rw [String.toList_append, String.toList_append, String.toList_ofList, String.toList_ofList,
        String.toList_ofList]
    · have hfirst : Occurs old.toList oldContent.toList front := ⟨back, hcontent⟩
      constructor
      · rintro ⟨position, -, hunique⟩ ⟨i, j, hi, hj, hlt, -⟩
        exact absurd ((hunique i hi).trans (hunique j hj).symm) (Nat.ne_of_lt hlt)
      · intro hapart
        refine ⟨Text.byteSize front, occursAt_iff.mpr ⟨front, hfirst, rfl⟩, fun position h => ?_⟩
        obtain ⟨front', hoccurs, rfl⟩ := occursAt_iff.mp h
        obtain ⟨hle, hlt⟩ := hothers front' hoccurs
        obtain heq | hlt' := Nat.eq_or_lt_of_le hle
        · rw [front_unique hoccurs hfirst heq.symm]
        · -- an occurrence behind the first one overlaps it
          refine absurd ⟨_, _, occursAt_iff.mpr ⟨front, hfirst, rfl⟩, h, ?_, ?_⟩ hapart
          · exact (byteSize_lt ((List.prefix_append _ _).trans hfirst.begins)
              ((List.prefix_append _ _).trans hoccurs.begins)).mp hlt'
          · rw [Text.utf8ByteSize_toList, ← Text.byteSize_append]
            refine (byteSize_lt ((List.prefix_append _ _).trans hoccurs.begins)
              hfirst.begins).mp ?_
            rwa [List.length_append]

/-! ## The path of the edit -/

/-- The names of the entries of a file system have characters, none of which is a slash. -/
def FileSystem.Named (fs : FileSystem) : Prop :=
  ∀ p, fs p ≠ none → ∀ c ∈ p, c ≠ "" ∧ '/' ∉ c.toList

theorem FileSystem.Canonical.names {fs : FileSystem} {p : Path} (h : fs.Canonical p) :
    ∀ c ∈ p, c ≠ "." ∧ c ≠ ".." := by
  suffices hleads : ∀ cs base, fs.Leads base cs → ∀ c ∈ cs, c ≠ "." ∧ c ≠ ".." from hleads p [] h
  intro cs
  induction cs with
  | nil => exact fun _ _ _ h => absurd h List.not_mem_nil
  | cons c cs ih => exact fun base h => List.forall_mem_cons.mpr ⟨h.1, ih _ h.2.2⟩

/-- Names joined by slashes are read back. -/
theorem components_intercalate {cs : List String} (h : ∀ c ∈ cs, c ≠ "" ∧ '/' ∉ c.toList) :
    Path.components ("/".intercalate cs) = cs := by
  cases hcs : cs with
  | nil => decide
  | cons c rest =>
    rw [← hcs]
    have hne : cs ≠ [] := hcs ▸ List.cons_ne_nil _ _
    have hparts : (Text.splitChar '/' ("/".intercalate cs).toList).map String.ofList = cs := by
      have hsplit : Text.splitChar '/' ("/".intercalate cs).toList = cs.map String.toList := by
        rw [String.toList_intercalate, Text.splitChar_eq_splitOn]
        refine List.splitOn_intercalate '/' ?_ (by simpa using hne)
        intro l hl
        obtain ⟨c, hc, rfl⟩ := List.mem_map.mp hl
        exact (h c hc).2
      rw [hsplit, List.map_map]
      exact (List.map_congr_left fun c _ => String.ofList_toList).trans (List.map_id cs)
    have hnamed : cs.filter (· ≠ "") = cs :=
      List.filter_eq_self.mpr fun c hc => decide_eq_true (h c hc).1
    unfold Path.components
    dsimp only
    rw [hparts, hnamed, if_neg]
    rintro ⟨hlast, -⟩
    exact (h "" (List.mem_of_getLast? hlast)).1 rfl

/-- The relative path of a file below the root names the file. -/
theorem candidate_relative {fs : FileSystem} {ws : Workspace} {p : Path} (hnamed : fs.Named)
    (hroot : ws.root.isPrefixOf p = true) (hp : fs.Canonical p) (hnode : fs p ≠ none) :
    ws.candidate (ws.relative p) = .ok p ∧
      ∀ c ∈ Path.components (ws.relative p), c ∈ p := by
  obtain ⟨rest, rfl⟩ := List.isPrefixOf_iff_prefix.mp hroot
  have hrest : ∀ c ∈ rest, c ≠ "" ∧ '/' ∉ c.toList := fun c hc =>
    hnamed _ hnode c (List.mem_append_right _ hc)
  have hrelative : ws.relative (ws.root ++ rest) = "/".intercalate rest := by
    rw [Workspace.relative, if_pos hroot, List.drop_left]
  have hcomponents := components_intercalate hrest
  rw [hrelative]
  refine ⟨?_, fun c hc => List.mem_append_right _ (hcomponents ▸ hc)⟩
  have hdots : ¬(rest.any (· = "..")) = true := fun hany => by
    obtain ⟨c, hc, hdot⟩ := List.any_eq_true.mp hany
    exact (hp.names c (List.mem_append_right _ hc)).2 (of_decide_eq_true hdot)
  have habsolute : ¬Text.startsWith "/" ("/".intercalate rest) = true := by
    intro hslash
    obtain ⟨tail, htail⟩ := List.isPrefixOf_iff_prefix.mp hslash
    cases rest with
    | nil => cases htail
    | cons c cs =>
      obtain ⟨hne, hplain⟩ := hrest c List.mem_cons_self
      have hhead : ∃ more, ("/".intercalate (c :: cs)).toList = c.toList ++ more := by
        rw [String.toList_intercalate, List.map_cons]
        cases cs with
        | nil => exact ⟨[], by simp⟩
        | cons d ds => exact ⟨_, by rw [List.map_cons, List.intercalate_cons_cons, List.append_assoc]⟩
      obtain ⟨more, hmore⟩ := hhead
      cases hc : c.toList with
      | nil => exact hne (String.toList_eq_nil_iff.mp hc)
      | cons d ds =>
        rw [hmore, hc] at htail
        have hd : '/' = d := (List.cons.inj htail).1
        exact hplain (hc ▸ hd ▸ List.mem_cons_self)
  unfold Workspace.candidate
  rw [hcomponents, if_neg hdots, if_neg habsolute]

/-! ## The run -/

section Run

variable {host : Host} {ws : Workspace}

/-- A file that is read is at a path through real directories. -/
theorem wp_readPlaced {w : World} {p : Path} {maxBytes : Nat} {ok : ByteArray × Nat → World → Prop}
    {err : AxiomError → World → Prop} (hp : w.fs.Canonical p ∨ ∃ e, w.fs.openRead p = .error e)
    (hfail : ∀ e w', w.Same w' → err e w')
    (hdone : ∀ bytes mode w', w.Same w' → w.fs.Canonical p → w.fs p = some (.file bytes mode) →
      p ≠ [] → ok (bytes, mode) w') :
    (readEditTarget host p ws.root maxBytes).Wp ok err w := by
  obtain hp | ⟨e, he⟩ := hp
  · exact wp_readEditTarget hp hfail fun bytes mode w' hsame hnode hne =>
      hdone bytes mode w' hsame hp hnode hne
  · simp only [readEditTarget, openVerified, wp_bind]
    refine wp_syscallRead hfail fun opened w' hopen _ => ?_
    rw [he] at hopen
    cases hopen

/-- A path that an edit names is one through real directories, or nothing can be opened there. -/
theorem named_path {fs : FileSystem} {patch : StructuredPatch} (hfresh : FreshNames host ws fs patch)
    {edit : EditIntent} (hedit : edit ∈ patch.edits) {p : Path}
    (h : ws.Names fs edit.path p ∨ ws.NamesPlace fs edit.path p) :
    fs.Canonical p ∨ ∃ e, fs.openRead p = .error e := by
  obtain ⟨candidate, -, hcanon, -⟩ | hplace := h
  · exact .inl (FileSystem.canonical_of_canonicalize hcanon).1
  · obtain ⟨-, -, hparent, hcanonical⟩ := hfresh.place hedit hplace
    cases hdir : fs.isDir p.dropLast with
    | true => exact .inl (hcanonical hdir)
    | false =>
      obtain ⟨candidate, parent, name, hcandidate, hname, -, -, rfl⟩ := hplace
      obtain ⟨-, hdots⟩ := hfresh.candidate hedit hcandidate
      obtain ⟨hmem, hdot⟩ := List.mem_filter.mp (List.mem_of_getLast? hname)
      have hplain : ¬(name = "." ∨ name = "..") :=
        not_or.mpr ⟨by simpa using hdot, hdots name hmem⟩
      rw [List.dropLast_concat] at hparent hdir
      refine .inr ⟨.notADirectory, ?_⟩
      rw [FileSystem.openRead, FileSystem.locate, List.getLast?_concat, List.dropLast_concat]
      simp only [if_neg hplain, hparent, hdir]
      rfl

theorem toUTF8_of_fromUTF8? {bytes : ByteArray} {text : String}
    (h : String.fromUTF8? bytes = some text) : bytes = text.toUTF8 := by
  unfold String.fromUTF8? at h
  split at h
  · rw [← Option.some.inj h]
    rfl
  · cases h

/-- A patch with one edit at a path. -/
def patchAt (path : PathBuf) : StructuredPatch := ⟨[.delete path ""]⟩

/-- Names that are new for an edit of a path are new for the edit of the file it names. -/
theorem FreshNames.update {fs : FileSystem} {input : PathBuf} {p : Path} {edit : EditIntent}
    (hfresh : FreshNames host ws fs (patchAt input)) (hnode : fs p ≠ none)
    (hedit : ∀ c ∈ Path.components edit.path, c ∈ p) : FreshNames host ws fs ⟨[edit]⟩ where
  length := hfresh.length
  distinct := hfresh.distinct
  entries := hfresh.entries
  links := hfresh.links
  root := hfresh.root
  named e he c hc := by
    rw [List.mem_singleton.mp he] at hc
    exact hfresh.entries p hnode c (hedit c hc)

/-- What a call of `apply_replacement` that succeeds has done: one occurrence of the old text in a
file of the workspace was replaced, and nothing else changed. It was the only occurrence exactly if
no two overlap. -/
def ReplacedOnce (fs fs' : FileSystem) (old new : String) : Prop :=
  ∃ p mode before behind, fs p = some (.file (before ++ old ++ behind).toUTF8 mode) ∧
    fs' = fs.put p (some (.file (before ++ new ++ behind).toUTF8 mode)) ∧
    ((∃! position, OccursAt old (before ++ old ++ behind) position) ↔
      ¬Overlaps old (before ++ old ++ behind))

/-- The edit of a file that was read. -/
theorem wp_replacementEdit {w : World} {input : PathBuf} {p : Path} {bytes : ByteArray}
    {mode : Nat} {old new oldContent newContent : String} {ok : PatchTransactionOutcome → World → Prop}
    {err : AxiomError → World → Prop} (hold : old ≠ "") (hdraws : w.draws = 0)
    (hfresh : FreshNames host ws w.fs (patchAt input)) (hnamed : w.fs.Named)
    (hsteady : ∀ n, host.fault .recovery n = none) (hroot : ws.root.isPrefixOf p = true)
    (hp : w.fs.Canonical p) (hnode : w.fs p = some (.file bytes mode))
    (hcontent : String.fromUTF8? bytes = some oldContent)
    (hnew : replacedContent oldContent old new = .ok newContent)
    (hdone : ∀ outcome w', ReplacedOnce w.fs w'.fs old new → ok outcome w')
    (hfail : ∀ e w', w'.fs = w.fs → err e w') :
    (ws.applyStructuredPatch host
      ⟨[Workspace.replacementEdit (ws.relative p) (some (host.sha256 bytes)) newContent]⟩
      (128 * 1024)).Wp ok err w := by
  have hne : w.fs p ≠ none := by
    rw [hnode]
    exact nofun
  obtain ⟨hcandidate, hcomponents⟩ := candidate_relative hnamed hroot hp hne
  have hnames : FreshNames host ws w.fs
      ⟨[.update (ws.relative p) (host.sha256 bytes) newContent false]⟩ :=
    hfresh.update hne hcomponents
  unfold Workspace.replacementEdit
  dsimp only
  refine (wp_applyStructuredPatch _ _ hdraws hnames hsteady).mono
    (fun outcome w' happlied => hdone outcome w' ?_) hfail
  obtain ⟨targets, -, hrequests, hothers, -⟩ := happlied.targets
  cases hrequests with
  | @cons _ target _ targets hrequest hrest =>
    cases hrest
    obtain ⟨⟨candidate, hcandidate', hcanonical, -⟩, oldBytes, oldText, permissions, htarget, -, -, hafter⟩ :=
      hrequest
    -- the relative path names the file that was read
    obtain rfl : p = candidate := Except.ok.inj (hcandidate.symm.trans hcandidate')
    obtain rfl : p = target := Except.ok.inj
      ((FileSystem.canonicalize_of_canonical hp (.inr ⟨bytes, mode, hnode⟩)).symm.trans hcanonical)
    obtain ⟨rfl, rfl⟩ : bytes = oldBytes ∧ mode = permissions := by
      rw [hnode] at htarget
      cases htarget
      exact ⟨rfl, rfl⟩
    obtain ⟨before, behind, rfl, rfl, honce⟩ := replaced_once hold hnew
    refine ⟨p, mode, before, behind, ?_, ?_, honce⟩
    · rw [hnode, toUTF8_of_fromUTF8? hcontent]
    · funext q
      by_cases hq : q = p
      · subst hq
        rw [hafter, FileSystem.put, Function.update_self, if_neg Bool.false_ne_true]
      · rw [hothers q (by simpa using hq), FileSystem.put, Function.update_of_ne hq]

/-- **Replacing a text.** For every content of a file, a call with a text to replace that is not
empty replaces an occurrence of it, and nothing else changes, or fails and leaves everything as it
was. The occurrence is the only one, counting those that overlap, exactly if no two overlap. -/
theorem applyReplacement_once_iff (host : Host) (ws : Workspace) (fs : FileSystem) (input : PathBuf)
    (old new : String) (expectedSha256 : Option String) (hold : old ≠ "")
    (hfresh : FreshNames host ws fs (patchAt input)) (hnamed : fs.Named)
    (hsteady : ∀ n, host.fault .recovery n = none) :
    (ws.applyReplacement host input old new expectedSha256).Wp
      (fun _ w => ReplacedOnce fs w.fs old new) (fun _ w => w.fs = fs) { fs } := by
  rw [Workspace.applyReplacement, wp_bind]
  refine wp_resolveForWrite (fun _ w' hsame => hsame.1) fun p w₁ hsame₁ hp => ?_
  have hedit : EditIntent.delete input "" ∈ (patchAt input).edits := List.mem_singleton.mpr rfl
  have hplaced := named_path hfresh hedit hp
  have hroot : ws.root.isPrefixOf p = true := by
    obtain ⟨-, -, -, hroot⟩ | ⟨-, parent, name, -, -, -, hroot, rfl⟩ := hp
    · exact hroot
    · exact List.isPrefixOf_iff_prefix.mpr
        ((List.isPrefixOf_iff_prefix.mp hroot).trans (List.prefix_append _ _))
  rw [Workspace.replacementTarget, wp_bind, wp_bind, wp_get]
  split
  · rw [wp_bind]
    refine wp_readPlaced (hsame₁.1.symm ▸ hplaced) (fun _ w' hsame => (hsame₁.trans hsame).1)
      fun bytes mode w₂ hsame₂ hcanonical hnode hne => ?_
    have hsame := hsame₁.trans hsame₂
    rw [hsame₁.1] at hcanonical hnode
    simp only [wp_bind, wp_failIf, wp_okOr, wp_ofResult, wp_pure]
    refine ⟨fun _ => hsame.1, fun _ => ⟨fun _ => hsame.1, fun oldContent hcontent =>
      ⟨fun _ _ => hsame.1, fun newContent hnew => ?_⟩⟩⟩
    have hfs : w₂.fs = fs := hsame.1
    refine wp_replacementEdit (w := w₂) hold hsame.2 (by rwa [hfs]) (by rwa [hfs]) hsteady hroot
      (by rwa [hfs]) (by rwa [hfs]) hcontent hnew (fun _ w' hreplaced => ?_)
      fun _ w' hleft => hleft.trans hfs
    rw [hfs] at hreplaced
    exact hreplaced
  · simp only [wp_bind, wp_failIf]
    exact ⟨fun _ => hsame₁.1, fun hempty => absurd hold hempty⟩

end Run

/-! ## A text that overlaps itself -/

namespace Overlapping

def host : Host where
  fault _ _ := none
  shortWrite _ _ := ⟨#[]⟩
  uuid i := s!"c0ffee00-0000-4000-8000-00000000000{i}"
  createMode := 0o644
  sha256 bytes := toString bytes.size
  unifiedDiff old new := old ++ new

def workspace : Workspace where
  root := ["w"]
  canonical := canonical_w

/-- A workspace with one file. -/
def files : FileSystem
  | ["w"] => some .dir
  | ["w", "a"] => some (.file "aaa".toUTF8 0o600)
  | _ => none

/-- A name that does not start with a dot is no artifact's. -/
theorem seen_of_head {c : String} (h : c.toList.head? ≠ some '.') (n : Nat) : host.Seen n c := by
  rintro i _ ⟨name, purpose, rfl⟩
  rw [artifactName_toList] at h
  exact h rfl

theorem files_names {p : Path} (hp : files p ≠ none) : p = ["w"] ∨ p = ["w", "a"] := by
  unfold files at hp
  split at hp
  · exact .inl rfl
  · exact .inr rfl
  · contradiction

theorem freshNames : FreshNames host workspace files (patchAt "a") where
  length i hi := by
    have : i < 2 := hi
    interval_cases i <;> decide
  distinct i hi j hj := by
    have hi : i < 2 := hi
    have hj : j < 2 := hj
    interval_cases i <;> interval_cases j <;> decide
  entries p hp c hc := by
    refine seen_of_head ?_ _
    rcases files_names hp with rfl | rfl
    · rw [List.mem_singleton.mp hc]
      decide
    · rcases List.mem_cons.mp hc with rfl | hc
      · decide
      · rw [List.mem_singleton.mp hc]
        decide
  links p target hp := by
    unfold files at hp
    split at hp <;> simp at hp
  root c hc := by
    rw [List.mem_singleton.mp hc]
    exact seen_of_head (by decide) _
  named edit hedit c hc := by
    rw [List.mem_singleton.mp hedit] at hc
    have : c ∈ ["a"] := hc
    rw [List.mem_singleton.mp this]
    exact seen_of_head (by decide) _

theorem named : files.Named := by
  intro p hp c hc
  rcases files_names hp with rfl | rfl
  · rw [List.mem_singleton.mp hc]
    decide
  · rcases List.mem_cons.mp hc with rfl | hc
    · decide
    · rw [List.mem_singleton.mp hc]
      decide

/-- `applyReplacement_once_iff` for a text of one letter. -/
theorem applyReplacement_once_iff_letter :
    (workspace.applyReplacement host "a" "a" "b" none).Wp
      (fun _ w => ReplacedOnce files w.fs "a" "b") (fun _ w => w.fs = files) { fs := files } :=
  applyReplacement_once_iff host workspace files "a" "a" "b" none (by decide) freshNames named
    fun _ => rfl

/-- A text that occurs at two places is replaced at the first. -/
theorem applyReplacement_ambiguous :
    (workspace.applyReplacement host "a" "aa" "b" none).Wp
      (fun _ w => w.fs ["w", "a"] = some (.file "ba".toUTF8 0o600)) (fun _ _ => False)
      { fs := files } ∧
    OccursAt "aa" "aaa" 0 ∧ OccursAt "aa" "aaa" 1 := by
  refine ⟨?_, ⟨"", "a", by decide, by decide⟩, ⟨"a", "", by decide, by decide⟩⟩
  have hrun : (match (workspace.applyReplacement host "a" "aa" "b" none).exec { fs := files } with
      | (.ok _, w) => decide (w.fs ["w", "a"] = some (.file "ba".toUTF8 0o600))
      | (.error _, _) => false) = true := by
    decide +kernel
  unfold Wp
  split at hrun
  · next outcome w heq =>
    rw [heq]
    exact of_decide_eq_true hrun
  · cases hrun

end Overlapping

end AxiomDesktop
