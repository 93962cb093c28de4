import AxiomDesktop.App.Event
import AxiomDesktop.Lib.Fallible

/-!
# Structured patches

`Workspace::apply_structured_patch` with everything it calls: the resolution of the paths a patch
names, the preparation of each edit behind a staged file, the commit by renames, and the rollback.

The host gives what the program takes from outside: random names, the digest, the line diff, and
which system calls fail. A system call of the transaction proper is one of `Phase.main`; the
removals and renames that undo one, and the removal of the backups of one that succeeded, are of
`Phase.recovery`. `Path::exists` and `symlink_metadata(..).is_ok()`, which report no error, answer
what the file system holds.
-/

namespace AxiomDesktop

open Fallible

/-- The part of a transaction a system call belongs to. -/
inductive Phase where
  | main
  | recovery

/-- What the program takes from outside. -/
structure Host where
  /-- The error with which a system call fails, by its number, if it does. -/
  fault : Phase → Nat → Option IoError
  /-- What a failing write has written, by its number. -/
  shortWrite : Nat → ByteArray → ByteArray
  /-- The texts of the random UUIDs, in the order they are drawn. -/
  uuid : Nat → String
  /-- The permissions of a file created without a mode. -/
  createMode : Nat
  /-- SHA-256, in lower-case hexadecimal digits. -/
  sha256 : ByteArray → String
  /-- The line diff of `unified_diff`. -/
  unifiedDiff : String → String → String

/-- The file system, with how many system calls were made and UUIDs drawn. -/
structure World where
  fs : FileSystem
  calls : Nat := 0
  draws : Nat := 0

abbrev PatchM := Fallible AxiomError World

/-- A workspace: its root is a path that `canonicalize` returned. -/
structure Workspace where
  root : Path
  canonical : ∀ c ∈ root, c ≠ "." ∧ c ≠ ".."

/-- A path of one name is canonical. -/
theorem canonical_w : ∀ c ∈ ["w"], c ≠ "." ∧ c ≠ ".." := by decide

inductive EditIntent where
  | create (path : PathBuf) (content : String) (mode : Option Nat)
  | update (path : PathBuf) (expectedSha256 content : String) (preserveLineEndings : Bool)
  | delete (path : PathBuf) (expectedSha256 : String)

/-- The path an edit names. -/
def EditIntent.path : EditIntent → PathBuf
  | create path _ _ | update path _ _ _ | delete path _ => path

structure StructuredPatch where
  edits : List EditIntent

inductive PreparedOperation where
  | create
  | update
  | delete
  deriving DecidableEq

structure PreparedEdit where
  operation : PreparedOperation
  path : Path
  relative : PathBuf
  expectedSha256 : Option String
  oldSha256 : Option String
  newSha256 : Option String
  staged : Option Path
  backup : Option Path
  installed : Bool
  diff : String

structure StructuredEditOutcome where
  operation : String
  path : PathBuf
  oldSha256 : Option String
  newSha256 : Option String

structure PatchTransactionOutcome where
  edits : List StructuredEditOutcome
  changedPaths : List PathBuf
  diff : String
  diffTruncated : Bool
  warnings : List String

def MAX_EDITS : Nat := 100
def MAX_CONTENT_BYTES : Nat := 8 * 1024 * 1024

/-! ## Paths -/

namespace Workspace

/-- `Workspace::relative`, as a text. -/
def relative (ws : Workspace) (p : Path) : PathBuf :=
  if ws.root.isPrefixOf p then "/".intercalate (p.drop ws.root.length) else p.display

/-- `Workspace::candidate`. -/
def candidate (ws : Workspace) (input : PathBuf) : Except AxiomError (List String) :=
  let parts := Path.components input
  if parts.any (· = "..") then .error (.outsideWorkspace input)
  else .ok (if Text.startsWith "/" input then parts else ws.root ++ parts)

/-- `Workspace::ensure_inside`. -/
def ensureInside (ws : Workspace) (p : Path) : Except AxiomError Path :=
  if ws.root.isPrefixOf p then .ok p else .error (.outsideWorkspace p.display)

end Workspace

/-! ## System calls -/

section Calls

variable (host : Host)

/-- A system call: it fails where the host says so, and otherwise does what the file system
does. -/
def syscall {α : Type} (phase : Phase) (call : FileSystem → Except IoError (α × FileSystem)) :
    PatchM α := do
  let w ← get
  set { w with calls := w.calls + 1 }
  match host.fault phase w.calls with
  | some e => throw (.io e)
  | none =>
    match call w.fs with
    | .error e => throw (.io e)
    | .ok (a, fs) =>
      modify fun w => { w with fs }
      pure a

/-- A system call that reads. -/
def syscallRead {α : Type} (phase : Phase) (call : FileSystem → Except IoError α) : PatchM α :=
  syscall host phase fun fs => (call fs).map fun a => (a, fs)

/-- A system call that writes. -/
def syscallWrite (phase : Phase) (call : FileSystem → Except IoError FileSystem) : PatchM PUnit :=
  syscall host phase fun fs => (call fs).map fun fs => (⟨⟩, fs)

/-- `File::write_all` to a file just created: where it fails, part of the content is written. -/
def writeAll (p : Path) (content : ByteArray) : PatchM PUnit := do
  let w ← get
  match host.fault .main w.calls with
  | none => syscallWrite host .main fun fs => fs.write p content
  | some e =>
    match w.fs.write p (host.shortWrite w.calls content) with
    | .ok fs => set { w with fs, calls := w.calls + 1 }
    | .error _ => set { w with calls := w.calls + 1 }
    throw (.io e)

/-- A call of `std::fs` whose error is dropped with `let _`. -/
def ignore (x : PatchM PUnit) : PatchM PUnit := do
  let _ ← attempt x
  pure ⟨⟩

/-- `std::fs::remove_file`. -/
def removeFile (phase : Phase) (p : Path) : PatchM PUnit :=
  syscallWrite host phase fun fs => fs.unlink p

/-- `std::fs::rename`. -/
def renameFile (phase : Phase) (a b : Path) : PatchM PUnit :=
  syscallWrite host phase fun fs => fs.rename a b

/-- The name `sibling_artifact` gives: hidden, and random by its UUID. -/
def artifactName (name purpose uuid : String) : String :=
  s!".{name}.axiomcli-{purpose}-{uuid}"

/-- `sibling_artifact`. -/
def siblingArtifact (p : Path) (purpose : String) : PatchM Path := do
  let w ← get
  set { w with draws := w.draws + 1 }
  pure (p.dropLast ++ [artifactName (p.getLastD "edit") purpose (host.uuid w.draws)])

/-- `open_verified` on Linux: the path of the opened file has to lie below the root. -/
def openVerified (p root : Path) : PatchM Node := do
  let (_, node) ← syscallRead host .main fun fs => fs.openRead p
  let actual ← syscallRead host .main fun fs => (fs.openRead p).map Prod.fst
  failIf (¬root.isPrefixOf actual) (.outsideWorkspace actual.display)
  pure node

/-- `read_edit_target`. -/
def readEditTarget (p root : Path) (maxBytes : Nat) : PatchM (ByteArray × Nat) := do
  let node ← openVerified host p root
  syscallRead host .main fun _ => .ok PUnit.unit
  match node with
  | .file bytes mode => do
    failIf (bytes.size > maxBytes)
      (.tool s!"edit target exceeds the {maxBytes}-byte transaction budget: {p.display}")
    syscallRead host .main fun _ => .ok PUnit.unit
    pure (bytes, mode)
  | _ => throw (.tool s!"edit target is not a regular file: {p.display}")

/-- `std::fs::set_permissions`, where there are permissions to set. -/
def setPermissions (p : Path) : Option Nat → PatchM PUnit
  | some mode => syscallWrite host .main fun fs => fs.chmod p mode
  | none => pure ⟨⟩

/-- The closure of `stage_content`. -/
def writeStaged (staged : Path) (content : ByteArray) (permissions mode : Option Nat) :
    PatchM PUnit := do
  syscallWrite host .main fun fs => fs.createNew staged host.createMode
  writeAll host staged content
  syscallRead host .main fun _ => .ok PUnit.unit
  setPermissions host staged permissions
  setPermissions host staged mode

/-- `stage_content`. -/
def stageContent (p : Path) (content : ByteArray) (permissions mode : Option Nat) :
    PatchM Path := do
  let staged ← siblingArtifact host p "stage"
  match ← attempt (writeStaged host staged content permissions mode) with
  | .error e =>
    ignore (removeFile host .recovery staged)
    throw e
  | .ok _ => pure staged

end Calls

/-! ## Texts -/

/-- The number of line feeds of a text, and of those after a carriage return. -/
def countNewlines : List Char → Nat × Nat
  | '\r' :: '\n' :: rest => ((countNewlines rest).1 + 1, (countNewlines rest).2 + 1)
  | c :: rest => ((countNewlines rest).1 + if c = '\n' then 1 else 0, (countNewlines rest).2)
  | [] => (0, 0)

/-- `replace("\r\n", "\n")`. -/
def dropReturns : List Char → List Char
  | '\r' :: '\n' :: rest => '\n' :: dropReturns rest
  | c :: rest => c :: dropReturns rest
  | [] => []

/-- `preserve_newlines`: a text whose line ends are all `\r\n` keeps them. -/
def preserveNewlines (old new : String) : String :=
  let (lf, crlf) := countNewlines old.toList
  if crlf > 0 ∧ crlf = lf then
    String.ofList ((dropReturns new.toList).flatMap fun c => if c = '\n' then ['\r', '\n'] else [c])
  else new

/-- `truncate_utf8`: the longest prefix of whole characters within a number of bytes. -/
def truncateUtf8 (input : String) (maxBytes : Nat) : String × Bool :=
  if input.utf8ByteSize ≤ maxBytes then (input, false)
  else
    let rec keep (budget : Nat) : List Char → List Char
      | [] => []
      | c :: cs => if c.utf8Size ≤ budget then c :: keep (budget - c.utf8Size) cs else []
    (String.ofList (keep maxBytes input.toList), true)

/-- `file_diff`. -/
def fileDiff (host : Host) (path : PathBuf) (old new : Option String) : String :=
  let oldLabel := if old.isSome then "a/" ++ path else "/dev/null"
  let newLabel := if new.isSome then "b/" ++ path else "/dev/null"
  "--- " ++ oldLabel ++ "\n+++ " ++ newLabel ++ "\n" ++
    host.unifiedDiff (old.getD "") (new.getD "")

/-! ## The transaction -/

namespace Workspace

variable (host : Host) (ws : Workspace)

/-- `Workspace::resolve_existing`, from the candidate on. -/
def resolveExistingFrom (candidate : List String) : PatchM Path := do
  let canonical ← syscallRead host .main fun fs => fs.canonicalize candidate
  ofResult (ws.ensureInside canonical)

/-- `Workspace::resolve_existing`. -/
def resolveExisting (input : PathBuf) : PatchM Path := do
  let candidate ← ofResult (ws.candidate input)
  ws.resolveExistingFrom host candidate

/-- `Workspace::resolve_for_write`. -/
def resolveForWrite (input : PathBuf) : PatchM Path := do
  let candidate ← ofResult (ws.candidate input)
  let w ← get
  if w.fs.exists? candidate then ws.resolveExistingFrom host candidate
  else
    let named := candidate.filter (· ≠ ".")
    let name ← okOr named.getLast? (.outsideWorkspace (Path.display candidate))
    let parent ← syscallRead host .main fun fs => fs.canonicalize named.dropLast
    let parent ← ofResult (ws.ensureInside parent)
    pure (parent ++ [name])

/-- `ensure_patch_content_budget`. -/
def ensurePatchContentBudget (bytes maxBytes : Nat) : Except AxiomError PUnit :=
  if bytes > maxBytes then
    .error (.tool s!"patch content exceeds the {maxBytes}-byte transaction budget")
  else .ok ⟨⟩

/-- The total of the content sizes so far: `usize::saturating_add`. -/
def addBytes (total : Nat) (content : String) : Nat := min (total + content.utf8ByteSize) (2 ^ 64 - 1)

/-- `Workspace::prepare_edit`, with the new total of the content sizes. -/
def prepareEdit (total : Nat) (maxBytes : Nat) : EditIntent → PatchM (PreparedEdit × Nat)
  | .create input content mode => do
    failIf (mode.any (· > 0o777)) (.tool "create mode must be between 0000 and 0777")
    let total := addBytes total content
    ofResult (ensurePatchContentBudget total maxBytes)
    let path ← ws.resolveForWrite host input
    let w ← get
    failIf ((w.fs.lstat path).isSome) (.tool s!"create target already exists: {ws.relative path}")
    let staged ← stageContent host path content.toUTF8 none mode
    pure
      ({ operation := .create
         path
         relative := ws.relative path
         expectedSha256 := none
         oldSha256 := none
         newSha256 := some (host.sha256 content.toUTF8)
         staged := some staged
         backup := none
         installed := false
         diff := fileDiff host (ws.relative path) none (some content) },
       total)
  | .update input expectedSha256 content preserveLineEndings => do
    let path ← ws.resolveExisting host input
    let (old, permissions) ← readEditTarget host path ws.root maxBytes
    let oldSha256 := host.sha256 old
    failIf (expectedSha256 ≠ oldSha256)
      (.tool s!"stale edit: expected {expectedSha256}, found {oldSha256}")
    let oldText ← okOr (String.fromUTF8? old) (.tool "structured updates require a UTF-8 target")
    let content := if preserveLineEndings then preserveNewlines oldText content else content
    let total := addBytes total content
    ofResult (ensurePatchContentBudget total maxBytes)
    let staged ← stageContent host path content.toUTF8 (some permissions) none
    pure
      ({ operation := .update
         path
         relative := ws.relative path
         expectedSha256 := some expectedSha256
         oldSha256 := some oldSha256
         newSha256 := some (host.sha256 content.toUTF8)
         staged := some staged
         backup := none
         installed := false
         diff := fileDiff host (ws.relative path) (some oldText) (some content) },
       total)
  | .delete input expectedSha256 => do
    let path ← ws.resolveExisting host input
    let (old, _) ← readEditTarget host path ws.root maxBytes
    let oldSha256 := host.sha256 old
    failIf (expectedSha256 ≠ oldSha256)
      (.tool s!"stale delete: expected {expectedSha256}, found {oldSha256}")
    let oldText ← okOr (String.fromUTF8? old) (.tool "structured deletes require a UTF-8 target")
    pure
      ({ operation := .delete
         path
         relative := ws.relative path
         expectedSha256 := some expectedSha256
         oldSha256 := some oldSha256
         newSha256 := none
         staged := none
         backup := none
         installed := false
         diff := fileDiff host (ws.relative path) (some oldText) none },
       total)

/-- The removal of an edit's staged file, its error dropped. -/
def removeStaged (edit : PreparedEdit) : PatchM PUnit :=
  match edit.staged with
  | some staged => ignore (removeFile host .recovery staged)
  | none => pure ⟨⟩

/-- `cleanup_staged`. -/
def cleanupStaged : List PreparedEdit → PatchM PUnit
  | [] => pure ⟨⟩
  | edit :: rest => do
    removeStaged host edit
    cleanupStaged rest

/-- The first loop of `apply_structured_patch_inner`. The targets it collects are those of the
edits prepared so far. -/
def prepareEdits (prepared : List PreparedEdit) (total : Nat) :
    List EditIntent → PatchM (List PreparedEdit)
  | [] => pure prepared
  | edit :: rest => do
    match ← attempt (ws.prepareEdit host total MAX_CONTENT_BYTES edit) with
    | .error e =>
      cleanupStaged host prepared
      throw e
    | .ok (item, total) =>
      if prepared.any (·.path = item.path) then
        cleanupStaged host prepared
        removeStaged host item
        throw (.tool s!"patch contains duplicate target {item.relative}")
      else prepareEdits (prepared ++ [item]) total rest

/-- The re-check of an update or a deletion before its backup. -/
def recheck (edit : PreparedEdit) : PatchM PUnit := do
  let (current, _) ← readEditTarget host edit.path ws.root MAX_CONTENT_BYTES
  let currentSha := host.sha256 current
  let expected := edit.expectedSha256.getD "(missing)"
  failIf (edit.expectedSha256 ≠ some currentSha)
    (.tool
      s!"stale edit during commit for {edit.relative}: expected {expected}, found {currentSha}")

/-- Installs the staged file of an edit: the edit as the loop leaves it, and the error. -/
def install (edit : PreparedEdit) : PatchM (PreparedEdit × Option AxiomError) := do
  match ← attempt (renameFile host .main (edit.staged.getD []) edit.path) with
  | .error e => pure (edit, some e)
  | .ok _ => pure ({ edit with staged := none, installed := true }, none)

/-- The arm of the commit loop for an update or a deletion: the target is checked again and moved
to a backup before anything is installed. -/
def replaceTarget (edit : PreparedEdit) : PatchM (PreparedEdit × Option AxiomError) := do
  match ← attempt (ws.recheck host edit) with
  | .error e => pure (edit, some e)
  | .ok _ =>
    let backup ← siblingArtifact host edit.path "backup"
    match ← attempt (renameFile host .main edit.path backup) with
    | .error e => pure (edit, some e)
    | .ok _ =>
      let edit := { edit with backup := some backup }
      if edit.operation = .update then install host edit else pure (edit, none)

/-- The body of the commit loop: the edit as the loop leaves it, and the error that ends the
loop. -/
def commitEdit (edit : PreparedEdit) : PatchM (PreparedEdit × Option AxiomError) := do
  match edit.operation with
  | .create =>
    let w ← get
    if (w.fs.lstat edit.path).isSome then
      pure (edit, some (.tool s!"create conflict: {edit.relative} now exists"))
    else install host edit
  | .update | .delete => ws.replaceTarget host edit

/-- The commit loop. -/
def commitEdits : List PreparedEdit → PatchM (List PreparedEdit × Option AxiomError)
  | [] => pure ([], none)
  | edit :: rest => do
    match ← ws.commitEdit host edit with
    | (edit, some e) => pure (edit :: rest, some e)
    | (edit, none) =>
      let (rest, e) ← commitEdits rest
      pure (edit :: rest, e)

/-- The backup goes back to its place, if there is one. -/
def restoreBackup (edit : PreparedEdit) : PatchM (List String) := do
  let w ← get
  match edit.backup with
  | some backup =>
    if w.fs.exists? backup then
      match ← attempt (renameFile host .recovery backup edit.path) with
      | .error e => pure [s!"restore {edit.path.display} from {Path.display backup}: {e.message}"]
      | .ok _ => pure []
    else pure []
  | none => pure []

/-- The end of the body of `rollback_prepared`: the backup goes back and the staged file goes. -/
def restoreEdit (edit : PreparedEdit) : PatchM (List String) := do
  let errors ← restoreBackup host edit
  removeStaged host edit
  pure errors

/-- The body of `rollback_prepared`. -/
def rollbackEdit (edit : PreparedEdit) : PatchM (List String) := do
  let w ← get
  if edit.installed ∧ w.fs.exists? edit.path then
    match ← attempt (removeFile host .recovery edit.path) with
    | .error e => pure [s!"remove {edit.path.display}: {e.message}"]
    | .ok _ => restoreEdit host edit
  else restoreEdit host edit

/-- The loop of `rollback_prepared` over the edits in reverse order. -/
def rollbackEdits : List PreparedEdit → PatchM (List String)
  | [] => pure []
  | edit :: rest => do
    let errors ← rollbackEdit host edit
    let more ← rollbackEdits rest
    pure (errors ++ more)

/-- `rollback_prepared`. -/
def rollbackPrepared (prepared : List PreparedEdit) : PatchM (List String) :=
  rollbackEdits host prepared.reverse

/-- The removal of an edit's backup, with a warning where it stays. -/
def removeBackup (edit : PreparedEdit) : PatchM (List String) := do
  match edit.backup with
  | none => pure []
  | some backup =>
    match ← attempt (removeFile host .recovery backup) with
    | .error e =>
      pure [s!"committed edit but could not remove backup {Path.display backup}: {e.message}"]
    | .ok _ => pure []

/-- The loop that removes the backups. -/
def removeBackups : List PreparedEdit → PatchM (List String)
  | [] => pure []
  | edit :: rest => do
    let warnings ← removeBackup host edit
    let more ← removeBackups rest
    pure (warnings ++ more)

def PreparedOperation.name : PreparedOperation → String
  | .create => "create"
  | .update => "update"
  | .delete => "delete"

/-- The outcome `apply_structured_patch_inner` returns for the edits it committed. -/
def outcome (prepared : List PreparedEdit) (maxDiffBytes : Nat) (warnings : List String) :
    PatchTransactionOutcome :=
  let (diff, diffTruncated) :=
    truncateUtf8 ("\n".intercalate (prepared.map (·.diff))) maxDiffBytes
  { edits := prepared.map fun edit =>
      { operation := PreparedOperation.name edit.operation
        path := edit.relative
        oldSha256 := edit.oldSha256
        newSha256 := edit.newSha256 }
    changedPaths := prepared.map (·.relative)
    diff
    diffTruncated
    warnings }

/-- `Workspace::apply_structured_patch`. -/
def applyStructuredPatch (patch : StructuredPatch) (maxDiffBytes : Nat) :
    PatchM PatchTransactionOutcome := do
  failIf (patch.edits = [] ∨ patch.edits.length > MAX_EDITS)
    (.tool s!"a patch must contain between 1 and {MAX_EDITS} edits")
  let prepared ← ws.prepareEdits host [] 0 patch.edits
  let (prepared, failure) ← ws.commitEdits host prepared
  match failure with
  | some e => do
    let errors ← rollbackPrepared host prepared
    let details := "; ".intercalate errors
    if errors = [] then throw e
    else throw (.tool s!"{e.message}; rollback needs manual recovery: {details}")
  | none => do
    let warnings ← removeBackups host prepared
    pure (outcome prepared maxDiffBytes warnings)

end Workspace

end AxiomDesktop
