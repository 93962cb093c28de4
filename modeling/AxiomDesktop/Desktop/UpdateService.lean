import AxiomDesktop.Lib.Machine
import AxiomDesktop.Release.Publish

/-!
# The update service of the desktop

`UpdateService`, which runs the native updater to check for a release, to download it and to start
its installer, and what it publishes of that. The service runs one callback at a time; an
`UpdateInput` is one, be it a call, an event of the native updater or the end of what an operation
awaits, and a run is any order of them (`updateMachine`).
-/

namespace AxiomDesktop

/-! ## The published state -/

structure UpdateIdentity where
  currentVersion : String
  platform : Option String
  arch : Option String
  format : Option String
  packaged : Bool
  deriving DecidableEq, Repr

inductive UpdateStatus where
  | disabled
  | idle
  | checking
  | current
  | available
  | downloading
  | waiting
  | installing
  | error
  deriving DecidableEq, Repr

structure UpdateDownload where
  name : String
  received : Int
  total : Nat
  deriving DecidableEq, Repr

structure UpdateState extends UpdateIdentity where
  revision : Nat := 0
  status : UpdateStatus
  release : Option Release := none
  checkedAt : Option Nat := none
  error : Option String := none
  download : Option UpdateDownload := none
  firstLaunch : Bool := false
  deriving DecidableEq, Repr

/-- `matchesUpdateTarget`. -/
def matchesUpdateTarget (file : Artifact) (identity : UpdateIdentity) : Bool :=
  file.product = "desktop" && some file.platform = identity.platform &&
    some file.format = identity.format &&
    (identity.arch = some "x64" || identity.arch = some "arm64") &&
    (some file.arch = identity.arch ||
      file.arch = "universal" && (identity.platform = some "mac" || identity.platform = some "win"))

/-- An event of the native updater. A number is there where it is a safe integer. -/
structure NativeUpdateEvent where
  event : String
  lastError : Option String := none
  release : Json := .null
  installation : Option (String × String) := none
  name : Option String := none
  received : Option Int := none
  total : Option Int := none
  job : Option String := none
  deriving DecidableEq, Repr

/-! ## The service -/

/-- How a promise ends: with an error, it has the message where it is an `Error`. -/
inductive Ended where
  | done
  | failed (message : Option String)
  deriving DecidableEq, Repr

/-- A job, with the release that the state had when it was reported. The code keeps the
job alone. -/
structure ReportedJob where
  job : String
  release : Option Release
  deriving DecidableEq, Repr

/-- Where an operation is. -/
inductive ServiceOperation where
  | preparing (install checked : Bool) (job : Option ReportedJob)
  | waiting (job : ReportedJob)
  /-- It awaits `prepareRestart`. -/
  | flushing (job : ReportedJob)
  | starting (started : Bool)
  | restarting
  deriving DecidableEq, Repr

/-- What `ready` awaits: the end of a check, and then what the check gave. -/
inductive Readying where
  | checking
  | checked (status : UpdateStatus)
  deriving DecidableEq, Repr

structure UpdateService where
  state : UpdateState
  operation : Option ServiceOperation := none
  /-- The controller is aborted. -/
  aborted : Bool := false
  timer : Bool := false
  disposed : Bool := false
  firstLaunchStarted : Bool := false
  readying : Option Readying := none
  deriving DecidableEq, Repr

inductive UpdateInput where
  | start
  | tick
  | ready
  /-- The rest of `ready`. -/
  | readied
  | continueWithout
  | dispose
  | cancel
  | check
  | install
  | event (event : NativeUpdateEvent) (now : Nat)
  /-- A run of the native updater ends. -/
  | ran (ended : Ended)
  | poll (canRestart : Bool)
  /-- `prepareRestart` ends. -/
  | flushed (ended : Ended)
  /-- `restart` ends. -/
  | restarted (ended : Ended)
  deriving DecidableEq, Repr

/-- What a callback does. A job that is started stands with the release that the state has. -/
inductive ServiceEffect where
  | emitted (state : UpdateState)
  | prepares (install : Bool)
  | aborts
  | reported (job : ReportedJob)
  | startsJob (job : String) (release : Option Release)
  | acknowledged
  | restarts
  deriving DecidableEq, Repr

/-- What one callback leaves, with what it did. -/
abbrev ServiceStep := UpdateService × List ServiceEffect

namespace UpdateService

/-- The service of an identity. -/
def initial (identity : UpdateIdentity) (firstLaunch : Bool) : UpdateService :=
  let enabled := identity.packaged ∧ identity.platform.isSome ∧ identity.arch.isSome ∧
    identity.format.isSome ∧ (Publish.version? identity.currentVersion).isSome
  { state :=
      { identity with
        status := if enabled then .idle else .disabled
        firstLaunch := firstLaunch ∧ enabled ∧ identity.platform = some "win" ∧
          identity.format = some "exe" } }

variable (safeInteger : String → Option Int) (s : UpdateService)

/-- `set`. -/
def set (state : UpdateState) : ServiceStep :=
  let state := { state with revision := s.state.revision + 1 }
  ({ s with state }, [.emitted state])

def cancel : ServiceStep :=
  if s.state.status = .installing then (s, []) else ({ s with aborted := true }, [.aborts])

/-- `continue`. -/
def continueWithout : ServiceStep :=
  if s.state.status = .installing then (s, [])
  else
    let (next, events) := s.cancel
    let (next, more) := next.set { next.state with firstLaunch := false }
    (next, events ++ more)

/-- `perform`, until what it runs first. -/
def perform (install : Bool) : ServiceStep :=
  if s.operation.isSome ∨ s.disposed ∨ s.state.status = .disabled then (s, [])
  else
    let (next, events) :=
      { s with aborted := false, operation := some (.preparing install false none) }.set
        { s.state with status := .checking, error := none, download := none }
    (next, events ++ [.prepares install])

/-- An operation is over. -/
def settle : UpdateService :=
  { s with
    operation := none
    readying :=
      if s.readying = some .checking then some (.checked s.state.status) else s.readying }

/-- What an operation does where it fails. -/
def fail (message : Option String) : ServiceStep :=
  let (next, events) := s.set <|
    if s.aborted then
      { s.state with
        status := if s.state.release.isSome then .available else .idle
        download := none
        error := none }
    else
      { s.state with
        status := .error
        download := none
        error := some (message.getD
          "Could not update Axiom. Your installation has not been replaced.") }
  (next.settle, events)

/-- The release of a `checked` event. -/
def checkedRelease (event : NativeUpdateEvent) : Except String Release :=
  match Publish.parseRelease safeInteger event.release with
  | .error message => .error message
  | .ok release =>
    if release.signing ≠ "signed" ∨
        event.installation.all (fun (product, format) =>
          product ≠ "desktop" ∨ some format ≠ s.state.format) then
      .error "Update installation identity mismatch"
    else .ok release

/-- What a `progress` event says of the download. -/
def progress (checked : Bool) (event : NativeUpdateEvent) : Option UpdateDownload := do
  let release ← s.state.release
  let file ← release.downloads.find? fun file =>
    some file.name = event.name && matchesUpdateTarget file s.state.toUpdateIdentity
  let received ← event.received
  if checked ∧ event.total = some (file.bytes : Int) ∧ 0 ≤ received ∧ received ≤ file.bytes then
    some ⟨file.name, received, file.bytes⟩
  else none

/-- The job of a `ready` event. -/
def readyJob (checked : Bool) (event : NativeUpdateEvent) : Option String :=
  event.job.filter fun job => checked && job ≠ ""

/-- What the first run of an operation does with an event. -/
def receive (install checked : Bool) (job : Option ReportedJob) (event : NativeUpdateEvent) (now : Nat) :
    ServiceStep :=
  if event.event = "checked" then
    match s.checkedRelease safeInteger event with
    | .error message => s.fail (some message)
    | .ok release =>
      match Publish.compareVersions release.version s.state.currentVersion with
      | .error message => s.fail (some message)
      | .ok sign =>
        { s with operation := some (.preparing install true job) }.set
          { s.state with
            release := some release
            checkedAt := some now
            error := event.lastError
            status := if 0 < sign then .available else .current }
  else if event.event = "progress" then
    match s.progress checked event with
    | none => s.fail (some "Invalid update progress")
    | some download => s.set { s.state with status := .downloading, download := some download }
  else if event.event = "ready" then
    match readyJob checked event with
    | none => s.fail (some "Invalid update handoff")
    | some job =>
      let job : ReportedJob := ⟨job, s.state.release⟩
      ({ s with operation := some (.preparing install checked (some job)) }, [.reported job])
  else s.fail (some "Unexpected native update event")

/-- An operation behind its first run. -/
def prepared (install checked : Bool) (job : Option ReportedJob) : ServiceStep :=
  if checked = false then s.fail (some "Update check ended without an authenticated release")
  else if s.state.status = .current ∧ s.state.firstLaunch then
    let (next, events) := s.continueWithout
    (next.settle, events)
  else if install = false ∨ s.state.status = .current then (s.settle, [])
  else
    match job with
    | none => s.fail (some "Update download ended before verification")
    | some job =>
      { s with operation := some (.waiting job) }.set { s.state with status := .waiting }

/-- An operation goes on. -/
def goOn (operation : ServiceOperation) (input : UpdateInput) : ServiceStep :=
  match input, operation with
  | .event event now, .preparing install checked job =>
    s.receive safeInteger install checked job event now
  | .event event _, .starting _ =>
    if event.event = "installing" then
      ({ s with operation := some (.starting true) }, [.acknowledged])
    else s.fail (some "Invalid installer acknowledgement")
  | .ran (.failed message), .preparing .. | .ran (.failed message), .starting .. => s.fail message
  | .ran .done, .preparing install checked job => s.prepared install checked job
  | .ran .done, .starting started =>
    if started then
      let (next, events) :=
        { s with operation := some .restarting }.set { s.state with status := .installing }
      (next, events ++ [.restarts])
    else s.fail (some "Installer did not acknowledge the update")
  | .poll canRestart, .waiting job =>
    if s.aborted then s.fail none
    else if canRestart then
      { s with operation := some (.flushing job) }.set { s.state with status := .installing }
    else (s, [])
  | .flushed (.failed message), .flushing _ => s.fail message
  | .flushed .done, .flushing job =>
    if s.aborted then s.fail none
    else
      ({ s with operation := some (.starting false) }, [.startsJob job.job s.state.release])
  | .restarted (.failed message), .restarting => s.fail message
  | .restarted .done, .restarting => (s.settle, [])
  | _, _ => (s, [])

/-- One callback. -/
def step (input : UpdateInput) : ServiceStep :=
  match input with
  | .start =>
    if s.timer ∨ s.state.status = .disabled then (s, [])
    else
      let next := { s with timer := true }
      if s.state.firstLaunch then (next, []) else next.perform false
  | .tick =>
    if s.timer ∧ s.disposed = false ∧ s.state.firstLaunch = false then s.perform false else (s, [])
  | .ready =>
    if s.state.firstLaunch = false ∨ s.firstLaunchStarted then (s, [])
    else
      let (next, events) := { s with firstLaunchStarted := true }.perform false
      let readying :=
        if next.operation.isSome then Readying.checking else .checked next.state.status
      ({ next with readying := some readying }, events)
  | .readied =>
    match s.readying with
    | some (.checked status) =>
      let next := { s with readying := none }
      if s.state.firstLaunch = false ∨ s.aborted then (next, [])
      else if status = .current then next.continueWithout
      else if status = .available then next.perform true
      else (next, [])
    | _ => (s, [])
  | .continueWithout => s.continueWithout
  | .dispose => ({ s with disposed := true, aborted := true }, [.aborts])
  | .cancel => s.cancel
  | .check => s.perform false
  | .install => s.perform true
  | _ =>
    match s.operation with
    | none => (s, [])
    | some operation => s.goOn safeInteger operation input

end UpdateService

def updateMachine (safeInteger : String → Option Int) :
    Machine UpdateService UpdateInput ServiceEffect where
  step s input := s.step safeInteger input

end AxiomDesktop
