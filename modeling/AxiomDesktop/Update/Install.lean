import AxiomDesktop.Lib.Tasks
import AxiomDesktop.Update.Accept

/-!
# Installing an update

The processes of an update: a check of the feed (`checkUpdates`), one that is handed a job
(`readJob`), and the helper that applies it (`applyRun`, with `installStaged`). They share the cache
directories of installations, where the accepted release is, and the staging directories of jobs.

Each process does its effects in any order among those of the others, and may be killed at any of
them. The files of a staging directory are changed by others only while nobody has its lease; what
the installed command line prints, and what the file system says of paths, is taken from the
environment.
-/

namespace AxiomDesktop

open Manifest

/-- What a program was built for, and as. -/
structure UpdateBuild where
  /-- `host_platform`. -/
  platform : String
  /-- `host_arch`. -/
  arch : String
  /-- `CARGO_PKG_VERSION`. -/
  version : String
  deriving DecidableEq, Repr

structure Installation where
  product : String
  format : String
  root : String
  cli : String
  desktop : Option String
  appImage : Option String
  deriving DecidableEq, Repr

inductive Restart where
  | desktop
  | tui (cwd : String) (resume : Option String)
  deriving DecidableEq, Repr

/-- `Job`. -/
structure UpdateJob where
  installation : Installation
  release : Release
  artifact : String
  restart : Restart
  deriving DecidableEq, Repr

/-- `cache`: the name of the directory of an installation. -/
def cacheOf (config : UpdateConfig) (installation : Installation) : String :=
  String.ofList ((Text.hexEncode (config.crypto.sha256 (Text.bytes installation.root))).toList.take 24)

/-- `matches_target`. -/
def matchesTarget (file : Artifact) (platform arch : String) : Bool :=
  file.platform = platform && (arch = "x64" || arch = "arm64") &&
    (file.arch = arch || ((platform = "mac" || platform = "win") && file.arch = "universal"))

/-- `select`. -/
def select (build : UpdateBuild) (release : Release) (installation : Installation) :
    Option Artifact :=
  let files := if installation.product = "desktop" then release.downloads else release.cliDownloads
  files.find? fun file =>
    matchesTarget file build.platform build.arch && file.format = installation.format

/-- `verify_file`, on what the file has. -/
def verifyFile (config : UpdateConfig) (bytes : List UInt8) (file : Artifact) :
    Except UpdateError Unit := do
  ensure (bytes.length = file.bytes) "Update size mismatch"
  ensure (Text.hexEncode (config.crypto.sha256 bytes) = file.sha256) "Update checksum mismatch"

/-! ## Effects -/

inductive UpdateEffect where
  /-- A file of a staging directory is read. -/
  | readFile (directory file : String)
  /-- `path.canonicalize()?.starts_with(cache(&job.installation)?.canonicalize()?)`. -/
  | insideCache (directory file : String) (installation : Installation)
  /-- `image.is_absolute() && image.canonicalize()? == *image`. -/
  | canonical (image : String)
  | discoverAt (cli : String)
  /-- A call of `accept_sequence`, atomic under its lock. -/
  | accept (cache : String) (release : Release)
  /-- `staging::lock`. -/
  | lease (directory : String)
  /-- The lease is dropped. -/
  | release (directory : String)
  /-- The file `ready`. -/
  | acknowledge
  | waitParent
  /-- `exclusive`. -/
  | exclusive (cache : String)
  /-- The guard of `exclusive` is dropped. -/
  | unlock (cache : String)
  /-- The installed command line is run with `--version`. -/
  | version (installation : Installation)
  /-- The installer of an installation is run. -/
  | install (build : UpdateBuild) (job : UpdateJob) (directory : String)
  /-- `staging::finish`. -/
  | finish (directory : String)

@[reducible] def UpdateEffect.Answer : UpdateEffect → Type
  | readFile _ _ => Except UpdateError (List UInt8)
  | insideCache _ _ _ | canonical _ => Bool
  | discoverAt _ => Except UpdateError Installation
  | version _ => Except UpdateError (Bool × String)
  | accept _ _ | lease _ | acknowledge | waitParent | exclusive _ | install _ _ _ =>
    Except UpdateError Unit
  | release _ | unlock _ | finish _ => Unit

/-- A program of an update. -/
abbrev UpdateProg (α : Type) : Type := Prog UpdateEffect UpdateEffect.Answer α

namespace Update

def ask (e : UpdateEffect) : UpdateProg e.Answer := Prog.effect e

variable (config : UpdateConfig) (decodeJob : List UInt8 → Option UpdateJob) (build : UpdateBuild)
  (directory file : String)

/-! ## Jobs -/

/-- A job file is read and decoded. -/
def readJobFile : UpdateProg (Except UpdateError UpdateJob) := do
  match ← ask (.readFile directory file) with
  | .error error => return .error error
  | .ok bytes =>
    return do
      ensure (bytes.length ≤ 256 * 1024) "Invalid update job"
      orError (decodeJob bytes) .json

/-- The installation of a job is there as the job has it. -/
def sameInstallation (installation : Installation) : UpdateProg (Except UpdateError Unit) := do
  match installation.appImage with
  | some image =>
    let canonical ← ask (.canonical image)
    return ensure (canonical ∧ image = installation.root ∧ installation.product = "desktop" ∧
      installation.format = "AppImage") "Installation changed"
  | none =>
    match ← ask (.discoverAt installation.cli) with
    | .error error => return .error error
    | .ok found => return ensure (found = installation) "Installation changed"

/-- The artifact that a job installs, where it is newer than the build. -/
def jobArtifact (job : UpdateJob) : Except UpdateError Artifact := do
  let version ← versionParts job.release.version
  let current ← versionParts build.version
  ensure (current < version) "Refusing update downgrade"
  let artifact ← context (select build job.release job.installation)
    "No update has been published for this installation"
  ensure (artifact.name = job.artifact) "Update target changed"
  return artifact

/-- `read_job_with_keys`, from the acceptance of its release on. -/
def acceptJob (job : UpdateJob) : UpdateProg (Except UpdateError UpdateJob) := do
  match ← ask (.accept (cacheOf config job.installation) job.release) with
  | .error error => return .error error
  | .ok () =>
    match jobArtifact build job with
    | .error error => return .error error
    | .ok artifact =>
      match ← ask (.readFile directory job.artifact) with
      | .error error => return .error error
      | .ok bytes =>
        match verifyFile config bytes artifact with
        | .error error => return .error error
        | .ok () => return .ok job

/-- `read_job_with_keys`. -/
def readJob : UpdateProg (Except UpdateError UpdateJob) := do
  match ← readJobFile decodeJob directory file with
  | .error error => return .error error
  | .ok job =>
    match parseRelease (toVec job.release) with
    | .error error => return .error error
    | .ok _ =>
      if !(← ask (.insideCache directory file job.installation)) then
        return .error (.text "Update job is outside its private cache")
      else
        match ← sameInstallation job.installation with
        | .error error => return .error error
        | .ok () =>
          if job.restart = .desktop ∧ job.installation.product ≠ "desktop" then
            return .error (.text "Wrong restart frontend")
          else
            match verifyRelease config.crypto job.release config.trustedKeys with
            | .error error => return .error error
            | .ok () => acceptJob config build directory job

/-! ## The installer -/

/-- What `install` asks of an installation before it runs anything. -/
def installable (owner : Installation) : Except UpdateError Unit :=
  if owner.format = "AppImage" then ensure owner.appImage.isSome "Missing AppImage path"
  else if owner.format = "sh" then
    ensure (owner.product = "cli" ∧ build.platform = "linux") "Wrong installer kind"
  else if owner.format = "deb" ∨ owner.format = "pacman" then
    ensure (build.platform = "linux") "Wrong installer platform"
  else if owner.format = "exe" ∧ build.platform = "win" then .ok ()
  else if owner.format = "pkg" ∧ build.platform = "mac" then .ok ()
  else .error (.text "This package cannot be installed automatically")

/-- `install`. -/
def install (job : UpdateJob) : UpdateProg (Except UpdateError Unit) := do
  match installable build job.installation with
  | .error error => return .error error
  | .ok () => ask (.install build job directory)

/-- The installed command line is the one of the release. -/
def startupCheck (job : UpdateJob) : UpdateProg (Except UpdateError Unit) := do
  match ← ask (.version job.installation) with
  | .error error => return .error error
  | .ok (success, stdout) =>
    return ensure (success ∧ Text.trim stdout = "axiomcli " ++ job.release.version)
      "Installed version did not pass its startup check"

/-- `install_staged`, under its guard. -/
def installExclusive : UpdateProg (Except UpdateError Unit) := do
  match ← readJob config decodeJob build directory file with
  | .error error => return .error error
  | .ok checked =>
    match ← ask (.version checked.installation) with
    | .error error => return .error error
    | .ok (success, stdout) =>
      if !success then return .error (.text "The installed CLI could not start")
      else if Text.trim stdout = "axiomcli " ++ checked.release.version then startupCheck checked
      else if Text.trim stdout ≠ "axiomcli " ++ build.version then
        return .error (.text "The installation changed while waiting; check for updates again")
      else
        match ← install build directory checked with
        | .error error => return .error error
        | .ok () => startupCheck checked

/-- `install_staged`. -/
def installStaged : UpdateProg (Except UpdateError Unit) := do
  match ← readJob config decodeJob build directory file with
  | .error error => return .error error
  | .ok job =>
    match ← ask (.exclusive (cacheOf config job.installation)) with
    | .error error => return .error error
    | .ok () =>
      let result ← installExclusive config decodeJob build directory file
      ask (.unlock (cacheOf config job.installation))
      return result

/-- `wait_parent` and `install_staged`, under the lease. -/
def applyLeased : UpdateProg Unit := do
  match ← ask .waitParent with
  | .error _ => ask (.finish directory)
  | .ok () =>
    let _ ← installStaged config decodeJob build directory file
    ask (.finish directory)

/-- `apply::run`, up to the outcome that it records. -/
def applyRun (readyFile : Bool) : UpdateProg Unit := do
  match ← readJob config decodeJob build directory file with
  | .error _ => return ()
  | .ok _ =>
    match ← ask (.lease directory) with
    | .error _ => return ()
    | .ok () =>
      if readyFile then
        match ← ask .acknowledge with
        | .error _ => ask (.release directory)
        | .ok () => applyLeased config decodeJob build directory file
      else applyLeased config decodeJob build directory file

/-- What every check of the feed does: `latest_release` and `accept_sequence`. -/
def checkUpdates (installation : Installation) (feed : List UInt8) : UpdateProg Unit :=
  match parseRelease feed with
  | .error _ => return ()
  | .ok release =>
    match verifyRelease config.crypto release config.trustedKeys with
    | .error _ => return ()
    | .ok () => do
      let _ ← ask (.accept (cacheOf config installation) release)
      return ()

end Update

inductive UpdateOperation where
  /-- A command, a notice at startup or a setup. -/
  | check (installation : Installation) (feed : List UInt8)
  /-- What `spawn` and `handoff` do before they start a helper. -/
  | start (build : UpdateBuild) (directory file : String)
  | apply (build : UpdateBuild) (directory file : String) (readyFile : Bool)

/-- The program of a process. -/
def UpdateOperation.call (config : UpdateConfig) (decodeJob : List UInt8 → Option UpdateJob) :
    UpdateOperation → UpdateProg Unit
  | check installation feed => Update.checkUpdates config installation feed
  | start build directory file => do
    let _ ← Update.readJob config decodeJob build directory file
    return ()
  | apply build directory file readyFile =>
    Update.applyRun config decodeJob build directory file readyFile

/-! ## The processes -/

/-- A call of `accept_sequence`, with what it found and left. -/
structure AcceptCall where
  cache : String
  release : Release
  fault : Option AcceptFault
  before : Option (List UInt8)
  after : Option (List UInt8)
  answer : Except UpdateError Unit

/-- A run of an installer, on bytes, where the installed command line has reported itself. -/
structure InstallRun where
  build : UpdateBuild
  job : UpdateJob
  bytes : List UInt8
  reported : String

structure UpdateWorld where
  /-- The files of the staging directories. -/
  files : String → String → Option (List UInt8) := fun _ _ => none
  /-- `accepted.json` of the caches, and the releases that it has had, the last one first. -/
  accepted : String → Option (List UInt8) := fun _ => none
  history : String → List Release := fun _ => []
  leases : String → Option Nat := fun _ => none
  exclusive : String → Option Nat := fun _ => none
  /-- What a process has read of the installed command line. -/
  reported : Nat → String := fun _ => ""
  calls : List AcceptCall := []
  installs : List InstallRun := []
  dropped : List Nat := []

/-- What the environment chooses in an effect. -/
inductive UpdateChoice where
  | go
  /-- An I/O error, a deadline, or an installer that fails. -/
  | failed
  | accept (fault : Option AcceptFault)
  | holds (answer : Bool)
  | discovered (installation : Except UpdateError Installation)
  | version (output : Except UpdateError (Bool × String))

/-- A call of `accept_sequence`. -/
def UpdateWorld.accept (config : UpdateConfig) (w : UpdateWorld) (cache : String)
    (release : Release) (fault : Option AcceptFault) : UpdateWorld × Except UpdateError Unit :=
  match acceptSequence config fault release (w.accepted cache) with
  | .error error =>
    ({ w with
      calls := ⟨cache, release, fault, w.accepted cache, w.accepted cache, .error error⟩ ::
        w.calls }, .error error)
  | .ok bytes =>
    ({ w with
      accepted := Function.update w.accepted cache (some bytes)
      history := Function.update w.history cache (release :: w.history cache)
      calls := ⟨cache, release, fault, w.accepted cache, some bytes, .ok ()⟩ :: w.calls }, .ok ())

def updateExec (config : UpdateConfig) (w : UpdateWorld) (i : Nat) :
    (e : UpdateEffect) → UpdateChoice → Option (UpdateWorld × e.Answer)
  | .readFile directory file, .go =>
    some (w, match w.files directory file with
      | some bytes => .ok bytes
      | none => .error .io)
  | .readFile _ _, .failed => some (w, .error .io)
  | .insideCache _ _ _, .holds answer => some (w, answer)
  | .canonical _, .holds answer => some (w, answer)
  | .discoverAt _, .discovered installation => some (w, installation)
  | .accept cache release, .accept fault => some (w.accept config cache release fault)
  | .lease directory, .go =>
    if (w.leases directory).isSome then
      some (w, .error (.text "Update staging is still in use"))
    else some ({ w with leases := Function.update w.leases directory (some i) }, .ok ())
  | .lease _, .failed => some (w, .error .io)
  | .release directory, .go =>
    some ({ w with leases := Function.update w.leases directory none }, ())
  | .acknowledge, .go => some (w, .ok ())
  | .acknowledge, .failed => some (w, .error .io)
  | .waitParent, .go => some (w, .ok ())
  | .waitParent, .failed => some (w, .error (.text "Axiom did not close for the update"))
  | .exclusive cache, .go =>
    if (w.exclusive cache).isSome then none
    else some ({ w with exclusive := Function.update w.exclusive cache (some i) }, .ok ())
  | .exclusive _, .failed =>
    some (w, .error (.text
      "Other AxiomCLI or proxy sessions are still running. Close them and retry."))
  | .unlock cache, .go =>
    some ({ w with exclusive := Function.update w.exclusive cache none }, ())
  | .version _, .version (.error error) => some (w, .error error)
  | .version _, .version (.ok (success, stdout)) =>
    some ({ w with reported := Function.update w.reported i stdout }, .ok (success, stdout))
  | .install build job directory, choice =>
    match w.files directory job.artifact, choice with
    | none, .go => some (w, .error .io)
    | some bytes, .go =>
      some ({ w with installs := ⟨build, job, bytes, w.reported i⟩ :: w.installs }, .ok ())
    | some bytes, .failed =>
      some ({ w with installs := ⟨build, job, bytes, w.reported i⟩ :: w.installs },
        .error (.text "Package installation was cancelled or failed"))
    | _, _ => none
  | .finish directory, .go =>
    some ({ w with
      files := Function.update w.files directory fun _ => none
      leases := Function.update w.leases directory none }, ())
  | .finish directory, .failed =>
    some ({ w with leases := Function.update w.leases directory none }, ())
  | _, _ => none

/-- What happens besides the processes. -/
inductive UpdateEvent where
  /-- A file of a staging directory is written or removed, where nobody has the lease. -/
  | written (directory file : String) (bytes : Option (List UInt8))
  /-- A process is killed, and its locks are free. -/
  | dropped (task : Nat)

/-- The processes of an update. -/
def updateSystem (config : UpdateConfig) (decodeJob : List UInt8 → Option UpdateJob) :
    TaskSystem UpdateWorld UpdateEffect UpdateEffect.Answer UpdateChoice UpdateEvent
      UpdateOperation where
  exec w i e choice := if i ∈ w.dropped then none else updateExec config w i e choice
  event w
    | .written directory file bytes =>
      if (w.leases directory).isSome then none
      else some { w with
        files := Function.update w.files directory
          (Function.update (w.files directory) file bytes) }
    | .dropped i => some { w with
        dropped := i :: w.dropped
        leases := fun directory => (w.leases directory).filter (· ≠ i)
        exclusive := fun cache => (w.exclusive cache).filter (· ≠ i) }
  start w _ operation := some (w, operation.call config decodeJob)

abbrev UpdateStep : Type := PoolStep UpdateChoice UpdateEvent UpdateOperation

/-- The state that a run of the processes reaches. -/
def updateRun (config : UpdateConfig) (decodeJob : List UInt8 → Option UpdateJob)
    (steps : List UpdateStep) : UpdateWorld :=
  ((updateSystem config decodeJob).machine.run { shared := {} } steps).1.shared

end AxiomDesktop
