import Mathlib.Data.Finset.Insert
import Mathlib.Logic.Function.Basic
import AxiomDesktop.App.Event
import AxiomDesktop.Lib.Fallible

/-!
# The kernel

The state machine of the application runtime: the commands it applies (`Kernel.apply`), the
observations it records (`Kernel.record`), and the restoration of a session from its journal
(`Kernel.restoreFromEvents`). A method runs in `KernelM`, which keeps what was written before an
error, and every emitted envelope takes the next sequence number and the next reading of the
clock.
-/

namespace AxiomDesktop

structure SessionState where
  id : SessionId
  cwd : PathBuf
  origin : Origin
  profile : PermissionProfile
  lifecycle : SessionLifecycle
  activeTurn : Option TurnId
  terminalTurns : Finset TurnId
  pendingPermission : Option String
  pendingQuestion : Option String
  deriving DecidableEq

/-- The state in which a session is created, resumed, and first replayed. -/
def SessionState.opened (id : SessionId) (cwd : PathBuf) (origin : Origin)
    (profile : PermissionProfile) : SessionState :=
  { id, cwd, origin, profile,
    lifecycle := .ready,
    activeTurn := none,
    terminalTurns := ∅,
    pendingPermission := none,
    pendingQuestion := none }

structure Kernel where
  sessions : SessionId → Option SessionState
  nextSequence : UInt64
  /-- The readings of `services.now()`, in order. -/
  now : Nat → DateTime
  /-- The readings taken so far. -/
  ticks : Nat

namespace Kernel

open Fallible

/-- The methods of the kernel. -/
abbrev KernelM := Fallible AxiomError Kernel

/-- `Kernel::with_services`. -/
def withServices (now : Nat → DateTime) : Kernel :=
  { sessions := fun _ => none, nextSequence := 0, now, ticks := 0 }

/-- The kernel with a session at its id. -/
def withSession (k : Kernel) (id : SessionId) (session : SessionState) : Kernel :=
  { k with sessions := Function.update k.sessions id (some session) }

/-- `self.sessions.insert`, and a write through the reference `session_mut` gives. -/
def insert (id : SessionId) (session : SessionState) : KernelM PUnit :=
  modify fun k => k.withSession id session

/-- `Kernel::session_mut`. -/
def sessionMut (id : SessionId) : KernelM SessionState := do
  let k ← get
  okOr (k.sessions id) (.sessionNotFound id.toString)

/-- `InvalidTransition` where the condition holds. -/
def invalidIf (c : Prop) [Decidable c] (message : String) : KernelM PUnit :=
  failIf c (.invalidTransition message)

/-- `Kernel::finish_active`. -/
def finishActive (sessionId : SessionId) (turnId : TurnId) : KernelM PUnit := do
  let session ← sessionMut sessionId
  invalidIf (session.activeTurn ≠ some turnId ∨ session.lifecycle.inFlight = false)
    s!"turn {turnId.toString} is not active"
  insert sessionId
    { session with
      lifecycle := .ready
      activeTurn := none
      terminalTurns := Insert.insert turnId session.terminalTurns
      pendingPermission := none
      pendingQuestion := none }

/-- `Kernel::envelope`: the counter is 64 bits wide and wraps. -/
def envelope (sessionId : SessionId) (correlationId : CorrelationId) (origin : Origin)
    (event : AppEvent) : KernelM EventEnvelope := do
  modify fun k => { k with nextSequence := k.nextSequence + 1, ticks := k.ticks + 1 }
  let k ← get
  pure
    { schemaVersion := 1
      sequence := k.nextSequence
      occurredAt := k.now (k.ticks - 1)
      correlationId, origin, sessionId, event }

/-- The check on a model id that both model commands make. -/
def invalidModel (model : String) : Bool :=
  Text.isBlank model || Text.hasWhitespace model

/-- The `match` of `Kernel::apply`: what a command does to its session, and the events it
causes. -/
def transition : AppCommand → KernelM (List AppEvent)
  | .createSession sessionId cwd origin profile => do
    let k ← get
    invalidIf ((k.sessions sessionId).isSome) s!"session {sessionId.toString} already exists"
    insert sessionId (.opened sessionId cwd origin profile)
    pure [.sessionCreated cwd origin profile, .securityStatusChanged .unverified]
  | .resumeSession sessionId cwd origin profile => do
    let k ← get
    invalidIf ((k.sessions sessionId).isSome) s!"session {sessionId.toString} is already loaded"
    insert sessionId (.opened sessionId cwd origin profile)
    pure [.sessionResumed cwd origin profile]
  | .submitPrompt sessionId turnId text attachments => do
    ofResult ((validatePrompt text attachments).mapError fun e => .invalidTransition e.message)
    let session ← sessionMut sessionId
    invalidIf (session.lifecycle ≠ .ready) s!"session is {session.lifecycle.debug}, not ready"
    invalidIf (turnId ∈ session.terminalTurns)
      s!"turn {turnId.toString} is already terminal and cannot run again"
    insert sessionId { session with lifecycle := .running, activeTurn := some turnId }
    pure [.promptAccepted turnId text attachments, .turnStarted turnId]
  | .startImageGeneration sessionId turnId => do
    let session ← sessionMut sessionId
    invalidIf (session.lifecycle ≠ .ready ∨ turnId ∈ session.terminalTurns)
      "image generation requires an idle session and a fresh turn"
    insert sessionId { session with lifecycle := .running, activeTurn := some turnId }
    pure [.turnStarted turnId]
  | .cancelTurn sessionId turnId => do
    finishActive sessionId turnId
    pure [.turnCancelled turnId]
  | .finishTurn sessionId turnId => do
    finishActive sessionId turnId
    pure [.turnCompleted turnId]
  | .failTurn sessionId turnId message => do
    finishActive sessionId turnId
    pure [.errorRaised (some turnId) message]
  | .configureDesktopAgent sessionId settings => do
    let session ← sessionMut sessionId
    invalidIf (session.lifecycle ≠ .ready)
      "Agent settings may change only while the thread is idle"
    insert sessionId
      { session with
        cwd := settings.workingDirectory
        profile := .forDesktopAgent settings }
    pure [.desktopAgentConfigured settings]
  | .changePermissionProfile sessionId profile => do
    let session ← sessionMut sessionId
    invalidIf (session.lifecycle ≠ .ready)
      "permission profile may change only while the session is ready"
    insert sessionId { session with profile }
    pure [.permissionProfileChanged profile]
  | .changeModel sessionId model => do
    invalidIf (invalidModel model) "model ID must be a non-empty value without whitespace"
    let session ← sessionMut sessionId
    invalidIf (session.lifecycle ≠ .ready) "model may change only while the session is ready"
    pure [.modelChanged model]
  | .changeModelSettings sessionId model thinking resetSecurity => do
    invalidIf (invalidModel model) "model ID must be a non-empty value without whitespace"
    let session ← sessionMut sessionId
    invalidIf (session.lifecycle ≠ .ready)
      "model settings may change only while the session is ready"
    -- the model event follows the other two and owns the final status message
    pure
      (.thinkingLevelChanged thinking ::
        ((if resetSecurity then [.securityStatusChanged .unverified] else []) ++
          [.modelChanged model]))
  | .changeThinkingLevel sessionId level => do
    let session ← sessionMut sessionId
    invalidIf (session.lifecycle ≠ .ready)
      "thinking level may change only while the session is ready"
    pure [.thinkingLevelChanged level]
  | .recordContextCompaction sessionId summary messagesBefore => do
    invalidIf (Text.isBlank summary) "compaction summary cannot be empty"
    let session ← sessionMut sessionId
    invalidIf (session.lifecycle ≠ .ready)
      "context may be compacted only while the session is ready"
    pure [.contextCompacted summary messagesBefore]
  | .closeSession sessionId => do
    let session ← sessionMut sessionId
    invalidIf (session.lifecycle ≠ .ready) "session must be ready before it can close"
    insert sessionId { session with lifecycle := .closed }
    pure [.sessionClosed]

/-- `Kernel::apply`. -/
def apply (request : CommandEnvelope) : KernelM (List EventEnvelope) := do
  failIf request.cancelled .cancelled
  let events ← transition request.command
  events.mapM (envelope request.command.sessionId request.correlationId request.origin)

/-- The `match` of `Kernel::record`: what an observation does to a session. -/
def observe (sessionId : SessionId) (session : SessionState) : AppEvent → KernelM PUnit
  | .steeringApplied turnId _ _ =>
    invalidIf (session.activeTurn ≠ some turnId ∨ session.lifecycle ≠ .running)
      "steering requires the active running turn"
  | .permissionRequired requestId _ _ _ => do
    invalidIf (session.lifecycle ≠ .running)
      "permission can be requested only during a running turn"
    insert sessionId
      { session with lifecycle := .waitingForApproval, pendingPermission := some requestId }
  | .permissionResolved requestId _ _ => do
    invalidIf
      (session.lifecycle ≠ .waitingForApproval ∨ session.pendingPermission ≠ some requestId)
      s!"permission {requestId} is not pending"
    insert sessionId { session with lifecycle := .running, pendingPermission := none }
  | .questionAsked questionId _ _ => do
    invalidIf (session.lifecycle ≠ .running)
      "question can be asked only during a running turn"
    insert sessionId
      { session with lifecycle := .waitingForAnswer, pendingQuestion := some questionId }
  | .questionsAsked request => do
    invalidIf (session.lifecycle ≠ .running ∨ request.questions = [])
      "structured questions require a running turn and a non-empty request"
    insert sessionId
      { session with lifecycle := .waitingForAnswer, pendingQuestion := some request.requestId }
  | .questionAnswered questionId answers => do
    invalidIf
      (answers = [] ∨ session.lifecycle ≠ .waitingForAnswer ∨
        session.pendingQuestion ≠ some questionId)
      s!"question {questionId} is not pending or has no answer"
    insert sessionId { session with lifecycle := .running, pendingQuestion := none }
  | .questionsAnswered requestId _ | .questionsFailed requestId _ => do
    invalidIf
      (session.lifecycle ≠ .waitingForAnswer ∨ session.pendingQuestion ≠ some requestId)
      s!"question request {requestId} is not pending"
    insert sessionId { session with lifecycle := .running, pendingQuestion := none }
  | _ => pure ⟨⟩

/-- `Kernel::record`. -/
def record (sessionId : SessionId) (correlationId : CorrelationId) (origin : Origin)
    (event : AppEvent) : KernelM EventEnvelope := do
  let session ← sessionMut sessionId
  observe sessionId session event
  envelope sessionId correlationId origin event

end Kernel

/-! ## Restoring a session from its journal -/

/-- `replay_event`. -/
def replayEvent (state : Option SessionState) (id : SessionId) :
    AppEvent → Except AxiomError (Option SessionState)
  | .sessionCreated cwd origin profile | .sessionResumed cwd origin profile =>
    .ok (some (state.getD (.opened id cwd origin profile)))
  | .turnStarted turnId =>
    match state with
    | none => .error (.invalidTransition "turn precedes session creation")
    | some session =>
      .ok (some { session with lifecycle := .running, activeTurn := some turnId })
  | .permissionRequired requestId _ _ _ =>
    match state with
    | none => .error (.invalidTransition "permission precedes session creation")
    | some session =>
      .ok (some
        { session with lifecycle := .waitingForApproval, pendingPermission := some requestId })
  | .permissionResolved _ _ _ =>
    .ok (state.map fun session => { session with lifecycle := .running, pendingPermission := none })
  | .questionAsked questionId _ _ =>
    match state with
    | none => .error (.invalidTransition "question precedes session creation")
    | some session =>
      .ok (some
        { session with lifecycle := .waitingForAnswer, pendingQuestion := some questionId })
  | .questionsAsked request =>
    match state with
    | none => .error (.invalidTransition "questions precede session creation")
    | some session =>
      .ok (some
        { session with
          lifecycle := .waitingForAnswer
          pendingQuestion := some request.requestId })
  | .questionAnswered _ _ | .questionsAnswered _ _ | .questionsFailed _ _ =>
    .ok (state.map fun session => { session with lifecycle := .running, pendingQuestion := none })
  | .turnCompleted turnId | .turnCancelled turnId | .errorRaised (some turnId) _ =>
    .ok (state.map fun session =>
      { session with
        lifecycle := .ready
        activeTurn := none
        terminalTurns := insert turnId session.terminalTurns
        pendingPermission := none
        pendingQuestion := none })
  | .desktopAgentConfigured settings =>
    .ok (state.map fun session =>
      { session with
        cwd := settings.workingDirectory
        profile := .forDesktopAgent settings })
  | .permissionProfileChanged profile =>
    .ok (state.map fun session => { session with profile })
  | .sessionClosed => .ok (state.map fun session => { session with lifecycle := .closed })
  | _ => .ok state

structure RestoreProjection where
  id : SessionId
  state : Option SessionState
  maxSequence : UInt64

structure CompletedRestore where
  id : SessionId
  state : SessionState
  maxSequence : UInt64

/-- The state a session resumes in: a close is no tombstone, and unknown work in flight is never
replayed. -/
def SessionState.resumed (s : SessionState) : SessionState :=
  { s with
    lifecycle := .ready
    activeTurn := none
    pendingPermission := none
    pendingQuestion := none }

namespace RestoreProjection

/-- `RestoreProjection::new`. -/
def new (events : List EventEnvelope) : Except AxiomError RestoreProjection :=
  match events with
  | [] => .error (.invalidTransition "cannot restore an empty event stream")
  | first :: _ => .ok { id := first.sessionId, state := none, maxSequence := 0 }

/-- `RestoreProjection::replay`. -/
def replay (p : RestoreProjection) (e : EventEnvelope) : Except AxiomError RestoreProjection :=
  if e.sessionId ≠ p.id then
    .error (.invalidTransition "restore stream contains multiple sessions")
  else do
    let state ← replayEvent p.state p.id e.event
    pure { p with state, maxSequence := max p.maxSequence e.sequence }

/-- `RestoreProjection::finish`. -/
def finish (p : RestoreProjection) : Except AxiomError CompletedRestore :=
  match p.state with
  | none => .error (.invalidTransition "restore stream has no session creation")
  | some state => .ok { id := p.id, state := state.resumed, maxSequence := p.maxSequence }

/-- The projection of a whole journal. -/
def project (events : List EventEnvelope) : Except AxiomError CompletedRestore := do
  let p ← new events
  let p ← events.foldlM replay p
  p.finish

end RestoreProjection

namespace Kernel

open Fallible

/-- `Kernel::install_restore`. -/
def installRestore (restored : CompletedRestore) : KernelM SessionState := do
  modify fun k =>
    { k.withSession restored.id restored.state with
      nextSequence := max k.nextSequence restored.maxSequence }
  pure restored.state

/-- `Kernel::restore_from_events`. -/
def restoreFromEvents (events : List EventEnvelope) : KernelM SessionState := do
  let restored ← ofResult (RestoreProjection.project events)
  installRestore restored

end Kernel

end AxiomDesktop
