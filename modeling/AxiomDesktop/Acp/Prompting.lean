import AxiomDesktop.Acp.Listener
import AxiomDesktop.Session.Running

/-!
# A prompt and the store

`prompt` submits a checked prompt to the kernel and appends it, listens to the runner and appends
every event, and ends the turn in the kernel and in the store. Where a step fails before the turn
has ended in the kernel, `fail_active_prompt` ends it. The module models the handler from the
reservation of the session's work to its release, with the kernel and the store as they are: every
call of the store runs its transaction, or fails with a fault of the storage.
-/

namespace AxiomDesktop

/-- The events that a runner sends. Those of a command come from the kernel alone. -/
def AppEvent.isObservation : AppEvent → Bool
  | .sessionCreated .. | .sessionResumed .. | .promptAccepted .. | .turnStarted _
  | .turnCompleted _ | .turnCancelled _ | .errorRaised .. | .desktopAgentConfigured _
  | .permissionProfileChanged _ | .sessionClosed => false
  | _ => true

/-- The call is about another session. -/
def KernelCall.spares (id : SessionId) : KernelCall → Bool
  | .apply request => request.command.sessionId ≠ id
  | .record sessionId _ _ _ => sessionId ≠ id
  | .restoreFromEvents events => events.all fun e => e.sessionId ≠ id

/-- A prompt that passed its checks. -/
structure Prompt where
  sessionId : SessionId
  turnId : TurnId
  text : String
  attachments : List PromptAttachment
  clientItemId : Option String
  /-- The message that the prompt replaces. -/
  messageRevision : Option Store.PromptRevision

namespace Prompt

/-- The thread of the session. -/
def threadId (p : Prompt) : String := p.sessionId.toString

def operation (p : Prompt) : Operation Unit := .prompt p.sessionId p.turnId

/-- The command of the submission. -/
def submit (p : Prompt) : AppCommand :=
  .submitPrompt p.sessionId p.turnId p.text p.attachments

/-- The command of `fail_active_prompt`. -/
def fail (p : Prompt) (error : AxiomError) : AppCommand :=
  .failTurn p.sessionId p.turnId error.message

end Prompt

namespace Prompting

/-- Where the handler stands, the session's work reserved. -/
inductive Stage where
  | checked
  /-- The kernel accepted the prompt. -/
  | submitted (events : List EventEnvelope)
  /-- The store did. -/
  | appended
  /-- The prompt is shown. -/
  | prepared
  /-- The task listens to the runner and ends the turn. -/
  | task
  /-- In `fail_active_prompt`, before and after its command. -/
  | failing (error : AxiomError)
  | failed (events : List EventEnvelope)
  /-- The work of the session is released. -/
  | released

end Prompting

/-- The state of a prompt. Its kernel is the one of its listener. -/
structure Prompting where
  listener : Listener Unit
  store : Store.Database
  stage : Prompting.Stage := .checked
  terminalized : Bool := false

namespace Prompting

open Store (Environment Database appendBatch)

/-- What the handler appends: the accepted prompt, an event of the runner, or the events of the
command that ends the turn. -/
inductive Appending where
  | prompt
  | streamed
  | terminal
  deriving DecidableEq, Repr

/-- A call of the store that appends, and whether it did. -/
structure Entry where
  appending : Appending
  stored : Bool
  deriving DecidableEq, Repr

/-- A step of the handler, of its runner, or of others. -/
inductive Move where
  | submit (correlationId : CorrelationId) (origin : Origin)
  | appendPrompt (env : Environment) (fault : Option AxiomError)
  /-- The prompt is shown, or fails to be, with the preferences of the profile that this leaves. -/
  | prepare (preferences : Store.ProfilePreferences) (outcome : Except AxiomError Unit)
  /-- The task starts, where the turn's tool servers can be configured. -/
  | start (mcp : Except AxiomError Unit)
  /-- A move of the listener that neither the kernel nor the store sees. -/
  | listen (move : Listener.Move Unit)
  | emit (correlationId : CorrelationId) (origin : Origin)
  | append (env : Environment) (fault : Option AxiomError) (shown : Except AxiomError Unit)
  | dispatch (correlationId : CorrelationId) (origin : Origin)
  | appendAll (env : Environment) (fault : Option AxiomError)
  /-- The task has a result. -/
  | finish
  | fail (correlationId : CorrelationId) (origin : Origin)
  | appendFailed (env : Environment) (fault : Option AxiomError)
  | elsewhere (call : KernelCall)
  | write (env : Environment) (op : Store.Write)

/-- A move that `Move.listen` stands for: the runner sends, returns or is not waited for any more,
a token is cancelled, or an event is taken from the channel. -/
def listens : Listener.Move Unit → Bool
  | .send event => event.isObservation
  | .cancelRequest | .cancelWork | .returns _ | .receive | .observeCancelled _ | .drain => true
  | .others _ | .emit .. | .append .. | .dispatch .. | .appendAll _ => false

/-- `append_batch`, where the storage may fail: nothing of a transaction that failed is kept. -/
def persist (fault : Option AxiomError) (env : Environment) (envelopes : List EventEnvelope)
    (clientItemId : Option String) (replacement : Option Store.PromptRevision) (db : Database) :
    Except AxiomError Unit × Database :=
  match fault with
  | some error => (.error error, db)
  | none =>
    let (result, db) := appendBatch env envelopes clientItemId none replacement db
    (result.map fun _ => (), db)

/-- `Runtime::dispatch`. -/
def dispatching (kernel : Kernel) (correlationId : CorrelationId) (origin : Origin)
    (command : AppCommand) : Except AxiomError (List EventEnvelope) × Kernel :=
  (Kernel.apply { correlationId, origin, cancelled := false, command }).exec kernel

/-- `release_session_work`. -/
def release (s : Prompting) : Prompting :=
  { s with listener := { s.listener with workCancelled := true }, stage := .released }

/-- One move. A move that is not possible changes nothing. -/
def step (p : Prompt) (s : Prompting) : Move → Prompting × List Entry
  | .submit correlationId origin =>
    match s.stage with
    | .checked =>
      match dispatching s.listener.kernel correlationId origin p.submit with
      | (.ok events, kernel) =>
        ({ s with listener := { s.listener with kernel }, stage := .submitted events }, [])
      | (.error _, kernel) => (release { s with listener := { s.listener with kernel } }, [])
    | _ => (s, [])
  | .appendPrompt env fault =>
    match s.stage with
    | .submitted events =>
      match persist fault env events p.clientItemId p.messageRevision s.store with
      | (.ok _, store) => ({ s with store, stage := .appended }, [⟨.prompt, true⟩])
      | (.error error, store) => ({ s with store, stage := .failing error }, [⟨.prompt, false⟩])
    | _ => (s, [])
  | .prepare preferences outcome =>
    match s.stage with
    | .appended =>
      let store := { s.store with preferences }
      match outcome with
      | .ok _ => ({ s with store, stage := .prepared }, [])
      | .error error => ({ s with store, stage := .failing error }, [])
    | _ => (s, [])
  | .start mcp =>
    match s.stage with
    | .prepared =>
      match mcp with
      | .ok _ => ({ s with stage := .task }, [])
      | .error error => ({ s with stage := .failing error }, [])
    | _ => (s, [])
  | .listen move =>
    match s.stage with
    | .task =>
      if listens move then ({ s with listener := (s.listener.step p.operation move).1 }, [])
      else (s, [])
    | _ => (s, [])
  | .emit correlationId origin =>
    match s.stage with
    | .task =>
      ({ s with listener := (s.listener.step p.operation (.emit correlationId origin)).1 }, [])
    | _ => (s, [])
  | .append env fault shown =>
    match s.stage, s.listener.phase with
    | .task, .emitted envelope _ =>
      let (stored, store) := persist fault env [envelope] none none s.store
      ({ s with store, listener := (s.listener.step p.operation (.append stored shown)).1 },
        [⟨.streamed, stored.toBool⟩])
    | _, _ => (s, [])
  | .dispatch correlationId origin =>
    match s.stage with
    | .task =>
      let listener := (s.listener.step p.operation (.dispatch correlationId origin)).1
      match listener.phase with
      | .dispatched _ _ => ({ s with listener, terminalized := true }, [])
      | _ => ({ s with listener }, [])
    | _ => (s, [])
  | .appendAll env fault =>
    match s.stage, s.listener.phase with
    | .task, .dispatched events _ =>
      let (stored, store) := persist fault env events none none s.store
      ({ s with store, listener := (s.listener.step p.operation (.appendAll stored)).1 },
        [⟨.terminal, stored.toBool⟩])
    | _, _ => (s, [])
  | .finish =>
    match s.stage, s.listener.phase with
    | .task, .ended _ => (s.release, [])
    | .task, .failed error =>
      -- a turn that ended in the kernel is not ended again
      if s.terminalized then (s.release, []) else ({ s with stage := .failing error }, [])
    | _, _ => (s, [])
  | .fail correlationId origin =>
    match s.stage with
    | .failing error =>
      let cancelled := { s.listener with workCancelled := true }
      match dispatching s.listener.kernel correlationId origin (p.fail error) with
      | (.ok events, kernel) =>
        ({ s with listener := { cancelled with kernel }, stage := .failed events }, [])
      | (.error _, kernel) => ({ s with listener := { cancelled with kernel }, stage := .released }, [])
    | _ => (s, [])
  | .appendFailed env fault =>
    match s.stage with
    | .failed events =>
      -- what the store answers is logged and passed over
      let (stored, store) := persist fault env events none none s.store
      ({ s with store, stage := .released }, [⟨.terminal, stored.toBool⟩])
    | _ => (s, [])
  | .elsewhere call =>
    if call.spares p.sessionId then
      let kernel := (Kernel.machine.step s.listener.kernel call).1
      ({ s with listener := { s.listener with kernel } }, [])
    else (s, [])
  | .write env op =>
    if op.spares p.threadId then ({ s with store := op.run env s.store }, []) else (s, [])

/-- A prompt over its moves. -/
def machine (p : Prompt) : Machine Prompting Move Entry where
  step := step p

/-- The handler begins with the session's work reserved. -/
def start (kernel : Kernel) (store : Database) : Prompting where
  listener := { kernel }
  store

end Prompting

end AxiomDesktop
