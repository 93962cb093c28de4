import AxiomDesktop.App.SessionStep

/-!
# Listening to a runner

Four handlers start a future of the runner and read the channel that it sends its events on:
`prompt`, `compact`, the slash command for compaction and `regenerate`. Each selects between the
future, the channel and two cancellation tokens, emits and appends the events that it receives, and
drains the channel once the loop has ended, or does not (`Operation.drains`). The module models the
four as one machine: a move is a step of the listener, of the runner, or of anybody else who uses
the kernel.
-/

namespace AxiomDesktop

def APP_EVENT_QUEUE_CAPACITY : Nat := 256

/-- What one handler does with a runner whose future returns a `ρ`. -/
structure Operation (ρ : Type) where
  sessionId : SessionId
  /-- The `select!` polls its branches in order. -/
  biased : Bool
  /-- The channel is drained after the loop. -/
  drains : Bool
  /-- An error of the runner cancels the work. -/
  cancelsOnError : Bool
  /-- The thinking level and the steering that an event applies are noted. -/
  notes : Bool
  /-- The command that follows a result, where the work is cancelled or is not. -/
  terminal : Except AxiomError ρ → Bool → Option AppCommand

namespace Operation

/-- The command of both compactions. -/
def recordCompaction (sessionId : SessionId) : Except AxiomError CompactionResult → Option AppCommand
  | .ok result => some (.recordContextCompaction sessionId result.summary result.messagesBefore)
  | .error _ => none

/-- `compact`. -/
def compact (sessionId : SessionId) : Operation CompactionResult where
  sessionId := sessionId
  biased := false
  drains := false
  cancelsOnError := false
  notes := false
  terminal result _ := recordCompaction sessionId result

/-- `SlashCommand::Compact`. -/
def compactCommand (sessionId : SessionId) : Operation CompactionResult where
  sessionId := sessionId
  biased := false
  drains := true
  cancelsOnError := false
  notes := false
  terminal result _ := recordCompaction sessionId result

/-- `prompt`. -/
def prompt (sessionId : SessionId) (turnId : TurnId) : Operation Unit where
  sessionId := sessionId
  biased := false
  drains := true
  cancelsOnError := true
  notes := true
  terminal result _ :=
    match result with
    | .ok _ => some (.finishTurn sessionId turnId)
    | .error .cancelled => some (.cancelTurn sessionId turnId)
    | .error error => some (.failTurn sessionId turnId error.message)

/-- `regenerate`. -/
def regenerate (sessionId : SessionId) (turnId : TurnId) : Operation Unit where
  sessionId := sessionId
  biased := true
  drains := true
  cancelsOnError := false
  notes := false
  terminal result cancelled :=
    match result with
    | .ok _ => some (.finishTurn sessionId turnId)
    | .error _ =>
      if cancelled then some (.cancelTurn sessionId turnId)
      else some (.failTurn sessionId turnId "Image regeneration could not finish.")

end Operation

namespace Listener

/-- Where the handler stands. An event is handled in the loop, or in the drain behind a result. -/
inductive Phase (ρ : Type) where
  | listening
  | received (event : AppEvent) (behind : Option (Except AxiomError ρ))
  | emitted (envelope : EventEnvelope) (behind : Option (Except AxiomError ρ))
  | draining (result : Except AxiomError ρ)
  | finishing (result : Except AxiomError ρ)
  | dispatched (events : List EventEnvelope) (result : Except AxiomError ρ)
  | ended (result : Except AxiomError ρ)
  | failed (error : AxiomError)

namespace Phase

variable {ρ : Type}

/-- Where an event that was handled leads back to. -/
def resumed : Option (Except AxiomError ρ) → Phase ρ
  | none => listening
  | some result => draining result

/-- The loop has not ended: the runner has neither returned nor been abandoned. -/
def inLoop : Phase ρ → Bool
  | listening | received _ none | emitted _ none => true
  | _ => false

/-- The receiver of the channel is dropped. -/
def closed : Phase ρ → Bool
  | ended _ | failed _ => true
  | _ => false

/-- The events of the channel that are handled are behind the handler. -/
def settled : Phase ρ → Bool
  | finishing _ | dispatched .. | ended _ => true
  | _ => false

/-- The event that was received and is not appended. -/
def pending : Phase ρ → List AppEvent
  | received event _ => [event]
  | emitted envelope _ => [envelope.event]
  | _ => []

/-- The envelope that was emitted and is not appended. -/
def unappended : Phase ρ → List EventEnvelope
  | emitted envelope _ => [envelope]
  | _ => []

end Phase

end Listener

/-- The state of an operation. -/
structure Listener (ρ : Type) where
  kernel : Kernel
  /-- The channel. -/
  queue : List AppEvent := []
  /-- What the runner sent before it returned or was abandoned. -/
  sent : List AppEvent := []
  /-- What was sent after that. -/
  late : List AppEvent := []
  requestCancelled : Bool := false
  workCancelled : Bool := false
  thinking : Option ThinkingLevel := none
  acknowledged : List String := []
  phase : Listener.Phase ρ := .listening

namespace Listener

variable {ρ : Type}

/-- What an operation does to the kernel's events and to the store. -/
inductive Entry where
  | emitted (envelope : EventEnvelope)
  | appended (envelope : EventEnvelope)
  /-- An event of the terminal command is appended. -/
  | terminal (envelope : EventEnvelope)

/-- A step of the handler, of the runner or of others. -/
inductive Move (ρ : Type) where
  | send (event : AppEvent)
  | cancelRequest
  | cancelWork
  | others (call : KernelCall)
  /-- The loop sees that the future returned. -/
  | returns (result : Except AxiomError ρ)
  | receive
  /-- The loop sees that the request, or the work, is cancelled. -/
  | observeCancelled (request : Bool)
  /-- The event that was received is emitted, under an id and the origin of the session. -/
  | emit (correlationId : CorrelationId) (origin : Origin)
  /-- The envelope is appended and shown, as the store and the client allow. -/
  | append (stored shown : Except AxiomError Unit)
  | drain
  | dispatch (correlationId : CorrelationId) (origin : Origin)
  | appendAll (stored : Except AxiomError Unit)

/-- The runner, or a task that holds its sender, sends an event, where the channel has room. -/
def sending (s : Listener ρ) (event : AppEvent) : Listener ρ :=
  if s.queue.length < APP_EVENT_QUEUE_CAPACITY ∧ s.phase.closed = false then
    { s with
      queue := s.queue ++ [event]
      sent := if s.phase.inLoop then s.sent ++ [event] else s.sent
      late := if s.phase.inLoop then s.late else s.late ++ [event] }
  else s

/-- The branch of a token is taken. A select that polls in order looks at the channel before. -/
def observes (op : Operation ρ) (s : Listener ρ) (request : Bool) : Bool :=
  (if request then s.requestCancelled else s.workCancelled) && (!op.biased || s.queue.isEmpty)

/-- What is left to do after the loop. -/
def broken (op : Operation ρ) (s : Listener ρ) (result : Except AxiomError ρ) : Listener ρ :=
  { s with
    workCancelled := s.workCancelled || (op.cancelsOnError && !result.toBool)
    phase := if op.drains then .draining result else .finishing result }

/-- What `prompt` notes of an event that it appended. -/
def noting (s : Listener ρ) : AppEvent → Listener ρ
  | .thinkingLevelChanged level => { s with thinking := some level }
  | .steeringApplied _ clientItemId _ => { s with acknowledged := s.acknowledged ++ [clientItemId] }
  | _ => s

/-- Where a step that may fail leads. -/
def Phase.following (outcome : Except AxiomError Unit) (next : Phase ρ) : Phase ρ :=
  match outcome with
  | .ok _ => next
  | .error error => .failed error

/-- One move. A move that is not possible changes nothing. -/
def step (op : Operation ρ) (s : Listener ρ) : Move ρ → Listener ρ × List Entry
  | .send event => (s.sending event, [])
  | .cancelRequest => ({ s with requestCancelled := true }, [])
  | .cancelWork => ({ s with workCancelled := true }, [])
  | .others call => ({ s with kernel := (Kernel.machine.step s.kernel call).1 }, [])
  | .returns result =>
    match s.phase with
    | .listening => (s.broken op result, [])
    | _ => (s, [])
  | .receive =>
    match s.phase, s.queue with
    | .listening, event :: queue => ({ s with queue, phase := .received event none }, [])
    | _, _ => (s, [])
  | .observeCancelled request =>
    match s.phase with
    | .listening =>
      if s.observes op request then
        (broken op { s with workCancelled := true } (.error .cancelled), [])
      else (s, [])
    | _ => (s, [])
  | .emit correlationId origin =>
    match s.phase with
    | .received event behind =>
      match (Kernel.record op.sessionId correlationId origin event).exec s.kernel with
      | (.ok envelope, kernel) =>
        ({ s with kernel, phase := .emitted envelope behind }, [.emitted envelope])
      | (.error error, kernel) => ({ s with kernel, phase := .failed error }, [])
    | _ => (s, [])
  | .append stored shown =>
    match s.phase with
    | .emitted envelope behind =>
      match stored with
      | .ok _ =>
        let noted := if op.notes then s.noting envelope.event else s
        ({ noted with phase := .following shown (.resumed behind) }, [.appended envelope])
      | .error error => ({ s with phase := .failed error }, [])
    | _ => (s, [])
  | .drain =>
    match s.phase, s.queue with
    | .draining result, event :: queue =>
      ({ s with queue, phase := .received event (some result) }, [])
    | .draining result, [] => ({ s with phase := .finishing result }, [])
    | _, _ => (s, [])
  | .dispatch correlationId origin =>
    match s.phase with
    | .finishing result =>
      match op.terminal result (s.workCancelled || s.requestCancelled) with
      | none => ({ s with phase := .ended result }, [])
      | some command =>
        match (Kernel.apply { correlationId, origin, cancelled := false, command }).exec s.kernel with
        | (.ok events, kernel) => ({ s with kernel, phase := .dispatched events result }, [])
        | (.error error, kernel) => ({ s with kernel, phase := .failed error }, [])
    | _ => (s, [])
  | .appendAll stored =>
    match s.phase with
    | .dispatched events result =>
      match stored with
      | .ok _ => ({ s with phase := .ended result }, events.map .terminal)
      | .error error => ({ s with phase := .failed error }, [])
    | _ => (s, [])

/-- An operation over its moves. -/
def machine (op : Operation ρ) : Machine (Listener ρ) (Move ρ) Entry where
  step := step op

/-- The move ends the loop. -/
def breaks (op : Operation ρ) (s : Listener ρ) (move : Move ρ) : Bool :=
  match s.phase, move with
  | .listening, .returns _ => true
  | .listening, .observeCancelled request => s.observes op request
  | _, _ => false

/-- Where the loop ends, the channel is empty or is drained. -/
def FoundEmpty (op : Operation ρ) (s : Listener ρ) (move : Move ρ) : Prop :=
  s.breaks op move = true → op.drains = true ∨ s.queue.isEmpty = true

instance (op : Operation ρ) (s : Listener ρ) (move : Move ρ) : Decidable (FoundEmpty op s move) :=
  inferInstanceAs (Decidable (_ → _))

end Listener

end AxiomDesktop
