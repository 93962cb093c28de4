import AxiomDesktop.App.Event
import AxiomDesktop.Lib.Machine
import Mathlib.Logic.Function.Basic

/-!
# Steering a running turn

`TurnSteering`, the inbox through which a front end adds input to a running turn. Its operations
run under one lock, so an interleaving of its callers is a list of operations
(`TurnSteering.machine`); what the operations answer and signal is the list of `SteeringEvent`s.

A `oneshot` channel is a number, its sender kept in the submission, and a submission's lifetime is
what `submissions` holds: a channel whose submission is dropped is never signalled.
-/

namespace AxiomDesktop

def MAX_STEERING_BYTES : Nat := 64 * 1024
def MAX_PENDING : Nat := 32
def MAX_TURN_INPUT_BYTES : Nat := 256 * 1024

structure SteeringMessage where
  id : String
  text : String
  deriving DecidableEq, Repr

/-- A `oneshot` channel, numbered in the order of creation. -/
abbrev Waiter := Nat

structure Submission where
  text : String
  applied : Bool
  waiters : List Waiter
  deriving DecidableEq, Repr

structure TurnSteering where
  turnId : TurnId
  closed : Bool := false
  bytes : Nat := 0
  pending : List SteeringMessage := []
  submissions : String → Option Submission := fun _ => none
  /-- The channels created so far. -/
  channels : Waiter := 0

/-- What the operations answer and signal. -/
inductive SteeringEvent where
  /-- `submit` returned the receiver of a channel. -/
  | submitted (id : String) (waiter : Waiter)
  | refused (id : String) (error : AxiomError)
  /-- A channel received its value. -/
  | signalled (waiter : Waiter)
  | took (messages : List SteeringMessage)
  /-- `acknowledge` found the submission. -/
  | acknowledged (id : String)
  | finished (done : Bool)
  | closed
  deriving DecidableEq, Repr

/-- The calls on the inbox; `close` is also what dropping the turn's `SteeringGuard` does. -/
inductive SteeringOp where
  | submit (expected : TurnId) (id text : String)
  | takePending
  | acknowledge (id : String)
  | finishIfEmpty
  | close
  deriving DecidableEq, Repr

namespace TurnSteering

variable (s : TurnSteering)

/-- `TurnSteering::new`. -/
def new (turnId : TurnId) : TurnSteering := { turnId }

/-- The checks `submit` makes before it takes the lock. -/
def validInput (expected : TurnId) (id text : String) : Bool :=
  expected = s.turnId && !id.isEmpty && id.utf8ByteSize ≤ 128 && !Text.isBlank text &&
    text.utf8ByteSize ≤ MAX_STEERING_BYTES

/-- `submit` of an ID that is known: a retry waits for the acknowledgement, or has it already. -/
def resubmit (previous : Submission) (id text : String) : TurnSteering × List SteeringEvent :=
  if previous.text ≠ text then
    (s, [.refused id (.invalidTransition "steering ID was reused with different input")])
  else if previous.applied then
    ({ s with channels := s.channels + 1 }, [.submitted id s.channels, .signalled s.channels])
  else if previous.waiters.length < MAX_PENDING then
    ({ s with
        channels := s.channels + 1
        submissions := Function.update s.submissions id
          (some { previous with waiters := previous.waiters ++ [s.channels] }) },
      [.submitted id s.channels])
  else (s, [.refused id (.invalidTransition "too many steering retries")])

/-- `submit` of a new ID. -/
def accept (id text : String) : TurnSteering × List SteeringEvent :=
  if s.closed then
    (s, [.refused id (.invalidTransition "turn is no longer accepting steering")])
  else if MAX_PENDING ≤ s.pending.length ∨ MAX_TURN_INPUT_BYTES < s.bytes + text.utf8ByteSize then
    (s, [.refused id (.invalidTransition "steering inbox is full")])
  else
    ({ s with
        bytes := s.bytes + text.utf8ByteSize
        pending := s.pending ++ [⟨id, text⟩]
        channels := s.channels + 1
        submissions := Function.update s.submissions id
          (some { text, applied := false, waiters := [s.channels] }) },
      [.submitted id s.channels])

/-- `submit`. -/
def submit (expected : TurnId) (id text : String) : TurnSteering × List SteeringEvent :=
  if s.validInput expected id text = false then
    (s, [.refused id (.invalidTransition "invalid steering input or stale turn ID")])
  else
    match s.submissions id with
    | some previous => s.resubmit previous id text
    | none => s.accept id text

/-- `take_pending`. -/
def takePending : TurnSteering × List SteeringEvent :=
  ({ s with pending := [] }, [.took s.pending])

/-- `acknowledge`. -/
def acknowledge (id : String) : TurnSteering × List SteeringEvent :=
  match s.submissions id with
  | none => (s, [])
  | some input =>
    ({ s with
        submissions := Function.update s.submissions id
          (some { input with applied := true, waiters := [] }) },
      .acknowledged id :: input.waiters.map .signalled)

/-- `finish_if_empty`. -/
def finishIfEmpty : TurnSteering × List SteeringEvent :=
  if s.pending ≠ [] then (s, [.finished false])
  else ({ s with closed := true }, [.finished true])

/-- `close`: what is pending goes back to its submitters, whose channels are dropped. -/
def close : TurnSteering × List SteeringEvent :=
  ({ s with
      closed := true
      pending := []
      submissions := fun id =>
        if s.pending.any (·.id = id) then none else s.submissions id },
    [.closed])

/-- The inbox as a machine. -/
def machine : Machine TurnSteering SteeringOp SteeringEvent where
  step s
    | .submit expected id text => s.submit expected id text
    | .takePending => s.takePending
    | .acknowledge id => s.acknowledge id
    | .finishIfEmpty => s.finishIfEmpty
    | .close => s.close

end TurnSteering

end AxiomDesktop
