import AxiomDesktop.Data.Json
import AxiomDesktop.Data.LossyUtf8
import Mathlib.Logic.Function.Basic

/-!
# The process of the agent

`AcpProcess`: the requests that wait for a response, the lines the sidecar writes and what ends it.
An event is one callback of the runtime, and a run is any order of them (`AcpProcess.machine`). What
a write of the runtime comes to is part of the event that begins it (`WriteStart`), or an event of
its own (`written`, `failed`).
-/

namespace AxiomDesktop.Client

open Text

/-- The operations of JavaScript on the text of a line. -/
structure JavaScript where
  /-- `JSON.parse`; `none` where it throws. -/
  parse : String → Option Json
  /-- The natural number a number is equal to, by its literal. -/
  natural? : String → Option Nat

def MAX_FRAME_BYTES : Nat := 64 * 1024 * 1024

inductive ProcessError where
  | protocol (message : String)
  /-- `AcpError`; an answer of the sidecar may hold any value in its fields. -/
  | acp (code message : Json) (data : Option Json)
  | sidecarExited (code : Option Int) (signal : Option String)
  | other (message : String)

/-- What a promise of a request is settled with. -/
abbrev Settlement := Except ProcessError (Option Json)

/-- Why a response promise is settled. -/
inductive Cause where
  | response
  | timeout
  | termination
  deriving DecidableEq

/-- The write that `request` awaits before it returns the response. -/
inductive CallWrite where
  | waiting
  | done
  | failed (error : ProcessError)

/-- The two promises of a call of `request`: what it awaits, and the response it then returns. -/
structure Call where
  write : CallWrite := .waiting
  response : Option (Cause × Settlement) := none

/-- What the caller gets. -/
def Call.outcome (c : Call) : Option Settlement :=
  match c.write with
  | .waiting => none
  | .done => c.response.map Prod.snd
  | .failed error => some (.error error)

/-- Settling a promise: only the first time counts. -/
def Call.settle (c : Call) (cause : Cause) (settlement : Settlement) : Call :=
  { c with response := some (c.response.getD (cause, settlement)) }

structure PendingResponse where
  method : String
  timer : Bool

/-- `closed` is set where `terminalError` is. -/
structure AcpProcess where
  nextId : Nat := 1
  pending : Nat → Option PendingResponse := fun _ => none
  terminalError : Option ProcessError := none
  stdoutRemainder : List UInt8 := []
  /-- The calls made so far, by the id of their request. -/
  calls : Nat → Option Call := fun _ => none
  /-- A line or a frame of the sidecar was refused. -/
  framingError : Bool := false

/-- How a write begins. -/
inductive WriteStart where
  | accepted
  | notWritable
  | tooLarge

/-- One callback. -/
inductive ProcessEvent where
  | request (method : String) (timeoutMs : Nat) (write : WriteStart)
  /-- Any other write: `notify`, an answer to the sidecar, a cancellation. -/
  | notify (write : WriteStart)
  /-- The write of a request is over. -/
  | written (id : Nat) (error : Option String)
  | timeout (id : Nat) (write : WriteStart)
  /-- What calls `finish`: the sidecar exits, another write fails, the deadline of `close`. -/
  | failed (error : ProcessError)
  | stdout (chunk : List UInt8)

/-- What happens in a run, in order. -/
inductive Happening where
  | issued (id : Nat)
  | refused (error : ProcessError)
  | request (message : Json)
  | notification (message : Json)
  /-- A response is read while the process is not closed. -/
  | response (id : Nat) (settlement : Settlement)
  | timedOut (id : Nat)
  | terminated (error : ProcessError)
  | framingError

/-- A message of the sidecar that is passed on. -/
def Happening.IsMessage : Happening → Prop
  | .request _ | .notification _ => True
  | _ => False

namespace AcpProcess

variable (J : JavaScript) (p : AcpProcess)

/-! ## Ends -/

def setCall (id : Nat) (f : Call → Call) : AcpProcess :=
  { p with calls := Function.update p.calls id ((p.calls id).map f) }

def deletePending (id : Nat) : AcpProcess :=
  { p with pending := Function.update p.pending id none }

def failAll (error : ProcessError) : AcpProcess :=
  { p with
    pending := fun _ => none
    calls := fun id =>
      if (p.pending id).isSome then (p.calls id).map (·.settle .termination (.error error))
      else p.calls id }

def finish (error : ProcessError) : AcpProcess × List Happening :=
  match p.terminalError with
  | some _ => (p, [])
  | none => ({ p.failAll error with terminalError := some error }, [.terminated error])

/-- `finish` for a line or a frame. -/
def refuse (message : String) : AcpProcess × List Happening :=
  let r := p.finish (.protocol message)
  ({ r.1 with framingError := true }, if p.framingError then r.2 else r.2 ++ [.framingError])

def writeError (detail : String) : ProcessError :=
  .protocol ("could not write to AxiomCLI: " ++ detail)

/-! ## Requests -/

/-- `write` up to its first `await`, with the error it throws. -/
def startWrite (write : WriteStart) : (AcpProcess × List Happening) × Option ProcessError :=
  match p.terminalError with
  | some error => ((p, []), some error)
  | none =>
    match write with
    | .accepted => ((p, []), none)
    | .notWritable =>
      let error := .protocol "AxiomCLI input stream is not writable"
      (p.finish error, some error)
    | .tooLarge => ((p, []), some (.protocol "outgoing ACP frame exceeds the 64 MiB limit"))

/-- The `catch` of `request`. -/
def failWrite (id : Nat) (error : ProcessError) : AcpProcess :=
  (p.deletePending id).setCall id fun c => { c with write := .failed error }

/-- The promises of a request, before its write. -/
def issue (method : String) (timeoutMs : Nat) : AcpProcess :=
  { p with
    nextId := p.nextId + 1
    pending := Function.update p.pending p.nextId (some ⟨method, decide (0 < timeoutMs)⟩)
    calls := Function.update p.calls p.nextId (some {}) }

def request (method : String) (timeoutMs : Nat) (write : WriteStart) :
    AcpProcess × List Happening :=
  if p.terminalError.isSome then (p, [.refused (.protocol "AxiomCLI is not running")])
  else
    let id := p.nextId
    let started := (p.issue method timeoutMs).startWrite write
    match started.2 with
    | none => (started.1.1, .issued id :: started.1.2)
    | some error => (started.1.1.failWrite id error, .issued id :: started.1.2)

/-- What a request comes to. -/
inductive Requested (method : String) (timeoutMs : Nat) : AcpProcess × List Happening → Prop
  | refused (h : p.terminalError ≠ none) (error : ProcessError) :
      Requested method timeoutMs (p, [.refused error])
  | sent (h : p.terminalError = none) :
      Requested method timeoutMs (p.issue method timeoutMs, [.issued p.nextId])
  | notWritable (h : p.terminalError = none) (error : ProcessError) :
      Requested method timeoutMs
        (((p.issue method timeoutMs).finish error).1.failWrite p.nextId error,
          .issued p.nextId :: ((p.issue method timeoutMs).finish error).2)
  | tooLarge (h : p.terminalError = none) (error : ProcessError) :
      Requested method timeoutMs
        ((p.issue method timeoutMs).failWrite p.nextId error, [.issued p.nextId])

theorem request_cases (method : String) (timeoutMs : Nat) (write : WriteStart) :
    Requested p method timeoutMs (p.request method timeoutMs write) := by
  unfold request
  split
  · next hclosed => exact .refused (Option.isSome_iff_ne_none.mp hclosed) _
  · next hopen =>
    have hnone : p.terminalError = none := Option.not_isSome_iff_eq_none.mp hopen
    have hissue : (p.issue method timeoutMs).terminalError = none := hnone
    dsimp only
    unfold startWrite
    rw [hissue]
    cases write with
    | accepted => exact .sent hnone
    | notWritable => exact .notWritable hnone _
    | tooLarge => exact .tooLarge hnone _

/-- The callback of `stdin.write` for a request. -/
def written (id : Nat) (error : Option String) : AcpProcess × List Happening :=
  match p.calls id, error with
  | some ⟨.waiting, _⟩, none => (p.setCall id fun c => { c with write := .done }, [])
  | some ⟨.waiting, _⟩, some detail =>
    let r := p.finish (writeError detail)
    (r.1.failWrite id (r.1.terminalError.getD (writeError detail)), r.2)
  | _, _ => (p, [])

/-- The timer of a request. -/
def timeout (id : Nat) (write : WriteStart) : AcpProcess × List Happening :=
  match p.pending id with
  | some ⟨method, true⟩ =>
    let started := (p.deletePending id).startWrite write
    (started.1.1.setCall id
        (·.settle .timeout (.error (.protocol (method ++ " timed out")))),
      .timedOut id :: started.1.2)
  | _ => (p, [])

/-! ## What the sidecar writes -/

/-- The truth value of a JSON value. -/
def truthy : Json → Bool
  | .null => false
  | .bool value => value
  | .num literal => J.natural? literal ≠ some 0
  | .str value => value ≠ ""
  | .arr _ | .obj _ => true

/-- `value ?? fallback`. -/
def orElse (value : Option Json) (fallback : Json) : Json :=
  match value with
  | none | some .null => fallback
  | some value => value

def isResponse (value : Json) : Bool :=
  (value.get? "id").isSome && ((value.get? "result").isSome || (value.get? "error").isSome)

/-- The number that a response is looked up by. -/
def numericId (value : Json) : Option Nat :=
  match value.get? "id" with
  | some (.num literal) => J.natural? literal
  | _ => none

/-- What a response settles its promise with. -/
def settlementOf (value : Json) : Settlement :=
  match value.get? "error" with
  | some error =>
    if truthy J error then
      .error (.acp (orElse (error.get? "code") (.num "-32603"))
        (orElse (error.get? "message") (.str "ACP error")) (error.get? "data"))
    else .ok (value.get? "result")
  | none => .ok (value.get? "result")

def acceptResponse (id : Nat) (settlement : Settlement) : AcpProcess × List Happening :=
  let read := if p.terminalError.isSome then [] else [.response id settlement]
  match p.pending id with
  | none => (p, read)
  | some _ => ((p.deletePending id).setCall id (·.settle .response settlement), read)

/-- A request or a notification of the sidecar. -/
def Emits (value : Json) : Prop :=
  isResponse value = false ∧ ∃ method, value.get? "method" = some (.str method)

/-- What is done with a value that is not `null`. -/
def acceptValue (value : Json) : AcpProcess × List Happening :=
  if isResponse value then
    match numericId J value with
    | none => (p, [])
    | some id => p.acceptResponse id (settlementOf J value)
  else
    match value.get? "method" with
    | some (.str _) =>
      (p, [if (value.get? "id").isSome then .request value else .notification value])
    | _ => (p, [])

/-- A line that is not empty; of `null` no property can be read (`none`). -/
def acceptLine (line : String) : Option (AcpProcess × List Happening) :=
  match J.parse line with
  | none => some (p.refuse "AxiomCLI emitted malformed JSON on stdout")
  | some .null => none
  | some value => some (acceptValue J p value)

/-- `bytes.toString("utf8").replace(/\r$/, "")`. -/
def lineText (bytes : List UInt8) : String :=
  let cs := lossyChars bytes
  String.ofList (if cs.getLast? = some '\r' then cs.dropLast else cs)

/-- The segments of a chunk, each but the last with a line feed behind it. -/
def acceptSegments (p : AcpProcess) : List (List UInt8) → AcpProcess × List Happening
  | [] => (p, [])
  | segment :: rest =>
    if segment = [] ∧ rest = [] then (p, [])
    else if p.stdoutRemainder.length + segment.length > MAX_FRAME_BYTES then
      p.refuse "incoming ACP frame exceeds the 64 MiB limit"
    else
      let line := p.stdoutRemainder ++ segment
      match rest with
      | [] => ({ p with stdoutRemainder := line }, [])
      | _ :: _ =>
        let p := { p with stdoutRemainder := [] }
        if lineText line = "" then acceptSegments p rest
        else
          match acceptLine J p (lineText line) with
          -- the exception leaves the loop
          | none => (p, [])
          | some (p', os) =>
            let r := acceptSegments p' rest
            (r.1, os ++ r.2)

def LF : UInt8 := 0x0a

def acceptChunk (chunk : List UInt8) : AcpProcess × List Happening :=
  acceptSegments J p (chunk.splitOn LF)

def machine : Machine AcpProcess ProcessEvent Happening where
  step
    | p, .request method timeoutMs write => p.request method timeoutMs write
    | p, .notify write => (p.startWrite write).1
    | p, .written id error => p.written id error
    | p, .timeout id write => p.timeout id write
    | p, .failed error => p.finish error
    | p, .stdout chunk => acceptChunk J p chunk

end AcpProcess

end AxiomDesktop.Client
