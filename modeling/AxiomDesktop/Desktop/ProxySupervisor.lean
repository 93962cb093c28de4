import AxiomDesktop.Client.Protocol
import AxiomDesktop.Lib.Machine
import Mathlib.Logic.Function.Basic

/-!
# The supervisor of the local proxy

`ProxySupervisor` of the desktop, which launches the local proxy as a child process, with
a token that it makes for it. The supervisor runs one callback at a time; a `ProxyInput`
is one, be it a call, what follows an await, or an event of a child, and a run is any
order of them (`proxyMachine`).

A call of `stop` waits for the children that it and the calls before it asked to terminate; at most
one call of `start` is under way (`StartTask`). What a child has of its own, its handlers keep
(`ProxyChild`).
-/

namespace AxiomDesktop

def MAX_LINE : Nat := 64 * 1024

/-! ## The published state -/

inductive ProxyStatus where
  | stopped
  | starting
  | running
  | stopping
  | failed
  deriving DecidableEq, Repr

structure ProxyEvidence where
  requestId : String
  modelId : String
  providerId : String
  protocol : String
  verifiedAt : Int
  fingerprint : String
  responseVerified : Bool
  deriving DecidableEq, Repr

structure ProxyState where
  revision : Nat := 0
  status : ProxyStatus := .stopped
  accountId : Option String := none
  port : Nat := 8484
  baseUrl : Option String := none
  completedRequests : Nat := 0
  totalTokens : Int := 0
  errors : List (String × Nat) := []
  evidence : Option ProxyEvidence := none
  error : Option String := none
  deriving DecidableEq, Repr

/-- What the supervisor has of JavaScript. -/
structure ProxyHost where
  /-- `JSON.parse`. -/
  parse : String → Option Json
  /-- The value of a number's literal, where it is a safe integer. -/
  safeInteger : String → Option Int

/-- A character of an identifier. -/
def identifierChar (c : Char) : Bool :=
  ('a' ≤ c && c ≤ 'z') || ('A' ≤ c && c ≤ 'Z') || ('0' ≤ c && c ≤ '9') || c = '_' || c = '.' ||
    c = ':' || c = '/' || c = '-'

/-- `identifier`. -/
def identifier? (value : Option Json) : Option String :=
  match value with
  | some (.str text) =>
    if 1 ≤ text.length ∧ text.length ≤ 256 ∧ text.toList.all identifierChar then some text else none
  | _ => none

/-- `counter`. -/
def ProxyHost.counter? (host : ProxyHost) (value : Option Json) : Option Int :=
  match value with
  | some (.num literal) => (host.safeInteger literal).filter (0 ≤ ·)
  | _ => none

/-- The fingerprint of a key. -/
def fingerprint? (value : Option Json) : Option String :=
  match value with
  | some (.str text) =>
    if 32 ≤ text.length ∧ text.length ≤ 128 ∧ text.toList.all (fun c =>
        ('a' ≤ c && c ≤ 'f') || ('A' ≤ c && c ≤ 'F') || ('0' ≤ c && c ≤ '9')) then some text
    else none
  | _ => none

/-- What `acceptMetadata` makes of the state, where it publishes one. -/
def acceptMetadata (host : ProxyHost) (now : Nat) (data : Json) (state : ProxyState) :
    Option ProxyState :=
  let event := data.string? "event"
  let verified : Option ProxyEvidence := do
    let requestId ← identifier? (data.get? "request_id")
    let modelId ← identifier? (data.get? "model_id")
    let providerId ← identifier? (data.get? "provider_id")
    let protocol ← identifier? (data.get? "e2ee_protocol")
    let verifiedAt ← host.counter? (data.get? "verified_at_unix_seconds")
    let fingerprint ← fingerprint? (data.get? "model_key_fingerprint")
    some ⟨requestId, modelId, providerId, protocol, verifiedAt, fingerprint, false⟩
  let completed : Option (String × Int) := do
    let requestId ← identifier? (data.get? "request_id")
    let tokens ← host.counter? (data.get? "total_tokens")
    if data.string? "terminal" = some "completed" then some (requestId, tokens) else none
  match event with
  | some "security_verified" => verified.map fun evidence => { state with evidence := some evidence }
  | some "request_terminal" =>
    completed.map fun (requestId, tokens) =>
      let total := state.totalTokens + tokens
      { state with
        completedRequests := state.completedRequests + 1
        totalTokens := if total ≤ Client.MAX_SAFE_INTEGER then total else state.totalTokens
        evidence := state.evidence.map fun evidence =>
          if evidence.requestId = requestId then { evidence with responseVerified := true }
          else evidence }
  | some "request_failed" | some "security_failed" =>
    (identifier? (data.get? "failure_kind")).map fun kind =>
      { state with errors := ((kind, now) :: state.errors).take 20 }
  | _ => none

/-! ## The supervisor -/

structure ProxyChild where
  port : Nat
  accountId : String
  runtimeId : String
  token : String
  generation : Nat
  /-- Its handlers are there. -/
  attached : Bool
  /-- It was asked to terminate. -/
  asked : Bool := false
  exited : Bool := false
  closed : Bool := false
  ready : Bool := false
  stdout : String := ""
  stderr : String := ""
  /-- The timer of its startup runs. -/
  timing : Bool := false
  /-- The promise of its startup is settled, and how. -/
  settled : Option Bool := none
  deriving DecidableEq, Repr

/-- Where a call of `start` is. -/
inductive StartStage where
  /-- Behind its own call of `stop`. -/
  | stopping (ticket : Nat)
  | launching (token : String)
  /-- The launch was cancelled, and the child is asked to terminate. -/
  | terminating (child : Nat)
  | waiting (child : Nat)
  /-- The start failed, and the call of `stop` is under way that follows. -/
  | failing (ticket : Nat)
  deriving DecidableEq, Repr

structure StartTask where
  port : Nat
  accountId : String
  runtimeId : String
  generation : Nat
  stage : StartStage
  deriving DecidableEq, Repr

/-- A call of `stop` that waits for children. -/
structure StopTask where
  generation : Nat
  awaiting : List Nat
  deriving DecidableEq, Repr

structure ProxySupervisor where
  state : ProxyState := {}
  context : Option (String × String) := none
  generation : Nat := 0
  child : Option Nat := none
  token : Option String := none
  disposed : Bool := false
  pendingStart : Option StartTask := none
  /-- The children that `stopping` waits for. -/
  stopping : List Nat := []
  stops : Nat → Option StopTask := fun _ => none
  tickets : Nat := 0
  children : Nat → Option ProxyChild := fun _ => none
  launched : Nat := 0

inductive ProxyInput where
  | setAccount (accountId runtimeId : Option String)
  | copyToken (accountId runtimeId : String)
  | start (port : Nat) (accountId runtimeId : String)
  | stop
  | dispose
  /-- The rest of a call of `stop`. -/
  | stopped (ticket : Nat)
  /-- `startOnce` behind its call of `stop`, with the token that it makes. -/
  | prepare (token : String)
  /-- The launch ends, with a child that may have exited already. -/
  | launch (exited : Option Bool)
  /-- `startOnce` behind a child that it asked to terminate. -/
  | terminated
  /-- `startOnce` behind the promise of the startup. -/
  | settle
  /-- `startOnce` behind the call of `stop` of a start that failed. -/
  | giveUp
  | stdout (child : Nat) (chunk : String)
  | stderr (child : Nat) (chunk : String) (now : Nat)
  | failed (child : Nat)
  | exited (child : Nat)
  | closed (child : Nat)
  | timer (child : Nat)
  deriving DecidableEq, Repr

inductive ProxyEvent where
  | published (state : ProxyState)
  | copied (token : String)
  | launched (child : Nat)
  | asked (child : Nat)
  deriving DecidableEq, Repr

/-- What one callback leaves, with what it did. -/
abbrev ProxyStep := ProxySupervisor × List ProxyEvent

namespace ProxySupervisor

variable (s : ProxySupervisor)

/-- `publish`. -/
def publish (state : ProxyState) : ProxyStep :=
  let state := { state with revision := s.state.revision + 1 }
  ({ s with state }, [.published state])

/-- The account and the runtime of a context, where there are both. -/
def contextOf (accountId runtimeId : Option String) : Option (String × String) :=
  match accountId, runtimeId with
  | some accountId, some runtimeId =>
    if accountId ≠ "" ∧ runtimeId ≠ "" then some (accountId, runtimeId) else none
  | _, _ => none

/-- `requireAccount` does not throw. -/
def HasAccount (accountId runtimeId : String) : Prop :=
  s.disposed = false ∧ s.context = some (accountId, runtimeId)

instance (accountId runtimeId : String) : Decidable (s.HasAccount accountId runtimeId) :=
  inferInstanceAs (Decidable (_ ∧ _))

/-- `terminate`: a child that has not exited is asked to terminate. -/
def terminate (child : Nat) : ProxyStep :=
  match s.children child with
  | none => (s, [])
  | some c =>
    if c.exited then (s, [])
    else
      ({ s with children := Function.update s.children child (some { c with asked := true }) },
        [.asked child])

/-- What `stop` does before it waits. -/
def stopNow : ProxyStep :=
  let cleared := { s with generation := s.generation + 1, token := none, child := none }
  let (next, events) :=
    match s.child with
    | none => (cleared, [])
    | some child =>
      let (next, published) := cleared.publish { s.state with status := .stopping, baseUrl := none }
      let (next, asked) := next.terminate child
      ({ next with stopping := if asked = [] then s.stopping else s.stopping ++ [child] },
        published ++ asked)
  ({ next with
      stops := Function.update next.stops s.tickets (some ⟨next.generation, next.stopping⟩)
      tickets := s.tickets + 1 }, events)

/-- What `startOnce` does where it fails. -/
def rejectStart (task : StartTask) : ProxyStep :=
  if task.generation = s.generation then
    let (next, events) := s.stopNow
    ({ next with
        pendingStart := some { task with generation := next.generation, stage := .failing s.tickets } },
      events)
  else ({ s with pendingStart := none }, [])

/-- A child is the one that the supervisor has. -/
def Owns (child : Nat) (c : ProxyChild) : Prop := s.child = some child ∧ c.generation = s.generation

instance (child : Nat) (c : ProxyChild) : Decidable (s.Owns child c) :=
  inferInstanceAs (Decidable (_ ∧ _))

/-- `fail`, of a child. -/
def failChild (child : Nat) (c : ProxyChild) (message : String) : ProxyStep :=
  let c := { c with timing := false, settled := some (c.settled.getD false) }
  if s.Owns child c then
    let (next, events) := { s with token := none }.publish
      { s.state with status := .failed, baseUrl := none, error := some message }
    ({ next with children := Function.update s.children child (some { c with asked := true }) },
      events ++ [.asked child])
  else ({ s with children := Function.update s.children child (some c) }, [])

/-- The text before the first line end and behind it. -/
def splitLine : List Char → Option (List Char × List Char)
  | [] => none
  | c :: cs =>
    if c = '\n' then some ([], cs) else (splitLine cs).map fun parts => (c :: parts.1, parts.2)

/-- The lines of a text, and what follows the last one. -/
def splitLines : List Char → List (List Char) × List Char
  | [] => ([], [])
  | c :: cs =>
    let (lines, rest) := splitLines cs
    if c = '\n' then ([] :: lines, rest)
    else
      match lines with
      | [] => ([], c :: rest)
      | line :: lines => ((c :: line) :: lines, rest)

/-- A child reports that it is ready on the port. -/
def reportsReady (port : Nat) (data : Json) : Bool :=
  data.string? "event" = some "ready" &&
    data.string? "address" = some ("127.0.0.1:" ++ toString port) &&
    data.string? "openai_base_url" = some ("http://127.0.0.1:" ++ toString port ++ "/v1") &&
    data.string? "security" = some "attestation_per_request"

def INVALID_STARTUP : String := "The native proxy returned invalid startup data."

/-- What a child that is owned has written to its output. -/
def readStdout (host : ProxyHost) (child : Nat) (c : ProxyChild) (chunk : String) : ProxyStep :=
  let c := { c with stdout := c.stdout ++ chunk }
  if c.stdout.utf8ByteSize > MAX_LINE then s.failChild child c INVALID_STARTUP
  else
    match splitLine c.stdout.toList with
    | none => ({ s with children := Function.update s.children child (some c) }, [])
    | some (line, rest) =>
      let message := INVALID_STARTUP ++ " Update Axiom and try again."
      match host.parse (String.ofList line) with
      | none => s.failChild child c message
      | some data =>
        let c := { c with stdout := String.ofList rest }
        if c.ready ∨ ¬ reportsReady c.port data ∨ ¬ rest.all Client.isJsWhitespace then
          s.failChild child c message
        else
          let c := { c with ready := true, timing := false, settled := some (c.settled.getD true) }
          { s with children := Function.update s.children child (some c) }.publish
            { s.state with status := .running, baseUrl := data.string? "openai_base_url", error := none }

/-- The lines that a child has written to its status output. -/
def readLines (host : ProxyHost) (now : Nat) : List (List Char) → ProxySupervisor → ProxyStep
  | [], s => (s, [])
  | line :: lines, s =>
    let (next, events) :=
      match (host.parse (String.ofList line)).bind fun data => acceptMetadata host now data s.state with
      | some state => s.publish state
      | none => (s, [])
    let (last, more) := readLines host now lines next
    (last, events ++ more)

def readStderr (host : ProxyHost) (child : Nat) (c : ProxyChild) (chunk : String) (now : Nat) :
    ProxyStep :=
  let c := { c with stderr := c.stderr ++ chunk }
  if c.stderr.utf8ByteSize > MAX_LINE then
    s.failChild child c "The native proxy exceeded its status output limit."
  else
    let (lines, rest) := splitLines c.stderr.toList
    let c := { c with stderr := String.ofList rest }
    readLines host now lines { s with children := Function.update s.children child (some c) }

/-- A child is gone. -/
def closeChild (child : Nat) (c : ProxyChild) : ProxyStep :=
  let owned := s.Owns child c
  let c :=
    { c with
      closed := true
      timing := false
      settled := if c.ready then c.settled else some (c.settled.getD false) }
  let next := { s with children := Function.update s.children child (some c) }
  if owned then
    { next with child := none, token := none }.publish
      { s.state with
        status := .failed
        baseUrl := none
        error := some ("The proxy stopped unexpectedly. Check your account and whether the port is " ++
          "already in use.") }
  else (next, [])

/-- A call, of the ones that the supervisor has. -/
def call (input : ProxyInput) : ProxyStep :=
  match input with
  | .setAccount accountId runtimeId =>
    let context := contextOf accountId runtimeId
    if context = s.context then (s, [])
    else
      let (next, events) := { s with context }.stopNow
      let (next, published) := next.publish { accountId := context.map (·.1) }
      (next, events ++ published)
  | .copyToken accountId runtimeId =>
    if s.HasAccount accountId runtimeId ∧ s.state.status = .running then
      match s.token with
      | some token => (s, if token = "" then [] else [.copied token])
      | none => (s, [])
    else (s, [])
  | .start port accountId runtimeId =>
    if s.HasAccount accountId runtimeId ∧ 1 ≤ port ∧ port ≤ 65535 ∧ s.pendingStart = none then
      let (next, events) := s.stopNow
      ({ next with
          pendingStart := some ⟨port, accountId, runtimeId, next.generation, .stopping s.tickets⟩ },
        events)
    else (s, [])
  | .stop => s.stopNow
  | .dispose => { s with disposed := true }.stopNow
  | _ => (s, [])

/-- `startOnce` goes on. -/
def goOn (task : StartTask) (input : ProxyInput) : ProxyStep :=
  match input, task.stage with
  | .prepare token, .stopping ticket =>
    if (s.stops ticket).isSome then (s, [])
    else if task.generation ≠ s.generation ∨ ¬ s.HasAccount task.accountId task.runtimeId then
      ({ s with pendingStart := none }, [])
    else
      { s with pendingStart := some { task with stage := .launching token } }.publish
        { accountId := some task.accountId, port := task.port, status := .starting }
  | .launch none, .launching _ => s.rejectStart task
  | .launch (some exited), .launching token =>
    let c : ProxyChild :=
      { port := task.port, accountId := task.accountId, runtimeId := task.runtimeId, token
        generation := task.generation, attached := false, exited }
    let launched := { s with launched := s.launched + 1 }
    if task.generation ≠ s.generation ∨ s.disposed then
      let (next, events) :=
        { launched with
          children := Function.update s.children s.launched (some c)
          pendingStart := some { task with stage := .terminating s.launched } }.terminate s.launched
      (next, .launched s.launched :: events)
    else if ¬ s.HasAccount task.accountId task.runtimeId then
      let (next, events) :=
        { launched with children := Function.update s.children s.launched (some c) }.rejectStart task
      (next, .launched s.launched :: events)
    else
      ({ launched with
          children := Function.update s.children s.launched
            (some { c with attached := true, timing := true })
          child := some s.launched
          token := some token
          pendingStart := some { task with stage := .waiting s.launched } },
        [.launched s.launched])
  | .terminated, .terminating child =>
    if ∃ c ∈ s.children child, c.closed ∨ c.asked = false then s.rejectStart task else (s, [])
  | .settle, .waiting child =>
    match (s.children child).bind (·.settled) with
    | none => (s, [])
    | some true =>
      if s.HasAccount task.accountId task.runtimeId ∧ task.generation = s.generation then
        ({ s with pendingStart := none }, [])
      else s.rejectStart task
    | some false => s.rejectStart task
  | .giveUp, .failing ticket =>
    if (s.stops ticket).isSome then (s, [])
    else
      let next := { s with pendingStart := none }
      if task.generation = s.generation then
        next.publish
          { s.state with
            status := .failed
            error := some ("Could not start the proxy. Check your account, update the native app, " ++
              "or try a different port.") }
      else (next, [])
  | _, _ => (s, [])

/-- An event of a child. -/
def childEvent (host : ProxyHost) (child : Nat) (c : ProxyChild) (input : ProxyInput) : ProxyStep :=
  match input with
  | .stdout _ chunk => if s.Owns child c then s.readStdout host child c chunk else (s, [])
  | .stderr _ chunk now => if s.Owns child c then s.readStderr host child c chunk now else (s, [])
  | .failed _ =>
    s.failChild child c "Could not launch the native proxy. Rebuild or reinstall Axiom."
  | .timer _ =>
    if c.timing then
      s.failChild child c "The proxy did not become ready. Check your account and try again."
    else (s, [])
  | _ => (s, [])

/-- One callback. -/
def step (host : ProxyHost) (input : ProxyInput) : ProxyStep :=
  match input with
  | .setAccount .. | .copyToken .. | .start .. | .stop | .dispose => s.call input
  | .stopped ticket =>
    match s.stops ticket with
    | none => (s, [])
    | some task =>
      if ∀ child ∈ task.awaiting, ∀ c ∈ s.children child, c.closed then
        let next := { s with stops := Function.update s.stops ticket none }
        if task.generation = s.generation then
          next.publish { s.state with status := .stopped, baseUrl := none, error := none }
        else (next, [])
      else (s, [])
  | .prepare _ | .launch _ | .terminated | .settle | .giveUp =>
    match s.pendingStart with
    | none => (s, [])
    | some task => s.goOn task input
  | .exited child =>
    match s.children child with
    | none => (s, [])
    | some c =>
      ({ s with children := Function.update s.children child (some { c with exited := true }) }, [])
  | .closed child =>
    match s.children child with
    | none => (s, [])
    | some c =>
      if c.exited = false ∨ c.closed then (s, [])
      else if c.attached then s.closeChild child c
      else ({ s with children := Function.update s.children child (some { c with closed := true }) }, [])
  | .stdout child _ | .stderr child _ _ | .failed child | .timer child =>
    match s.children child with
    | none => (s, [])
    | some c => if c.attached then s.childEvent host child c input else (s, [])

end ProxySupervisor

def proxyMachine (host : ProxyHost) : Machine ProxySupervisor ProxyInput ProxyEvent where
  step s input := s.step host input

end AxiomDesktop
