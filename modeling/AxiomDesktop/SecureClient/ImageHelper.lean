import AxiomDesktop.Lib.Machine
import AxiomDesktop.Session.Records

/-!
# The image helper

`ImageSessionCache` of the secure client, with the operations that use its helper. An operation
takes the lock of the cache, checks the helper out, makes its calls over the pipe of the helper, and
puts the helper back at its end, beside a timer for an idle helper. A run is any order of operations
that get the lock, lines that the helper writes, lines that are read, ends of operations at an await
(cancelled, timed out, aborted or without a pipe) and timers (`imageMachine`). The helper answers
the requests in order, each with one terminal reply (`NativeBridge.write`).

Instants are counted in nanoseconds. What the checks of a reply make of it is up to the inputs.
-/

namespace AxiomDesktop

/-! ## The requests and the replies -/

inductive HelperRequest where
  | configure (relayOrigin accessToken : String) (maximumChargeMicrousd : Nat)
  | capabilities
  | attest
  | image (requestId : String) (stream : Bool)
  deriving DecidableEq, Repr

/-- A request, with the operation that sent it. -/
abbrev SentRequest : Type := Nat × HelperRequest

/-- A line of the helper, where it is JSON and not too long. -/
abbrev HelperLine : Type := Option Json

/-- The line is the last one of an answer: the others are the progress of a request that asked for
it. -/
def HelperRequest.terminal (request : HelperRequest) (line : HelperLine) : Bool :=
  match request with
  | .image _ true => line.bind (·.string? "event") ≠ some "image_progress"
  | _ => true

/-- The error of a reply that is none. -/
def helperError (error : Option String) : String :=
  match error with
  | some "InsufficientCredit" => "Insufficient balance. Top up your Axiom balance to continue."
  | some "UnresolvedRequests" =>
    "Earlier Chutes requests are still unresolved. They expire after 15 minutes; no new request was sent to the model."
  | some "RequestAdmissionRejected" =>
    "Chutes could not reserve this request. Try again or check your per-request price limit; no new request was sent to the model."
  | some "RuntimeUpdateRequired" =>
    "This backend requires a newer version of Axiom. Update Axiom before generating; no request was sent to the model."
  | _ => "Chutes hardware or encrypted exchange failed; request was not replayed"

/-- What `NativeBridge::receive` makes of a line. -/
def HelperLine.reply (line : HelperLine) : Except String Json :=
  match line with
  | none => .error "invalid native reply"
  | some reply =>
    if reply.get? "ok" = some (.bool true) then .ok reply
    else .error (helperError (reply.string? "error"))

/-! ## The progress of an image -/

structure NativeImageStream where
  next : Nat := 0
  last : Option ImageGenerationProgress := none
  finished : Bool := false
  deriving DecidableEq, Repr

/-- `NativeImageStream::accept`: the progress of a line, or none at the completion. -/
def NativeImageStream.accept (stream : NativeImageStream) (reply : Json) (requestId : String) :
    Except String (NativeImageStream × Option ImageGenerationProgress) :=
  if stream.finished ∨ 2048 ≤ stream.next ∨ reply.get? "request_id" ≠ some (.str requestId) ∨
      (reply.get? "sequence").bind Json.nat? ≠ some stream.next then
    .error "Image progress order or request differs"
  else if reply.string? "event" = some "image_progress" then
    match (reply.get? "progress").bind ImageGenerationProgress.ofJson? with
    | none => .error "Invalid image progress"
    | some update =>
      if ¬ update.validAfter stream.last ∨ stream.last = none ∧ update ≠ ⟨.queued, 0⟩ then
        .error "Invalid or regressing image progress"
      else .ok ({ stream with next := stream.next + 1, last := some update }, some update)
  else if reply.string? "event" = some "image_complete" ∧ stream.last = some ⟨.finishing, 99⟩ then
    .ok ({ stream with next := stream.next + 1, finished := true }, none)
  else .error "Image progress ended without completion"

/-! ## The bridge -/

structure NativeConfig where
  python : Option String := none
  script : Option String := none
  helper : Option String := none
  helperSha256 : Option String := none
  config : String
  releaseAuthorityFingerprint : Option String := none
  scriptSha256 : Option String := none
  maximumChargeMicrousd : Nat := 0
  deriving DecidableEq, Repr

/-- A helper and its pipe. What it was used for and what it was sent are kept beside it; the code
does not keep them. -/
structure NativeBridge where
  /-- The configurations that it was checked out for, with the hashes of their files. -/
  uses : List (NativeConfig × String) := []
  sent : List SentRequest := []
  /-- The requests whose terminal reply was read to its end. -/
  answered : List SentRequest := []
  /-- The requests that the helper has not answered. -/
  unanswered : List SentRequest := []
  /-- What the helper wrote, each line with the request that it answers. -/
  output : List (SentRequest × HelperLine) := []
  deriving DecidableEq

namespace NativeBridge

variable (bridge : NativeBridge)

/-- `NativeBridge::spawn`. -/
def spawn (config : NativeConfig) (spawned : Bool) : Except String NativeBridge :=
  match config.helper, config.python, config.script with
  | some _, none, none | none, some _, some _ =>
    if spawned then .ok {} else .error "could not launch local encryption helper"
  | _, _, _ => .error "ambiguous native helper installation"

/-- `NativeBridge::send`. -/
def send (request : SentRequest) : NativeBridge :=
  { bridge with sent := bridge.sent ++ [request], unanswered := bridge.unanswered ++ [request] }

/-- The helper writes a line of its answer to the first request that it has not answered. -/
def write (line : HelperLine) : NativeBridge :=
  match bridge.unanswered with
  | [] => bridge
  | request :: unanswered =>
    { bridge with
      output := bridge.output ++ [(request, line)]
      unanswered := if request.2.terminal line then unanswered else request :: unanswered }

/-- A line was read. -/
def read (request : SentRequest) (line : HelperLine) (output : List (SentRequest × HelperLine)) :
    NativeBridge :=
  { bridge with
    output
    answered := if request.2.terminal line then bridge.answered ++ [request] else bridge.answered }

end NativeBridge

/-! ## The cache -/

/-- Five minutes. -/
def IMAGE_HELPER_IDLE_TIMEOUT : Nat := 5 * 60 * 1000000000

structure CachedImageBridge where
  bridge : NativeBridge
  native : NativeConfig
  configSha256 : String
  idleSince : Nat
  /-- How many entries there were before; the code does not count them. -/
  entry : Nat
  deriving DecidableEq

/-- A timer, which has the instant at which its entry became idle. -/
structure IdleTimer where
  idleSince : Nat
  entry : Nat
  deriving DecidableEq, Repr

inductive ImageOperation where
  | capabilities
  | image (progress : Bool)
  deriving DecidableEq, Repr

/-- The call that an operation awaits. -/
inductive ImageAwait where
  | configure
  | capabilities
  | attest
  | image
  | stream (requestId : String) (stream : NativeImageStream)
  deriving DecidableEq, Repr

/-- The operation that has the lock. -/
structure ImageTask where
  task : Nat
  operation : ImageOperation
  native : NativeConfig
  configSha256 : String
  bridge : NativeBridge
  /-- The request of the call. -/
  own : SentRequest
  await : ImageAwait
  deriving DecidableEq

structure ImageSession where
  idle : Option CachedImageBridge := none
  holder : Option ImageTask := none
  timers : List IdleTimer := []
  tasks : Nat := 0
  retained : Nat := 0
  now : Nat := 0

inductive ImageInput where
  /-- An operation gets the lock: what `std::fs::read` gives of the configuration, and whether the
  helper of the cache runs and a new one can be launched. -/
  | lock (operation : ImageOperation) (native : NativeConfig) (file : Option (List UInt8))
    (alive spawned : Bool)
  /-- A helper writes a line. -/
  | write (line : HelperLine)
  /-- The operation reads a line. What follows the last line of an answer may fail, and has a new
  request id where it asks for an image. -/
  | receive (valid : Bool) (requestId : String)
  /-- The operation ends at its await. -/
  | abandon
  /-- A timer gets the lock. -/
  | expire (timer : Nat)
  | tick (nanoseconds : Nat)

inductive ImageEvent where
  /-- An operation takes a line as an answer to its own request. -/
  | took (own request : SentRequest)
  | retained (cached : CachedImageBridge)
  /-- A timer removes an entry. -/
  | removed (timer : IdleTimer) (cached : CachedImageBridge)
  deriving DecidableEq

abbrev ImageStep := ImageSession × List ImageEvent

/-- What a client has: the hash, and the relay and the credential that it was made with. -/
structure ImageClient where
  sha256 : List UInt8 → String
  relayOrigin : String
  credential : String

namespace ImageClient

variable (c : ImageClient)

/-- `checkout_image_bridge` up to its first await: the helper of the cache, or a new one that is yet
to be configured. -/
def checkoutImageBridge (now : Nat) (native : NativeConfig) (file : Option (List UInt8))
    (alive spawned : Bool) (cached : Option CachedImageBridge) :
    Except String (NativeBridge × String × Bool) :=
  match file with
  | none => .error "image helper configuration unavailable"
  | some configRaw =>
    if 64 * 1024 < configRaw.length then .error "image helper configuration too large"
    else
      let configSha256 := c.sha256 configRaw
      let cached := cached.filter fun cached =>
        cached.native = native ∧ cached.configSha256 = configSha256 ∧
          now - cached.idleSince < IMAGE_HELPER_IDLE_TIMEOUT
      match cached, alive with
      | some cached, true => .ok (cached.bridge, configSha256, true)
      | _, _ => (NativeBridge.spawn native spawned).map fun bridge => (bridge, configSha256, false)

end ImageClient

namespace ImageSession

variable (s : ImageSession)

/-- A request is sent, and its answer awaited. -/
def call (task : ImageTask) (request : HelperRequest) (await : ImageAwait) : ImageStep :=
  let own := (task.task, request)
  ({ s with holder := some { task with bridge := task.bridge.send own, own, await } }, [])

/-- The first call over a helper that is configured. -/
def first (task : ImageTask) : ImageStep :=
  match task.operation with
  | .capabilities => s.call task .capabilities .capabilities
  | .image _ => s.call task .attest .attest

/-- The operation ends, and drops its helper. -/
def drop : ImageSession := { s with holder := none }

/-- `ImageSessionCache::retain`, at the end of an operation. -/
def retain (task : ImageTask) : ImageStep :=
  let cached : CachedImageBridge :=
    { bridge := task.bridge, native := task.native, configSha256 := task.configSha256
      idleSince := s.now, entry := s.retained }
  ({ s with
      idle := some cached
      holder := none
      timers := s.timers ++ [⟨cached.idleSince, cached.entry⟩]
      retained := s.retained + 1 }, [.retained cached])

/-- `image_capabilities` and `image_operation_on_installation` from the lock to the first await. -/
def lock (c : ImageClient) (operation : ImageOperation) (native : NativeConfig)
    (file : Option (List UInt8)) (alive spawned : Bool) : ImageStep :=
  let cached := s.idle
  let next := { s with idle := none, tasks := s.tasks + 1 }
  match c.checkoutImageBridge s.now native file alive spawned cached with
  | .error _ => (next, [])
  | .ok (bridge, configSha256, configured) =>
    let task : ImageTask :=
      { task := s.tasks, operation, native, configSha256
        bridge := { bridge with uses := bridge.uses ++ [(native, configSha256)] }
        own := (s.tasks, .attest), await := .attest }
    -- The first call replaces the last two.
    if configured then next.first task
    else
      next.call task (.configure c.relayOrigin c.credential native.maximumChargeMicrousd) .configure

/-- The rest of the operation up to its next await, where it has a reply. -/
def resume (task : ImageTask) (reply : Json) (valid : Bool) (requestId : String) : ImageStep :=
  match task.await with
  | .configure => s.first task
  | .capabilities | .image => if valid then s.retain task else (s.drop, [])
  | .attest =>
    if valid then
      match task.operation with
      | .image true => s.call task (.image requestId true) (.stream requestId {})
      | _ => s.call task (.image requestId false) .image
    else (s.drop, [])
  | .stream requestId stream =>
    match stream.accept reply requestId with
    | .error _ => (s.drop, [])
    | .ok (stream, some _) =>
      ({ s with holder := some { task with await := .stream requestId stream } }, [])
    | .ok (_, none) => if valid then s.retain task else (s.drop, [])

/-- The operation reads the next line. -/
def receive (valid : Bool) (requestId : String) : ImageStep :=
  match s.holder with
  | none => (s, [])
  | some task =>
    match task.bridge.output with
    | [] => (s, [])
    | (request, line) :: output =>
      let task := { task with bridge := task.bridge.read request line output }
      let (next, events) := match line.reply with
        | .error _ => (s.drop, [])
        | .ok reply => s.resume task reply valid requestId
      (next, .took task.own request :: events)

/-- A timer goes off. It waits for the lock. -/
def expire (timer : Nat) : ImageStep :=
  match s.holder, s.timers[timer]? with
  | none, some t =>
    let next := { s with timers := s.timers.eraseIdx timer }
    match s.idle with
    | some cached =>
      if cached.idleSince = t.idleSince then ({ next with idle := none }, [.removed t cached])
      else (next, [])
    | none => (next, [])
  | _, _ => (s, [])

def step (c : ImageClient) (input : ImageInput) : ImageStep :=
  match input with
  | .lock operation native file alive spawned =>
    if s.holder.isSome then (s, []) else s.lock c operation native file alive spawned
  | .write line =>
    ({ s with
        idle := s.idle.map fun cached => { cached with bridge := cached.bridge.write line }
        holder := s.holder.map fun task => { task with bridge := task.bridge.write line } }, [])
  | .receive valid requestId => s.receive valid requestId
  | .abandon => (s.drop, [])
  | .expire timer => s.expire timer
  | .tick nanoseconds => ({ s with now := s.now + nanoseconds }, [])

end ImageSession

def imageMachine (c : ImageClient) : Machine ImageSession ImageInput ImageEvent where
  step s input := s.step c input

end AxiomDesktop
