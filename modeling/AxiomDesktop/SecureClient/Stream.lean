import AxiomDesktop.SecureClient.Transcript

/-!
# The client's side of a stream

`StreamState`, the state machine that takes the events of a relay stream (`accept`), and `stream`,
the call around it: it feeds the events in, asks for the response when the stream is over
(`finish`), and only then emits the events that were held back.

Text is emitted while it arrives. Tool calls, usage and success wait in `verifiedEvents`
until the receipt, the run's completion and the end of the stream have all been seen.
-/

namespace AxiomDesktop

namespace Near

open SecureClientError (invalid)

structure StreamState where
  expectedRequestHash : String
  expectedSigningAddress : String
  expectedModel : String
  runId : Option String := none
  responseId : Option String := none
  nextSequence : Option Nat := some 1
  text : String := ""
  reasoning : String := ""
  refusal : String := ""
  toolCalls : ToolCallAccumulator := {}
  usage : Option Usage := none
  finishReason : Option FinishReason := none
  verifiedEvents : List ProviderEvent := []
  messageCompleted : Bool := false
  runCompleted : Bool := false
  deriving Repr

/-- `StreamState::new`. -/
def StreamState.new (requestHash signingAddress model : String) : StreamState :=
  { expectedRequestHash := requestHash, expectedSigningAddress := signingAddress,
    expectedModel := model }

/-- The state machine, and what it has sent to the caller. -/
structure Feed where
  state : StreamState
  sent : List ProviderEvent := []
  deriving Repr

/-- `send`: the sink takes the event unless it is closed or the call is cancelled. -/
def send (sink : Nat → Bool) (event : ProviderEvent) : Fallible SecureClientError Feed PUnit := do
  let feed ← get
  Fallible.failIf (sink feed.sent.length = false) .stopped
  set { feed with sent := feed.sent ++ [event] }

/-- `StreamState::require_run`. -/
def requireRun (runId : String) : Fallible SecureClientError StreamState PUnit := do
  let s ← get
  Fallible.failIf (s.runId ≠ some runId) (invalid "relay event run ID is inconsistent")

/-- A part of `accept` that only works on the state machine. -/
def onState {α : Type} (x : Fallible SecureClientError StreamState α) :
    Fallible SecureClientError Feed α :=
  Fallible.focus (·.state) (fun state feed => { feed with state }) x

section
variable (P : Primitives)

/-- The sequence checks of a delta, and its response ID. -/
def acceptSequence (payload : DeltaPayload) : Fallible SecureClientError StreamState PUnit := do
  requireRun payload.runId
  let s ← get
  Fallible.failIf (s.messageCompleted = true)
    (invalid "relay emitted a delta after message completion")
  Fallible.failIf (s.nextSequence.any (payload.sequence.toNat ≠ ·))
    (invalid "relay event sequence is invalid")
  Fallible.failIf (payload.sequence.toNat + 1 ≥ 2 ^ 64)
    (invalid "relay event sequence overflowed")
  set { s with nextSequence := some (payload.sequence.toNat + 1) }
  Fallible.focus (·.responseId) (fun responseId s => { s with responseId })
    (keepStable payload.responseId validateRunId "NEAR relay delta changed its response ID")

/-- A fragment of the text, the reasoning or the refusal: decrypted, appended and sent. -/
def acceptFragment (sink : Nat → Bool) (target : StreamState → String)
    (write : String → StreamState → StreamState) (event : String → ProviderEvent)
    (fragment : Option CiphertextHex) : Fallible SecureClientError Feed PUnit :=
  match fragment with
  | none => pure ⟨⟩
  | some ciphertext => do
    let value ← Fallible.ofResult (decrypt P ciphertext)
    onState (Fallible.focus target write (appendBounded value))
    send sink (event value)

/-- A fragment of a tool call: decrypted, joined to its call, and held back. -/
def acceptToolCall (encrypted : EncryptedToolCallDelta) :
    Fallible SecureClientError StreamState PUnit := do
  let name ← Fallible.ofResult (decryptOptional P (encrypted.function.bind (·.encryptedName)))
  let arguments ← Fallible.ofResult
    (decryptOptional P (encrypted.function.bind (·.encryptedArguments)))
  let delta : ToolCallDelta :=
    { index := encrypted.index, id := encrypted.id, kind := encrypted.kind, name, arguments }
  Fallible.focus (·.toolCalls) (fun toolCalls s => { s with toolCalls })
    (pushCall delta "relay tool-call fragments are invalid")
  modify fun s => { s with verifiedEvents := s.verifiedEvents ++ [.toolCallDelta delta] }

/-- The `Delta` arm of `accept`. -/
def acceptDelta (sink : Nat → Bool) (payload : DeltaPayload) :
    Fallible SecureClientError Feed PUnit := do
  onState (acceptSequence payload)
  acceptFragment P sink (·.text) (fun text s => { s with text }) .textDelta payload.encryptedDelta
  acceptFragment P sink (·.reasoning) (fun reasoning s => { s with reasoning }) .reasoningDelta
    payload.encryptedReasoningDelta
  acceptFragment P sink (·.refusal) (fun refusal s => { s with refusal }) .refusalDelta
    payload.encryptedRefusalDelta
  onState (payload.encryptedToolCalls.forM (acceptToolCall P))

/-- `StreamState::provisional_response`: the response the relay's events make. -/
def provisionalResponse (s : StreamState) (usage : Usage) (finishReason : FinishReason) :
    Except SecureClientError InferenceResponse := do
  let toolCalls ← s.toolCalls.finish.mapError fun _ => invalid "relay tool-call stream is incomplete"
  validateCalls P toolCalls
  validateFinishShape finishReason toolCalls
  pure
    { assistant := { text := s.text, reasoning := none, toolCalls }
      reasoning := nonempty s.reasoning
      refusal := nonempty s.refusal
      usage
      finishReason := some finishReason }

/-- The checks of a completion: the receipt, the signed transcript, and that the relay's stream
agrees with it. The result is the reported usage and reason. -/
def checkCompletion (s : StreamState) (payload : CompletedPayload) :
    Except SecureClientError (Usage × FinishReason) :=
  match payload.proof with
  | none => .error (invalid "NEAR stream omitted its signed receipt")
  | some value => do
    let (proof, rawBody) ← verifyNearProof P value s.expectedRequestHash s.expectedSigningAddress
      s.expectedModel
    ensure (s.responseId.all (· = proof.chatId))
      "NEAR stream receipt chat ID does not match provisional deltas"
    let verified ← parseRawStream P rawBody
    ensure (verified.chatId == proof.chatId && verified.model.all (· = s.expectedModel))
      "NEAR stream receipt metadata does not match its response bytes"
    ensure (s.nextSequence.getD 1 ≠ 0) "relay sequence state is invalid"
    ensure (verified.sequenceCount == s.nextSequence.getD 1 - 1)
      "relay stream delta count does not match the signed NEAR response"
    let reason ← parseFinishReason payload.finishReason
    let usage ← normalizeUsage payload.usage
    let provisional ← provisionalResponse P s usage reason
    ensure (provisional = verified.response) "relay stream does not match the signed NEAR response"
    pure (usage, reason)

/-- The `MessageCompleted` arm of `accept`. -/
def acceptCompletion (payload : CompletedPayload) :
    Fallible SecureClientError StreamState PUnit := do
  requireRun payload.runId
  let s ← get
  Fallible.failIf (s.messageCompleted = true) (invalid "relay message completion is duplicated")
  let (usage, reason) ← Fallible.ofResult (checkCompletion P s payload)
  modify fun s =>
    { s with
      verifiedEvents := s.verifiedEvents ++
        [.usage usage.inputTokens usage.outputTokens, .finished reason]
      usage := some usage
      finishReason := some reason
      messageCompleted := true }

/-- The arms of `accept`. -/
def acceptEvent (sink : Nat → Bool) (event : RelayEvent) : Fallible SecureClientError Feed PUnit :=
  match event with
  | .finalizing payload => onState (requireRun payload.runId)
  | .accounting usage => do
    onState (requireRun usage.requestId)
    Fallible.failIf (usage.validateCounters = false ∨ usage.responseVerified = true)
      (invalid "invalid operational accounting")
    send sink (.accounting usage)
  | .runCreated payload => do
    let feed ← get
    Fallible.failIf
      (feed.state.runId.isSome = true ∨ payload.inferenceEncryption ≠ INFERENCE_ENCRYPTION)
      (invalid "relay run creation contract is invalid")
    let _ ← Fallible.ofResult (validateRunId payload.runId)
    onState (modify fun s => { s with runId := some payload.runId })
    send sink (.status true "Attested end-to-end encrypted inference connected")
  | .delta payload => acceptDelta P sink payload
  | .messageCompleted payload => onState (acceptCompletion P payload)
  | .runCompleted payload =>
    onState do
      requireRun payload.runId
      let s ← get
      Fallible.failIf (s.messageCompleted = false)
        (invalid "relay run completed before its message")
      modify fun s => { s with runCompleted := true }
  | .cancelled payload => do
    onState (requireRun payload.runId)
    throw
      (if payload.reason = some "insufficient_credit" then
        .new .insufficientCredit INSUFFICIENT_CREDIT_MESSAGE
      else .stopped)
  | .failed payload => do
    onState (requireRun payload.runId)
    throw (streamFailure payload.code)

/-- `StreamState::accept`. -/
def accept (sink : Nat → Bool) (event : RelayEvent) : Fallible SecureClientError Feed PUnit := do
  let feed ← get
  Fallible.failIf (feed.state.runCompleted = true)
    (invalid "relay emitted data after terminal completion")
  acceptEvent P sink event

/-- `StreamState::finish`: the response, and the events that were held back for it. -/
def finish (s : StreamState) :
    Except SecureClientError (InferenceResponse × List ProviderEvent) := do
  ensure (s.messageCompleted && s.runCompleted) "relay stream ended without terminal completion"
  let toolCalls ← s.toolCalls.finish.mapError fun _ => invalid "relay tool-call stream is incomplete"
  validateCalls P toolCalls
  let some finishReason := s.finishReason | .error (invalid "relay stream has no finish reason")
  validateFinishShape finishReason toolCalls
  pure
    ({ assistant := { text := s.text, reasoning := none, toolCalls }
       reasoning := nonempty s.reasoning
       refusal := nonempty s.refusal
       usage := s.usage.getD {}
       finishReason := some finishReason },
      s.verifiedEvents)

/-- `emit_verified_events`. -/
def emitVerifiedEvents (sink : Nat → Bool) (events : List ProviderEvent) :
    Fallible SecureClientError Feed PUnit := do
  events.forM (send sink)
  send sink .responseVerified

/-- `stream`, from the relay's events on: `ending` is how the transport ended after them, in an
error (a timeout, a cancellation, a lost connection, an undecodable event) or at a clean end. -/
def stream (sink : Nat → Bool) (events : List RelayEvent)
    (ending : Except SecureClientError PUnit) : Fallible SecureClientError Feed InferenceResponse := do
  events.forM (accept P sink)
  Fallible.ofResult ending
  let feed ← get
  let (response, verifiedEvents) ← Fallible.ofResult (finish P feed.state)
  emitVerifiedEvents sink verifiedEvents
  pure response

end

end Near

end AxiomDesktop
