import AxiomDesktop.Inference.Response

/-!
# The relay's side of a stream

The errors of the secure client (`SecureClientError`) and the events a relay sends on a stream
(`RelayEvent`). The relay is not trusted: what it sends is ciphertext for the client, metadata,
and in the end a receipt the attested model signed.
-/

namespace AxiomDesktop

inductive ProviderFailureKind where
  | configuration
  | localAuthentication
  | authentication
  | insufficientCredit
  | rateLimited
  | modelUnavailable
  | capabilityMismatch
  | attestationUnavailable
  | attestationRejected
  | sessionEstablishment
  | encryption
  | decryption
  | transient
  | invalidRequest
  | invalidResponse
  | cancelled
  deriving DecidableEq, Repr

inductive SecureErrorCode where
  | configuration
  | authentication
  | insufficientCredit
  | rateLimited
  | trialCapacity
  | modelUnavailable
  | capabilityMismatch
  | attestationUnavailable
  | attestationRejected
  | outdatedTee
  | attestationExpired
  | attestationKeyChanged
  | protocolUnsupported
  | sessionNotAccepted
  | receiptUnavailable
  | invalidRequest
  | invalidResponse
  | cancelled
  | transient
  | streamTimeout
  | responseTooLarge
  | providerDisconnected
  deriving DecidableEq, Repr

def INSUFFICIENT_CREDIT_MESSAGE : String :=
  "Insufficient balance. Top up your Axiom balance to continue."

structure SecureClientError where
  kind : ProviderFailureKind
  code : SecureErrorCode
  safeDetail : String
  retryable : Bool
  retryAt : Option Int := none
  deriving DecidableEq, Repr

namespace SecureClientError

/-- `default_code`. -/
def defaultCode : ProviderFailureKind → SecureErrorCode
  | .configuration => .configuration
  | .localAuthentication | .authentication => .authentication
  | .insufficientCredit => .insufficientCredit
  | .rateLimited => .rateLimited
  | .modelUnavailable => .modelUnavailable
  | .capabilityMismatch => .capabilityMismatch
  | .attestationUnavailable | .sessionEstablishment => .attestationUnavailable
  | .attestationRejected => .attestationRejected
  | .encryption | .invalidRequest => .invalidRequest
  | .decryption | .invalidResponse => .invalidResponse
  | .transient => .transient
  | .cancelled => .cancelled

/-- `default_retryable`. -/
def defaultRetryable : ProviderFailureKind → Bool
  | .rateLimited | .attestationUnavailable | .sessionEstablishment | .transient => true
  | _ => false

/-- `balance_detail`. -/
def balanceDetail (kind : ProviderFailureKind) (detail : String) : String :=
  if kind = .insufficientCredit then INSUFFICIENT_CREDIT_MESSAGE else detail

/-- `SecureClientError::new`. -/
def new (kind : ProviderFailureKind) (safeDetail : String) : SecureClientError :=
  { kind, code := defaultCode kind, safeDetail := balanceDetail kind safeDetail,
    retryable := defaultRetryable kind }

/-- `SecureClientError::with_code`. -/
def withCode (kind : ProviderFailureKind) (code : SecureErrorCode) (safeDetail : String)
    (retryable : Bool) : SecureClientError :=
  { kind, code, safeDetail := balanceDetail kind safeDetail, retryable }

/-- `SecureClientError::cancelled`. -/
def stopped : SecureClientError := new .cancelled "operation cancelled"

/-- `invalid`, an error in what the relay or the provider sent. -/
def invalid (detail : String) : SecureClientError := new .invalidResponse detail

/-- `invalid_request`. -/
def invalidRequest (detail : String) : SecureClientError := new .invalidRequest detail

end SecureClientError

/-- `stream_failure`: the codes of a failed run the client knows; the relay's text is not shown. -/
def streamFailure (code : Option String) : SecureClientError :=
  match code with
  | some "insufficient_credit" | some "INSUFFICIENT_CREDIT" =>
    .new .insufficientCredit INSUFFICIENT_CREDIT_MESSAGE
  | some "ATTESTATION_KEY_CHANGED" =>
    .withCode .transient .attestationKeyChanged
      "The worker changed before inference. Verify a new session." true
  | some "response_too_large" =>
    .withCode .transient .responseTooLarge
      "The model response exceeded the response size budget." true
  | some "provider_timeout" =>
    .withCode .transient .streamTimeout "The provider stopped responding. Please retry." true
  | some "provider_disconnected" =>
    .withCode .transient .providerDisconnected "The provider connection was interrupted." true
  | _ =>
    .withCode .transient .transient
      "The provider could not finish this response. Please retry." true

def MIN_CIPHERTEXT_HEX_CHARS : Nat := 144
def MAX_CIPHERTEXT_HEX_CHARS : Nat := 40 * 1024 * 1024 + 1024

/-- The check of `CiphertextHex::new`. -/
def isCiphertextHex (value : String) : Bool :=
  MIN_CIPHERTEXT_HEX_CHARS ≤ value.utf8ByteSize && value.utf8ByteSize ≤ MAX_CIPHERTEXT_HEX_CHARS &&
    value.utf8ByteSize % 2 == 0 && (Text.bytes value).all Text.isHexDigit

/-- A ciphertext in hexadecimal, of a length an envelope can have. -/
structure CiphertextHex where
  value : String
  valid : isCiphertextHex value = true
  deriving DecidableEq, Repr

/-- `CiphertextHex::new`. -/
def CiphertextHex.new (value : String) : Except SecureClientError CiphertextHex :=
  if h : isCiphertextHex value = true then .ok ⟨value, h⟩
  else .error (.invalid "relay ciphertext is invalid")

/-- The token counts a relay or a provider reports. -/
structure RelayUsage where
  promptTokens : Option Nat := none
  completionTokens : Option Nat := none
  totalTokens : Option Nat := none
  cachedPromptTokens : Option Nat := none
  deriving DecidableEq, Repr

structure EncryptedFunctionCallDelta where
  encryptedName : Option CiphertextHex := none
  encryptedArguments : Option CiphertextHex := none
  deriving DecidableEq, Repr

structure EncryptedToolCallDelta where
  index : Nat
  id : Option String := none
  kind : Option String := none
  function : Option EncryptedFunctionCallDelta := none
  deriving DecidableEq, Repr

structure CreatedPayload where
  runId : String
  inferenceEncryption : String
  deriving DecidableEq, Repr

structure DeltaPayload where
  runId : String
  encryptedDelta : Option CiphertextHex := none
  encryptedReasoningDelta : Option CiphertextHex := none
  encryptedRefusalDelta : Option CiphertextHex := none
  encryptedToolCalls : List EncryptedToolCallDelta := []
  sequence : UInt64
  responseId : Option String := none
  deriving DecidableEq, Repr

structure CompletedPayload where
  runId : String
  usage : RelayUsage := {}
  finishReason : String
  proof : Option Json := none
  deriving Repr

structure RunPayload where
  runId : String
  deriving DecidableEq, Repr

structure CancelledPayload where
  runId : String
  reason : Option String := none
  deriving DecidableEq, Repr

structure FailedPayload where
  runId : String
  code : Option String := none
  deriving DecidableEq, Repr

/-- The events of a relay stream. -/
inductive RelayEvent where
  | runCreated (payload : CreatedPayload)
  | accounting (usage : RequestUsage)
  | finalizing (payload : RunPayload)
  | delta (payload : DeltaPayload)
  | messageCompleted (payload : CompletedPayload)
  | runCompleted (payload : RunPayload)
  | cancelled (payload : CancelledPayload)
  | failed (payload : FailedPayload)
  deriving Repr

/-- `normalize_usage`. -/
def normalizeUsage (usage : RelayUsage) : Except SecureClientError Usage :=
  let inputTokens := usage.promptTokens.getD 0
  let outputTokens := usage.completionTokens.getD 0
  if usage.cachedPromptTokens.any (fun cached => !usage.promptTokens.any (cached ≤ ·)) then
    .error (.invalid "relay cached-token usage is inconsistent")
  else
    .ok
      { inputTokens, outputTokens,
        totalTokens := usage.totalTokens.getD (min (inputTokens + outputTokens) (2 ^ 64 - 1)) }

/-- `validate_run_id`. -/
def validateRunId (value : String) : Except SecureClientError Unit :=
  if value.isEmpty || value.utf8ByteSize > 256 || value.toList.any Text.isControl then
    .error (.invalid "relay run ID is invalid")
  else .ok ()

/-- The secure client's own `validate_call_id`, stricter than the contract's. -/
def validateSecureCallId (id : String) : Except SecureClientError Unit :=
  if id.isEmpty || id.length > MAX_TOOL_CALL_ID_CHARS ||
      !id.toList.all (fun c => c.isAlphanum || ['_', '.', ':', '-'].contains c) then
    .error (.invalidRequest "tool call ID is invalid")
  else .ok ()

/-- `parse_finish_reason`. -/
def parseFinishReason (value : String) : Except SecureClientError FinishReason :=
  if value = "stop" then .ok .stop
  else if value = "length" then .ok .length
  else if value = "tool_calls" then .ok .toolCalls
  else if value = "content_filter" then .ok .contentFilter
  else .error (.invalid "relay finish reason is invalid")

/-- `validate_finish_shape`: a response finishes for its tool calls exactly when it has some. -/
def validateFinishShape (reason : FinishReason) (calls : List ToolCall) :
    Except SecureClientError Unit :=
  if (reason = .toolCalls) ≠ (calls ≠ []) then
    .error (.invalid "relay finish reason conflicts with tool calls")
  else .ok ()

end AxiomDesktop
