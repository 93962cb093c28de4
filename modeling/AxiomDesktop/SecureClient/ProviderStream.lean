import AxiomDesktop.Lib.Pipe
import AxiomDesktop.SecureClient.Authentic

/-!
# The stream of the secure provider

`SecureAxiomProvider::stream` runs an `operation` that verifies a session and streams over it, and
repeats both once where the relay says that the worker's key has changed. The operation sends its
events through a channel to a loop that keeps the record of the request and passes the events on.
-/

namespace AxiomDesktop

/-- `SecureErrorCode::as_str`. -/
def SecureErrorCode.asStr : SecureErrorCode → String
  | .configuration => "CONFIGURATION_ERROR"
  | .authentication => "AUTHENTICATION_FAILED"
  | .insufficientCredit => "INSUFFICIENT_CREDIT"
  | .rateLimited => "RATE_LIMITED"
  | .trialCapacity => "TRIAL_CAPACITY"
  | .modelUnavailable => "MODEL_UNAVAILABLE"
  | .capabilityMismatch => "CAPABILITY_MISMATCH"
  | .attestationUnavailable => "ATTESTATION_UNAVAILABLE"
  | .attestationRejected => "ATTESTATION_REJECTED"
  | .outdatedTee => "PROVIDER_TDX_OUT_OF_DATE"
  | .attestationExpired => "ATTESTATION_EXPIRED"
  | .attestationKeyChanged => "ATTESTATION_KEY_CHANGED"
  | .protocolUnsupported => "PROTOCOL_UNSUPPORTED"
  | .sessionNotAccepted => "SESSION_NOT_ACCEPTED"
  | .receiptUnavailable => "RECEIPT_UNAVAILABLE"
  | .invalidRequest => "INVALID_REQUEST"
  | .invalidResponse => "INVALID_RESPONSE"
  | .cancelled => "CANCELLED"
  | .transient => "TRANSIENT_FAILURE"
  | .streamTimeout => "STREAM_TIMEOUT"
  | .responseTooLarge => "RESPONSE_TOO_LARGE"
  | .providerDisconnected => "PROVIDER_DISCONNECTED"

/-- `requires_reattest_and_reencrypt`. -/
def SecureClientError.requiresReattestAndReencrypt (e : SecureClientError) : Bool :=
  e.code = .attestationKeyChanged

namespace SecureAxiomProvider

open Near

/-- The `AxiomError`s of a provider. -/
inductive ProviderError where
  | cancelled
  | provider (message : String)
  | secureProvider (kind : ProviderFailureKind) (code : SecureErrorCode) (message : String)
  | other (message : String)
  deriving DecidableEq, Repr

/-- A verified session with a NEAR worker, and what the relay does when it is used. -/
structure Session where
  degraded : Bool
  evidence : Json
  providerId : String
  contextWindowTokens : Nat
  autoCompactThresholdTokens : Nat
  primitives : Primitives
  expected : Expected
  /-- The request is built, and the relay answers it with a stream. -/
  opened : Except SecureClientError PUnit
  events : List RelayEvent
  ending : Except SecureClientError PUnit

/-- What a call of `stream` takes from outside. -/
structure StreamEnvironment where
  requestId : String
  model : String
  startedAtMs : String
  finishedAtMs : String
  /-- `format!("{reason:?}").to_lowercase()`. -/
  finishReasonText : FinishReason → String
  /-- The time of a retry, in UTC. -/
  formatRetryAt : Int → Option String
  /-- The first call of `establish_verified`. -/
  establish : Except ProviderError Session
  /-- The second one. -/
  reestablish : Except ProviderError Session
  invalidate : Except SecureClientError PUnit
  /-- The send of an event goes through, by the number of events before it. -/
  open_ : Nat → Bool
  /-- The call is cancelled when its failure is looked at. -/
  cancelledOnFailure : Bool
  /-- The channel takes the state of a failure. -/
  failureSent : Bool

variable (env : StreamEnvironment)

/-- `map_secure_error`. -/
def mapSecureError (error : SecureClientError) : ProviderError :=
  if error.code = .trialCapacity then
    .provider
      (match error.retryAt.bind env.formatRetryAt with
      | none => error.safeDetail
      | some time => s!"Free trials are currently at capacity. Try again at {time} UTC.")
  else if error.kind = .cancelled then .cancelled
  else .secureProvider error.kind error.code error.safeDetail

/-- `send_provider_event`. -/
def sendProviderEvent (event : ProviderEvent) : Fallible ProviderError (List ProviderEvent) PUnit := do
  let sent ← get
  Fallible.failIf (env.open_ sent.length = false) .cancelled
  set (sent ++ [event])

/-- An attestation was refused, or a session was not established. -/
def rejectsSession : ProviderError → Bool
  | .secureProvider kind _ _ =>
    kind = .attestationRejected || kind = .attestationUnavailable || kind = .sessionEstablishment
  | _ => false

/-- The code of an error. -/
def errorCode : ProviderError → String
  | .secureProvider _ code _ => code.asStr
  | .cancelled => "CANCELLED"
  | _ => "PROVIDER_REQUEST_FAILED"

/-- `secure_stream_failure`. -/
def secureStreamFailure {α : Type} (error : ProviderError) :
    Fallible ProviderError (List ProviderEvent) α := do
  if error = .cancelled || env.cancelledOnFailure then throw .cancelled
  else
    if rejectsSession error && env.failureSent then
      modify (· ++
        [.securityState
          (if errorCode error = "PROVIDER_TDX_OUT_OF_DATE" then .outdated else .failed)])
    throw error

/-- The state of a session. -/
def Session.state (session : Session) : ProviderSecurityState :=
  if session.degraded then .degraded else .verified

/-- `NearVerifiedSession::stream`. -/
def Session.call (session : Session) (sink : Nat → Bool) :
    Fallible SecureClientError Feed InferenceResponse := do
  Fallible.ofResult session.opened
  stream session.primitives sink session.events session.ending

/-- The feed of a call before its first event. -/
def Session.feed (session : Session) : Feed :=
  { state := .new session.expected.requestHash session.expected.signingAddress
      session.expected.model }

/-- The call over the channel of the operation. -/
def Session.stream (session : Session) :
    Fallible ProviderError (List ProviderEvent) (Except SecureClientError InferenceResponse) :=
  fun sent =>
    let r := (session.call fun n => env.open_ (sent.length + n)).exec session.feed
    (.ok r.1, sent ++ r.2.sent)

/-- The record of a request that starts. -/
def initialAccounting : RequestUsage :=
  { requestId := env.requestId, modelId := env.model, providerId := ""
    startedAtMs := env.startedAtMs }

/-- What is sent of a session before it is used. -/
def announce (session : Session) : Fallible ProviderError (List ProviderEvent) PUnit := do
  sendProviderEvent env (.securityState session.state)
  sendProviderEvent env (.securityEvidence session.evidence)

/-- The second attempt. -/
def retry : Fallible ProviderError (List ProviderEvent) InferenceResponse := do
  Fallible.ofResult (env.invalidate.mapError (mapSecureError env))
  sendProviderEvent env (.securityState .verifying)
  sendProviderEvent env
    (.status true "Provider key rotated; re-verifying and re-encrypting once")
  let refreshed ← Fallible.ofResult env.reestablish
  announce env refreshed
  let result ← refreshed.stream env
  Fallible.ofResult (result.mapError (mapSecureError env))

/-- `response_result`. -/
def response (session : Session) : Fallible ProviderError (List ProviderEvent) InferenceResponse := do
  let result ← session.stream env
  match result with
  | .ok response => pure response
  | .error error =>
    if error.requiresReattestAndReencrypt then retry env else throw (mapSecureError env error)

/-- `operation`. -/
def operation : Fallible ProviderError (List ProviderEvent) AssistantTurn := do
  sendProviderEvent env (.securityState .verifying)
  sendProviderEvent env
    (.status true "Verifying model attestation and secure endpoint binding")
  match env.establish with
  | .error error => secureStreamFailure env error
  | .ok session => do
    announce env session
    sendProviderEvent env
      (.accounting
        { initialAccounting env with
          providerId := session.providerId
          contextWindowTokens := some session.contextWindowTokens
          autoCompactThresholdTokens := some session.autoCompactThresholdTokens })
    let result ← Fallible.attempt (response env session)
    match result with
    | .error error => secureStreamFailure env error
    | .ok response => do
      sendProviderEvent env .responseVerified
      return { response.assistant with reasoning := response.reasoning }

/-- `update_request_accounting`. -/
def updateRequestAccounting (record : RequestUsage) :
    ProviderEvent → Except ProviderError RequestUsage
  | .accounting snapshot =>
    if snapshot.requestId ≠ record.requestId ∨ snapshot.modelId ≠ record.modelId ∨
        !snapshot.validateCounters then
      .error (.provider "Request accounting identity mismatch")
    else
      .ok
        { snapshot with
          responseVerified := record.responseVerified
          contextWindowTokens := snapshot.contextWindowTokens <|> record.contextWindowTokens
          autoCompactThresholdTokens :=
            snapshot.autoCompactThresholdTokens <|> record.autoCompactThresholdTokens }
  | .responseVerified => .ok { record with responseVerified := true }
  | .finished reason => .ok { record with finishReason := some (env.finishReasonText reason) }
  | _ => .ok record

/-- The record and the result once the channel is drained. -/
def settle (record : RequestUsage) (result : Except ProviderError AssistantTurn) :
    RequestUsage × Except ProviderError AssistantTurn :=
  let record := { record with finishedAtMs := some env.finishedAtMs }
  match result with
  | .error error =>
    ({ record with
        state := if error = .cancelled then .cancelled else .failed
        responseVerified := false
        completeness :=
          if record.completeness = .live then .partialUsage else record.completeness
        errorCode := some (errorCode error) },
      .error error)
  | .ok turn =>
    if record.responseVerified then ({ record with state := .completed }, .ok turn)
    else
      ({ record with state := .failed },
        .error (.provider "Response authentication was not verified"))

/-- The bound of the channel. -/
def CHANNEL_CAPACITY : Nat := 64

/-- The channel and the loop, under moves of the operation and the loop. -/
def forwarding (moves : List (Pipe.Move ProviderError)) :
    Pipe ProviderEvent RequestUsage ProviderError × List ProviderEvent :=
  (Pipe.machine CHANNEL_CAPACITY (updateRequestAccounting env)).run
    { remaining := ((operation env).exec []).2, state := initialAccounting env } moves

/-- `SecureAxiomProvider::stream`: what it has returned after some moves, and what it has forwarded.
The first and the last record are sent as far as the receiver allows. -/
def streamed (moves : List (Pipe.Move ProviderError)) (first last : Bool) :
    Option (Except ProviderError AssistantTurn) × List ProviderEvent :=
  if !first then (some (.error .cancelled), [])
  else
    let run := forwarding env moves
    let forwarded := .accounting (initialAccounting env) :: run.2
    match run.1.phase with
    | .looping | .draining => (none, forwarded)
    | .failed error => (some (.error error), forwarded)
    | .drained =>
      let (record, result) := settle env run.1.state ((operation env).exec []).1
      if last then (some result, forwarded ++ [.accounting record])
      else (some (.error .cancelled), forwarded)

end SecureAxiomProvider

end AxiomDesktop
