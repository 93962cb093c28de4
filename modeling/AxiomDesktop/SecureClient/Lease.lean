import AxiomDesktop.SecureClient.Catalog
import AxiomDesktop.SecureClient.NearAttestation

/-!
# Verified sessions of a NEAR provider

`establish` (`NearProvider::establish`): a session with the key material of an attestation that is
kept for a while, or of one that is made for it under the lock of its model. `invalidate` drops what
is kept without taking that lock. `verifySecurity` drops it, and establishes a session whose
evidence it returns.

Any number of calls of one client run at a time. Time passes between any two effects of a call, a
call may be dropped at any of them, and what the relay, the vendors and the worker answer is taken
from the environment.
-/

namespace AxiomDesktop

open Near.Attestation

deriving instance DecidableEq for CatalogModelInfo

/-- `u64::saturating_add`. -/
def saturatingAdd (a b : Nat) : Nat := min (a + b) (2 ^ 64 - 1)

/-! ## The lease of a worker -/

/-- The fields of `SecureClientConfig` that a provider reads, and the digest. -/
structure SessionConfig where
  /-- In seconds. -/
  verifiedSessionTtl : Nat := 240
  limits : SecureClientLimits := {}
  /-- `Sha256::digest`. -/
  sha256 : List UInt8 → List UInt8

structure AttestationBinding where
  generation : Nat
  modelKeyFingerprint : String
  keysetDigest : Option String
  hardExpiresAtUnixSeconds : Nat
  deriving DecidableEq

namespace Lease

open SecureClientError (attestation)

variable (config : SessionConfig)

/-- `normalize_key`. -/
def normalizeKey (value : String) : Except SecureClientError String :=
  let value := normalizedHex value
  if value.utf8ByteSize ≠ 64 ∨ ¬ (Text.bytes value).all Text.isHexDigit then
    .error (attestation "attested model key is invalid")
  else .ok (asciiLowercase value)

/-- `key_fingerprint`. -/
def keyFingerprint (key : String) : Except SecureClientError String := do
  let normalized ← normalizeKey key
  match Text.hexDecode (Text.bytes normalized) with
  | none => .error (attestation "attested model key is invalid")
  | some bytes => return Text.hexEncode (config.sha256 bytes)

/-- `trim_end_matches('/')`. -/
def withoutSlashes (url : String) : String := String.ofList (Text.dropWhileEnd (· = '/') url.toList)

/-- `AttestationBinding::verify`, at the time that it reads. -/
def verify (now : Nat) (wire : ProviderKeyLease) (model : CatalogModelInfo)
    (locallyVerifiedModelKey : String) : Except SecureClientError AttestationBinding := do
  let localKey ← normalizeKey locallyVerifiedModelKey
  let relayKey ← normalizeKey wire.modelPublicKey
  let fingerprint ← keyFingerprint config localKey
  if wire.modelId ≠ model.id ∨ wire.model ≠ model.upstreamModel ∨
      wire.provider ≠ model.providerId ∨ wire.attestationProtocol ≠ model.attestationProtocol ∨
      wire.e2eeProtocol ≠ model.e2eeProtocol ∨
      wire.encryptionVersion ≠ model.e2eeEncryptionVersion ∨
      withoutSlashes wire.baseUrl ≠ withoutSlashes model.providerBaseUrl ∨ ¬ wire.verified ∨
      relayKey ≠ localKey ∨ wire.modelKeyFingerprint ≠ fingerprint ∨
      wire.attestationGeneration = 0 then
    .error (attestation "backend attestation lease does not match local provider evidence")
  else if wire.hardExpiresAtUnixSeconds ≤ now then
    .error (.withCode .attestationUnavailable .attestationExpired
      "backend attestation lease is expired" true)
  else
    return ⟨wire.attestationGeneration, fingerprint, wire.keysetDigest,
      wire.hardExpiresAtUnixSeconds⟩

/-- `canonical_response_signing_address`. -/
def canonicalResponseSigningAddress (value : String) : Bool :=
  value.utf8ByteSize = 64 &&
    (Text.bytes value).all fun byte => Text.isHexDigit byte && !Text.isUppercase byte

/-- `verify_response_signing_binding`. -/
def verifyResponseSigningBinding (wire : ProviderKeyLease) (locallyAttested : String) :
    Except SecureClientError Unit :=
  match wire.responseSigningAddress, wire.responseSigningKeyFingerprint with
  | none, _ =>
    .error (attestation "backend lease omitted the NEAR response-signing address")
  | some _, none =>
    .error (attestation "backend lease omitted the NEAR response-signing fingerprint")
  | some address, some fingerprint =>
    if ¬ canonicalResponseSigningAddress address ∨
        ¬ canonicalResponseSigningAddress locallyAttested ∨ address ≠ locallyAttested then
      .error (attestation "backend lease response signer does not match local provider evidence")
    else
      match Text.hexDecode (Text.bytes address) with
      | none => .error (attestation "backend lease response signer is invalid")
      | some bytes =>
        if fingerprint ≠ Text.hexEncode (config.sha256 bytes) then
          .error (attestation "backend lease response-signer fingerprint is invalid")
        else .ok ()

end Lease

/-! ## Material -/

structure NearVerifiedMaterial where
  verified : VerifiedNearAttestation
  binding : AttestationBinding
  workerSessionId : String
  deriving DecidableEq

/-- A run of `verify_model` that succeeded: for what, with what, when its challenge was drawn, and
the time of its evidence. -/
structure VerifyRun where
  model : CatalogModelInfo
  policy : TrustPolicy
  verified : VerifiedNearAttestation
  lease : ProviderKeyLease
  workerSessionId : String
  challenge : Nat

/-- `CachedMaterial`, with the run its material is of. -/
structure CachedMaterial where
  model : CatalogModelInfo
  policy : TrustPolicy
  expiresAtUnixSeconds : Nat
  material : NearVerifiedMaterial
  run : VerifyRun

/-- `NearVerifiedSession`, by what differs between the sessions of a client. -/
structure NearVerifiedSession where
  material : NearVerifiedMaterial
  model : CatalogModelInfo

/-! ## Calls -/

inductive SessionEffect where
  /-- `now_unix`. -/
  | now
  /-- The section of `VerifiedMaterialCache::get`. -/
  | get (model : CatalogModelInfo) (policy : TrustPolicy) (now : Nat)
  /-- `model_lock`, or the cancellation that comes first. -/
  | modelLock (modelId : String)
  /-- The guard of the lock is dropped. -/
  | unlock (modelId : String)
  /-- The challenge of an attestation is drawn. -/
  | challenge
  | verifyModel (model : CatalogModelInfo) (policy : TrustPolicy)
  /-- The section of `VerifiedMaterialCache::insert`. -/
  | insert (model : CatalogModelInfo) (policy : TrustPolicy) (material : NearVerifiedMaterial)
    (expiresAtUnixSeconds : Nat)
  /-- The section of `VerifiedMaterialCache::invalidate`. -/
  | remove (modelId : String)
  /-- `models` of the client. -/
  | models
  /-- `trust_policy` of the client. -/
  | trustPolicy
  /-- A session is returned, that a call has asked for under a policy. -/
  | report (session : NearVerifiedSession) (policy : TrustPolicy)

@[reducible] def SessionEffect.Answer : SessionEffect → Type
  | now => Nat
  | get _ _ _ => Option NearVerifiedMaterial
  | modelLock _ => Except SecureClientError Unit
  | verifyModel _ _ => Except SecureClientError
      (VerifiedNearAttestation × ProviderKeyLease × String)
  | models => Except SecureClientError (List CatalogModelInfo)
  | trustPolicy => Except SecureClientError TrustPolicy
  | unlock _ | challenge | insert _ _ _ _ | remove _ | report _ _ => Unit

/-- A program over the sessions of a client. -/
abbrev SessionProg (α : Type) : Type := Prog SessionEffect SessionEffect.Answer α

namespace NearProvider

def ask (e : SessionEffect) : SessionProg e.Answer := Prog.effect e

variable (config : SessionConfig)

/-- `supports`. -/
def supports (model : CatalogModelInfo) : Except SecureClientError Unit :=
  if model.providerId ≠ Near.PROVIDER_ID ∨ model.e2eeProtocol ≠ Near.E2EE_PROTOCOL ∨
      model.e2eeEncryptionVersion ≠ ENCRYPTION_VERSION ∨
      model.attestationProtocol ≠ ATTESTATION_PROTOCOL then
    .error (.new .capabilityMismatch "model does not match the compiled NEAR provider contract")
  else if Text.isBlank model.upstreamModel ∨ Text.isBlank model.providerBaseUrl then
    .error (.new .capabilityMismatch "model omits required provider routing metadata")
  else .ok ()

/-- `VerifiedMaterialCache::get`. -/
def get (model : CatalogModelInfo) (policy : TrustPolicy) :
    SessionProg (Option NearVerifiedMaterial) := do
  let now ← ask .now
  ask (.get model policy now)

/-- The expiry of an attestation: of its lease, of its policy, and of the time it may be used. -/
def expiry (lease policy verifiedAt : Nat) : Nat :=
  min (min lease policy) (saturatingAdd verifiedAt config.verifiedSessionTtl)

/-- The material of an attestation, with what its report tells the user. -/
def materialOf (verified : VerifiedNearAttestation) (binding : AttestationBinding)
    (policy : TrustPolicy) (workerSessionId : String) : NearVerifiedMaterial where
  verified :=
    { verified with
      evidence :=
        { verified.evidence with
          attestationGeneration := some binding.generation
          hardExpiresAtUnixSeconds := some (expiry config binding.hardExpiresAtUnixSeconds
            policy.expiresAtUnixSeconds verified.evidence.verifiedAtUnixSeconds) } }
  binding := binding
  workerSessionId := workerSessionId

/-- `establish`, from its lock on. -/
def establishLocked (model : CatalogModelInfo) (policy : TrustPolicy) :
    SessionProg (Except SecureClientError NearVerifiedSession) := do
  match ← get model policy with
  | some material => return .ok ⟨material, model⟩
  | none =>
    ask .challenge
    match ← ask (.verifyModel model policy) with
    | .error error => return .error error
    | .ok (verified, wire, workerSessionId) =>
      match Lease.verifyResponseSigningBinding config wire verified.responseSigningAddress with
      | .error error => return .error error
      | .ok () =>
        let now ← ask .now
        match Lease.verify config now wire model verified.modelKey.toHex with
        | .error error => return .error error
        | .ok binding =>
          let expires := expiry config binding.hardExpiresAtUnixSeconds
            policy.expiresAtUnixSeconds verified.evidence.verifiedAtUnixSeconds
          let material := materialOf config verified binding policy workerSessionId
          let now ← ask .now
          ask (.insert model policy material
            (min expires (saturatingAdd now config.verifiedSessionTtl)))
          return .ok ⟨material, model⟩

/-- `establish`. -/
def establish (model : CatalogModelInfo) (policy : TrustPolicy) :
    SessionProg (Except SecureClientError NearVerifiedSession) := do
  match supports model with
  | .error error => return .error error
  | .ok () =>
    match ← get model policy with
    | some material => return .ok ⟨material, model⟩
    | none =>
      match ← ask (.modelLock model.id) with
      | .error error => return .error error
      | .ok () =>
        let result ← establishLocked config model policy
        ask (.unlock model.id)
        return result

/-- A session that is established is returned to the caller. -/
def establishReported (model : CatalogModelInfo) (policy : TrustPolicy) : SessionProg Unit := do
  match ← establish config model policy with
  | .error _ => return ()
  | .ok session => ask (.report session policy)

/-- `verify_security`: `establish_verified`, with a new attestation. -/
def verifySecurity (modelId : String) : SessionProg Unit := do
  match ← ask .models with
  | .error _ => return ()
  | .ok models =>
    match models.find? (·.id = modelId) with
    | none => return ()
    | some model =>
      match ← ask .trustPolicy with
      | .error _ => return ()
      | .ok policy =>
        match supports model with
        | .error _ => return ()
        | .ok () =>
          ask (.remove model.id)
          establishReported config model policy

end NearProvider

inductive SessionOperation where
  | establish (model : CatalogModelInfo) (policy : TrustPolicy)
  | invalidate (modelId : String)
  | verifySecurity (modelId : String)

/-- The program of a call. -/
def SessionOperation.call (config : SessionConfig) : SessionOperation → SessionProg Unit
  | establish model policy => NearProvider.establishReported config model policy
  | invalidate modelId => NearProvider.ask (.remove modelId)
  | verifySecurity modelId => NearProvider.verifySecurity config modelId

/-- When a call of `verify_security` has begun. -/
def SessionOperation.began (moment : Nat) : SessionOperation → Option Nat
  | verifySecurity _ => some moment
  | _ => none

/-! ## The client -/

/-- A session that was returned, with the policy of its call, the time, and when its call began if
that is one of `verify_security`. -/
structure ReturnedSession where
  session : NearVerifiedSession
  policy : TrustPolicy
  returnedAt : Nat
  began : Option Nat

structure SessionWorld where
  clock : Nat := 0
  cache : String → Option CachedMaterial := fun _ => none
  locks : String → Option Nat := fun _ => none
  /-- Calls and challenges are numbered in the order in which they begin. -/
  moment : Nat := 0
  /-- The number of a call of `verify_security`. -/
  began : Nat → Option Nat := fun _ => none
  challenges : Nat → Nat := fun _ => 0
  /-- The attestations that have succeeded, the last one first, and the one of a call. -/
  runs : List VerifyRun := []
  verified : Nat → Option VerifyRun := fun _ => none
  /-- The material that calls are about to return, with its run. -/
  inHand : List (Nat × VerifyRun) := []
  returned : List ReturnedSession := []
  dropped : List Nat := []

/-- The entry that `get` finds. -/
def SessionWorld.hit (w : SessionWorld) (model : CatalogModelInfo) (policy : TrustPolicy)
    (now : Nat) : Option CachedMaterial :=
  (w.cache model.id).filter fun cached =>
    now < cached.expiresAtUnixSeconds ∧ cached.model = model ∧ cached.policy = policy

/-- What the environment chooses in an effect. -/
inductive SessionChoice where
  | go
  | cancelled
  /-- What the relay, the vendors and the worker answer to an attestation. -/
  | attested (env : Environment)
  | models (models : Except SecureClientError (List CatalogModelInfo))
  | policy (policy : Except SecureClientError TrustPolicy)

/-- The answers to an attestation, with the digest and the clock of the client. -/
def SessionWorld.environment (config : SessionConfig) (w : SessionWorld) (env : Environment) :
    Environment :=
  { env with sha256 := config.sha256, now := w.clock }

/-- What is read of a model for its attestation. -/
def CatalogModelInfo.attested (model : CatalogModelInfo) : AttestedModel :=
  ⟨model.id, model.upstreamModel, model.providerBaseUrl⟩

def sessionExec (config : SessionConfig) (w : SessionWorld) (i : Nat) :
    (e : SessionEffect) → SessionChoice → Option (SessionWorld × e.Answer)
  | .now, .go => some (w, w.clock)
  | .get model policy now, .go =>
    match w.hit model policy now with
    | some cached => some ({ w with inHand := (i, cached.run) :: w.inHand }, some cached.material)
    | none => some (w, none)
  | .modelLock modelId, .go =>
    if (w.locks modelId).isSome then none
    else some ({ w with locks := Function.update w.locks modelId (some i) }, .ok ())
  | .modelLock _, .cancelled => some (w, .error .stopped)
  | .unlock modelId, .go =>
    some ({ w with locks := Function.update w.locks modelId none }, ())
  | .challenge, .go =>
    some ({ w with
      challenges := Function.update w.challenges i w.moment
      moment := w.moment + 1 }, ())
  | .verifyModel model policy, .attested env =>
    let result :=
      verifyModel (w.environment config env) config.limits model.attested policy
    let run := result.toOption.map fun (verified, lease, workerSessionId) =>
      ⟨model, policy, verified, lease, workerSessionId, w.challenges i⟩
    some ({ w with
      runs := run.toList ++ w.runs
      verified := Function.update w.verified i run }, result)
  | .insert model policy material expiresAtUnixSeconds, .go =>
    (w.verified i).map fun run =>
      ({ w with
        cache := Function.update w.cache model.id
          (some ⟨model, policy, expiresAtUnixSeconds, material, run⟩)
        inHand := (i, run) :: w.inHand }, ())
  | .remove modelId, .go => some ({ w with cache := Function.update w.cache modelId none }, ())
  | .models, .models models => some (w, models)
  | .trustPolicy, .policy policy => some (w, policy)
  | .report session policy, .go =>
    some ({ w with
      returned := ⟨session, policy, w.clock, w.began i⟩ :: w.returned
      inHand := w.inHand.filter (·.1 ≠ i) }, ())
  | _, _ => none

/-- What happens besides the calls. -/
inductive SessionEvent where
  /-- The clock reads a time. -/
  | clock (now : Nat)
  /-- A call is dropped, and its lock with it. -/
  | dropped (task : Nat)

/-- The calls of a client. -/
def sessionSystem (config : SessionConfig) :
    TaskSystem SessionWorld SessionEffect SessionEffect.Answer SessionChoice SessionEvent
      SessionOperation where
  exec w i e choice := if i ∈ w.dropped then none else sessionExec config w i e choice
  event w
    | .clock now => some { w with clock := now }
    | .dropped i => some { w with
        dropped := i :: w.dropped
        locks := fun modelId => (w.locks modelId).filter (· ≠ i)
        inHand := w.inHand.filter (·.1 ≠ i) }
  start w i operation :=
    some ({ w with
      began := Function.update w.began i (operation.began w.moment)
      moment := w.moment + 1 }, operation.call config)

abbrev SessionsPool : Type := Pool SessionWorld SessionEffect SessionEffect.Answer

abbrev SessionsStep : Type := PoolStep SessionChoice SessionEvent SessionOperation

end AxiomDesktop
