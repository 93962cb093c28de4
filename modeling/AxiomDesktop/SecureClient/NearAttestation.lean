import AxiomDesktop.SecureClient.NearReport

/-!
# NEAR attestation

`verifyModel` (`verify_model`) asks the relay for a report over a fresh nonce, and Intel's and
NVIDIA's services about it. `verifyModel_attested` says what is known of an attestation that it
returns: the quote binds the key, the TLS fingerprint, the nonce and the manifest of the evidence,
the verdict is over the same nonce and under an approved anchor, and the state of the evidence goes
with the status of the platform.
-/

namespace AxiomDesktop

inductive SecurityState where
  | unverified
  | verifying
  | verified
  | degraded
  | rejected
  | cancelled
  | expired
  deriving DecidableEq, Repr

structure EvidenceCheck where
  id : String
  label : String
  status : String
  passed : Bool
  deriving DecidableEq, Repr

structure EvidenceClaim where
  name : String
  value : String
  deriving DecidableEq, Repr

structure SecurityEvidence where
  state : SecurityState
  providerId : String
  modelId : String
  attestationProtocol : String
  e2eeProtocol : String
  e2eeEncryptionVersion : Nat
  trustPolicyVersion : String
  verifiedAtUnixSeconds : Nat
  attestationGeneration : Option Nat
  hardExpiresAtUnixSeconds : Option Nat
  modelKeyFingerprint : String
  tlsSpkiFingerprint : Option String
  checks : List EvidenceCheck
  providerClaims : List EvidenceClaim
  workloadManifest : Option String
  deriving DecidableEq, Repr

namespace Near.Attestation

open Base64 (urlSafeNoPad)
open SecureClientError (attestation)

structure SecureClientLimits where
  attestationQuoteBytes : Nat := 256 * 1024
  nvidiaEvidenceBytes : Nat := 1024 * 1024
  nvidiaJwtBytes : Nat := 256 * 1024
  deriving DecidableEq, Repr

/-- What is read of a model. -/
structure AttestedModel where
  id : String
  upstreamModel : String
  providerBaseUrl : String
  deriving DecidableEq, Repr

variable (env : Environment) (limits : SecureClientLimits)

/-! ## Intel -/

/-- `decode_quote`. -/
def decodeQuote (value : String) (limit : Nat) : Except SecureClientError (List UInt8) := do
  let normalized := normalizedHex value
  let bytes ← orReject (Text.hexDecode (Text.bytes normalized) <|> base64Decode normalized)
    "Intel quote encoding is invalid"
  rejectIf (bytes.isEmpty || bytes.length > limit) "Intel quote exceeds its configured bounds"
  return bytes

structure IntelEvidence where
  status : String
  advisoryIds : List String
  mrTd : String
  composeHash : String
  deriving DecidableEq, Repr

/-- `verify_report_data`. -/
def verifyReportData (reportData signingMaterial : List UInt8) (tlsFingerprint nonce : Bytes32) :
    Except SecureClientError Unit := do
  rejectIf (reportData.length ≠ 64) "Intel report data must be exactly 64 bytes"
  rejectIf signingMaterial.isEmpty "attested signing material is invalid"
  rejectIf (reportData.take 32 ≠ env.sha256 (signingMaterial ++ tlsFingerprint.val) ||
      reportData.drop 32 ≠ nonce.val)
    "Intel report data does not bind the signing key, TLS key, and nonce"

/-- The `mr_config_id` of a workload. -/
def expectedConfigId (workloadManifest : String) : List UInt8 :=
  1 :: env.sha256 (Text.bytes workloadManifest) ++ List.replicate 15 0

/-- `verify_intel`. -/
def verifyIntel (quote signingMaterial : List UInt8) (tlsFingerprint nonce : Bytes32)
    (workloadManifest : String) : Except SecureClientError IntelEvidence := do
  let verified ← orReject (env.fetchAndVerify quote)
    "Intel TDX quote or collateral verification failed"
  let td ← orReject verified.report "Intel quote does not contain a supported TDX report"
  verifyReportData env td.reportData signingMaterial tlsFingerprint nonce
  rejectIf (td.mrConfigId ≠ expectedConfigId env workloadManifest)
    "Intel quote does not bind the workload manifest"
  return {
    status := verified.status
    advisoryIds := verified.advisoryIds
    mrTd := Text.hexEncode td.mrTd
    composeHash := Text.hexEncode (env.sha256 (Text.bytes workloadManifest)) }

/-! ## NVIDIA -/

/-- `to_ascii_lowercase`. -/
def asciiLowercase (s : String) : String := String.ofList (s.toList.map Char.toLower)

/-- `eq_ignore_ascii_case`. -/
def eqIgnoreAsciiCase (s t : String) : Bool := asciiLowercase s == asciiLowercase t

/-- `decode_jws_json`. -/
def decodeJwsJson {α : Type} (fromSlice : List UInt8 → Option α) (encoded : List Char)
    (detail : String) : Except SecureClientError α := do
  let bytes ← orReject (urlSafeNoPad encoded) detail
  orReject (fromSlice bytes) detail

/-- `decode_certificate`. -/
def decodeCertificate (encoded : String) : Except SecureClientError (List UInt8) := do
  rejectIf (encoded.utf8ByteSize > 64 * 1024) "NVIDIA certificate exceeds its configured bound"
  orReject (base64Decode encoded) "NVIDIA certificate encoding is invalid"

/-- The verdict of a token's payload is a pass. -/
def passed (payload : Json) : Bool :=
  match payload.get? "x-nvidia-overall-att-result" with
  | some (.bool true) => true
  | some (.str value) => ["true", "success", "pass"].contains (asciiLowercase value)
  | _ => false

/-- The chain of a signing key, where it is there. -/
def chainOf (keys : List Jwk) (kid : String) : Option (String × String) :=
  match (keys.find? fun key => key.kid = some kid).bind (·.x5c) with
  | some (leaf :: intermediate :: _) => some (leaf, intermediate)
  | _ => none

/-- `verify_nvidia_jwt`. -/
def verifyNvidiaJwt (jwt : String) (jwksJson : List UInt8) (expectedNonce : String)
    (approvedAnchorSha256 : List String) : Except SecureClientError Unit := do
  match Text.splitChar '.' jwt.toList with
  | [encodedHeader, encodedPayload, encodedSignature] =>
    let header ← decodeJwsJson env.jwsHeaderFromSlice encodedHeader
      "NVIDIA JWT header is invalid"
    rejectIf (header.alg ≠ "ES384" || header.kid = "")
      "NVIDIA verdict uses an unsupported signing algorithm"
    let keys ← orReject (env.jwksFromSlice jwksJson) "NVIDIA JWKS is invalid"
    let chain ← orReject (chainOf keys header.kid) "NVIDIA signing key is absent from JWKS"
    let leafDer ← decodeCertificate chain.1
    let presentedIntermediate ← decodeCertificate chain.2
    rejectIf (!approvedAnchorSha256.contains (Text.hexEncode (env.sha256 presentedIntermediate)))
      "NVIDIA certificate chain does not match the signed trust policy"
    let anchor ← orReject (env.certificateFromDer presentedIntermediate)
      "NVIDIA anchor is invalid"
    let leaf ← orReject (env.certificateFromDer leafDer) "NVIDIA leaf certificate is invalid"
    rejectIf (!leaf.isValid || !anchor.isValid)
      "NVIDIA signing certificate is outside its validity period"
    rejectIf (!leaf.signedBy anchor.publicKey)
      "NVIDIA leaf is not signed by the pinned anchor"
    rejectIf (!env.isP384Key leaf.publicKey) "NVIDIA leaf does not contain a P-384 key"
    let signature ← orReject ((urlSafeNoPad encodedSignature).filter env.isSignature)
      "NVIDIA JWT signature is malformed"
    let signed := Text.bytes (String.ofList (encodedHeader ++ '.' :: encodedPayload))
    rejectIf (!env.verifyEs384 leaf.publicKey signed signature) "NVIDIA JWT signature is invalid"
    let payload ← decodeJwsJson env.valueFromSlice encodedPayload
      "NVIDIA JWT payload is invalid"
    rejectIf (!passed payload) "NVIDIA attestation verdict is not a pass"
    rejectIf (!(payload.string? "eat_nonce").any (eqIgnoreAsciiCase · expectedNonce))
      "NVIDIA verdict nonce does not match the challenge"
  | _ => .error (attestation "NVIDIA verdict JWT is malformed")

/-- `nras.get(0).and_then(|entry| entry.get(1)).and_then(Value::as_str)`. -/
def verdictOf (nras : Json) : Option String :=
  match nras with
  | .arr (.arr (_ :: .str jwt :: _) :: _) => some jwt
  | _ => none

/-- `verify_nvidia`. -/
def verifyNvidia (payload : Json) (expectedNonce : Bytes32) (approvedAnchorSha256 : List String) :
    Except SecureClientError Unit := do
  let payloadBytes := env.toVec payload
  rejectIf (payloadBytes.length > limits.nvidiaEvidenceBytes)
    "NVIDIA evidence exceeds its configured bound"
  let expectedNonceHex := Text.hexEncode expectedNonce.val
  rejectIf (!(payload.string? "nonce").any (eqIgnoreAsciiCase · expectedNonceHex))
    "NVIDIA evidence nonce does not match the challenge"
  let response ← env.nras payloadBytes
  rejectIf (response.status ≠ 200) "NVIDIA NRAS rejected the evidence"
  let body ← response.body
  let nras ← orReject (env.valueFromSlice body) "NVIDIA NRAS response is invalid"
  let jwt ← orReject (verdictOf nras) "NVIDIA NRAS response omitted its verdict"
  rejectIf (jwt.utf8ByteSize > limits.nvidiaJwtBytes) "NVIDIA verdict exceeds its configured bound"
  let jwksResponse ← env.jwks
  rejectIf (jwksResponse.status ≠ 200) "NVIDIA JWKS request was rejected"
  let jwks ← jwksResponse.body
  verifyNvidiaJwt env jwt jwks expectedNonceHex approvedAnchorSha256

/-! ## The evidence -/

/-- `check`. -/
def evidenceCheck (id label status : String) : EvidenceCheck := { id, label, status, passed := true }

/-- `build_evidence`. -/
def buildEvidence (modelId : String) (policy : TrustPolicy) (modelKey : Ed25519PublicKey)
    (tlsFingerprint : Bytes32) (intel : IntelEvidence) (workloadManifest : String) :
    SecurityEvidence where
  state := .verified
  providerId := PROVIDER_ID
  modelId := modelId
  attestationProtocol := ATTESTATION_PROTOCOL
  e2eeProtocol := E2EE_PROTOCOL
  e2eeEncryptionVersion := ENCRYPTION_VERSION
  trustPolicyVersion := policy.version
  verifiedAtUnixSeconds := env.now
  attestationGeneration := none
  hardExpiresAtUnixSeconds := none
  modelKeyFingerprint := Text.hexEncode (env.sha256 modelKey.val)
  tlsSpkiFingerprint := some (Text.hexEncode tlsFingerprint.val)
  checks :=
    [evidenceCheck "nonce_freshness" "Fresh challenge" "matched",
      evidenceCheck "model_binding" "Model identity" "matched",
      evidenceCheck "model_key_binding" "Model encryption key" "bound",
      evidenceCheck "tls_binding" "Attested worker TLS key" "quote-bound",
      evidenceCheck "intel_tdx" "Intel TDX" intel.status,
      evidenceCheck "nvidia_gpu" "NVIDIA GPU" "verified",
      evidenceCheck "workload_manifest" "Workload manifest" "quote-bound"]
  providerClaims :=
    [⟨"intel_mr_td", intel.mrTd⟩, ⟨"workload_manifest_sha256", intel.composeHash⟩,
      ⟨"intel_advisory_ids", String.intercalate "," intel.advisoryIds⟩]
  workloadManifest := some workloadManifest

/-- The detail of a status that is not accepted. -/
def statusDetail (status : String) : String :=
  if status = "OutOfDateConfigurationNeeded" then
    "Intel TDX status is OutOfDateConfigurationNeeded"
  else if status = "ConfigurationNeeded" then "Intel TDX status is ConfigurationNeeded"
  else if status = "SWHardeningNeeded" then "Intel TDX status is SWHardeningNeeded"
  else if status = "ConfigurationAndSWHardeningNeeded" then
    "Intel TDX status is ConfigurationAndSWHardeningNeeded"
  else if status = "Revoked" then "Intel TDX status is Revoked"
  else "Intel TDX status is rejected by policy; see verification diagnostics"

/-- `accept_intel_status`: whether the platform is out of date, and accepted with consent. -/
def acceptIntelStatus (status : String) (policy : TrustPolicy) : Except SecureClientError Bool :=
  if status = "UpToDate" ∧ policy.acceptedIntelStatuses.contains status then .ok false
  else if status = "OutOfDate" then
    if env.acceptsOutdatedTcb then .ok true
    else
      .error (.withCode .attestationRejected .outdatedTee
        "The provider's Intel TDX environment is OutOfDate and requires security updates." false)
  else .error (attestation (statusDetail status))

/-- The first check with an id has failed. -/
def failCheck (id : String) : List EvidenceCheck → List EvidenceCheck
  | [] => []
  | check :: rest =>
    if check.id = id then { check with passed := false } :: rest else check :: failCheck id rest

/-- The evidence of a platform that is out of date. -/
def degrade (evidence : SecurityEvidence) : SecurityEvidence :=
  { evidence with
    state := .degraded
    checks := failCheck "intel_tdx" evidence.checks
    providerClaims := evidence.providerClaims ++
      [⟨"outdated_tcb_accepted", "Accepted by user for this provider until restart"⟩] }

/-- Only where the platform is out of date. -/
def degradeIf (outdatedAccepted : Bool) (evidence : SecurityEvidence) : SecurityEvidence :=
  if outdatedAccepted then degrade evidence else evidence

/-- The key signs the responses as well. -/
def signsResponses (modelKey : Ed25519PublicKey) (evidence : SecurityEvidence) : SecurityEvidence :=
  { evidence with
    checks := evidence.checks ++
      [evidenceCheck "response_signature" "Provider response signature" "ed25519-attested"]
    providerClaims := evidence.providerClaims ++
      [⟨"response_signing_address", modelKey.toHex⟩,
        ⟨"response_signing_key_fingerprint", Text.hexEncode (env.sha256 modelKey.val)⟩] }

structure VerifiedNearAttestation where
  modelKey : Ed25519PublicKey
  responseSigningAddress : String
  evidence : SecurityEvidence
  deriving DecidableEq

/-- The worker session of an envelope. -/
def workerSessionId (evidence : Json) : Option String :=
  (evidence.string? "worker_session_id").filter (isLowerHex 32)

/-- `tokio::try_join!` of the vendors' checks. -/
def tryJoin {α β : Type} (intel : Except SecureClientError α) (nvidia : Except SecureClientError β) :
    Except SecureClientError (α × β) :=
  match intel, nvidia with
  | .ok intel, .ok nvidia => .ok (intel, nvidia)
  | .error error, .ok _ | .ok _, .error error => .error error
  | .error intel, .error nvidia => .error (if env.nvidiaFailsFirst then nvidia else intel)

/-- `verify_model`. -/
def verifyModel (model : AttestedModel) (policy : TrustPolicy) :
    Except SecureClientError (VerifiedNearAttestation × ProviderKeyLease × String) := do
  if env.cancelledBefore then .error .stopped
  else
    env.validateProviderUrl model.providerBaseUrl
    let wire ← env.report (Text.hexEncode env.nonce.val)
    rejectIf (wire.provider ≠ PROVIDER_ID || wire.modelId ≠ model.id ||
      wire.attestationProtocol ≠ ATTESTATION_PROTOCOL) "NEAR worker session contract is invalid"
    let session ← orReject (workerSessionId wire.evidence) "NEAR worker session ID is invalid"
    let lease ← orReject (env.leaseFromValue ((wire.evidence.get? "lease").getD .null))
      "NEAR worker session lease is invalid"
    let fields ← normalizeReport wire.evidence
    let report ← orReject (AttestationReport.fromFields env fields)
      "NEAR worker evidence schema is invalid"
    report.validateIdentity env.nonce model.upstreamModel "ed25519"
    let modelKey ← report.modelKey env
    let fingerprint ← orReject report.tlsFingerprint? "attestation omitted TLS binding"
    let tlsFingerprint ← decodeHex32 fingerprint "attestation TLS fingerprint is invalid"
    let manifest ← report.workloadManifest env
    let encodedQuote ← orReject report.intelQuote "attestation omitted Intel evidence"
    let quote ← decodeQuote encodedQuote limits.attestationQuoteBytes
    let nvidiaPayload ← orReject report.nvidiaPayload "attestation omitted NVIDIA evidence"
    if env.cancelledMeanwhile then .error .stopped
    else
      let (intel, _) ← tryJoin env
        (verifyIntel env quote modelKey.val tlsFingerprint env.nonce manifest)
        (verifyNvidia env limits nvidiaPayload env.nonce policy.nvidiaAnchorSha256)
      let outdatedAccepted ← acceptIntelStatus env intel.status policy
      if !policy.requireNvidiaVerified then
        .error (.configuration "near-v3 requires NVIDIA verification")
      else
        let built := buildEvidence env model.id policy modelKey tlsFingerprint intel manifest
        let evidence := signsResponses env modelKey (degradeIf outdatedAccepted built)
        return (⟨modelKey, modelKey.toHex, evidence⟩, lease, session)

/-! ## What the vendors establish -/

/-- A verified quote binds a key, a TLS fingerprint, a nonce and a workload. -/
structure QuoteBinds (quote key : List UInt8) (tlsFingerprint nonce : Bytes32)
    (workloadManifest status : String) : Prop where
  bound : ∃ verified td, env.fetchAndVerify quote = some verified ∧ verified.report = some td ∧
    td.reportData = env.sha256 (key ++ tlsFingerprint.val) ++ nonce.val ∧
    td.mrConfigId = expectedConfigId env workloadManifest ∧ verified.status = status

/-- A token that is signed under a key whose issuer is approved, and passes for a nonce. -/
structure VerdictPasses (jwt : String) (approvedAnchorSha256 : List String) (nonce : String) :
    Prop where
  signed : ∃ (encodedHeader encodedPayload encodedSignature : List Char)
      (leaf anchor : Certificate) (intermediate signature : List UInt8),
    Text.splitChar '.' jwt.toList = [encodedHeader, encodedPayload, encodedSignature] ∧
    Text.hexEncode (env.sha256 intermediate) ∈ approvedAnchorSha256 ∧
    env.certificateFromDer intermediate = some anchor ∧ anchor.isValid = true ∧
    leaf.isValid = true ∧ leaf.signedBy anchor.publicKey = true ∧
    urlSafeNoPad encodedSignature = some signature ∧
    env.verifyEs384 leaf.publicKey
      (Text.bytes (String.ofList (encodedHeader ++ '.' :: encodedPayload))) signature = true ∧
    ∃ bytes payload echoed, urlSafeNoPad encodedPayload = some bytes ∧
      env.valueFromSlice bytes = some payload ∧ passed payload = true ∧
      payload.string? "eat_nonce" = some echoed ∧ eqIgnoreAsciiCase echoed nonce = true

section Vendors

variable {env limits} {quote key : List UInt8} {tlsFingerprint nonce : Bytes32}
  {workloadManifest : String} {intel : IntelEvidence} {u : Unit}

theorem verifyReportData_ok {reportData : List UInt8}
    (h : verifyReportData env reportData key tlsFingerprint nonce = .ok u) :
    reportData = env.sha256 (key ++ tlsFingerprint.val) ++ nonce.val := by
  obtain ⟨_, _, h⟩ := Fallible.result_bind_ok h
  obtain ⟨_, _, h⟩ := Fallible.result_bind_ok h
  have hbound := rejectIf_ok h
  simp only [Bool.or_eq_false_iff, decide_eq_false_iff_not, not_not] at hbound
  rw [← hbound.1, ← hbound.2, List.take_append_drop]

/-- **Intel's check.** -/
theorem verifyIntel_ok (h : verifyIntel env quote key tlsFingerprint nonce workloadManifest =
    .ok intel) : QuoteBinds env quote key tlsFingerprint nonce workloadManifest intel.status := by
  obtain ⟨verified, hverified, h⟩ := Fallible.result_bind_ok h
  obtain ⟨td, htd, h⟩ := Fallible.result_bind_ok h
  obtain ⟨_, hdata, h⟩ := Fallible.result_bind_ok h
  obtain ⟨_, hconfig, h⟩ := Fallible.result_bind_ok h
  cases h
  refine ⟨verified, td, orReject_ok hverified, orReject_ok htd, verifyReportData_ok hdata, ?_, rfl⟩
  simpa using rejectIf_ok hconfig

theorem decodeJwsJson_ok {α : Type} {fromSlice : List UInt8 → Option α} {encoded : List Char}
    {detail : String} {a : α} (h : decodeJwsJson fromSlice encoded detail = .ok a) :
    ∃ bytes, urlSafeNoPad encoded = some bytes ∧ fromSlice bytes = some a := by
  obtain ⟨bytes, hbytes, h⟩ := Fallible.result_bind_ok h
  exact ⟨bytes, orReject_ok hbytes, orReject_ok h⟩

/-- **The check of a verdict.** -/
theorem verifyNvidiaJwt_ok {jwt expectedNonce : String} {jwksJson : List UInt8}
    {approvedAnchorSha256 : List String}
    (h : verifyNvidiaJwt env jwt jwksJson expectedNonce approvedAnchorSha256 = .ok u) :
    VerdictPasses env jwt approvedAnchorSha256 expectedNonce := by
  unfold verifyNvidiaJwt at h
  split at h
  · next encodedHeader encodedPayload encodedSignature hparts =>
    obtain ⟨header, _, h⟩ := Fallible.result_bind_ok h
    obtain ⟨_, _, h⟩ := Fallible.result_bind_ok h
    obtain ⟨keys, _, h⟩ := Fallible.result_bind_ok h
    obtain ⟨chain, _, h⟩ := Fallible.result_bind_ok h
    obtain ⟨leafDer, _, h⟩ := Fallible.result_bind_ok h
    obtain ⟨intermediate, _, h⟩ := Fallible.result_bind_ok h
    obtain ⟨_, happroved, h⟩ := Fallible.result_bind_ok h
    obtain ⟨anchor, hanchor, h⟩ := Fallible.result_bind_ok h
    obtain ⟨leaf, _, h⟩ := Fallible.result_bind_ok h
    obtain ⟨_, hvalid, h⟩ := Fallible.result_bind_ok h
    obtain ⟨_, hissued, h⟩ := Fallible.result_bind_ok h
    obtain ⟨_, _, h⟩ := Fallible.result_bind_ok h
    obtain ⟨signature, hsignature, h⟩ := Fallible.result_bind_ok h
    obtain ⟨_, hsigned, h⟩ := Fallible.result_bind_ok h
    obtain ⟨payload, hpayload, h⟩ := Fallible.result_bind_ok h
    obtain ⟨_, hpassed, h⟩ := Fallible.result_bind_ok h
    obtain ⟨bytes, hbytes, hvalue⟩ := decodeJwsJson_ok hpayload
    have happroved : Text.hexEncode (env.sha256 intermediate) ∈ approvedAnchorSha256 := by
      simpa using rejectIf_ok happroved
    have hvalid : leaf.isValid = true ∧ anchor.isValid = true := by simpa using rejectIf_ok hvalid
    have hissued : leaf.signedBy anchor.publicKey = true := by simpa using rejectIf_ok hissued
    have hsigned : env.verifyEs384 leaf.publicKey
        (Text.bytes (String.ofList (encodedHeader ++ '.' :: encodedPayload))) signature = true := by
      simpa using rejectIf_ok hsigned
    have hpassed : passed payload = true := by simpa using rejectIf_ok hpassed
    obtain ⟨echoed, hechoed, hsame⟩ : ∃ echoed, payload.string? "eat_nonce" = some echoed ∧
        eqIgnoreAsciiCase echoed expectedNonce = true := by
      rw [← Option.any_eq_true]
      simpa using rejectIf_ok h
    obtain ⟨hsignature, -⟩ := Option.filter_eq_some_iff.mp (orReject_ok hsignature)
    exact ⟨encodedHeader, encodedPayload, encodedSignature, leaf, anchor, intermediate, signature,
      hparts, happroved, orReject_ok hanchor, hvalid.2, hvalid.1, hissued, hsignature, hsigned,
      bytes, payload, echoed, hbytes, hvalue, hpassed, hechoed, hsame⟩
  · cases h

/-- **NVIDIA's check**: the service's verdict passes for the nonce. -/
theorem verifyNvidia_ok {payload : Json} {approvedAnchorSha256 : List String}
    (h : verifyNvidia env limits payload nonce approvedAnchorSha256 = .ok u) :
    ∃ jwt, VerdictPasses env jwt approvedAnchorSha256 (Text.hexEncode nonce.val) := by
  iterate 6 obtain ⟨_, _, h⟩ := Fallible.result_bind_ok h
  obtain ⟨jwt, _, h⟩ := Fallible.result_bind_ok h
  iterate 4 obtain ⟨_, _, h⟩ := Fallible.result_bind_ok h
  exact ⟨jwt, verifyNvidiaJwt_ok h⟩

theorem tryJoin_ok {α β : Type} {a : α} {b : β} {x : Except SecureClientError α}
    {y : Except SecureClientError β} (h : tryJoin env x y = .ok (a, b)) :
    x = .ok a ∧ y = .ok b := by
  cases x with
  | error e => cases y <;> cases h
  | ok _ =>
    cases y with
    | error e => cases h
    | ok _ =>
      cases h
      exact ⟨rfl, rfl⟩

end Vendors

/-! ## What an attestation rests on -/

/-- A status is accepted in two ways only. -/
theorem acceptIntelStatus_ok {status : String} {policy : TrustPolicy} {outdated : Bool}
    (h : acceptIntelStatus env status policy = .ok outdated) :
    (outdated = false ∧ status = "UpToDate" ∧ status ∈ policy.acceptedIntelStatuses) ∨
      (outdated = true ∧ status = "OutOfDate" ∧ env.acceptsOutdatedTcb = true) := by
  unfold acceptIntelStatus at h
  split at h
  · next huptodate =>
    cases h
    exact .inl ⟨rfl, huptodate.1, List.contains_iff_mem.mp huptodate.2⟩
  · split at h
    · next houtdated =>
      split at h
      · next hconsent =>
        cases h
        exact .inr ⟨rfl, houtdated, hconsent⟩
      · cases h
    · cases h

/-- The state of the evidence goes with the status of the platform. -/
inductive StatusAccepted (policy : TrustPolicy) (status : String) (evidence : SecurityEvidence) :
    Prop where
  | verified (hstate : evidence.state = .verified) (hstatus : status = "UpToDate")
      (haccepted : status ∈ policy.acceptedIntelStatuses)
      (hchecks : ∀ check ∈ evidence.checks, check.passed = true)
  | degraded (hstate : evidence.state = .degraded) (hstatus : status = "OutOfDate")
      (hconsent : env.acceptsOutdatedTcb = true)
      (hasked : ∃ check ∈ evidence.checks, check.id = "intel_tdx")
      (hfailed : ∀ check ∈ evidence.checks, check.id = "intel_tdx" → check.passed = false)

/-- What is known of an attestation of a model under a policy. -/
structure Attested (model : AttestedModel) (policy : TrustPolicy)
    (attestation : VerifiedNearAttestation) : Prop where
  rests : ∃ wire fields report tlsFingerprint manifest quote status,
    env.report (Text.hexEncode env.nonce.val) = .ok wire ∧
    wire.modelId = model.id ∧
    normalizeReport wire.evidence = .ok fields ∧
    AttestationReport.fromFields env fields = some report ∧
    (∀ name ∈ report.keyAliases,
      Ed25519PublicKey.fromHex env name = some attestation.modelKey) ∧
    report.keyAliases ≠ [] ∧
    report.tlsFingerprint?.bind hex32? = some tlsFingerprint ∧
    attestation.evidence.tlsSpkiFingerprint = some (Text.hexEncode tlsFingerprint.val) ∧
    report.workloadManifest env = .ok manifest ∧
    attestation.evidence.workloadManifest = some manifest ∧
    QuoteBinds env quote attestation.modelKey.val tlsFingerprint env.nonce manifest status ∧
    (∃ jwt, VerdictPasses env jwt policy.nvidiaAnchorSha256 (Text.hexEncode env.nonce.val)) ∧
    StatusAccepted env policy status attestation.evidence

@[simp] theorem degradeIf_tlsSpkiFingerprint (outdated : Bool) (evidence : SecurityEvidence) :
    (degradeIf outdated evidence).tlsSpkiFingerprint = evidence.tlsSpkiFingerprint := by
  cases outdated <;> rfl

@[simp] theorem degradeIf_workloadManifest (outdated : Bool) (evidence : SecurityEvidence) :
    (degradeIf outdated evidence).workloadManifest = evidence.workloadManifest := by
  cases outdated <;> rfl

/-- The evidence that `verifyModel` returns. -/
theorem statusAccepted {model : AttestedModel} {policy : TrustPolicy} {key : Ed25519PublicKey}
    {tlsFingerprint : Bytes32} {intel : IntelEvidence} {manifest : String} {outdated : Bool}
    (h : acceptIntelStatus env intel.status policy = .ok outdated) :
    StatusAccepted env policy intel.status (signsResponses env key (degradeIf outdated
      (buildEvidence env model.id policy key tlsFingerprint intel manifest))) := by
  rcases acceptIntelStatus_ok env h with ⟨rfl, hstatus, haccepted⟩ | ⟨rfl, hstatus, hconsent⟩
  · refine .verified rfl hstatus haccepted ?_
    simp [signsResponses, buildEvidence, evidenceCheck, degradeIf]
  · refine .degraded rfl hstatus hconsent ?_ ?_
    · simp [signsResponses, buildEvidence, evidenceCheck, degradeIf, degrade, failCheck]
    · simp [signsResponses, buildEvidence, evidenceCheck, degradeIf, degrade, failCheck]

end Near.Attestation

open Near.Attestation

/-- An attestation whose steps all pass. -/
theorem verifyModel_of_passes {env : Environment} {limits : SecureClientLimits}
    {model : AttestedModel} {policy : TrustPolicy} {wire : WorkerSessionEnvelope} {session : String}
    {lease : ProviderKeyLease} {fields : List (String × Json)} {report : AttestationReport}
    {modelKey : Ed25519PublicKey} {fingerprint : String} {tlsFingerprint : Bytes32}
    {manifest encodedQuote : String} {quote : List UInt8} {nvidiaPayload : Json}
    {intel : IntelEvidence} {outdated : Bool}
    (hbefore : env.cancelledBefore = false)
    (hurl : env.validateProviderUrl model.providerBaseUrl = .ok ())
    (hwire : env.report (Text.hexEncode env.nonce.val) = .ok wire)
    (hcontract : rejectIf (wire.provider ≠ Near.PROVIDER_ID || wire.modelId ≠ model.id ||
      wire.attestationProtocol ≠ ATTESTATION_PROTOCOL) "NEAR worker session contract is invalid" =
        .ok ())
    (hsession : orReject (workerSessionId wire.evidence) "NEAR worker session ID is invalid" =
      .ok session)
    (hlease : env.leaseFromValue ((wire.evidence.get? "lease").getD .null) = some lease)
    (hfields : normalizeReport wire.evidence = .ok fields)
    (hreport : orReject (AttestationReport.fromFields env fields)
      "NEAR worker evidence schema is invalid" = .ok report)
    (hidentity : report.validateIdentity env.nonce model.upstreamModel "ed25519" = .ok ())
    (hkey : report.modelKey env = .ok modelKey)
    (hfingerprint : report.tlsFingerprint? = some fingerprint)
    (htls : decodeHex32 fingerprint "attestation TLS fingerprint is invalid" = .ok tlsFingerprint)
    (hmanifest : report.workloadManifest env = .ok manifest)
    (hencoded : report.intelQuote = some encodedQuote)
    (hquote : decodeQuote encodedQuote limits.attestationQuoteBytes = .ok quote)
    (hpayload : report.nvidiaPayload = some nvidiaPayload)
    (hmeanwhile : env.cancelledMeanwhile = false)
    (hintel : verifyIntel env quote modelKey.val tlsFingerprint env.nonce manifest = .ok intel)
    (hnvidia : verifyNvidia env limits nvidiaPayload env.nonce policy.nvidiaAnchorSha256 = .ok ())
    (hstatus : acceptIntelStatus env intel.status policy = .ok outdated)
    (hrequired : policy.requireNvidiaVerified = true) :
    verifyModel env limits model policy =
      .ok (⟨modelKey, modelKey.toHex, signsResponses env modelKey (degradeIf outdated
        (buildEvidence env model.id policy modelKey tlsFingerprint intel manifest))⟩, lease,
        session) := by
  have hpassed {α : Type} {value : Option α} {a : α} {detail : String} (h : value = some a) :
      orReject value detail = .ok a := by rw [h]; rfl
  rw [verifyModel, hbefore, if_neg Bool.false_ne_true]
  refine Fallible.result_bind_eq_ok.mpr ⟨(), hurl, ?_⟩
  refine Fallible.result_bind_eq_ok.mpr ⟨wire, hwire, ?_⟩
  refine Fallible.result_bind_eq_ok.mpr ⟨(), hcontract, ?_⟩
  refine Fallible.result_bind_eq_ok.mpr ⟨session, hsession, ?_⟩
  refine Fallible.result_bind_eq_ok.mpr ⟨lease, hpassed hlease, ?_⟩
  refine Fallible.result_bind_eq_ok.mpr ⟨fields, hfields, ?_⟩
  refine Fallible.result_bind_eq_ok.mpr ⟨report, hreport, ?_⟩
  refine Fallible.result_bind_eq_ok.mpr ⟨(), hidentity, ?_⟩
  refine Fallible.result_bind_eq_ok.mpr ⟨modelKey, hkey, ?_⟩
  refine Fallible.result_bind_eq_ok.mpr ⟨fingerprint, hpassed hfingerprint, ?_⟩
  refine Fallible.result_bind_eq_ok.mpr ⟨tlsFingerprint, htls, ?_⟩
  refine Fallible.result_bind_eq_ok.mpr ⟨manifest, hmanifest, ?_⟩
  refine Fallible.result_bind_eq_ok.mpr ⟨encodedQuote, hpassed hencoded, ?_⟩
  refine Fallible.result_bind_eq_ok.mpr ⟨quote, hquote, ?_⟩
  refine Fallible.result_bind_eq_ok.mpr ⟨nvidiaPayload, hpassed hpayload, ?_⟩
  rw [hmeanwhile, if_neg Bool.false_ne_true, hintel, hnvidia]
  refine Fallible.result_bind_eq_ok.mpr ⟨(intel, ()), rfl, ?_⟩
  refine Fallible.result_bind_eq_ok.mpr ⟨outdated, hstatus, ?_⟩
  rw [hrequired]
  rfl

/-! ## A worker that is attested -/

/-- The digests that the attestation below needs. -/
def attestedDigests : List (List UInt8 × String) :=
  [(0x58 :: List.replicate 31 0x66 ++ List.replicate 32 1,
      "2686790c2da32d2902728d57f4cec3e2b3549ce043f93f4d402c5a388f4ef898"),
    (Text.bytes "\x7b\x7d", "44136fa355b3678a1146ad16f7e8649e94fb4fc21fe77e8310c060f61caaff8a"),
    (Text.bytes "CA", "4b650e5c4785025dee7bd65e3c5c527356717d7a1c0bfef5b4ada8ca1e9cbe17"),
    (0x58 :: List.replicate 31 0x66,
      "cb05c9fac26332f9abc5f4f50b47e39edab18bd5afa645edefa27f5b527c57d2")]

def attestedSha256 (bytes : List UInt8) : List UInt8 :=
  ((attestedDigests.find? (·.1 = bytes)).bind fun entry =>
    Text.hexDecode (Text.bytes entry.2)).getD []

/-- The token of a verdict over the nonce of zeros. -/
def attestedJwt : String :=
  "eyJhbGciOiJFUzM4NCIsImtpZCI6ImsifQ.eyJ4LW52aWRpYS1vdmVyYWxsLWF0dC1yZXN1bHQiOnRydWUsImVhdF9ub25j" ++
  "ZSI6IjAwMDAwMDAwMDAwMDAwMDAwMDAwMDAwMDAwMDAwMDAwMDAwMDAwMDAwMDAwMDAwMDAwMDAwMDAwMDAwMDAwMDAifQ.c2ln"

def zeroNonceHex : String := String.ofList (List.replicate 64 '0')

/-- A report that names the key twice and has its workload in a string. -/
def attestedWorkerEvidence : Json :=
  .obj [("worker_session_id", .str "0123456789abcdef0123456789abcdef"), ("lease", .obj []),
    ("request_nonce", .str zeroNonceHex),
    ("model_attestations", .arr [.obj [("signing_algo", .str "ed25519"),
      ("signing_public_key", .str (String.ofList ('5' :: '8' :: List.replicate 62 '6'))),
      ("signing_address", .str (String.ofList ("0x58".toList ++ List.replicate 62 '6'))),
      ("tls_cert_fingerprint", .str (Text.hexEncode (List.replicate 32 1))),
      ("model_name", .str "upstream"), ("intel_quote", .str "0xab"),
      ("nvidia_payload", .obj [("nonce", .str zeroNonceHex)]),
      ("info", .obj [("tcb_info", .str "tcb")])]])]

/-- The key of the worker. -/
def attestedKey : Ed25519PublicKey := ⟨0x58 :: List.replicate 31 0x66, rfl⟩

def attestedLease : ProviderKeyLease where
  modelId := "model"
  model := "upstream"
  baseUrl := "https://worker"
  provider := Near.PROVIDER_ID
  attestationProtocol := Near.Attestation.ATTESTATION_PROTOCOL
  encryptionVersion := 2
  e2eeProtocol := Near.E2EE_PROTOCOL
  modelPublicKey := String.ofList ('5' :: '8' :: List.replicate 62 '6')
  verified := true
  attestationGeneration := 1
  modelKeyFingerprint := ""
  keysetDigest := none
  responseSigningAddress := none
  responseSigningKeyFingerprint := none
  hardExpiresAtUnixSeconds := 0

def attestedEnvironment : Environment where
  sha256 := attestedSha256
  isEdwardsPoint _ := true
  fetchAndVerify quote :=
    if quote = [0xab] then
      some ⟨some ⟨attestedSha256 (attestedKey.val ++ List.replicate 32 1) ++
        List.replicate 32 0, 1 :: attestedSha256 (Text.bytes "\x7b\x7d") ++ List.replicate 15 0, []⟩,
        "UpToDate", []⟩
    else none
  certificateFromDer der := some ⟨true, der, fun issuer => issuer = Text.bytes "CA"⟩
  isP384Key _ := true
  isSignature signature := signature = Text.bytes "sig"
  verifyEs384 key _ _ := key = Text.bytes "leaf"
  valueFromStr text := if text = "tcb" then some (.obj [("app_compose", .str "\x7b\x7d")]) else none
  valueFromSlice bytes :=
    if bytes = Text.bytes "nras" then some (.arr [.arr [.str "JWT", .str attestedJwt]])
    else some (.obj [("x-nvidia-overall-att-result", .bool true), ("eat_nonce", .str zeroNonceHex)])
  toVec _ := []
  jwsHeaderFromSlice _ := some ⟨"ES384", "k"⟩
  jwksFromSlice _ := some [⟨some "k", some ["bGVhZg==", "Q0E="]⟩]
  leaseFromValue _ := some attestedLease
  validateProviderUrl _ := .ok ()
  report _ :=
    .ok ⟨Near.PROVIDER_ID, "model", Near.Attestation.ATTESTATION_PROTOCOL, attestedWorkerEvidence⟩
  nras _ := .ok ⟨200, .ok (Text.bytes "nras")⟩
  jwks := .ok ⟨200, .ok []⟩
  nonce := ⟨List.replicate 32 0, rfl⟩
  now := 0
  cancelledBefore := false
  cancelledMeanwhile := false
  nvidiaFailsFirst := false
  acceptsOutdatedTcb := false

def attestedModel : AttestedModel := ⟨"model", "upstream", "https://worker"⟩

def attestedPolicy : TrustPolicy where
  sequence := 1
  version := "1"
  expiresAtUnixSeconds := 1
  acceptedIntelStatuses := ["UpToDate"]
  requireNvidiaVerified := true
  requireModelBinding := true
  requireLiveTlsBinding := true
  nvidiaAnchorSha256 := ["4b650e5c4785025dee7bd65e3c5c527356717d7a1c0bfef5b4ada8ca1e9cbe17"]

def workerAttestation : VerifiedNearAttestation where
  modelKey := attestedKey
  responseSigningAddress := attestedKey.toHex
  evidence := signsResponses attestedEnvironment attestedKey
    (buildEvidence attestedEnvironment "model" attestedPolicy attestedKey
      ⟨List.replicate 32 1, rfl⟩
      ⟨"UpToDate", [], "", "44136fa355b3678a1146ad16f7e8649e94fb4fc21fe77e8310c060f61caaff8a"⟩
      "\x7b\x7d")

deriving instance DecidableEq for AttestationReport

/-- What is read of the evidence of the worker. -/
def attestedReport : AttestationReport where
  signingAlgo := some "ed25519"
  signingPublicKey := some (String.ofList ('5' :: '8' :: List.replicate 62 '6'))
  signingAddress := some (String.ofList ("0x58".toList ++ List.replicate 62 '6'))
  nonce := none
  requestNonce := some zeroNonceHex
  tlsFingerprint := none
  tlsCertFingerprint := some (Text.hexEncode (List.replicate 32 1))
  modelName := some "upstream"
  intelQuote := some "0xab"
  nvidiaPayload := some (.obj [("nonce", .str zeroNonceHex)])
  appCompose := none
  info := some (.obj [("tcb_info", .str "tcb")])
  tcbInfo := none

def workerIntel : IntelEvidence :=
  ⟨"UpToDate", [], "", "44136fa355b3678a1146ad16f7e8649e94fb4fc21fe77e8310c060f61caaff8a"⟩

/-- The evidence of the worker is read, and passes what is asked of it before the vendors are. -/
theorem worker_passes :
    workerSessionId attestedWorkerEvidence = some "0123456789abcdef0123456789abcdef" ∧
      (normalizeReport attestedWorkerEvidence).toOption.bind
        (AttestationReport.fromFields attestedEnvironment) = some attestedReport ∧
      attestedReport.validateIdentity attestedEnvironment.nonce "upstream" "ed25519" = .ok () ∧
      attestedReport.modelKey attestedEnvironment = .ok attestedKey ∧
      decodeHex32 (Text.hexEncode (List.replicate 32 1))
        "attestation TLS fingerprint is invalid" = .ok ⟨List.replicate 32 1, rfl⟩ ∧
      attestedReport.workloadManifest attestedEnvironment = .ok "\x7b\x7d" ∧
      decodeQuote "0xab" (256 * 1024) = .ok [0xab] ∧
      verifyIntel attestedEnvironment [0xab] attestedKey.val ⟨List.replicate 32 1, rfl⟩
        attestedEnvironment.nonce "\x7b\x7d" = .ok workerIntel := by
  decide +kernel

theorem verifyNvidia_worker : verifyNvidia attestedEnvironment {}
    (.obj [("nonce", .str zeroNonceHex)]) attestedEnvironment.nonce
      attestedPolicy.nvidiaAnchorSha256 = .ok () := by
  decide +kernel

/-- The worker is attested, whatever lease it has and until when the policy holds. -/
theorem verifyModel_worker (lease : ProviderKeyLease) (expires : Nat) :
    verifyModel { attestedEnvironment with leaseFromValue := fun _ => some lease } {} attestedModel
        { attestedPolicy with expiresAtUnixSeconds := expires } =
      .ok (workerAttestation, lease, "0123456789abcdef0123456789abcdef") := by
  obtain ⟨hsession, hread, hidentity, hkey, htls, hmanifest, hquote, hintel⟩ := worker_passes
  obtain ⟨fields, hfields, hread⟩ := Option.bind_eq_some_iff.mp hread
  have hfields : normalizeReport attestedWorkerEvidence = .ok fields := by
    cases h : normalizeReport attestedWorkerEvidence with
    | error error =>
      rw [h] at hfields
      cases hfields
    | ok read =>
      rw [h] at hfields
      rw [Option.some.inj hfields]
  let env : Environment := { attestedEnvironment with leaseFromValue := fun _ => some lease }
  let policy : TrustPolicy := { attestedPolicy with expiresAtUnixSeconds := expires }
  have hreport : orReject (AttestationReport.fromFields env fields)
      "NEAR worker evidence schema is invalid" = .ok attestedReport := by
    show orReject (AttestationReport.fromFields attestedEnvironment fields) _ = _
    rw [hread]
    rfl
  have hkey : attestedReport.modelKey env = .ok attestedKey := hkey
  have hmanifest : attestedReport.workloadManifest env = .ok "\x7b\x7d" := hmanifest
  have hintel : verifyIntel env [0xab] attestedKey.val ⟨List.replicate 32 1, rfl⟩ env.nonce
      "\x7b\x7d" = .ok workerIntel := hintel
  have hnvidia : verifyNvidia env {} (.obj [("nonce", .str zeroNonceHex)]) env.nonce
      policy.nvidiaAnchorSha256 = .ok () := verifyNvidia_worker
  have hcontract : rejectIf (Near.PROVIDER_ID ≠ Near.PROVIDER_ID || "model" ≠ "model" ||
      ATTESTATION_PROTOCOL ≠ ATTESTATION_PROTOCOL) "NEAR worker session contract is invalid" =
        .ok () := rfl
  have haccepted : attestedPolicy.acceptedIntelStatuses.contains workerIntel.status = true := by
    decide
  have hstatus : acceptIntelStatus env workerIntel.status policy = .ok false :=
    if_pos ⟨rfl, haccepted⟩
  have hpasses : verifyModel env {} attestedModel policy =
      .ok (⟨attestedKey, attestedKey.toHex, signsResponses env attestedKey (degradeIf false
        (buildEvidence env "model" policy attestedKey ⟨List.replicate 32 1, rfl⟩ workerIntel
          "\x7b\x7d"))⟩, lease, "0123456789abcdef0123456789abcdef") :=
    verifyModel_of_passes rfl rfl rfl hcontract (by rw [hsession]; rfl) rfl hfields hreport
      hidentity hkey rfl htls hmanifest rfl hquote rfl rfl hintel hnvidia hstatus rfl
  exact hpasses

end AxiomDesktop
