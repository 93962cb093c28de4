import AxiomDesktop.SecureClient.Receipt
import AxiomDesktop.SecureClient.TrustPolicy

/-!
# The attestation report of a NEAR worker

What `verify_model` reads of a report before any vendor is asked: the merge of a selected model's
attestation with what stands beside it (`normalizeReport`), the fields with their aliases
(`AttestationReport`), the encryption key (`Ed25519PublicKey`) and the workload manifest, nested or
encoded as a string.
-/

namespace AxiomDesktop

/-- `SecureClientError::attestation`. -/
def SecureClientError.attestation (detail : String) : SecureClientError :=
  .new .attestationRejected detail

/-- `[u8; 32]`. -/
def Bytes32 : Type := { bytes : List UInt8 // bytes.length = 32 }

instance : DecidableEq Bytes32 := inferInstanceAs (DecidableEq { bytes : List UInt8 // bytes.length = 32 })

namespace Near.Attestation

open SecureClientError (attestation)

def ATTESTATION_PROTOCOL : String := "near-tdx-nvidia-v2"
def ENCRYPTION_VERSION : Nat := 2

/-- What is there, or the error of what is not. -/
def orReject {α : Type} (value : Option α) (detail : String) : Except SecureClientError α :=
  match value with
  | some a => .ok a
  | none => .error (attestation detail)

/-- Fails where the condition holds. -/
def rejectIf (condition : Bool) (detail : String) : Except SecureClientError Unit :=
  if condition then .error (attestation detail) else .ok ()

theorem orReject_ok {α : Type} {value : Option α} {detail : String} {a : α}
    (h : orReject value detail = .ok a) : value = some a := by
  cases value with
  | some b =>
    cases h
    rfl
  | none => cases h

theorem rejectIf_ok {condition : Bool} {detail : String} {u : Unit}
    (h : rejectIf condition detail = .ok u) : condition = false := by
  cases condition with
  | true => cases h
  | false => rfl

/-- `value.trim().strip_prefix("0x").unwrap_or(value.trim())`. -/
def normalizedHex (value : String) : String :=
  match Text.stripPrefix "0x".toList (Text.trim value).toList with
  | some rest => String.ofList rest
  | none => Text.trim value

/-- The 32 bytes of a hexadecimal string. -/
def hex32? (value : String) : Option Bytes32 :=
  let normalized := normalizedHex value
  if normalized.utf8ByteSize ≠ 64 then none
  else
    match Text.hexDecode (Text.bytes normalized) with
    | some bytes => if h : bytes.length = 32 then some ⟨bytes, h⟩ else none
    | none => none

/-- `decode_hex_32`. -/
def decodeHex32 (value detail : String) : Except SecureClientError Bytes32 :=
  orReject (hex32? value) detail

theorem decodeHex32_ok {value detail : String} {bytes : Bytes32}
    (h : decodeHex32 value detail = .ok bytes) : hex32? value = some bytes := orReject_ok h

/-! ## What is taken from libraries -/

/-- A TDX report of a verified quote. -/
structure TdReport where
  reportData : List UInt8
  mrConfigId : List UInt8
  mrTd : List UInt8
  deriving DecidableEq, Repr

/-- A quote whose signature and collateral were verified. -/
structure VerifiedQuote where
  /-- `report.as_td10()`. -/
  report : Option TdReport
  status : String
  advisoryIds : List String
  deriving DecidableEq, Repr

/-- An X.509 certificate. -/
structure Certificate where
  /-- `validity().is_valid()`. -/
  isValid : Bool
  publicKey : List UInt8
  /-- `verify_signature` under a public key. -/
  signedBy : List UInt8 → Bool

structure JwsHeader where
  alg : String
  kid : String
  deriving DecidableEq, Repr

structure Jwk where
  kid : Option String
  x5c : Option (List String)
  deriving DecidableEq, Repr

structure HttpResponse where
  status : Nat
  /-- The body, where it is within its bound. -/
  body : Except SecureClientError (List UInt8)

structure WorkerSessionEnvelope where
  provider : String
  modelId : String
  attestationProtocol : String
  evidence : Json

structure ProviderKeyLease where
  modelId : String
  model : String
  baseUrl : String
  provider : String
  attestationProtocol : String
  encryptionVersion : Nat
  e2eeProtocol : String
  modelPublicKey : String
  verified : Bool
  attestationGeneration : Nat
  modelKeyFingerprint : String
  keysetDigest : Option String
  responseSigningAddress : Option String
  responseSigningKeyFingerprint : Option String
  hardExpiresAtUnixSeconds : Nat
  deriving DecidableEq, Repr

/-- Cryptography, serde and the network. -/
structure Environment where
  /-- `Sha256::digest`. -/
  sha256 : List UInt8 → List UInt8
  /-- `ed25519_public_to_x25519` accepts the bytes. -/
  isEdwardsPoint : Bytes32 → Bool
  /-- `CollateralClient::fetch_and_verify`. -/
  fetchAndVerify : List UInt8 → Option VerifiedQuote
  /-- `X509Certificate::from_der`. -/
  certificateFromDer : List UInt8 → Option Certificate
  /-- `VerifyingKey::from_public_key_der` of P-384 accepts a key. -/
  isP384Key : List UInt8 → Bool
  /-- `Signature::from_slice` accepts a signature. -/
  isSignature : List UInt8 → Bool
  /-- `verify` of a key, the signed bytes and a signature. -/
  verifyEs384 : List UInt8 → List UInt8 → List UInt8 → Bool
  /-- `serde_json::from_str::<Value>`. -/
  valueFromStr : String → Option Json
  /-- `serde_json::from_slice::<Value>`. -/
  valueFromSlice : List UInt8 → Option Json
  /-- `serde_json::to_vec`. -/
  toVec : Json → List UInt8
  jwsHeaderFromSlice : List UInt8 → Option JwsHeader
  jwksFromSlice : List UInt8 → Option (List Jwk)
  leaseFromValue : Json → Option ProviderKeyLease
  /-- `validate_provider_url`. -/
  validateProviderUrl : String → Except SecureClientError Unit
  /-- `provider_attestation_report`, for a nonce in hexadecimal. -/
  report : String → Except SecureClientError WorkerSessionEnvelope
  /-- The response of NVIDIA's attestation service to a payload. -/
  nras : List UInt8 → Except SecureClientError HttpResponse
  /-- The response of NVIDIA's key set. -/
  jwks : Except SecureClientError HttpResponse
  /-- The bytes `OsRng` gives. -/
  nonce : Bytes32
  /-- `verified_at_unix_seconds`. -/
  now : Nat
  cancelledBefore : Bool
  cancelledMeanwhile : Bool
  /-- Where both vendors' checks fail: the error of NVIDIA's comes first. -/
  nvidiaFailsFirst : Bool
  /-- `accepts_outdated_tcb` of the provider, when it is asked. -/
  acceptsOutdatedTcb : Bool

variable (env : Environment)

/-! ## The report -/

def Ed25519PublicKey : Type := Bytes32

instance : DecidableEq Ed25519PublicKey := inferInstanceAs (DecidableEq Bytes32)

/-- `from_hex`. -/
def Ed25519PublicKey.fromHex (value : String) : Option Ed25519PublicKey :=
  (hex32? value).filter env.isEdwardsPoint

/-- `to_hex`. -/
def Ed25519PublicKey.toHex (key : Ed25519PublicKey) : String := Text.hexEncode key.val

structure AttestationReport where
  signingAlgo : Option String
  signingPublicKey : Option String
  signingAddress : Option String
  nonce : Option String
  requestNonce : Option String
  tlsFingerprint : Option String
  tlsCertFingerprint : Option String
  modelName : Option String
  intelQuote : Option String
  nvidiaPayload : Option Json
  appCompose : Option String
  info : Option Json
  tcbInfo : Option Json

/-- `Option<String>` with its default. -/
def optionalString (fields : List (String × Json)) (key : String) : Option (Option String) :=
  match Json.lookup key fields with
  | none | some .null => some none
  | some (.str value) => some (some value)
  | some _ => none

/-- `Option<Value>` with its default. -/
def optionalValue (fields : List (String × Json)) (key : String) : Option Json :=
  (Json.lookup key fields).filter (· ≠ .null)

/-- `Value::is_object`. -/
def isObject : Json → Bool
  | .obj _ => true
  | _ => false

/-- `deserialize_json_object`. -/
def deserializeJsonObject (value : Option Json) : Option (Option Json) :=
  match value with
  | none | some .null => some none
  | some (.obj fields) => some (some (.obj fields))
  | some (.str encoded) =>
    if Text.isBlank encoded then some none
    else
      match env.valueFromStr encoded with
      | some value => if isObject value then some (some value) else none
      | none => none
  | some _ => none

/-- `serde_json::from_value`, of the object that `normalizeReport` returns. -/
def AttestationReport.fromFields (fields : List (String × Json)) : Option AttestationReport := do
  return {
    signingAlgo := ← optionalString fields "signing_algo"
    signingPublicKey := ← optionalString fields "signing_public_key"
    signingAddress := ← optionalString fields "signing_address"
    nonce := ← optionalString fields "nonce"
    requestNonce := ← optionalString fields "request_nonce"
    tlsFingerprint := ← optionalString fields "tls_fingerprint"
    tlsCertFingerprint := ← optionalString fields "tls_cert_fingerprint"
    modelName := ← optionalString fields "model_name"
    intelQuote := ← optionalString fields "intel_quote"
    nvidiaPayload := ← deserializeJsonObject env (Json.lookup "nvidia_payload" fields)
    appCompose := ← optionalString fields "app_compose"
    info := optionalValue fields "info"
    tcbInfo := optionalValue fields "tcb_info" }

/-- `parse_json_object`. -/
def parseJsonObject : Json → Option (List (String × Json))
  | .obj fields => some fields
  | .str encoded =>
    match env.valueFromStr encoded with
    | some (.obj fields) => some fields
    | _ => none
  | _ => none

/-- `normalize_report`: the fields of the report. -/
def normalizeReport (value : Json) : Except SecureClientError (List (String × Json)) :=
  match value with
  | .obj fields =>
    match Json.lookup "model_attestations" fields with
    | none => .ok fields
    | some (.arr [.obj selected]) =>
      .ok (selected ++ fields.filter fun field =>
        field.1 ≠ "model_attestations" && (Json.lookup field.1 selected).isNone)
    | some (.arr [_]) => .error (attestation "selected model attestation must be an object")
    | some (.arr _) =>
      .error (attestation "attestation response must select exactly one model")
    | some _ => .error (attestation "model attestations must be an array")
  | _ => .error (attestation "attestation report must be an object")

namespace AttestationReport

variable (report : AttestationReport)

/-- `echoed_nonce`. -/
def echoedNonce : Option String := report.requestNonce <|> report.nonce

/-- `tls_fingerprint`. -/
def tlsFingerprint? : Option String := report.tlsCertFingerprint <|> report.tlsFingerprint

/-- The names of the model key. -/
def keyAliases : List String := report.signingPublicKey.toList ++ report.signingAddress.toList

/-- `model_key`. -/
def modelKey : Except SecureClientError Ed25519PublicKey := do
  let primary ← orReject (report.signingPublicKey <|> report.signingAddress)
    "attestation omitted the model key"
  let key ← orReject (Ed25519PublicKey.fromHex env primary) "attestation model key is invalid"
  match report.signingPublicKey, report.signingAddress with
  | some publicKey, some address =>
    let addressKey ← orReject (Ed25519PublicKey.fromHex env address)
      "attestation signing address is invalid"
    if key ≠ addressKey then .error (attestation "attestation model key aliases disagree")
    else
      let named ← orReject (Ed25519PublicKey.fromHex env publicKey)
        "attestation model key is invalid"
      rejectIf (key ≠ named) "attestation model key aliases disagree"
      return key
  | _, _ => return key

/-- `workload_manifest`. -/
def workloadManifest : Except SecureClientError String :=
  match report.appCompose.filter (· ≠ "") with
  | some manifest => .ok manifest
  | none =>
    let info := report.info.bind (parseJsonObject env)
    let nested := (info.bind fun object =>
      (Json.lookup "tcb_info" object).bind (parseJsonObject env)) <|>
        report.tcbInfo.bind (parseJsonObject env)
    orReject (((nested.bind (Json.lookup "app_compose")).bind Json.asStr?).filter (· ≠ ""))
      "attestation omitted the workload manifest"

/-- `validate_report_identity`. -/
def validateIdentity (nonce : Bytes32) (upstreamModel expectedSigningAlgo : String) :
    Except SecureClientError Unit := do
  rejectIf (report.signingAlgo ≠ some expectedSigningAlgo)
    "attestation signing algorithm does not match the request"
  let echoed ← orReject report.echoedNonce "attestation did not echo the request nonce"
  let echoed ← decodeHex32 echoed "attestation nonce is invalid"
  rejectIf (echoed ≠ nonce) "attestation nonce does not match the challenge"
  rejectIf (report.modelName ≠ some upstreamModel)
    "attested model does not match the selected model"
  let fingerprint ← orReject report.tlsFingerprint? "attestation omitted TLS binding"
  let _ ← decodeHex32 fingerprint "attestation TLS fingerprint is invalid"
  return ()

/-- **The aliases of the model key** all name the key that is returned. -/
theorem modelKey_ok {key : Ed25519PublicKey} (h : report.modelKey env = .ok key) :
    ∀ name ∈ report.keyAliases, Ed25519PublicKey.fromHex env name = some key := by
  unfold modelKey at h
  obtain ⟨primary, hprimary, h⟩ := Fallible.result_bind_ok h
  obtain ⟨first, hfirst, h⟩ := Fallible.result_bind_ok h
  have hprimary := orReject_ok hprimary
  have hfirst := orReject_ok hfirst
  unfold keyAliases
  split at h
  · next publicKey address hpublic haddress =>
    obtain ⟨addressKey, haddressKey, h⟩ := Fallible.result_bind_ok h
    split at h
    · cases h
    · next hagree =>
      obtain ⟨named, hnamed, h⟩ := Fallible.result_bind_ok h
      obtain ⟨_, hsame, h⟩ := Fallible.result_bind_ok h
      cases h
      have hsame : key = named := by simpa using rejectIf_ok hsame
      rw [not_not] at hagree
      rw [hpublic, haddress]
      intro name hname
      rcases List.mem_append.mp hname with hname | hname
      · obtain rfl : name = publicKey := by simpa using hname
        rw [orReject_ok hnamed, hsame]
      · obtain rfl : name = address := by simpa using hname
        rw [orReject_ok haddressKey, hagree]
  · next hone =>
    cases h
    intro name hname
    cases hpublic : report.signingPublicKey with
    | none =>
      rw [hpublic] at hprimary hname
      have haddress : report.signingAddress = some primary := hprimary
      rw [haddress] at hname
      obtain rfl : name = primary := by simpa using hname
      exact hfirst
    | some publicKey =>
      cases haddress : report.signingAddress with
      | none =>
        rw [hpublic] at hprimary
        obtain rfl : publicKey = primary := Option.some.inj hprimary
        rw [hpublic, haddress] at hname
        obtain rfl : name = publicKey := by simpa using hname
        exact hfirst
      | some address => exact absurd haddress (hone publicKey address hpublic)

/-- A key is returned where it has a name. -/
theorem modelKey_named {key : Ed25519PublicKey} (h : report.modelKey env = .ok key) :
    report.keyAliases ≠ [] := by
  obtain ⟨primary, hprimary, -⟩ := Fallible.result_bind_ok h
  have hprimary := orReject_ok hprimary
  unfold keyAliases
  intro hnone
  cases hpublic : report.signingPublicKey with
  | some publicKey => simp [hpublic] at hnone
  | none =>
    cases haddress : report.signingAddress with
    | some address => simp [haddress] at hnone
    | none => simp [hpublic, haddress] at hprimary

end AttestationReport

end Near.Attestation

end AxiomDesktop
