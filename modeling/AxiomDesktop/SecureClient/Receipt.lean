import AxiomDesktop.SecureClient.Relay

/-!
# Signed receipts

A receipt names the request it answers, holds the exact bytes of the provider's response and is
signed by the key the attestation bound. `verifyNearProof` is the client's check of one
(`verify_near_proof`), and `ReceiptHolds` says what a receipt that passes it establishes
(`verifyNearProof_ok`). The cryptography is a parameter (`Primitives`).
-/

namespace AxiomDesktop

/-- A chunk of the signed stream, as `serde_json` reads it (`RawNearStreamChunk`). -/
structure RawNearToolCallDelta where
  index : Nat
  id : Option String := none
  kind : Option String := none
  /-- The name and the arguments of the `function` field. -/
  function : Option (Option String × Option String) := none
  deriving DecidableEq, Repr

structure RawNearStreamDelta where
  content : Option String := none
  reasoningContent : Option String := none
  refusal : Option String := none
  toolCalls : Option (List RawNearToolCallDelta) := none
  deriving DecidableEq, Repr

structure RawNearStreamChoice where
  delta : RawNearStreamDelta := {}
  text : Option String := none
  finishReason : Option String := none
  deriving DecidableEq, Repr

structure RawNearStreamChunk where
  id : Option String := none
  model : Option String := none
  choices : List RawNearStreamChoice := []
  usage : Option Json := none
  deriving Repr

/-- What the client takes from libraries: cryptography, JSON and floating point. -/
structure Primitives where
  /-- `Sha256::digest`. -/
  sha256 : List UInt8 → List UInt8
  /-- `VerifyingKey::from_bytes` accepts the bytes. -/
  isVerifyingKey : List UInt8 → Bool
  /-- `VerifyingKey::verify_strict` of a key, the signed text and a signature. -/
  verifyStrict : List UInt8 → String → List UInt8 → Bool
  /-- `ClientIdentity::decrypt_hex`, for the identity of this request. -/
  decryptHex : String → Except SecureClientError (List UInt8)
  /-- `serde_json::from_str::<Value>` accepts the text. -/
  isJson : String → Bool
  /-- `serde_json::from_str::<RawNearStreamChunk>`. -/
  chunkFromStr : String → Option RawNearStreamChunk
  /-- A number literal that is no 64-bit integer, as a float: `value.max(0.0).trunc() as u64`. -/
  truncF64 : String → Nat
  /-- A number literal that is no 64-bit integer, as a float: `value != 0.0`. -/
  nonzeroF64 : String → Bool

/-- The receipt of a response. -/
structure NearCompletionProof where
  provider : String
  protocol : String
  chatId : String
  model : String
  requestHash : String
  responseHash : String
  responseBodyBase64 : String
  signedText : String
  signature : String
  signingAddress : String
  deriving DecidableEq, Repr

/-- The string fields of a struct that denies unknown fields, read from an object that has exactly
these fields or from an array of as many strings (`serde`'s derived `Deserialize`). -/
def stringFields (names : List String) : Json → Option (List String)
  | .obj fields =>
    if fields.all (fun field => names.contains field.1) then
      names.mapM fun name => (Json.lookup name fields).bind Json.asStr?
    else none
  | .arr values => if values.length = names.length then values.mapM Json.asStr? else none
  | _ => none

/-- `serde_json::from_value::<NearCompletionProof>`. -/
def NearCompletionProof.fromValue (value : Json) : Option NearCompletionProof :=
  match stringFields
      ["provider", "protocol", "chat_id", "model", "request_hash", "response_hash",
        "response_body_base64", "signed_text", "signature", "signing_address"] value with
  | some [provider, protocol, chatId, model, requestHash, responseHash, responseBodyBase64,
      signedText, signature, signingAddress] =>
    some
      { provider, protocol, chatId, model, requestHash, responseHash, responseBodyBase64,
        signedText, signature, signingAddress }
  | _ => none

namespace Near

def PROVIDER_ID : String := "near"
def E2EE_PROTOCOL : String := "near-v3"
def INFERENCE_ENCRYPTION : String := "provider_e2ee_v2"
def MAX_PLAINTEXT_STREAM_BYTES : Nat := MAX_MESSAGE_TEXT_BYTES
def NEAR_RECEIPT_RAW_RESPONSE_BYTES : Nat := 32 * 1024 * 1024

open SecureClientError (invalid)

/-- Lower-case hexadecimal digits, a given number of them. -/
def isLowerHex (length : Nat) (value : String) : Bool :=
  value.utf8ByteSize == length &&
    (Text.bytes value).all fun b => Text.isHexDigit b && !Text.isUppercase b

/-- `canonical_hash`. -/
def canonicalHash (value : String) : Bool := isLowerHex 64 value

/-- `canonical_signing_address`. -/
def canonicalSigningAddress (value : String) : Bool := canonicalHash value

/-- A check, with the error of a value that does not pass it. -/
def ensure (passes : Bool) (detail : String) : Except SecureClientError Unit :=
  if passes then .ok () else .error (invalid detail)

theorem ensure_ok {passes : Bool} {detail : String} {u : Unit} (h : ensure passes detail = .ok u) :
    passes = true := by
  cases passes with
  | true => rfl
  | false => cases h

/-- `general_purpose::STANDARD.decode`, which reads the bytes of the string. -/
def base64Decode (s : String) : Option (List UInt8) :=
  Base64.decode ((Text.bytes s).map fun b => Char.ofNat b.toNat)

variable (P : Primitives)

/-- `verify_ed25519_signature`. -/
def verifyEd25519Signature (signedText encodedSignature expectedAddress : String) :
    Except SecureClientError Unit :=
  if signedText.utf8ByteSize > 1024 || !canonicalSigningAddress expectedAddress ||
      !isLowerHex 128 encodedSignature then
    .error (invalid "NEAR completion signature encoding is invalid")
  else
    match Text.hexDecode (Text.bytes expectedAddress) with
    | none => .error (invalid "NEAR receipt key is invalid")
    | some key =>
      if key.length ≠ 32 || !P.isVerifyingKey key then
        .error (invalid "NEAR receipt key is invalid")
      else
        match Text.hexDecode (Text.bytes encodedSignature) with
        | none => .error (invalid "NEAR receipt signature is invalid")
        | some signature =>
          if signature.length ≠ 64 then .error (invalid "NEAR receipt signature is invalid")
          else if P.verifyStrict key signedText signature then .ok ()
          else .error (invalid "NEAR completion signature does not match attestation")

/-- The binding of a receipt: to the request, to the model and to the attested key. -/
def bound (proof : NearCompletionProof) (requestHash signingAddress model : String) : Bool :=
  !proof.chatId.isEmpty && proof.chatId.utf8ByteSize ≤ 256 &&
    !proof.chatId.toList.any Text.isControl && proof.model == model &&
    canonicalHash proof.requestHash && canonicalHash proof.responseHash &&
    proof.requestHash == requestHash && canonicalSigningAddress proof.signingAddress &&
    proof.signingAddress == signingAddress

/-- The text the attested key signs: the model and the hashes of the request and the response. -/
def signedPair (proof : NearCompletionProof) : String :=
  proof.model ++ ":" ++ (proof.requestHash ++ ":" ++ proof.responseHash)

/-- `verify_near_proof`: the receipt and the response bytes it holds. -/
def verifyNearProof (value : Json) (requestHash signingAddress model : String) :
    Except SecureClientError (NearCompletionProof × List UInt8) :=
  match NearCompletionProof.fromValue value with
  | none => .error (invalid "NEAR completion receipt schema is invalid")
  | some proof => do
    ensure (proof.provider == PROVIDER_ID && proof.protocol == E2EE_PROTOCOL)
      "NEAR completion receipt protocol is invalid"
    ensure (bound proof requestHash signingAddress model)
      "NEAR completion receipt binding is invalid"
    ensure (proof.responseBodyBase64.utf8ByteSize ≤ (NEAR_RECEIPT_RAW_RESPONSE_BYTES + 2) / 3 * 4)
      "NEAR completion receipt response exceeds its bound"
    match base64Decode proof.responseBodyBase64 with
    | none => .error (invalid "NEAR completion receipt response encoding is invalid")
    | some rawBody => do
      ensure (!rawBody.isEmpty && rawBody.length ≤ NEAR_RECEIPT_RAW_RESPONSE_BYTES)
        "NEAR completion receipt response exceeds its bound"
      ensure (Text.hexEncode (P.sha256 rawBody) == proof.responseHash)
        "NEAR completion receipt response hash is invalid"
      ensure (proof.signedText == signedPair proof)
        "NEAR completion receipt signed text is invalid"
      verifyEd25519Signature P proof.signedText proof.signature proof.signingAddress
      pure (proof, rawBody)

/-! ## What a receipt establishes -/

/-- A receipt over response bytes: the key at the expected address signed the expected model, the
hash of the expected request and the SHA-256 hash of the bytes. -/
structure ReceiptHolds (requestHash signingAddress model : String) (proof : NearCompletionProof)
    (body : List UInt8) : Prop where
  model_eq : proof.model = model
  requestHash_eq : proof.requestHash = requestHash
  signingAddress_eq : proof.signingAddress = signingAddress
  body_eq : base64Decode proof.responseBodyBase64 = some body
  responseHash_eq : Text.hexEncode (P.sha256 body) = proof.responseHash
  signedText_eq : proof.signedText = model ++ ":" ++ (requestHash ++ ":" ++ proof.responseHash)
  signed : ∃ key signature, Text.hexDecode (Text.bytes signingAddress) = some key ∧
    Text.hexDecode (Text.bytes proof.signature) = some signature ∧
    P.verifyStrict key proof.signedText signature = true

variable {P} {signedText encodedSignature expectedAddress requestHash signingAddress model : String}

theorem verifyEd25519Signature_ok {u : Unit}
    (h : verifyEd25519Signature P signedText encodedSignature expectedAddress = .ok u) :
    ∃ key signature, Text.hexDecode (Text.bytes expectedAddress) = some key ∧
      Text.hexDecode (Text.bytes encodedSignature) = some signature ∧
      P.verifyStrict key signedText signature = true := by
  unfold verifyEd25519Signature at h
  split at h
  · cases h
  cases hkey : Text.hexDecode (Text.bytes expectedAddress) with
  | none => rw [hkey] at h; cases h
  | some key =>
    rw [hkey] at h
    simp only at h
    split at h
    · cases h
    cases hsig : Text.hexDecode (Text.bytes encodedSignature) with
    | none => rw [hsig] at h; cases h
    | some signature =>
      rw [hsig] at h
      simp only at h
      split at h
      · cases h
      split at h
      · exact ⟨key, signature, rfl, rfl, by assumption⟩
      · cases h

/-- **The receipt check.** A receipt that passes is signed by the expected key for the expected
request and model, over the bytes it is returned with. -/
theorem verifyNearProof_ok {value : Json} {proof : NearCompletionProof} {body : List UInt8}
    (h : verifyNearProof P value requestHash signingAddress model = .ok (proof, body)) :
    ReceiptHolds P requestHash signingAddress model proof body := by
  unfold verifyNearProof at h
  cases hvalue : NearCompletionProof.fromValue value with
  | none => rw [hvalue] at h; cases h
  | some read =>
    rw [hvalue] at h
    obtain ⟨_, _, h⟩ := Fallible.result_bind_ok h
    obtain ⟨_, hbound, h⟩ := Fallible.result_bind_ok h
    obtain ⟨_, _, h⟩ := Fallible.result_bind_ok h
    cases hbody : base64Decode read.responseBodyBase64 with
    | none => rw [hbody] at h; cases h
    | some bytes =>
      rw [hbody] at h
      obtain ⟨_, _, h⟩ := Fallible.result_bind_ok h
      obtain ⟨_, hhash, h⟩ := Fallible.result_bind_ok h
      obtain ⟨_, htext, h⟩ := Fallible.result_bind_ok h
      obtain ⟨_, hsigned, h⟩ := Fallible.result_bind_ok h
      cases h
      have hb := ensure_ok hbound
      simp only [bound, Bool.and_eq_true, beq_iff_eq] at hb
      obtain ⟨⟨⟨⟨⟨⟨_, hmodel⟩, _⟩, _⟩, hrequest⟩, _⟩, haddress⟩ := hb
      refine ⟨hmodel, hrequest, haddress, hbody, by simpa using ensure_ok hhash, ?_, ?_⟩
      · rw [← hmodel, ← hrequest]
        simpa [signedPair] using ensure_ok htext
      · rw [← haddress]
        exact verifyEd25519Signature_ok hsigned

end Near

end AxiomDesktop
