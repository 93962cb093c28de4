import AxiomDesktop.SecureClient.Transcript

/-!
# A response of the relay in one body

`decryptCompletion`, for a response that does not come as a stream: its signed receipt is checked,
the provider's own response is read from the bytes the receipt signs (`parseRawCompletion`), and the
relay's response has to decrypt to the same (`decryptRelayCompletion`).
-/

namespace AxiomDesktop

structure EncryptedFunctionCall where
  encryptedName : CiphertextHex
  encryptedArguments : CiphertextHex
  deriving DecidableEq, Repr

structure EncryptedToolCall where
  id : String
  kind : String
  function : EncryptedFunctionCall
  deriving DecidableEq, Repr

structure RelayCompletion where
  id : String
  model : Option String := none
  encryptedContent : Option CiphertextHex := none
  encryptedReasoningContent : Option CiphertextHex := none
  encryptedRefusal : Option CiphertextHex := none
  encryptedToolCalls : List EncryptedToolCall := []
  finishReason : String
  usage : RelayUsage := {}
  proof : Option Json := none
  deriving Repr

/-- The message of a signed response. The fields of its calls (`RawNearToolCall`) are those of a
tool call, with the name and the arguments encrypted. -/
structure RawNearMessage where
  content : Option String := none
  reasoningContent : Option String := none
  refusal : Option String := none
  toolCalls : List ToolCall := []
  deriving Repr

structure RawNearCompletionChoice where
  message : RawNearMessage
  finishReason : Option String := none
  deriving Repr

structure RawNearCompletion where
  id : String
  model : Option String := none
  choices : List RawNearCompletionChoice
  usage : Option Json := none
  deriving Repr

namespace Near

open SecureClientError (invalid)

/-- `required_ciphertext`. -/
def requiredCiphertext (value detail : String) : Except SecureClientError CiphertextHex :=
  if value.isEmpty then .error (invalid detail)
  else (CiphertextHex.new value).mapError fun _ => invalid detail

/-- A call of a signed response. -/
def encryptedToolCall (call : ToolCall) : Except SecureClientError EncryptedToolCall := do
  let encryptedName ← requiredCiphertext call.function.name "signed NEAR tool name is invalid"
  let encryptedArguments ← requiredCiphertext call.function.arguments
    "signed NEAR tool arguments are invalid"
  pure { id := call.id, kind := call.kind, function := { encryptedName, encryptedArguments } }

section
variable (P : Primitives) (completionFromSlice : List UInt8 → Option RawNearCompletion)

/-- `parse_raw_completion`; `completionFromSlice` is
`serde_json::from_slice::<RawNearCompletion>`. -/
def parseRawCompletion (bytes : List UInt8) : Except SecureClientError RelayCompletion := do
  let some raw := completionFromSlice bytes | .error (invalid "signed NEAR completion JSON is invalid")
  validateRunId raw.id
  let some choice := raw.choices.head? | .error (invalid "signed NEAR completion has no choice")
  let encryptedToolCalls ← choice.message.toolCalls.mapM encryptedToolCall
  let encryptedContent ← optionalCiphertext choice.message.content
  let encryptedReasoningContent ← optionalCiphertext choice.message.reasoningContent
  let encryptedRefusal ← optionalCiphertext choice.message.refusal
  pure
    { id := raw.id, model := raw.model, encryptedContent, encryptedReasoningContent, encryptedRefusal,
      encryptedToolCalls, finishReason := choice.finishReason.getD "stop",
      usage := providerUsage P raw.usage, proof := none }

/-- The loop of `decrypt_tool_calls`, with the IDs it has seen. -/
def decryptCalls (seen : List String) :
    List EncryptedToolCall → Except SecureClientError (List ToolCall)
  | [] => .ok []
  | call :: rest => do
    validateSecureCallId call.id
    ensure (call.kind = "function" && !seen.contains call.id) "relay tool call metadata is invalid"
    let name ← decrypt P call.function.encryptedName
    let arguments ← decrypt P call.function.encryptedArguments
    validateToolArguments P arguments
    let calls ← decryptCalls (call.id :: seen) rest
    pure ({ id := call.id, kind := call.kind, function := { name, arguments } } :: calls)

/-- `decrypt_tool_calls`. -/
def decryptToolCalls (encrypted : List EncryptedToolCall) :
    Except SecureClientError (List ToolCall) :=
  if encrypted.length > MAX_TOOL_CALLS then .error (invalid "relay returned too many tool calls")
  else decryptCalls P [] encrypted

/-- `decrypt_relay_completion`. -/
def decryptRelayCompletion (modelId upstreamModel : String) (completion : RelayCompletion) :
    Except SecureClientError InferenceResponse := do
  validateRunId completion.id
  ensure (completion.model.all fun value => value = upstreamModel || value = modelId)
    "relay response model does not match verified session"
  let content ← decryptOptional P completion.encryptedContent
  let text := content.getD ""
  let reasoning ← decryptOptional P completion.encryptedReasoningContent
  let refusal ← decryptOptional P completion.encryptedRefusal
  let toolCalls ← decryptToolCalls P completion.encryptedToolCalls
  ensure (!(text.isEmpty && reasoning.all (·.isEmpty) && refusal.isNone && toolCalls.isEmpty))
    "relay completion has no usable output"
  let finishReason ← parseFinishReason completion.finishReason
  validateFinishShape finishReason toolCalls
  let usage ← normalizeUsage completion.usage
  pure
    { assistant := { text, reasoning := none, toolCalls }, reasoning, refusal, usage,
      finishReason := some finishReason }

/-- `decrypt_completion`. -/
def decryptCompletion (modelId upstreamModel requestHash signingAddress : String)
    (completion : RelayCompletion) : Except SecureClientError InferenceResponse := do
  let some proofValue := completion.proof
    | .error (invalid "NEAR completion omitted its signed receipt")
  let (proof, rawBody) ← verifyNearProof P proofValue requestHash signingAddress upstreamModel
  ensure (proof.chatId = completion.id) "NEAR receipt chat ID does not match the relay response"
  let rawCompletion ← parseRawCompletion P completionFromSlice rawBody
  ensure (rawCompletion.id = proof.chatId) "NEAR receipt chat ID does not match its response bytes"
  let verified ← decryptRelayCompletion P modelId upstreamModel rawCompletion
  let provisional ← decryptRelayCompletion P modelId upstreamModel completion
  ensure (provisional = verified) "relay completion does not match the signed NEAR response"
  pure verified

/-! ## The IDs of the calls -/

variable {P} {completionFromSlice}

/-- The calls of a response have IDs of their own, and none that was seen. -/
theorem decryptCalls_ids {seen : List String} {encrypted : List EncryptedToolCall}
    {calls : List ToolCall} (h : decryptCalls P seen encrypted = .ok calls) :
    (calls.map (·.id)).Nodup ∧ ∀ call ∈ calls, call.id ∉ seen := by
  induction encrypted generalizing seen calls with
  | nil =>
    cases h
    exact ⟨List.nodup_nil, nofun⟩
  | cons call rest ih =>
    unfold decryptCalls at h
    obtain ⟨_, _, h⟩ := Fallible.result_bind_ok h
    obtain ⟨_, hfresh, h⟩ := Fallible.result_bind_ok h
    obtain ⟨name, _, h⟩ := Fallible.result_bind_ok h
    obtain ⟨arguments, _, h⟩ := Fallible.result_bind_ok h
    obtain ⟨_, _, h⟩ := Fallible.result_bind_ok h
    obtain ⟨others, hothers, h⟩ := Fallible.result_bind_ok h
    cases h
    obtain ⟨hnodup, hunseen⟩ := ih hothers
    have hnew : call.id ∉ seen := by simpa using (Bool.and_eq_true_iff.mp (ensure_ok hfresh)).2
    refine ⟨List.nodup_cons.mpr ⟨fun hmem => ?_, hnodup⟩, ?_⟩
    · obtain ⟨other, hother, heq⟩ := List.mem_map.mp hmem
      exact hunseen other hother (heq ▸ List.mem_cons_self)
    · intro other hother
      rcases List.mem_cons.mp hother with rfl | hrest
      · exact hnew
      · exact fun hseen => hunseen other hrest (List.mem_cons_of_mem _ hseen)

theorem decryptRelayCompletion_ids {modelId upstreamModel : String} {completion : RelayCompletion}
    {response : InferenceResponse}
    (h : decryptRelayCompletion P modelId upstreamModel completion = .ok response) :
    (response.assistant.toolCalls.map (·.id)).Nodup := by
  unfold decryptRelayCompletion at h
  iterate 5 obtain ⟨_, _, h⟩ := Fallible.result_bind_ok h
  obtain ⟨calls, hcalls, h⟩ := Fallible.result_bind_ok h
  iterate 4 obtain ⟨_, _, h⟩ := Fallible.result_bind_ok h
  cases h
  unfold decryptToolCalls at hcalls
  split at hcalls
  · cases hcalls
  · exact (decryptCalls_ids hcalls).1

theorem decryptCompletion_ids {modelId upstreamModel requestHash signingAddress : String}
    {completion : RelayCompletion} {response : InferenceResponse}
    (h : decryptCompletion P completionFromSlice modelId upstreamModel requestHash signingAddress
      completion = .ok response) :
    (response.assistant.toolCalls.map (·.id)).Nodup := by
  unfold decryptCompletion at h
  split at h
  · obtain ⟨_, _, h⟩ := Fallible.result_bind_ok h
    iterate 3 obtain ⟨_, _, h⟩ := Fallible.result_bind_ok h
    obtain ⟨verified, hverified, h⟩ := Fallible.result_bind_ok h
    obtain ⟨_, _, h⟩ := Fallible.result_bind_ok h
    obtain ⟨_, _, h⟩ := Fallible.result_bind_ok h
    cases h
    exact decryptRelayCompletion_ids hverified
  · cases h

end

end Near

end AxiomDesktop
