import AxiomDesktop.SecureClient.Receipt

/-!
# The signed transcript

The parser of the response bytes a receipt signs (`parse_raw_stream`): the provider's own event
stream, one JSON chunk on each `data:` line, with the content encrypted for the client. It is
independent of the parser of the relay's events, and its result is what the relay's stream has to
agree with.
-/

namespace AxiomDesktop

namespace Near

open SecureClientError (invalid)

/-! ## Token counts -/

/-- The integer of a number literal that `serde_json` keeps as one: `as_u64` or `as_i64`. -/
def asInteger? (literal : String) : Option Int :=
  match literal.toList with
  | '-' :: cs =>
    match Text.digits? cs with
    | some n => if 0 < n ∧ n ≤ 2 ^ 63 then some (-(n : Int)) else none
    | none => none
  | cs =>
    match Text.digits? cs with
    | some n => if n < 2 ^ 64 then some n else none
    | none => none

/-- `str::parse::<i128>`. -/
def parseI128 (s : String) : Option Int :=
  match s.toList with
  | '-' :: cs => (Text.digits? cs).bind fun n => if n ≤ 2 ^ 127 then some (-(n : Int)) else none
  | '+' :: cs => (Text.digits? cs).bind fun n => if n < 2 ^ 127 then some (n : Int) else none
  | cs => (Text.digits? cs).bind fun n => if n < 2 ^ 127 then some (n : Int) else none

/-- `Option<String>` of a ciphertext: an empty one counts as absent. -/
def optionalCiphertext (value : Option String) :
    Except SecureClientError (Option CiphertextHex) :=
  match value.filter (!·.isEmpty) with
  | none => .ok none
  | some value => (CiphertextHex.new value).map some

section
variable (P : Primitives)

/-- `token_value`: a count, where the provider may write a number or a string. -/
def tokenValue : Json → Option Nat
  | .num literal =>
    match asInteger? literal with
    | some n => some n.toNat
    | none => some (P.truncF64 literal)
  | .str s => (parseI128 s).map fun n => min n.toNat (2 ^ 64 - 1)
  | _ => none

/-- The first of the names under which the object has a count. -/
def token (names : List String) (value : Json) : Option Nat :=
  names.findSome? fun name => (value.get? name).bind (tokenValue P)

/-- `provider_usage`. -/
def providerUsage (value : Option Json) : RelayUsage :=
  let object := value.getD .null
  let promptTokens := token P ["prompt_tokens", "input_tokens"] object
  let cached := (token P ["cached_prompt_tokens"] object).or
    (["prompt_tokens_details", "input_tokens_details"].findSome? fun name =>
      (object.get? name).bind (token P ["cached_tokens"]))
  { promptTokens
    completionTokens := token P ["completion_tokens", "output_tokens"] object
    totalTokens := token P ["total_tokens"] object
    cachedPromptTokens := cached.map fun value =>
      promptTokens.elim value fun prompt => min value prompt }

/-- `json_value_is_truthy`. -/
def isTruthy : Json → Bool
  | .null => false
  | .bool b => b
  | .num literal =>
    match asInteger? literal with
    | some n => n != 0
    | none => P.nonzeroF64 literal
  | .str s => !s.isEmpty
  | .arr values => !values.isEmpty
  | .obj fields => !fields.isEmpty

/-- `decrypt`. -/
def decrypt (ciphertext : CiphertextHex) : Except SecureClientError String := do
  let bytes ← P.decryptHex ciphertext.value
  match Text.fromUtf8 bytes with
  | some text => pure text
  | none => .error (.new .decryption "decrypted relay value is not UTF-8")

/-- `decrypt`, of a value that may be absent. -/
def decryptOptional : Option CiphertextHex → Except SecureClientError (Option String)
  | none => .ok none
  | some ciphertext => (decrypt P ciphertext).map some

/-- `validate_tool_arguments`. -/
def validateToolArguments (arguments : String) : Except SecureClientError Unit :=
  ensure (P.isJson arguments) "decrypted tool arguments are not valid JSON"

/-- The checks both parsers make of their finished tool calls. -/
def validateCalls (calls : List ToolCall) : Except SecureClientError Unit :=
  calls.forM fun call => do
    validateSecureCallId call.id
    validateToolArguments P call.function.arguments

/-- `append_bounded`. -/
def appendBounded (fragment : String) : Fallible SecureClientError String PUnit := do
  let target ← get
  Fallible.failIf
    (min (target.utf8ByteSize + fragment.utf8ByteSize) (2 ^ 64 - 1) > MAX_PLAINTEXT_STREAM_BYTES)
    (invalid "decrypted relay stream exceeds the configured limit")
  set (target ++ fragment)

/-- Pushes a fragment of a tool call, with the error of the stream it comes from. -/
def pushCall (delta : ToolCallDelta) (detail : String) :
    Fallible SecureClientError ToolCallAccumulator PUnit :=
  Fallible.mapError (fun _ => invalid detail) (ToolCallAccumulator.push delta)

/-! ## The parser -/

/-- The local variables of `parse_raw_stream`. -/
structure RawStream where
  chatId : Option String := none
  model : Option String := none
  content : String := ""
  reasoning : String := ""
  refusal : String := ""
  toolCalls : ToolCallAccumulator := {}
  usage : RelayUsage
  finishReason : String := "stop"
  sequenceCount : Nat := 0
  done : Bool := false

/-- Keeps the value a chunk names, which has to be the one earlier chunks named. -/
def keepStable (value : Option String) (check : String → Except SecureClientError Unit)
    (detail : String) : Fallible SecureClientError (Option String) PUnit :=
  match value with
  | none => pure ⟨⟩
  | some value => do
    let _ ← Fallible.ofResult (check value)
    let existing ← get
    Fallible.failIf (existing.any (· ≠ value)) (invalid detail)
    set (some value)

/-- Decrypts a fragment and appends it, where there is one. -/
def appendCiphertext (ciphertext : Option CiphertextHex) :
    Fallible SecureClientError String PUnit :=
  match ciphertext with
  | none => pure ⟨⟩
  | some ciphertext => do
    let value ← Fallible.ofResult (decrypt P ciphertext)
    appendBounded value

/-- A fragment of a tool call of a signed chunk. -/
def rawToolCall (encrypted : RawNearToolCallDelta) :
    Fallible SecureClientError ToolCallAccumulator PUnit := do
  let encryptedName ← Fallible.ofResult (optionalCiphertext (encrypted.function.bind (·.1)))
  let name ← Fallible.ofResult (decryptOptional P encryptedName)
  let encryptedArguments ← Fallible.ofResult (optionalCiphertext (encrypted.function.bind (·.2)))
  let arguments ← Fallible.ofResult (decryptOptional P encryptedArguments)
  pushCall { index := encrypted.index, id := encrypted.id, kind := encrypted.kind, name, arguments }
    "signed NEAR tool-call fragments are invalid"

/-- `sequence_count`, which counts the chunks that carry a part of the response. -/
def countChunk (carries : Bool) : Fallible SecureClientError Nat PUnit :=
  if carries then do
    let count ← get
    Fallible.failIf (count + 1 ≥ 2 ^ 64) (invalid "signed NEAR stream sequence overflowed")
    set (count + 1)
  else pure ⟨⟩

/-- The part of the loop that works on the first choice of a chunk. -/
def rawChoice (choice : RawNearStreamChoice) : Fallible SecureClientError RawStream PUnit := do
  modify fun s => { s with finishReason := choice.finishReason.getD s.finishReason }
  let content ← Fallible.ofResult (optionalCiphertext choice.delta.content)
  let content ← Fallible.ofResult
    (if content.isSome then .ok content else optionalCiphertext choice.text)
  let reasoning ← Fallible.ofResult (optionalCiphertext choice.delta.reasoningContent)
  let refusal ← Fallible.ofResult (optionalCiphertext choice.delta.refusal)
  let toolCalls := choice.delta.toolCalls.getD []
  Fallible.focus (·.sequenceCount) (fun sequenceCount s => { s with sequenceCount })
    (countChunk (content.isSome || reasoning.isSome || refusal.isSome || !toolCalls.isEmpty))
  Fallible.focus (·.content) (fun content s => { s with content }) (appendCiphertext P content)
  Fallible.focus (·.reasoning) (fun reasoning s => { s with reasoning })
    (appendCiphertext P reasoning)
  Fallible.focus (·.refusal) (fun refusal s => { s with refusal }) (appendCiphertext P refusal)
  Fallible.focus (·.toolCalls) (fun toolCalls s => { s with toolCalls })
    (toolCalls.forM (rawToolCall P))

/-- The part of the loop that works on a chunk. -/
def rawChunk (chunk : RawNearStreamChunk) : Fallible SecureClientError RawStream PUnit := do
  Fallible.focus (·.chatId) (fun chatId s => { s with chatId })
    (keepStable chunk.id validateRunId "signed NEAR stream changes its chat ID")
  Fallible.focus (·.model) (fun model s => { s with model })
    (keepStable chunk.model (fun _ => .ok ()) "signed NEAR stream changes its model")
  modify fun s =>
    { s with usage := if chunk.usage.any (isTruthy P) then providerUsage P chunk.usage else s.usage }
  rawChoice P (chunk.choices.headD {})

/-- The payload of a `data:` line. -/
def linePayload (rawLine : List Char) : Option (List Char) :=
  let line := (Text.stripSuffix ['\r'] rawLine).getD rawLine
  (Text.stripPrefix "data:".toList line).map fun payload =>
    Text.trimChars ((Text.stripPrefix [' '] payload).getD payload)

/-- A `data:` line: the terminal marker, or a chunk. -/
def rawPayload (payload : List Char) : Fallible SecureClientError RawStream PUnit := do
  let s ← get
  if payload = "[DONE]".toList then
    Fallible.failIf (s.done = true) (invalid "signed NEAR stream repeats its terminal marker")
    set { s with done := true }
  else
    Fallible.failIf (s.done = true) (invalid "signed NEAR stream contains data after completion")
    let chunk ← Fallible.okOr (P.chunkFromStr (String.ofList payload))
      (invalid "signed NEAR stream event is invalid")
    rawChunk P chunk

/-- One round of the loop of `parse_raw_stream`. -/
def rawLine (line : List Char) : Fallible SecureClientError RawStream PUnit :=
  match linePayload line with
  | none => pure ⟨⟩
  | some payload => rawPayload P payload

/-- What the signed bytes say (`VerifiedStreamTranscript`). -/
structure VerifiedStreamTranscript where
  chatId : String
  model : Option String
  sequenceCount : Nat
  response : InferenceResponse
  deriving DecidableEq, Repr

/-- A text, or nothing where it is empty (`(!text.is_empty()).then_some(text)`). -/
def nonempty (text : String) : Option String := if text.isEmpty then none else some text

/-- The part of `parse_raw_stream` after its loop. -/
def rawFinish (s : RawStream) : Except SecureClientError VerifiedStreamTranscript := do
  ensure s.done "signed NEAR stream omitted its terminal marker"
  let some chatId := s.chatId | .error (invalid "signed NEAR stream omitted its chat ID")
  let calls ← s.toolCalls.finish.mapError
    fun _ => invalid "signed NEAR tool-call stream is incomplete"
  validateCalls P calls
  let finishReason ← parseFinishReason s.finishReason
  validateFinishShape finishReason calls
  let usage ← normalizeUsage s.usage
  pure
    { chatId, model := s.model, sequenceCount := s.sequenceCount,
      response :=
        { assistant := { text := s.content, reasoning := none, toolCalls := calls }
          reasoning := nonempty s.reasoning
          refusal := nonempty s.refusal
          usage
          finishReason := some finishReason } }

/-- `parse_raw_stream`, of the characters of the response. -/
def parseRawText (text : List Char) : Except SecureClientError VerifiedStreamTranscript :=
  match ((Text.splitChar '\n' text).forM (rawLine P)).exec { usage := providerUsage P none } with
  | (.error e, _) => .error e
  | (.ok _, s) => rawFinish P s

/-- `parse_raw_stream`. -/
def parseRawStream (bytes : List UInt8) : Except SecureClientError VerifiedStreamTranscript :=
  match Text.fromUtf8 bytes with
  | none => .error (invalid "signed NEAR stream is not valid UTF-8")
  | some text => parseRawText P text.toList

end

end Near

end AxiomDesktop
