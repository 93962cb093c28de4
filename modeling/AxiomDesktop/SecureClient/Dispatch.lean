import AxiomDesktop.Inference.Request
import AxiomDesktop.SecureClient.TrustPolicy

/-!
# What the sessions send

The Chutes, Direct and pool sessions each rebuild a request by hand: `Session::run` checks it,
then makes the command for the enclave (`Chutes.dispatch`) or the `Input` and `Limits` for the pool
protocol's client (`Direct.dispatch`, `Pool.dispatch`). The model of a session ends where the result
is handed over.
-/

namespace AxiomDesktop

/-- `SecureClientError::capability`. -/
def SecureClientError.capability (detail : String) : SecureClientError :=
  .new .capabilityMismatch detail

/-! ## The pool protocol -/

namespace PoolProtocol

def MAX_IMAGES : Nat := 8
def MAX_REQUEST : Nat := 36 * 1024 * 1024

/-- A bounded image inside an encrypted request. -/
structure InlineImage where
  mimeType : String
  data : String
  width : Nat
  height : Nat
  deriving DecidableEq, Repr

/-- `InlineImage::pixels`. -/
def InlineImage.pixels (image : InlineImage) : Nat := image.width * image.height

structure Message where
  role : String
  content : String
  images : List InlineImage := []
  toolCalls : List ToolCall := []
  toolCallId : Option String := none
  deriving DecidableEq, Repr

/-- `Input::Chat`. -/
structure Input where
  messages : List Message
  maxTokens : Nat
  reasoningEffort : String
  tools : List Json
  deriving DecidableEq, Repr

structure Limits where
  contextTokens : Nat
  outputTokens : Nat
  inputBytes : Nat
  outputBytes : Nat
  imagePixels : Nat := 0
  imageSteps : Nat := 0
  inputImagePixels : Nat
  deadline : Nat
  deriving DecidableEq, Repr

end PoolProtocol

/-- What a session hands over to be sent. -/
inductive Dispatched where
  /-- The command of the native bridge. -/
  | command (value : Json)
  /-- The input and the limits of the pool protocol's client. -/
  | input (input : PoolProtocol.Input) (limits : PoolProtocol.Limits)
  deriving DecidableEq, Repr

/-- What a run reads besides its request. -/
structure Moment where
  /-- The clock when the policy is checked. -/
  checkedAt : Nat
  /-- The clock when the deadline is set. -/
  sentAt : Nat
  /-- The bytes drawn for an invocation without an ID. -/
  drawn : List UInt8

/-- Lowercase hexadecimal digits of a length: what Chutes asks of an invocation ID, and `hex_bytes`
of an identifier. -/
def isLowerHex (length : Nat) (id : String) : Bool :=
  (Text.bytes id).length = length &&
    (Text.bytes id).all fun b => Text.isHexDigit b && !Text.isUppercase b

open SecureClientError (capability)

/-! ## Chutes -/

namespace Chutes

def MAX_OUTPUT_TOKENS : Nat := 4096
def MAX_IMAGES : Nat := 10


def imageBlock (image : ImageContent) : Json :=
  .obj [("type", .str "image_url"), ("image_url", .obj [("url", .str image.dataUrl)])]

/-- The content of a message: blocks where it has images. -/
def content (m : ChatMessage) : Json :=
  if m.images = [] then .str m.content
  else .arr (.obj [("type", .str "text"), ("text", .str m.content)] :: m.images.map imageBlock)

/-- The message of a command. -/
def serialized (m : ChatMessage) : Json :=
  .obj ([("role", .str m.role.asStr), ("content", content m)] ++
    (if m.toolCalls = [] then [] else [("tool_calls", .arr (m.toolCalls.map ToolCall.toJson))]) ++
    (m.toolCallId.map fun id => ("tool_call_id", .str id)).toList)

/-- The loop over the messages, with the images it has counted. -/
def messages (imageCount : Nat) : List ChatMessage → Except SecureClientError (List Json)
  | [] => pure []
  | m :: rest => do
    refuseIf (m.files ≠ []) (capability "this model does not accept document files")
    refuseIf (m.images ≠ [] ∧ (m.role ≠ .user ∨ imageCount + m.images.length > MAX_IMAGES))
      (capability "at most ten private user images are supported in the model context")
    refuseIf (∃ image ∈ m.images, image.validate ≠ .ok ())
      (capability "invalid private image input")
    let others ← messages (imageCount + m.images.length) rest
    pure (serialized m :: others)

/-- The invocation ID of a request, or the one that is drawn. -/
def requestId (moment : Moment) (r : InferenceRequest) : String :=
  r.requestId.getD (Text.hexEncode moment.drawn)

def command (hosted : Bool) (id : String) (messages : List Json) (r : InferenceRequest) : Json :=
  .obj ([("op", .str "stream"), ("messages", .arr messages),
      ("max_tokens", .ofNat (min (r.maxOutputTokens.getD MAX_OUTPUT_TOKENS) MAX_OUTPUT_TOKENS))] ++
    (if r.tools = [] then [] else [("tools", .arr (r.tools.map ToolDefinition.toJson))]) ++
    (if hosted then [("request_id", .str id)] else []))

/-- `Session::run` of Chutes, to the command. -/
def dispatch (model : ModelInfo) (hosted : Bool) (moment : Moment) (r : InferenceRequest) :
    Except SecureClientError Dispatched := do
  refuseIf (r.model ≠ model.id ∨ r.responseFormat ≠ .text ∨ r.sampling.isDefault = false)
    (capability "local preview supports text chat with medium reasoning")
  refuseIf (isLowerHex 32 (requestId moment r) = false)
    (capability "canonical native invocation ID required")
  let messages ← messages 0 r.messages
  pure (.command (command hosted (requestId moment r) messages r))

end Chutes

open PoolProtocol (InlineImage Message Input Limits)

/-- `ReasoningEffort` on the wire of the pool protocol. -/
def effort? : ReasoningEffort → Option String
  | .low => some "low"
  | .medium => some "medium"
  | .high => some "high"
  | _ => none

/-- What is there, or the error of what is not. -/
def orCapability {α : Type} (value : Option α) (detail : String) : Except SecureClientError α :=
  match value with
  | some a => pure a
  | none => .error (capability detail)

/-! ## Direct -/

namespace Direct

def MAX_OUTPUT_TOKENS : Nat := 4096

/-- The pixels of the images, added to a total that stays below `2 ^ 64`. -/
def addPixels (total : Nat) : List InlineImage → Except SecureClientError Nat
  | [] => pure total
  | image :: rest => do
    refuseIf (total + image.pixels ≥ 2 ^ 64) (capability "Image pixel budget exceeded")
    addPixels (total + image.pixels) rest

/-- The message of an input, with its normalized images. -/
def message (m : ChatMessage) (images : List InlineImage) : Message where
  role := m.role.asStr
  content := m.content
  images := images
  toolCalls := m.toolCalls
  toolCallId := m.toolCallId

/-- The fields a message may not have, for this model. -/
def unsupported (model : ModelInfo) (m : ChatMessage) : Bool :=
  (!m.images.isEmpty && !model.supportsImages) || !m.files.isEmpty ||
    ((!m.toolCalls.isEmpty || m.toolCallId.isSome) && !model.supportsTools) ||
    (m.name.isSome && m.role ≠ .tool) || m.refusal.isSome || m.reasoningContent.isSome

/-- The effort of a request: none where it does not want thinking. -/
def effort (r : InferenceRequest) : Except SecureClientError String :=
  if r.thinkingMode = .disabled then pure "none"
  else orCapability (effort? r.reasoningEffort) "unsupported direct reasoning effort"

section
variable (upload : String → String → Option InlineImage)

/-- `InlineImage::from_upload` of each image. -/
def uploads : List ImageContent → Except SecureClientError (List InlineImage)
  | [] => pure []
  | image :: rest =>
    match upload image.mimeType image.data with
    | none => .error (capability "Image is invalid or exceeds the installed vision limits")
    | some inline => do
      let others ← uploads rest
      pure (inline :: others)

/-- The loop over the messages, with the images and the pixels it has counted. -/
def messages (model : ModelInfo) (imageCount pixels : Nat) :
    List ChatMessage → Except SecureClientError (List Message × Nat)
  | [] => pure ([], pixels)
  | m :: rest => do
    refuseIf (unsupported model m = true)
      (capability "direct worker request contains unsupported attachments or message fields")
    let images ← uploads upload m.images
    refuseIf (imageCount + images.length > PoolProtocol.MAX_IMAGES)
      (capability "This connection supports at most eight images in the current context")
    let pixels ← addPixels pixels images
    let (others, total) ← messages model (imageCount + images.length) pixels rest
    pure (message m images :: others, total)

/-- `Session::run` of a direct worker, to its input and limits. -/
def dispatch (model : ModelInfo) (policy : TrustPolicy) (moment : Moment) (r : InferenceRequest) :
    Except SecureClientError Dispatched := do
  refuseIf (r.validate ≠ .ok ()) (capability "invalid direct request")
  refuseIf (r.model ≠ model.id ∨ policy.isValidAt moment.checkedAt = false ∨
      (r.tools ≠ [] ∧ model.supportsTools = false) ∨
      r.thinkingMode ∉ model.supportedThinkingModes ∨ r.sampling.isDefault = false ∨
      r.responseFormat ≠ .text ∨ r.reasoningEffort ≠ .medium)
    (capability "direct worker request controls unsupported")
  let (messages, pixels) ← messages upload model 0 0 r.messages
  let effort ← effort r
  refuseIf (r.maxOutputTokens.getD MAX_OUTPUT_TOKENS > MAX_OUTPUT_TOKENS)
    (capability "direct worker output limit is 4096 tokens")
  pure (.input
    { messages
      maxTokens := r.maxOutputTokens.getD MAX_OUTPUT_TOKENS
      reasoningEffort := effort
      tools := r.tools.map ToolDefinition.toJson }
    { contextTokens := 32768
      outputTokens := r.maxOutputTokens.getD MAX_OUTPUT_TOKENS
      inputBytes := PoolProtocol.MAX_REQUEST
      outputBytes := 32 * 1024 * 1024
      inputImagePixels := pixels
      deadline := moment.sentAt + 180 })

end

end Direct

/-! ## Pool -/

namespace Pool

/-- The fields a message may not have. -/
def unsupported (m : ChatMessage) : Bool :=
  !m.images.isEmpty || !m.files.isEmpty || !m.toolCalls.isEmpty || m.toolCallId.isSome ||
    m.name.isSome || m.refusal.isSome || m.reasoningContent.isSome || m.role = .tool

/-- The loop over the messages. -/
def messages : List ChatMessage → Except SecureClientError (List Message)
  | [] => pure []
  | m :: rest => do
    refuseIf (unsupported m = true) (capability "pool currently accepts text conversation messages")
    let others ← messages rest
    pure ({ role := m.role.asStr, content := m.content } :: others)

/-- `wire_request_id`. -/
def wireRequestId (id : String) : Except SecureClientError String :=
  let parts := Text.splitChar '-' id.toList
  let normalized := String.ofList (parts.flatten.map Char.toLower)
  if isLowerHex 32 id then pure id
  else if parts.map (fun part => (String.ofList part).utf8ByteSize) = [8, 4, 4, 4, 12] ∧
      isLowerHex 32 normalized then
    pure normalized
  else .error (capability "pool request ID must be a 128-bit identifier")

/-- The output tokens of a request, or what the model's limit leaves of 4096. -/
def outputTokens (model : ModelInfo) (r : InferenceRequest) : Nat :=
  r.maxOutputTokens.getD (min model.maxOutputTokens 4096)

/-- `Session::run` of the pool, to its input and limits. -/
def dispatch (model : ModelInfo) (policy : TrustPolicy) (moment : Moment) (r : InferenceRequest) :
    Except SecureClientError Dispatched := do
  refuseIf (r.validate ≠ .ok ()) (capability "invalid pool request")
  refuseIf (r.model ≠ model.id ∨ policy.isValidAt moment.checkedAt = false ∨ r.tools ≠ [] ∨
      r.thinkingMode = .disabled ∨ r.sampling.isDefault = false ∨ r.responseFormat ≠ .text)
    (capability "pool request controls unsupported")
  let messages ← messages r.messages
  let effort ← orCapability (effort? r.reasoningEffort) "unsupported reasoning effort"
  let input : Input :=
    { messages
      maxTokens := outputTokens model r
      reasoningEffort := effort
      tools := [] }
  let limits : Limits :=
    { contextTokens := model.contextWindowTokens
      outputTokens := outputTokens model r
      inputBytes := 3 * 1024 * 1024
      outputBytes := 16 * 1024 * 1024
      inputImagePixels := 0
      deadline := moment.sentAt + 600 }
  match r.requestId with
  | some id => do
    let _ ← wireRequestId id
    pure (.input input limits)
  | none => pure (.input input limits)

end Pool

/-! ## Sessions -/

/-- A verified session of one of the providers that rebuild the request by hand. -/
inductive VerifiedSession where
  | chutes (model : ModelInfo) (hosted : Bool)
  | direct (model : ModelInfo) (policy : TrustPolicy)
  | pool (model : ModelInfo) (policy : TrustPolicy)

/-- `Session::run`, to where the session hands the request over. -/
def VerifiedSession.dispatch (upload : String → String → Option InlineImage) :
    VerifiedSession → Moment → InferenceRequest → Except SecureClientError Dispatched
  | .chutes model hosted, moment, r => Chutes.dispatch model hosted moment r
  | .direct model policy, moment, r => Direct.dispatch upload model policy moment r
  | .pool model policy, moment, r => Pool.dispatch model policy moment r

end AxiomDesktop
