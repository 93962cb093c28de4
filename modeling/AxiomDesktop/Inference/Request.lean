import AxiomDesktop.Inference.Response

/-!
# Inference requests

The provider-neutral request (`InferenceRequest`) with its messages, tools and controls, and the
check an adapter makes of one before it uses it (`InferenceRequest.validate`).
-/

namespace AxiomDesktop

def MAX_TOOLS : Nat := 128
def MAX_TOOL_DESCRIPTION_BYTES : Nat := 16384
def MAX_TOOL_PARAMETERS_BYTES : Nat := 131072

inductive ChatRole where
  | system
  | developer
  | user
  | assistant
  | tool
  deriving DecidableEq, Repr

/-- The text of a role on the wire. -/
def ChatRole.asStr : ChatRole → String
  | .system => "system"
  | .developer => "developer"
  | .user => "user"
  | .assistant => "assistant"
  | .tool => "tool"

theorem ChatRole.asStr_injective {a b : ChatRole} (h : a.asStr = b.asStr) : a = b := by
  cases a <;> cases b <;> first | rfl | simp [asStr] at h

structure ChatMessage where
  role : ChatRole
  content : String := ""
  images : List ImageContent := []
  files : List FileContent := []
  reasoningContent : Option String := none
  name : Option String := none
  refusal : Option String := none
  toolCallId : Option String := none
  toolCalls : List ToolCall := []
  deriving DecidableEq, Repr

structure FunctionDefinition where
  name : String
  description : String
  parameters : Json
  strict : Option Bool := none
  deriving DecidableEq, Repr

structure ToolDefinition where
  kind : String
  function : FunctionDefinition
  deriving DecidableEq, Repr

inductive ReasoningEffort where
  | minimal
  | low
  | medium
  | high
  | extraHigh
  deriving DecidableEq, Repr

inductive ToolChoice where
  | auto
  | none
  | required
  | named (name : String)
  deriving DecidableEq, Repr

structure SamplingParameters where
  temperature : Option Float := none
  topP : Option Float := none
  deriving Repr

inductive ResponseFormat where
  | text
  | jsonObject
  | jsonSchema (name : String) (schema : Json) (strict : Bool)
  deriving DecidableEq, Repr

inductive ThinkingMode where
  | providerDefault
  | enabled
  | disabled
  deriving DecidableEq, Repr

/-- What a provider is asked. -/
structure InferenceRequest where
  model : String
  requestId : Option String := none
  messages : List ChatMessage
  tools : List ToolDefinition := []
  toolChoice : ToolChoice := .auto
  parallelToolCalls : Option Bool := none
  reasoningEffort : ReasoningEffort := .medium
  thinkingMode : ThinkingMode := .providerDefault
  maxOutputTokens : Option Nat := none
  sampling : SamplingParameters := {}
  responseFormat : ResponseFormat := .text
  stream : Bool := true
  deriving Repr

/-- The fields of `ModelInfo` the sessions read. -/
structure ModelInfo where
  id : String
  contextWindowTokens : Nat
  maxOutputTokens : Nat
  supportedThinkingModes : List ThinkingMode := []
  supportsTools : Bool := false
  supportsImages : Bool := false
  deriving DecidableEq, Repr

/-- `request.sampling == SamplingParameters::default()`. -/
def SamplingParameters.isDefault (s : SamplingParameters) : Bool :=
  s.temperature.isNone && s.topP.isNone

/-- `ImageContent::data_url`. -/
def ImageContent.dataUrl (i : ImageContent) : String :=
  "data:" ++ i.mimeType ++ ";base64," ++ i.data

/-! ## Serialized values -/

/-- The JSON of a `FunctionCall` in its `ToolCall`. -/
def ToolCall.toJson (call : ToolCall) : Json :=
  .obj [("id", .str call.id), ("type", .str call.kind),
    ("function", .obj [("name", .str call.function.name),
      ("arguments", .str call.function.arguments)])]

/-- The JSON of a `ToolDefinition`: an absent `strict` is left out. -/
def ToolDefinition.toJson (tool : ToolDefinition) : Json :=
  .obj [("type", .str tool.kind),
    ("function", .obj ([("name", .str tool.function.name),
        ("description", .str tool.function.description),
        ("parameters", tool.function.parameters)] ++
      match tool.function.strict with
      | some strict => [("strict", .bool strict)]
      | none => []))]

theorem ToolCall.toJson_injective {a b : ToolCall} (h : a.toJson = b.toJson) : a = b := by
  rcases a with ⟨id, kind, ⟨name, arguments⟩⟩
  rcases b with ⟨id', kind', ⟨name', arguments'⟩⟩
  simp [toJson] at h
  simp [h]

theorem ToolDefinition.toJson_injective {a b : ToolDefinition} (h : a.toJson = b.toJson) :
    a = b := by
  rcases a with ⟨kind, ⟨name, description, parameters, _ | strict⟩⟩ <;>
    rcases b with ⟨kind', ⟨name', description', parameters', _ | strict'⟩⟩ <;>
    simp [toJson] at h <;> simp [h]

/-! ## The check of a request -/

/-- Returns the error where the condition holds. -/
def refuseIf {ε : Type} (c : Prop) [Decidable c] (e : ε) : Except ε Unit :=
  if c then .error e else .ok ()

/-- A check lets everything else pass. -/
@[simp] theorem refuseIf_ok {ε : Type} {c : Prop} [Decidable c] {e : ε} {u : Unit} :
    refuseIf c e = .ok u ↔ ¬ c := by
  by_cases h : c <;> simp [refuseIf, h]

/-- A sequence whose first step is a check succeeds where the check lets it pass. -/
theorem refuseIf_bind_ok {ε α : Type} {c : Prop} [Decidable c] {e : ε} {f : Unit → Except ε α}
    {a : α} : (refuseIf c e >>= f) = .ok a ↔ ¬ c ∧ f () = .ok a := by
  by_cases h : c
  · simp only [refuseIf, h, not_true_eq_false, false_and, iff_false]
    exact nofun
  · simp only [refuseIf, h, not_false_eq_true, true_and]
    rfl

/-- `validate_optional_bytes`. -/
def validateOptionalBytes (field : String) (value : Option String) (maximum : Nat) :
    Except ValidationError Unit :=
  match value with
  | some value => validateBytes field value maximum
  | none => .ok ()

/-- What the attachments of a message count, with its text. -/
def ChatMessage.attachmentBytes (m : ChatMessage) : Nat :=
  m.content.utf8ByteSize + (m.files.map (·.data.utf8ByteSize)).sum +
    (m.images.map (·.data.utf8ByteSize)).sum

/-- The checks `InferenceRequest::validate` makes of a message. -/
def ChatMessage.validate (m : ChatMessage) : Except ValidationError Unit := do
  refuseIf (m.files ≠ [] ∧
    (m.role ≠ .user ∨ m.files.length + m.images.length > MAX_ATTACHMENTS)) (.invalid "message.files")
  m.files.forM FileContent.validate
  refuseIf (m.attachmentBytes > MAX_ATTACHMENT_BYTES) (.invalid "message.attachments")
  refuseIf (m.images ≠ [] ∧ (m.role ≠ .user ∨ m.images.length > MAX_ATTACHMENTS))
    (.invalid "message.images")
  m.images.forM ImageContent.validate
  validateBytes "message.content" m.content MAX_MESSAGE_TEXT_BYTES
  validateOptionalBytes "message.reasoning_content" m.reasoningContent MAX_MESSAGE_TEXT_BYTES
  validateOptionalBytes "message.refusal" m.refusal MAX_MESSAGE_TEXT_BYTES
  match m.name with
  | some name => validateIdentifier "message.name" name MAX_FUNCTION_NAME_CHARS
  | none => .ok ()
  match m.toolCallId with
  | some id => validateCallId id
  | none => .ok ()
  validateToolCalls m.toolCalls

/-- The checks `InferenceRequest::validate` makes of a tool. -/
def ToolDefinition.validate (tool : ToolDefinition) : Except ValidationError Unit := do
  refuseIf (tool.kind ≠ "function") (.unsupported "tool.type")
  validateIdentifier "tool.function.name" tool.function.name MAX_FUNCTION_NAME_CHARS
  validateBytes "tool.function.description" tool.function.description MAX_TOOL_DESCRIPTION_BYTES
  refuseIf (tool.function.parameters.toText.utf8ByteSize > MAX_TOOL_PARAMETERS_BYTES)
    (.size "tool.function.parameters")

/-- Whether a number is out of the range a sampling parameter has. -/
def outOfRange (number maximum : Float) : Bool :=
  !number.isFinite || !(0.0 ≤ number && number ≤ maximum)

/-- `InferenceRequest::validate`. -/
def InferenceRequest.validate (r : InferenceRequest) : Except ValidationError Unit := do
  refuseIf (Text.isBlank r.model ∨ r.model.utf8ByteSize > 256 ∨ r.model.toList.any Text.isControl)
    (.invalid "model")
  refuseIf (r.messages = []) (.count "messages")
  refuseIf (r.tools.length > MAX_TOOLS) (.count "tools")
  r.messages.forM ChatMessage.validate
  r.tools.forM ToolDefinition.validate
  match r.toolChoice with
  | .named name => validateIdentifier "tool_choice.name" name MAX_FUNCTION_NAME_CHARS
  | _ => .ok ()
  refuseIf (r.maxOutputTokens = some 0) (.invalid "max_output_tokens")
  refuseIf (r.sampling.temperature.any (outOfRange · 2.0)) (.invalid "temperature")
  refuseIf (r.sampling.topP.any (outOfRange · 1.0)) (.invalid "top_p")

end AxiomDesktop
