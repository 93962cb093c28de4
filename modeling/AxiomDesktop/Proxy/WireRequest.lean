import Mathlib.Data.String.Basic
import AxiomDesktop.Inference.Request
import AxiomDesktop.Lib.Firsts

/-!
# Requests of the OpenAI-compatible wire

`ChatCompletionRequest` as it is deserialized (`ChatCompletionRequest.ofJson?`) and as it
is translated (`intoDomain`). A struct of the wire captures the keys it has no field for,
and the translation refuses or reports what was captured; a content part that carries a
file captures nothing.
-/

namespace AxiomDesktop

/-- `bool` as `serde_json` reads it. -/
def Json.asBool? : Json → Option Bool
  | .bool value => some value
  | _ => none

namespace Compat

/-! ## Fields of a struct -/

/-- The entries of an object in which no field of the struct is repeated. -/
def entries? (known : List String) : Json → Option (List (String × Json))
  | .obj entries => if ((entries.map (·.1)).filter known.contains).Nodup then some entries else none
  | _ => none

/-- The keys of the entries that are no field of the struct: what `#[serde(flatten)]` captures. The
order of the captured map shows in nothing that reads it, and neither do its values. -/
def others (known : List String) (entries : List (String × Json)) : List String :=
  (entries.map (·.1)).filter fun key => !known.contains key

section Fields

variable {α : Type} (entries : List (String × Json)) (key : String) (read : Json → Option α)

/-- A field that has to be there. -/
def required : Option α := (Json.lookup key entries).bind read

/-- A field of type `Option` with `#[serde(default)]`. -/
def optional : Option (Option α) :=
  match Json.lookup key entries with
  | none | some .null => some none
  | some v => (read v).map some

/-- A field with `#[serde(default)]`. -/
def defaulted (default : α) : Option α :=
  match Json.lookup key entries with
  | none => some default
  | some v => read v

end Fields

/-- `Vec<T>`. -/
def listOf? {α : Type} (read : Json → Option α) (v : Json) : Option (List α) :=
  v.arr?.bind fun vs => vs.mapM read

/-- `u32`. -/
def u32? (v : Json) : Option Nat := v.nat?.filter (· < 2 ^ 32)

/-! ## The structs of the wire -/

structure StreamOptions where
  includeUsage : Bool
  unsupported : List String
  deriving DecidableEq, Repr

def StreamOptions.fields : List String := ["include_usage"]

def StreamOptions.ofJson? (v : Json) : Option StreamOptions := do
  let entries ← entries? fields v
  let includeUsage ← defaulted entries "include_usage" Json.asBool? false
  pure { includeUsage, unsupported := others fields entries }

structure WireFile where
  filename : String
  fileData : String
  deriving DecidableEq, Repr

def WireFile.fields : List String := ["filename", "file_data"]

/-- `#[serde(deny_unknown_fields)]`; a struct without a captured map is also read from
a sequence. -/
def WireFile.ofJson? (v : Json) : Option WireFile := do
  match v with
  | .arr [filename, fileData] => do
    let filename ← filename.asStr?
    let fileData ← fileData.asStr?
    pure { filename, fileData }
  | v => do
    let entries ← entries? fields v
    let filename ← required entries "filename" Json.asStr?
    let fileData ← required entries "file_data" Json.asStr?
    if others fields entries = [] then pure { filename, fileData } else none

structure WireImageUrl where
  url : String
  unsupported : List String
  deriving DecidableEq, Repr

def WireImageUrl.fields : List String := ["url"]

def WireImageUrl.ofJson? (v : Json) : Option WireImageUrl := do
  let entries ← entries? fields v
  let url ← required entries "url" Json.asStr?
  pure { url, unsupported := others fields entries }

/-- The variants of `WireContentPart`. -/
inductive PartType where
  | file
  | text
  | imageUrl
  | unsupported
  deriving DecidableEq, Repr

/-- The tag of a part: its name, or its index, since a part is read from a buffered value. -/
def PartType.ofJson? : Json → Option PartType
  | .str "file" => some .file
  | .str "text" => some .text
  | .str "image_url" => some .imageUrl
  | .str _ => some .unsupported
  | .num literal =>
    ((Json.num literal).nat?.filter (· < 2 ^ 64)).map fun index =>
      if index = 0 then .file
      else if index = 1 then .text
      else if index = 2 then .imageUrl
      else .unsupported
  | _ => none

/-- The fields of a part of a type, with its tag. -/
def PartType.fields : PartType → List String
  | .file => ["type", "file"]
  | .text => ["type", "text"]
  | .imageUrl => ["type", "image_url"]
  | .unsupported => ["type"]

/-- A single content part. The variant `file` has no captured map. -/
inductive WireContentPart where
  | file (file : WireFile)
  | text (text : String) (unsupported : List String)
  | imageUrl (imageUrl : WireImageUrl) (unsupported : List String)
  | unsupported
  deriving DecidableEq, Repr

/-- A part of a type, from the entries of its object. -/
def WireContentPart.ofEntries? (type : PartType) (entries : List (String × Json)) :
    Option WireContentPart :=
  match type with
  | .file => (required entries "file" WireFile.ofJson?).map .file
  | .text =>
    (required entries "text" Json.asStr?).map fun text => .text text (others type.fields entries)
  | .imageUrl =>
    (required entries "image_url" WireImageUrl.ofJson?).map fun imageUrl =>
      .imageUrl imageUrl (others type.fields entries)
  | .unsupported => some .unsupported

def WireContentPart.ofJson? (v : Json) : Option WireContentPart := do
  match v with
  | .arr (tag :: rest) => do
    match ← PartType.ofJson? tag, rest with
    | .file, [w] => (WireFile.ofJson? w).map .file
    | .unsupported, [] => some .unsupported
    | _, _ => none
  | v => do
    let type ← (v.get? "type").bind PartType.ofJson?
    let entries ← entries? type.fields v
    ofEntries? type entries

inductive WireContent where
  | text (text : String)
  | parts (parts : List WireContentPart)
  deriving DecidableEq, Repr

def WireContent.ofJson? (v : Json) : Option WireContent :=
  match v with
  | .str s => some (.text s)
  | v => (listOf? WireContentPart.ofJson? v).map .parts

structure WireFunctionCall where
  name : String
  arguments : String
  unsupported : List String
  deriving DecidableEq, Repr

def WireFunctionCall.fields : List String := ["name", "arguments"]

def WireFunctionCall.ofJson? (v : Json) : Option WireFunctionCall := do
  let entries ← entries? fields v
  let name ← required entries "name" Json.asStr?
  let arguments ← required entries "arguments" Json.asStr?
  pure { name, arguments, unsupported := others fields entries }

structure WireToolCall where
  id : String
  kind : String
  function : WireFunctionCall
  unsupported : List String
  deriving DecidableEq, Repr

def WireToolCall.fields : List String := ["id", "type", "function"]

def WireToolCall.ofJson? (v : Json) : Option WireToolCall := do
  let entries ← entries? fields v
  let id ← required entries "id" Json.asStr?
  let kind ← required entries "type" Json.asStr?
  let function ← required entries "function" WireFunctionCall.ofJson?
  pure { id, kind, function, unsupported := others fields entries }

structure WireMessage where
  role : String
  content : Option WireContent
  reasoningContent : Option String
  name : Option String
  refusal : Option String
  toolCallId : Option String
  toolCalls : List WireToolCall
  unsupported : List String
  deriving DecidableEq, Repr

def WireMessage.fields : List String :=
  ["role", "content", "reasoning_content", "name", "refusal", "tool_call_id", "tool_calls"]

def WireMessage.ofJson? (v : Json) : Option WireMessage := do
  let entries ← entries? fields v
  let role ← required entries "role" Json.asStr?
  let content ← optional entries "content" WireContent.ofJson?
  let reasoningContent ← optional entries "reasoning_content" Json.asStr?
  let name ← optional entries "name" Json.asStr?
  let refusal ← optional entries "refusal" Json.asStr?
  let toolCallId ← optional entries "tool_call_id" Json.asStr?
  let toolCalls ← defaulted entries "tool_calls" (listOf? WireToolCall.ofJson?) []
  pure
    { role, content, reasoningContent, name, refusal, toolCallId, toolCalls
      unsupported := others fields entries }

structure WireFunctionDefinition where
  name : String
  description : Option String
  parameters : Json
  strict : Option Bool
  unsupported : List String
  deriving DecidableEq, Repr

def emptySchema : Json := .obj [("type", .str "object"), ("properties", .obj [])]

def WireFunctionDefinition.fields : List String := ["name", "description", "parameters", "strict"]

def WireFunctionDefinition.ofJson? (v : Json) : Option WireFunctionDefinition := do
  let entries ← entries? fields v
  let name ← required entries "name" Json.asStr?
  let description ← optional entries "description" Json.asStr?
  let parameters ← defaulted entries "parameters" some emptySchema
  let strict ← optional entries "strict" Json.asBool?
  pure { name, description, parameters, strict, unsupported := others fields entries }

structure WireTool where
  kind : String
  function : WireFunctionDefinition
  unsupported : List String
  deriving DecidableEq, Repr

def WireTool.fields : List String := ["type", "function"]

def WireTool.ofJson? (v : Json) : Option WireTool := do
  let entries ← entries? fields v
  let kind ← required entries "type" Json.asStr?
  let function ← required entries "function" WireFunctionDefinition.ofJson?
  pure { kind, function, unsupported := others fields entries }

structure WireNamedFunction where
  name : String
  unsupported : List String
  deriving DecidableEq, Repr

def WireNamedFunction.fields : List String := ["name"]

def WireNamedFunction.ofJson? (v : Json) : Option WireNamedFunction := do
  let entries ← entries? fields v
  let name ← required entries "name" Json.asStr?
  pure { name, unsupported := others fields entries }

structure WireNamedToolChoice where
  kind : String
  function : WireNamedFunction
  unsupported : List String
  deriving DecidableEq, Repr

def WireNamedToolChoice.fields : List String := ["type", "function"]

def WireNamedToolChoice.ofJson? (v : Json) : Option WireNamedToolChoice := do
  let entries ← entries? fields v
  let kind ← required entries "type" Json.asStr?
  let function ← required entries "function" WireNamedFunction.ofJson?
  pure { kind, function, unsupported := others fields entries }

inductive WireToolChoice where
  | mode (mode : String)
  | named (choice : WireNamedToolChoice)
  deriving DecidableEq, Repr

def WireToolChoice.ofJson? (v : Json) : Option WireToolChoice :=
  match v with
  | .str s => some (.mode s)
  | v => (WireNamedToolChoice.ofJson? v).map .named

structure WireJsonSchema where
  name : String
  schema : Json
  strict : Bool
  unsupported : List String
  deriving DecidableEq, Repr

def WireJsonSchema.fields : List String := ["name", "schema", "strict"]

def WireJsonSchema.ofJson? (v : Json) : Option WireJsonSchema := do
  let entries ← entries? fields v
  let name ← required entries "name" Json.asStr?
  let schema ← required entries "schema" some
  let strict ← defaulted entries "strict" Json.asBool? false
  pure { name, schema, strict, unsupported := others fields entries }

inductive WireResponseFormat where
  | text (unsupported : List String)
  | jsonObject (unsupported : List String)
  | jsonSchema (jsonSchema : WireJsonSchema) (unsupported : List String)
  deriving DecidableEq, Repr

def WireResponseFormat.ofJson? (v : Json) : Option WireResponseFormat := do
  match v.string? "type" with
  | some "text" => do
    let entries ← entries? ["type"] v
    pure (.text (others ["type"] entries))
  | some "json_object" => do
    let entries ← entries? ["type"] v
    pure (.jsonObject (others ["type"] entries))
  | some "json_schema" => do
    let entries ← entries? ["type", "json_schema"] v
    let jsonSchema ← required entries "json_schema" WireJsonSchema.ofJson?
    pure (.jsonSchema jsonSchema (others ["type", "json_schema"] entries))
  | _ => none

/-- The name of a thinking mode. -/
def thinkingModeOfName? : String → Option ThinkingMode
  | "provider_default" => some .providerDefault
  | "enabled" => some .enabled
  | "disabled" => some .disabled
  | _ => none

/-- `ThinkingMode`: a unit variant is its name, or an object that names it. -/
def thinkingMode? : Json → Option ThinkingMode
  | .str name => thinkingModeOfName? name
  | .obj [(name, .null)] => thinkingModeOfName? name
  | _ => none

structure ChatCompletionRequest where
  model : String
  messages : List WireMessage
  tools : List WireTool
  toolChoice : Option WireToolChoice
  parallelToolCalls : Option Bool
  reasoningEffort : Option String
  thinkingMode : ThinkingMode
  maxTokens : Option Nat
  maxCompletionTokens : Option Nat
  temperature : Option Float
  topP : Option Float
  responseFormat : Option WireResponseFormat
  stream : Bool
  streamOptions : Option StreamOptions
  n : Option Nat
  unsupported : List String
  deriving Repr

def ChatCompletionRequest.fields : List String :=
  ["model", "messages", "tools", "tool_choice", "parallel_tool_calls", "reasoning_effort",
    "thinking_mode", "max_tokens", "max_completion_tokens", "temperature", "top_p", "response_format",
    "stream", "stream_options", "n"]

/-- `f64`: the number a literal is read as, where it is in range. -/
def f64? (number : String → Option Float) : Json → Option Float
  | .num literal => number literal
  | _ => none

/-- The deserialization of a request; `number` reads a literal of the JSON text as an `f64`. -/
def ChatCompletionRequest.ofJson? (number : String → Option Float) (v : Json) :
    Option ChatCompletionRequest := do
  let entries ← entries? fields v
  let model ← required entries "model" Json.asStr?
  let messages ← required entries "messages" (listOf? WireMessage.ofJson?)
  let tools ← defaulted entries "tools" (listOf? WireTool.ofJson?) []
  let toolChoice ← optional entries "tool_choice" WireToolChoice.ofJson?
  let parallelToolCalls ← optional entries "parallel_tool_calls" Json.asBool?
  let reasoningEffort ← optional entries "reasoning_effort" Json.asStr?
  let thinkingMode ← defaulted entries "thinking_mode" thinkingMode? .providerDefault
  let maxTokens ← optional entries "max_tokens" u32?
  let maxCompletionTokens ← optional entries "max_completion_tokens" u32?
  let temperature ← optional entries "temperature" (f64? number)
  let topP ← optional entries "top_p" (f64? number)
  let responseFormat ← optional entries "response_format" WireResponseFormat.ofJson?
  let stream ← defaulted entries "stream" Json.asBool? false
  let streamOptions ← optional entries "stream_options" StreamOptions.ofJson?
  let n ← optional entries "n" u32?
  pure
    { model, messages, tools, toolChoice, parallelToolCalls, reasoningEffort, thinkingMode, maxTokens
      maxCompletionTokens, temperature, topP, responseFormat, stream, streamOptions, n
      unsupported := others fields entries }

/-! ## Names of parameters -/

structure CompatError where
  detail : String
  parameters : List String := []
  deriving DecidableEq, Repr

/-- How the translator treats request parameters it cannot honor. -/
inductive CompatMode where
  | lenient
  | strict
  deriving DecidableEq, Repr

def INERT_PARAMETERS : List String := ["user", "metadata", "store", "service_tier"]
def MAX_REPORTED_PARAMETERS : Nat := 16
def MAX_REPORTED_PARAMETER_LEN : Nat := 64

/-- `sanitize_parameter_name`. -/
def sanitizeParameterName (name : String) : Option String :=
  let cleaned := (name.toList.filter fun c => c.isAlphanum || c = '_' || c = '-' || c = '.').take
    MAX_REPORTED_PARAMETER_LEN
  if cleaned = [] then none else some (String.ofList cleaned)

/-- `sort_unstable`, `dedup` and `truncate`. -/
def report (names : List String) : List String := Firsts.firsts MAX_REPORTED_PARAMETERS names

/-- `collect_keys`. -/
def collectKeys (path : String) (keys : List String) : List String :=
  keys.filterMap fun key => sanitizeParameterName (path ++ "." ++ key)

/-- `WireContent::collect_parameters`, of a part. -/
def WireContentPart.parameters : WireContentPart → List String
  | .text _ keys => collectKeys "messages.content" keys
  | .imageUrl image keys =>
    collectKeys "messages.content" keys ++ collectKeys "messages.content.image_url" image.unsupported
  | .file _ | .unsupported => []

/-- `WireContent::collect_parameters`. -/
def WireContent.parameters : WireContent → List String
  | .text _ => []
  | .parts ps => ps.flatMap (·.parameters)

def WireToolCall.parameters (call : WireToolCall) : List String :=
  collectKeys "messages.tool_calls" call.unsupported ++
    collectKeys "messages.tool_calls.function" call.function.unsupported

def WireMessage.parameters (message : WireMessage) : List String :=
  collectKeys "messages" message.unsupported ++ message.content.toList.flatMap (·.parameters) ++
    message.toolCalls.flatMap (·.parameters)

def WireTool.parameters (tool : WireTool) : List String :=
  collectKeys "tools" tool.unsupported ++ collectKeys "tools.function" tool.function.unsupported

def WireToolChoice.parameters : WireToolChoice → List String
  | .mode _ => []
  | .named choice =>
    collectKeys "tool_choice" choice.unsupported ++
      collectKeys "tool_choice.function" choice.function.unsupported

/-- `WireResponseFormat::collect_parameters`. -/
def WireResponseFormat.parameters : WireResponseFormat → List String
  | .text keys | .jsonObject keys => collectKeys "response_format" keys
  | .jsonSchema schema keys =>
    collectKeys "response_format" keys ++
      collectKeys "response_format.json_schema" schema.unsupported

namespace ChatCompletionRequest

/-- The names of the top-level keys that are reported. -/
def topNames (r : ChatCompletionRequest) : List String :=
  (r.unsupported.filter fun key => !INERT_PARAMETERS.contains key).filterMap sanitizeParameterName

/-- The names of the captured keys below the top level. -/
def nestedNames (r : ChatCompletionRequest) : List String :=
  r.streamOptions.toList.flatMap (fun options => collectKeys "stream_options" options.unsupported) ++
    r.messages.flatMap (·.parameters) ++ r.tools.flatMap (·.parameters) ++
    r.toolChoice.toList.flatMap (·.parameters) ++ r.responseFormat.toList.flatMap (·.parameters)

/-- `classify_parameters`. -/
def classifyParameters (r : ChatCompletionRequest) : List String := report r.topNames

/-- `nested_parameters`. -/
def nestedParameters (r : ChatCompletionRequest) : List String := report r.nestedNames

/-- The parameters a translation drops. -/
def ignoredParameters (r : ChatCompletionRequest) : List String :=
  report (r.classifyParameters ++ r.nestedParameters)

end ChatCompletionRequest

/-! ## Translation -/

/-- `str::split_once`, at a separator that is not empty. -/
def splitOnce (separator : List Char) : List Char → Option (List Char × List Char)
  | [] => none
  | c :: rest =>
    match Text.stripPrefix separator (c :: rest) with
    | some behind => some ([], behind)
    | none => (splitOnce separator rest).map fun (before, behind) => (c :: before, behind)

/-- The type and the data of an inline base64 data URL. -/
def inlineData (url : String) : Option (String × String) := do
  let rest ← Text.stripPrefix "data:".toList url.toList
  let (mimeType, data) ← splitOnce ";base64,".toList rest
  pure (String.ofList mimeType, String.ofList data)

/-- `ImageContent::from_data_url`. -/
def imageOfDataUrl (url : String) : Except ValidationError ImageContent :=
  match inlineData url with
  | none => .error (.unsupported "image.url")
  | some (mimeType, data) => do
    let image : ImageContent := { mimeType, data }
    image.validate
    pure image

/-- The text, the images and the files of a message. -/
structure ContentParts where
  texts : List String := []
  images : List ImageContent := []
  files : List FileContent := []
  deriving DecidableEq, Repr

/-- One round of the loop of `WireContent::into_parts`. -/
def ContentParts.push (parts : ContentParts) : WireContentPart → Except CompatError ContentParts
  | .text text _ => .ok { parts with texts := parts.texts ++ [text] }
  | .imageUrl imageUrl _ => do
    let image ← (imageOfDataUrl imageUrl.url).mapError fun _ =>
      { detail := "images must be valid inline PNG, JPEG, WebP, or GIF data URLs (up to 5 MiB each)" }
    pure { parts with images := parts.images ++ [image] }
  | .file file =>
    match inlineData file.fileData with
    | none => .error { detail := "files require inline base64 data URLs" }
    | some (mimeType, data) => do
      let content : FileContent := { name := file.filename, mimeType, data }
      content.validate.mapError fun _ => { detail := "invalid file upload" }
      pure { parts with files := parts.files ++ [content] }
  | .unsupported => .error { detail := "message content part type is not supported" }

/-- `WireContent::into_parts`. -/
def WireContent.intoParts : WireContent → Except CompatError ContentParts
  | .text s => .ok { texts := [s] }
  | .parts ps => ps.foldlM ContentParts.push {}

def WireToolCall.intoDomain (call : WireToolCall) : Except CompatError ToolCall :=
  if call.kind ≠ "function" then .error { detail := "tool call type is invalid" }
  else .ok
    { id := call.id
      kind := call.kind
      function := { name := call.function.name, arguments := call.function.arguments } }

/-- The role of a name. -/
def roleOfName : String → Except CompatError ChatRole
  | "system" => .ok .system
  | "developer" => .ok .developer
  | "user" => .ok .user
  | "assistant" => .ok .assistant
  | "tool" => .ok .tool
  | _ => .error { detail := "message role is not supported" }

def WireMessage.intoDomain (message : WireMessage) : Except CompatError ChatMessage := do
  let role ← roleOfName message.role
  let parts ← (message.content.map (·.intoParts)).getD (.ok {})
  let toolCalls ← message.toolCalls.mapM (·.intoDomain)
  pure
    { role
      content := "\n".intercalate parts.texts
      images := parts.images
      files := parts.files
      reasoningContent := message.reasoningContent
      name := message.name
      refusal := message.refusal
      toolCallId := message.toolCallId
      toolCalls }

def WireTool.intoDomain (tool : WireTool) : Except CompatError ToolDefinition :=
  if tool.kind ≠ "function" then .error { detail := "only function tools are supported" }
  else .ok
    { kind := tool.kind
      function :=
        { name := tool.function.name
          description := tool.function.description.getD ""
          parameters := tool.function.parameters
          strict := tool.function.strict } }

def WireToolChoice.intoDomain : WireToolChoice → Except CompatError ToolChoice
  | .mode "auto" => .ok .auto
  | .mode "none" => .ok .none
  | .mode "required" => .ok .required
  | .mode _ => .error { detail := "tool_choice mode is not supported" }
  | .named choice =>
    if choice.kind = "function" then .ok (.named choice.function.name)
    else .error { detail := "named tool_choice type is invalid" }

def WireResponseFormat.intoDomain : WireResponseFormat → ResponseFormat
  | .text _ => .text
  | .jsonObject _ => .jsonObject
  | .jsonSchema schema _ => .jsonSchema schema.name schema.schema schema.strict

/-- `parse_reasoning`. -/
def parseReasoning (value : Option String) : Except CompatError ReasoningEffort :=
  match value.getD "medium" with
  | "minimal" => .ok .minimal
  | "low" => .ok .low
  | "medium" => .ok .medium
  | "high" => .ok .high
  | "xhigh" => .ok .extraHigh
  | _ => .error { detail := "reasoning_effort is not supported" }

/-- A translated request and the parameters that were dropped to produce it. -/
structure TranslatedRequest where
  request : InferenceRequest
  ignoredParameters : List String

namespace ChatCompletionRequest

/-- What strict mode refuses: a captured key of the top level, or a reported one below it. -/
def refusedParameters (r : ChatCompletionRequest) : List String :=
  report (r.unsupported.filterMap sanitizeParameterName ++ r.nestedParameters)

/-- `ChatCompletionRequest::into_domain`. -/
def intoDomain (r : ChatCompletionRequest) (mode : CompatMode) :
    Except CompatError TranslatedRequest := do
  refuseIf (r.maxTokens.isSome ∧ r.maxCompletionTokens.isSome ∧ r.maxTokens ≠ r.maxCompletionTokens)
    { detail := "max_tokens and max_completion_tokens conflict" }
  refuseIf (r.streamOptions.isSome ∧ ¬ r.stream) { detail := "stream_options requires stream=true" }
  refuseIf (r.n.any (· ≠ 1)) { detail := "n must be 1: additional choices cannot be produced" }
  refuseIf (mode = .strict ∧ (r.unsupported ≠ [] ∨ r.nestedParameters ≠ []))
    { detail := "request contains parameters this proxy does not support"
      parameters := r.refusedParameters }
  let reasoningEffort ← parseReasoning r.reasoningEffort
  let tools ← r.tools.mapM (·.intoDomain)
  let messages ← r.messages.mapM (·.intoDomain)
  let toolChoice ← (r.toolChoice.map (·.intoDomain)).getD (.ok .auto)
  let request : InferenceRequest :=
    { model := r.model
      messages, tools, toolChoice
      parallelToolCalls := r.parallelToolCalls
      reasoningEffort
      thinkingMode := r.thinkingMode
      maxOutputTokens := r.maxCompletionTokens.or r.maxTokens
      sampling := { temperature := r.temperature, topP := r.topP }
      responseFormat := (r.responseFormat.map (·.intoDomain)).getD .text
      stream := r.stream }
  request.validate.mapError fun _ => { detail := "request fields failed validation" }
  pure { request, ignoredParameters := r.ignoredParameters }

end ChatCompletionRequest

end Compat

end AxiomDesktop
