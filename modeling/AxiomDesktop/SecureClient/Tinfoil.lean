import AxiomDesktop.Lib.Feed
import AxiomDesktop.SecureClient.Receipt

/-!
# The responses of Tinfoil

What is read of an authenticated response: `StreamParser`, which takes a stream in chunks (`push`),
reads each of its messages (`event`) and gives the response in the end (`finish`), and `complete`,
for a response that comes in one body. `TinfoilDecoders` is what `serde_json` makes of a text, of a
body, and of a list of tool calls.
-/

namespace AxiomDesktop

namespace Tinfoil

open Feeding (Outcome andThen readFrom)
open Near (ensure)
open SecureClientError (invalid)

structure TinfoilDecoders where
  fromStr : String → Option Json
  fromSlice : List UInt8 → Option Json
  toolCalls : Json → Option (List ToolCall)

/-! ## Parts of a message -/

/-- `Value::as_u64`. -/
def asU64? (value : Json) : Option Nat := value.nat?.filter (· < 2 ^ 64)

/-- A field that names the response: its ID or its model. -/
def name? (key : String) (value : Json) : Option String :=
  (value.string? key).filter fun s =>
    !s.isEmpty && s.utf8ByteSize ≤ 256 && !s.toList.any Text.isControl

/-- A round of the loop of `identity`. -/
def identity (key : String) (value : Json) (saved : Option String) :
    Except SecureClientError String :=
  match name? key value with
  | none => .error (invalid "missing authenticated response identity")
  | some actual =>
    if saved.any (· ≠ actual) then .error (invalid "stream response identity changed") else .ok actual

/-- A count of `usage`. -/
def count (field : String) (value : Json) : Except SecureClientError Nat :=
  match (value.get? field).bind asU64? with
  | some n => .ok n
  | none => .error (invalid "invalid authenticated token usage")

/-- `usage`. -/
def usage (value : Json) : Except SecureClientError Usage := do
  let inputTokens ← count "prompt_tokens" value
  let outputTokens ← count "completion_tokens" value
  let totalTokens ← count "total_tokens" value
  ensure (inputTokens + outputTokens < 2 ^ 64 ∧ inputTokens + outputTokens = totalTokens)
    "incoherent authenticated token usage"
  pure { inputTokens, outputTokens, totalTokens }

/-- `optional_text`. -/
def optionalText : Option Json → Except SecureClientError (Option String)
  | none | some .null => .ok none
  | some (.str s) => .ok (some s)
  | _ => .error (invalid "invalid assistant text field")

/-- `reasoning_value`: one of the two names of the reasoning. -/
def reasoningValue (fields : Json) : Except SecureClientError (Option Json) := do
  let reasoning := fields.present? "reasoning"
  let compatibility := fields.present? "reasoning_content"
  ensure (reasoning.all (·.asStr?.isSome) && compatibility.all (·.asStr?.isSome))
    "invalid assistant reasoning field"
  pure (((reasoning.filter (·.asStr? ≠ some "")).or compatibility).or reasoning)

/-- `append`. -/
def append (target text : String) : Except SecureClientError String :=
  if target.utf8ByteSize + text.utf8ByteSize > MAX_MESSAGE_TEXT_BYTES then
    .error (invalid "assistant text is oversized")
  else .ok (target ++ text)

/-- `finish_reason`. -/
def finishReason (value : Json) : Except SecureClientError FinishReason :=
  match value.asStr? with
  | some "stop" => .ok .stop
  | some "length" => .ok .length
  | some "tool_calls" => .ok .toolCalls
  | some "content_filter" => .ok .contentFilter
  | _ => .error (invalid "unsupported authenticated finish reason")

section
variable (D : TinfoilDecoders)

/-- The arguments of a call are an object. -/
def argumentsHold (call : ToolCall) : Bool :=
  (D.fromStr call.function.arguments).any fun arguments => arguments matches .obj _

/-- A `stop` with tool calls stands for `tool_calls`. -/
def normalize (calls : List ToolCall) (reason : FinishReason) : FinishReason :=
  if calls ≠ [] ∧ reason = .stop then .toolCalls else reason

/-- `validate_finish`. -/
def validateFinish (output : InferenceResponse) : Except SecureClientError InferenceResponse := do
  let calls := output.assistant.toolCalls
  ensure (calls.all (argumentsHold D)) "incomplete or malformed tool arguments"
  let finishReason := output.finishReason.map (normalize calls)
  ensure (!(calls ≠ [] ∧ finishReason ≠ some .toolCalls ∨ calls = [] ∧ finishReason = some .toolCalls))
    "tool calls disagree with finish reason"
  pure { output with finishReason }

end

/-! ## A stream -/

structure StreamParser where
  model : String
  id : Option String := none
  wireModel : Option String := none
  buffer : List UInt8 := []
  data : String := ""
  limit : Nat
  done : Bool := false
  output : InferenceResponse := {}
  usage : Option Usage := none
  calls : ToolCallAccumulator := {}
  deriving DecidableEq, Repr

namespace StreamParser

/-- What a step of the parser gives. -/
abbrev Parsed : Type := Outcome SecureClientError StreamParser ProviderEvent

/-- The targets of a text. -/
inductive Target where
  | text
  | reasoning
  | refusal
  deriving DecidableEq, Repr

/-- What a target has so far. -/
def Target.read (output : InferenceResponse) : Target → String
  | .text => output.assistant.text
  | .reasoning => output.reasoning.getD ""
  | .refusal => output.refusal.getD ""

def Target.write (text : String) (output : InferenceResponse) : Target → InferenceResponse
  | .text => { output with assistant.text := text }
  | .reasoning => { output with reasoning := some text }
  | .refusal => { output with refusal := some text }

/-- The event of a text for a target. -/
def Target.delta (text : String) : Target → ProviderEvent
  | .text => .textDelta text
  | .reasoning => .reasoningDelta text
  | .refusal => .refusalDelta text

/-- A text of a delta. -/
def acceptText (p : StreamParser) (part : Option Json × Target) : Parsed :=
  match part.1.filter (· ≠ .null) with
  | none => .ok (p, [])
  | some value =>
    match value.asStr? with
    | none => .error (invalid "nontext assistant delta")
    | some text =>
      if text.isEmpty then .ok (p, [])
      else
        match append (part.2.read p.output) text with
        | .error e => .error e
        | .ok joined => .ok ({ p with output := part.2.write joined p.output }, [part.2.delta text])

/-- The delta of a tool call. -/
def toolCallDelta (call : Json) : Except SecureClientError ToolCallDelta := do
  let some index := (call.get? "index").bind asU64? | .error (invalid "missing tool delta index")
  let function := call.get? "function"
  let id ← optionalText (call.get? "id")
  let kind ← optionalText (call.get? "type")
  let name ← optionalText (function.bind (·.get? "name"))
  let arguments ← optionalText (function.bind (·.get? "arguments"))
  pure { index, id, kind, name, arguments }

/-- A tool call of a delta. -/
def acceptToolCall (p : StreamParser) (call : Json) : Parsed :=
  match toolCallDelta call with
  | .error e => .error e
  | .ok delta =>
    match (ToolCallAccumulator.push delta).exec p.calls with
    | (.error _, _) => .error (invalid "invalid tool-call sequence")
    | (.ok _, calls) => .ok ({ p with calls }, [.toolCallDelta delta])

/-- The tool calls of a delta. -/
def acceptToolCalls (p : StreamParser) (delta : Json) : Parsed :=
  match delta.present? "tool_calls" with
  | none => .ok (p, [])
  | some raw =>
    match raw.arr? with
    | none => .error (invalid "invalid tool deltas")
    | some calls =>
      if calls.length > MAX_TOOL_CALLS then .error (invalid "too many tool deltas")
      else readFrom acceptToolCall p calls

/-- The finish reason of a choice. -/
def acceptFinishReason (p : StreamParser) (choice : Json) : Parsed :=
  match choice.present? "finish_reason" with
  | none => .ok (p, [])
  | some raw =>
    match finishReason raw with
    | .error e => .error e
    | .ok reason => .ok ({ p with output.finishReason := some reason }, [])

/-- The delta of a choice. -/
def acceptDelta (p : StreamParser) (delta : Json) : Parsed :=
  if (delta.string? "role").any (· ≠ "assistant") then .error (invalid "invalid assistant role")
  else
    match reasoningValue delta with
    | .error e => .error e
    | .ok reasoning =>
      andThen
        (readFrom acceptText p
          [(delta.get? "content", .text), (reasoning, .reasoning), (delta.get? "refusal", .refusal)])
        fun p => acceptToolCalls p delta

/-- A choice of a message. -/
def acceptChoice (p : StreamParser) (choice : Json) : Parsed :=
  if (choice.get? "index").bind asU64? ≠ some 0 ∨ p.output.finishReason.isSome then
    .error (invalid "invalid stream choice ordering")
  else
    match choice.object? "delta" with
    | none => .error (invalid "missing stream delta")
    | some delta => andThen (p.acceptDelta delta) fun p => p.acceptFinishReason choice

/-- The usage after a message. -/
def nextUsage (saved : Option Usage) (value : Json) : Except SecureClientError (Option Usage) :=
  match value.present? "usage" with
  | none => .ok saved
  | some raw => do
    let current ← Tinfoil.usage raw
    ensure (!saved.any fun previous =>
        current.inputTokens < previous.inputTokens ∨ current.outputTokens < previous.outputTokens)
      "Tinfoil usage went backwards"
    pure (some current)

/-- The identity and the usage of a message. -/
def acceptHeader (p : StreamParser) (value : Json) : Except SecureClientError StreamParser := do
  ensure (value.get? "error").isNone "Tinfoil reported an inference error"
  let id ← identity "id" value p.id
  let wireModel ← identity "model" value p.wireModel
  let usage ← nextUsage p.usage value
  pure { p with id := some id, wireModel := some wireModel, usage }

/-- A message that is no `[DONE]`. -/
def acceptValue (p : StreamParser) (value : Json) : Parsed :=
  match p.acceptHeader value with
  | .error e => .error e
  | .ok p =>
    match (value.get? "choices").bind Json.arr? with
    | none => .error (invalid "missing stream choices")
    | some [] => .ok (p, [])
    | some [choice] => p.acceptChoice choice
    | some (_ :: _ :: _) => .error (invalid "unexpected number of stream choices")

section
variable (D : TinfoilDecoders)

/-- `StreamParser::event`. -/
def event (p : StreamParser) (data : String) : Parsed :=
  if p.done then .error (invalid "duplicate stream completion")
  else if data = "[DONE]" then
    if p.output.finishReason = none ∨ p.usage = none then
      .error (invalid "incomplete authenticated terminal event")
    else .ok ({ p with done := true }, [])
  else
    match D.fromStr data with
    | none => .error (invalid "invalid authenticated stream JSON")
    | some value => p.acceptValue value

/-- The characters of a line, without the carriage returns at its end. -/
def lineText (line : String) : List Char := Text.dropWhileEnd (· = '\r') line.toList

/-- The data of a line that has some. -/
def lineData? (line : List Char) : Option String :=
  (Text.stripPrefix "data:".toList line).map fun data =>
    String.ofList ((Text.stripPrefix [' '] data).getD data)

/-- What is passed to `event` of the data that was gathered. -/
def messageText (data : String) : String :=
  String.ofList (Text.dropWhileEnd (· = '\n') data.toList)

/-- The lines that are passed over. -/
def isIgnored (line : List Char) : Bool :=
  [":", "event:", "id:", "retry:"].any fun field => field.toList.isPrefixOf line

/-- A line of the buffer, which is drained of it. -/
def acceptLine (p : StreamParser) (line : List UInt8) : Parsed :=
  match Text.fromUtf8 line with
  | none => .error (invalid "invalid UTF-8 in authenticated stream")
  | some line =>
    let line := lineText line
    if line = [] then
      if p.data.isEmpty then .ok (p, [])
      else { p with data := "" }.event D (messageText p.data)
    else
      match lineData? line with
      | some data =>
        let gathered := p.data ++ data ++ "\n"
        if p.done then .error (invalid "data after authenticated stream completion")
        else if gathered.utf8ByteSize > p.limit then
          .error (invalid "Tinfoil stream event is oversized")
        else .ok ({ p with data := gathered }, [])
      | none =>
        if isIgnored line then .ok (p, []) else .error (invalid "invalid authenticated SSE framing")

/-- A byte of the buffer: the loop of `push` takes out a line at each newline. -/
def acceptByte (p : StreamParser) (byte : UInt8) : Parsed :=
  if byte = 10 then { p with buffer := [] }.acceptLine D p.buffer
  else .ok ({ p with buffer := p.buffer ++ [byte] }, [])

/-- The check at the end of `push`. -/
def checkHeld (p : StreamParser) : Parsed :=
  if p.buffer.length + p.data.utf8ByteSize > p.limit then
    .error (invalid "Tinfoil stream event is oversized")
  else .ok (p, [])

/-- `StreamParser::push`. -/
def push (p : StreamParser) (bytes : List UInt8) : Parsed :=
  andThen (readFrom (acceptByte D) p bytes) checkHeld

/-- `StreamParser::finish`. -/
def finish (p : StreamParser) : Except SecureClientError InferenceResponse := do
  ensure (p.done && p.buffer.isEmpty && p.data.isEmpty && p.id.isSome)
    "Tinfoil stream ended without authenticated completion"
  ensure (!p.model.isEmpty) "missing requested model"
  let some usage := p.usage | .error (invalid "missing authenticated usage")
  let toolCalls ← p.calls.finish.mapError fun _ => invalid "incomplete tool calls"
  let output ← validateFinish D
    { p.output with usage, assistant := { p.output.assistant with toolCalls } }
  pure { output with assistant := { output.assistant with reasoning := output.reasoning } }

end

end StreamParser

/-! ## A response in one body -/

section
variable (D : TinfoilDecoders)

/-- The tool calls of a message. -/
def messageCalls (message : Json) : Except SecureClientError (List ToolCall) :=
  match message.present? "tool_calls" with
  | none => .ok []
  | some raw =>
    match D.toolCalls raw with
    | none => .error (invalid "invalid tool calls")
    | some calls => .ok calls

/-- The one choice of a body. -/
def bodyChoice (value : Json) : Except SecureClientError Json :=
  match (value.get? "choices").bind Json.arr? with
  | some [choice] => .ok choice
  | _ => .error (invalid "invalid completion choices")

/-- The message of a choice. -/
def choiceMessage (choice : Json) : Except SecureClientError Json :=
  match choice.object? "message" with
  | some message => .ok message
  | none => .error (invalid "missing assistant message")

/-- A field that has to be there. -/
def required (value : Json) (field detail : String) : Except SecureClientError Json :=
  match value.get? field with
  | some value => .ok value
  | none => .error (invalid detail)

/-- `complete`. -/
def complete (body : List UInt8) : Except SecureClientError InferenceResponse := do
  let some value := D.fromSlice body | .error (invalid "incomplete authenticated response JSON")
  ensure (value.get? "error").isNone "Tinfoil reported an inference error"
  let _ ← identity "id" value none
  let _ ← identity "model" value none
  let choice ← bodyChoice value
  ensure ((choice.get? "index").bind asU64? = some 0) "invalid completion index"
  let message ← choiceMessage choice
  ensure (message.string? "role" = some "assistant") "invalid completion role"
  let toolCalls ← messageCalls D message
  let _ ← (validateToolCalls toolCalls).mapError fun _ => invalid "invalid completion tool calls"
  let reasoningField ← reasoningValue message
  let reasoning ← optionalText reasoningField
  let text ← optionalText (message.get? "content")
  let refusal ← optionalText (message.get? "refusal")
  let rawUsage ← required value "usage" "missing authenticated usage"
  let usage ← Tinfoil.usage rawUsage
  let rawReason ← required choice "finish_reason" "missing finish reason"
  let reason ← finishReason rawReason
  ensure ([some (text.getD ""), reasoning, refusal].all fun text =>
      text.all (·.utf8ByteSize ≤ MAX_MESSAGE_TEXT_BYTES))
    "completion text is oversized"
  validateFinish D
    { assistant := { text := text.getD "", reasoning, toolCalls }
      reasoning
      refusal
      usage
      finishReason := some reason }

end

end Tinfoil

end AxiomDesktop
