import AxiomDesktop.Inference.Accounting
import AxiomDesktop.Inference.Attachments
import AxiomDesktop.Lib.Fallible

/-!
# Responses and provider events

The provider-neutral contract of a streamed response: the events a provider adapter emits while
it receives one (`ProviderEvent`), the accumulator that joins the fragments of tool calls
(`ToolCallAccumulator`), and the response the adapter returns in the end (`InferenceResponse`).
-/

namespace AxiomDesktop

def MAX_TOOL_CALLS : Nat := 128
def MAX_TOOL_CALL_ID_CHARS : Nat := 256
def MAX_FUNCTION_NAME_CHARS : Nat := 64
def MAX_TOOL_ARGUMENTS_BYTES : Nat := 262000

structure FunctionCall where
  name : String
  arguments : String
  deriving DecidableEq, Repr

structure ToolCall where
  id : String
  kind : String
  function : FunctionCall
  deriving DecidableEq, Repr

/-- `validate_bytes`. -/
def validateBytes (field value : String) (maximum : Nat) : Except ValidationError Unit :=
  if value.utf8ByteSize > maximum then .error (.size field) else .ok ()

/-- `validate_identifier`: ASCII letters and digits and the characters of `_-.$/`. -/
def validateIdentifier (field value : String) (maximum : Nat) : Except ValidationError Unit :=
  if value.isEmpty || value.length > maximum ||
      value.toList.any (fun c => Text.isControl c ||
        !(c.isAlphanum || ['_', '-', '.', '$', '/'].contains c)) then
    .error (.invalid field)
  else .ok ()

/-- `validate_call_id`. -/
def validateCallId (value : String) : Except ValidationError Unit :=
  if value.isEmpty || value.length > MAX_TOOL_CALL_ID_CHARS || value.toList.any Text.isControl then
    .error (.invalid "tool_call_id")
  else .ok ()

/-- The checks `validate_tool_calls` makes of one call. -/
def validateToolCall (call : ToolCall) : Except ValidationError Unit := do
  validateCallId call.id
  if call.kind ≠ "function" then .error (.unsupported "tool_call.type")
  else
    validateIdentifier "tool_call.function.name" call.function.name MAX_FUNCTION_NAME_CHARS
    validateBytes "tool_call.function.arguments" call.function.arguments MAX_TOOL_ARGUMENTS_BYTES

/-- `validate_tool_calls`. -/
def validateToolCalls (calls : List ToolCall) : Except ValidationError Unit :=
  if calls.length > MAX_TOOL_CALLS then .error (.count "tool_calls")
  else calls.forM validateToolCall

/-- The token counts of a response. -/
structure Usage where
  inputTokens : Nat := 0
  outputTokens : Nat := 0
  totalTokens : Nat := 0
  deriving DecidableEq, Repr

inductive FinishReason where
  | stop
  | length
  | toolCalls
  | contentFilter
  | cancelled
  | other (reason : String)
  deriving DecidableEq, Repr

/-- A fragment of the tool call at an index. -/
structure ToolCallDelta where
  index : Nat
  id : Option String := none
  kind : Option String := none
  name : Option String := none
  arguments : Option String := none
  deriving DecidableEq, Repr

/-- What has arrived of one tool call. -/
structure PartialToolCall where
  id : Option String := none
  kind : Option String := none
  name : String := ""
  arguments : String := ""
  deriving DecidableEq, Repr

/-- `merge_stable`: the first fragment is kept, and a later one has to repeat it. -/
def mergeStable (field : String) (fragment : Option String) :
    Fallible ValidationError (Option String) PUnit :=
  match fragment with
  | none => pure ⟨⟩
  | some value => do
    let existing ← get
    Fallible.failIf (existing.any (· ≠ value)) (.conflict field)
    set (some value)

/-- Appends a fragment where there is one; what is too long then is a `size` error. -/
def appendFragment (field : String) (maximum : Nat) (fragment : Option String) :
    Fallible ValidationError String PUnit :=
  match fragment with
  | none => pure ⟨⟩
  | some value => do
    modify (· ++ value)
    let target ← get
    Fallible.failIf (target.utf8ByteSize > maximum) (.size field)

/-- The calls by index, in the order of the indices (a `BTreeMap`). -/
structure ToolCallAccumulator where
  calls : List (Nat × PartialToolCall) := []
  deriving DecidableEq, Repr

namespace ToolCallAccumulator

/-- The call at an index, an empty one where there is none yet (`entry(index).or_default()`). -/
def entry (index : Nat) : List (Nat × PartialToolCall) → PartialToolCall
  | [] => {}
  | (i, call) :: rest => if i = index then call else entry index rest

/-- The calls with the one at an index set, in the order of the indices. -/
def insert (index : Nat) (call : PartialToolCall) :
    List (Nat × PartialToolCall) → List (Nat × PartialToolCall)
  | [] => [(index, call)]
  | (i, c) :: rest =>
    if i = index then (index, call) :: rest
    else if index < i then (index, call) :: (i, c) :: rest
    else (i, c) :: insert index call rest

/-- The part of `push` that works on the call at the index of the fragment. -/
def mergeCall (delta : ToolCallDelta) : Fallible ValidationError PartialToolCall PUnit := do
  Fallible.focus (·.id) (fun id call => { call with id }) (mergeStable "tool_call_delta.id" delta.id)
  Fallible.focus (·.kind) (fun kind call => { call with kind })
    (mergeStable "tool_call_delta.type" delta.kind)
  Fallible.focus (·.name) (fun name call => { call with name })
    (appendFragment "tool_call_delta.name" MAX_FUNCTION_NAME_CHARS delta.name)
  Fallible.focus (·.arguments) (fun arguments call => { call with arguments })
    (appendFragment "tool_call_delta.arguments" MAX_TOOL_ARGUMENTS_BYTES delta.arguments)

/-- `ToolCallAccumulator::push`. -/
def push (delta : ToolCallDelta) : Fallible ValidationError ToolCallAccumulator PUnit := do
  Fallible.failIf (delta.index ≥ MAX_TOOL_CALLS) (.count "tool_call_delta.index")
  Fallible.focus (fun acc => entry delta.index acc.calls)
    (fun call acc => ⟨insert delta.index call acc.calls⟩) (mergeCall delta)

/-- The call `finish` makes of its fragments. -/
def complete (call : PartialToolCall) : Except ValidationError ToolCall :=
  match call.id.filter (!·.isEmpty) with
  | none => .error (.incomplete "tool_call_delta.id")
  | some id => do
    let tool : ToolCall :=
      { id, kind := call.kind.getD "function", function := ⟨call.name, call.arguments⟩ }
    validateToolCalls [tool]
    pure tool

/-- The loop of `finish`, from the index that is expected next. -/
def finishFrom (expected : Nat) :
    List (Nat × PartialToolCall) → Except ValidationError (List ToolCall)
  | [] => .ok []
  | (index, call) :: rest => do
    if index ≠ expected then .error (.incomplete "tool_call_delta.index")
    else
      let tool ← complete call
      let tools ← finishFrom (expected + 1) rest
      pure (tool :: tools)

/-- `ToolCallAccumulator::finish`. -/
def finish (acc : ToolCallAccumulator) : Except ValidationError (List ToolCall) :=
  finishFrom 0 acc.calls

end ToolCallAccumulator

inductive ProviderSecurityState where
  | unverified
  | verifying
  | verified
  | degraded
  | outdated
  | failed
  | unattestedDevelopment
  deriving DecidableEq, Repr

/-- What a provider adapter tells its caller while it works on a request. -/
inductive ProviderEvent where
  | accounting (usage : RequestUsage)
  | securityState (state : ProviderSecurityState)
  | securityEvidence (evidence : Json)
  /-- The response of this call passed its terminal cryptographic verification. -/
  | responseVerified
  | status (connected : Bool) (detail : String)
  | textDelta (text : String)
  | reasoningDelta (text : String)
  | refusalDelta (text : String)
  | toolCallDelta (delta : ToolCallDelta)
  | usage (inputTokens outputTokens : Nat)
  | finished (reason : FinishReason)
  deriving Repr

structure AssistantTurn where
  text : String := ""
  reasoning : Option String := none
  toolCalls : List ToolCall := []
  deriving DecidableEq, Repr

structure InferenceResponse where
  assistant : AssistantTurn := {}
  reasoning : Option String := none
  refusal : Option String := none
  usage : Usage := {}
  finishReason : Option FinishReason := none
  deriving DecidableEq, Repr

end AxiomDesktop
