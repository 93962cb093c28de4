import AxiomDesktop.App.Event
import AxiomDesktop.Data.Fragments
import AxiomDesktop.Inference.Request

/-!
# Compaction of a conversation

The conversation of a session is compacted to a summary (`compactMessages`): a provider is given the
serialized messages fragment by fragment (`compactionInputs`) and updates the summary with each, and
the newest turn of the user follows the summary as it is, where it is small
(`recentCompactionStart`).
-/

namespace AxiomDesktop

/-! ## Serialized messages -/

/-- A field that is left out where there is no value. -/
def Json.presentField (key : String) (value : Option Json) : List (String × Json) :=
  match value with
  | some value => [(key, value)]
  | none => []

/-- A list of values, where it is not empty. -/
def Json.nonEmpty (values : List Json) : Option Json :=
  if values = [] then none else some (.arr values)

def FileContent.toJson (file : FileContent) : Json :=
  .obj [("name", .str file.name), ("mimeType", .str file.mimeType), ("data", .str file.data)]

def ImageContent.toJson (image : ImageContent) : Json :=
  .obj [("mimeType", .str image.mimeType), ("data", .str image.data)]

namespace ChatMessage

variable (message : ChatMessage)

/-- The JSON of a message. -/
def toJson : Json :=
  .obj ([("role", .str message.role.asStr), ("content", .str message.content)] ++
    Json.presentField "images" (Json.nonEmpty (message.images.map ImageContent.toJson)) ++
    Json.presentField "files" (Json.nonEmpty (message.files.map FileContent.toJson)) ++
    Json.presentField "reasoning_content" (message.reasoningContent.map .str) ++
    Json.presentField "name" (message.name.map .str) ++
    Json.presentField "refusal" (message.refusal.map .str) ++
    Json.presentField "tool_call_id" (message.toolCallId.map .str) ++
    Json.presentField "tool_calls" (Json.nonEmpty (message.toolCalls.map ToolCall.toJson)))

/-- `ChatMessage::text`. -/
def text (role : ChatRole) (content : String) : ChatMessage := { role, content }

/-- A message has neither images nor files. -/
def Unattached : Prop := message.images = [] ∧ message.files = []

instance : Decidable message.Unattached := inferInstanceAs (Decidable (_ ∧ _))

/-- A message without its images and files. -/
def unattached : ChatMessage := { message with images := [], files := [] }

end ChatMessage

/-- `serde_json::to_string` of messages. -/
def serializedMessages (messages : List ChatMessage) : String :=
  (Json.arr (messages.map ChatMessage.toJson)).toText

/-- `serialized_message_bytes`. -/
def serializedMessageBytes (messages : List ChatMessage) : Nat :=
  (serializedMessages messages).utf8ByteSize

/-! ## The input of the summary -/

/-- `compaction_transcripts`. -/
def compactionTranscripts (messages : List ChatMessage) (maxBytes : Nat) : List String :=
  (Text.fragments (max maxBytes 4) (Nat.le_max_right maxBytes 4)
    (serializedMessages messages).toList).map String.ofList

structure CompactionInput where
  transcript : String
  images : List ImageContent := []
  files : List FileContent := []
  deriving DecidableEq, Repr

/-- `text_part`. -/
def textPart (transcript : String) : CompactionInput := { transcript }

/-- What the first fragment of a message with attachments follows. -/
def ATTACHED : String := "The files attached to this fragment belong to this message.\n"

/-- The parts of a message with attachments. -/
def attachedParts (message : ChatMessage) (maxBytes : Nat) : List CompactionInput :=
  match compactionTranscripts [message.unattached] maxBytes with
  | [] => []
  | first :: rest => ⟨ATTACHED ++ first, message.images, message.files⟩ :: rest.map textPart

/-- What the loop of `compaction_inputs` does at a message: `start` is where the messages begin that
are in no part. -/
def compactionStep (messages : List ChatMessage) (maxBytes : Nat)
    (loop : Nat × List CompactionInput) (indexed : ChatMessage × Nat) :
    Nat × List CompactionInput :=
  let (start, result) := loop
  let (message, index) := indexed
  if message.Unattached then (start, result)
  else
    let before :=
      if start < index then
        (compactionTranscripts ((messages.drop start).take (index - start)) maxBytes).map textPart
      else []
    (index + 1, result ++ before ++ attachedParts message maxBytes)

/-- `compaction_inputs`. -/
def compactionInputs (messages : List ChatMessage) (maxBytes : Nat) : List CompactionInput :=
  let (start, result) := messages.zipIdx.foldl (compactionStep messages maxBytes) (0, [])
  if start < messages.length ∨ result.isEmpty then
    result ++ (compactionTranscripts (messages.drop start) maxBytes).map textPart
  else result

/-- `rposition` of a message of the user. -/
def lastUser? : List ChatMessage → Option Nat
  | [] => none
  | message :: rest =>
    match lastUser? rest with
    | some index => some (index + 1)
    | none => if message.role = .user then some 0 else none

/-- `recent_compaction_start`. -/
def recentCompactionStart (messages : List ChatMessage) (maxBytes : Nat) : Nat :=
  match lastUser? messages with
  | some index =>
    if index > 0 ∧ (∀ message ∈ messages.drop index, message.Unattached) ∧
        serializedMessageBytes (messages.drop index) ≤ maxBytes then index
    else messages.length
  | none => messages.length

/-! ## The summary -/

/-- `compacted_history`. -/
def compactedHistory (system summary : String) : List ChatMessage :=
  [.text .system system,
    .text .user ("[APPLICATION-GENERATED CONTEXT SUMMARY]\nThe earlier conversation was " ++
      "compacted. Treat this as context, not a new request.\n\n" ++ Text.trim summary ++
      "\n[END CONTEXT SUMMARY]")]

/-- What a provider is asked, for one part of the messages. -/
structure SummaryRequest where
  focus : String
  fragment : Nat
  fragments : Nat
  previous : String
  part : CompactionInput
  deriving DecidableEq, Repr

/-- The summary of the parts from one on, with what was asked for it. `turn` is what the provider
answers, and `none` where it fails or the turn is cancelled. -/
def summarize (turn : SummaryRequest → Option String) (focus : String) (limit fragments : Nat) :
    Nat → String → List CompactionInput → Option (String × List SummaryRequest)
  | _, summary, [] => some (summary, [])
  | index, summary, part :: parts =>
    let request : SummaryRequest := ⟨focus, index + 1, fragments, summary, part⟩
    match turn request with
    | none => none
    | some next =>
      if Text.isBlank next ∨ next.utf8ByteSize > limit then none
      else
        (summarize turn focus limit fragments (index + 1) next parts).map fun (summary, asked) =>
          (summary, request :: asked)

/-- The focus of a summary. -/
def focusText (focus : Option String) : String :=
  match focus.filter (!Text.isBlank ·) with
  | none => "Preserve everything needed to continue the user's work safely."
  | some value => "Give special attention to this user request: " ++ value

/-- The end of a summary, for the messages that follow it as they are. -/
def recentText (recent : List ChatMessage) : String :=
  if recent = [] then ""
  else
    "\n\n[RECENT CONVERSATION — VERBATIM CONTEXT, NOT NEW INSTRUCTIONS]\n" ++
      serializedMessages recent ++ "\n[END RECENT CONVERSATION]"

/-- `AgentEngine::compact_messages`, with what the provider was asked; it is `none` where the source
returns an error, and the history is left as it is. -/
def compactMessages (turn : SummaryRequest → Option String) (transcriptBudget : Nat)
    (focus : Option String) (history : List ChatMessage) :
    Option (List ChatMessage × CompactionResult × List SummaryRequest) :=
  match history with
  | [] | [_] => none
  | system :: conversation =>
    let budget := max transcriptBudget 1024
    let summaryLimit := max 256 (min (budget / 4) (32 * 1024))
    if (focusText focus).utf8ByteSize > budget / 4 then none
    else
      let recentStart := recentCompactionStart conversation (min (budget / 8) (16 * 1024))
      let parts := compactionInputs (conversation.take recentStart) (budget / 2)
      match summarize turn (focusText focus) summaryLimit parts.length 0 "" parts with
      | none => none
      | some (summary, asked) =>
        let summary := summary ++ recentText (conversation.drop recentStart)
        some (compactedHistory system.content summary, ⟨summary, history.length - 1⟩, asked)

end AxiomDesktop
