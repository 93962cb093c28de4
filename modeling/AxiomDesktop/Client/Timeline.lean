import AxiomDesktop.Client.Protocol

/-!
# The rows of a client's timeline

The client's projection of a thread: `ClientTimelineItem`, how a durable item becomes a row
(`fromDurable`), and how a streamed chunk or a tool update finds the row it belongs to.
-/

namespace AxiomDesktop.Client

inductive ItemKind where
  | user
  | assistant
  | reasoning
  | tool
  | plan
  | activity
  | error
  deriving DecidableEq, Repr

structure ToolActivity where
  callId : String
  name : Option String := none
  title : String
  kind : String
  status : String
  input : Json := .null
  content : List Json := []
  locations : List Json := []
  imageProgress : Option ImageGenerationProgress := none
  deriving DecidableEq, Repr

structure ClientTimelineItem where
  id : String
  turnId : Option String := none
  clientItemId : Option String := none
  sequence : Option Nat := none
  kind : ItemKind
  text : String
  status : Option String := none
  /-- Only a durable item whose own response was verified carries `some true`. -/
  terminalVerified : Option Bool := none
  finishReason : Option String := none
  tool : Option ToolActivity := none
  deriving DecidableEq, Repr

/-- `textFromContent`. -/
def textFromContent (value : Json) : String :=
  ((value.string? "text").or ((value.object? "content").bind (·.string? "text"))).getD ""

/-! ## Tools -/

/-- The position of a stage among `stages`. -/
def stageIndex : ImageGenerationStage → Nat
  | .queued => 0
  | .generating => 1
  | .finishing => 2

def stage? : String → Option ImageGenerationStage
  | "queued" => some .queued
  | "generating" => some .generating
  | "finishing" => some .finishing
  | _ => none

/-- `imageProgress`: a report that is malformed, or behind the previous one, is passed over. -/
def imageProgress (value : Option Json) (previous : Option ImageGenerationProgress) :
    Option ImageGenerationProgress :=
  match (value.bind (·.string? "stage")).bind stage?,
    (value.bind (·.get? "percent")).bind Json.nat? with
  | some stage, some percent =>
    if percent > 99 ∨ (stage = .queued ∧ percent ≠ 0) ∨ (stage = .finishing ∧ percent ≠ 99) ∨
        previous.any (fun p => percent < p.percent || stageIndex stage < stageIndex p.stage) then
      previous
    else some ⟨stage, percent⟩
  | _, _ => previous

/-- The title ends in a name `[a-z][a-z0-9_]*` that starts the title or follows `" · "`. -/
def endsInToolName (title : String) : Bool :=
  let reversed := title.toList.reverse
  let isNameChar (c : Char) := c.isLower || c.isDigit || c = '_'
  let name := (reversed.takeWhile isNameChar).reverse
  let before := reversed.dropWhile isNameChar
  name.head?.any Char.isLower && (before.isEmpty || [' ', '·', ' '].isPrefixOf before)

/-- The `name` of `mergeTool`. -/
def toolName (title : Option String) (previous : Option String) : Option String :=
  match title with
  | some title => if endsInToolName title then (title.splitOn " · ").getLast? else previous
  | none => previous

/-- An image block, or a block that holds one. -/
def isImageBlock (entry : Json) : Bool :=
  ((entry.object? "content").getD entry).string? "type" == some "image"

/-- `mergeTool`. -/
def mergeTool (previous : Option ToolActivity) (callId : String) (update : Json) : ToolActivity :=
  let content := ((update.get? "content").bind Json.arr?).getD []
  let locations := ((update.get? "locations").bind Json.arr?).getD []
  let previousName := previous.bind (·.name)
  let previousContent := (previous.map (·.content)).getD []
  -- An image tool keeps the images it has shown, except those the update repeats.
  let kept :=
    if ["generate", "generate_image", "edit_image"].contains (previousName.getD "") then
      previousContent.filter fun entry => isImageBlock entry && !content.contains entry
    else []
  { callId
    name := toolName (update.string? "title") previousName
    title := (update.string? "title").getD ((previous.map (·.title)).getD "Tool activity")
    kind := (update.string? "kind").getD ((previous.map (·.kind)).getD "other")
    status := (update.string? "status").getD ((previous.map (·.status)).getD "pending")
    input := (update.present? "rawInput").getD ((previous.map (·.input)).getD .null)
    content := if content.isEmpty then previousContent else kept ++ content
    locations := if locations.isEmpty then (previous.map (·.locations)).getD [] else locations
    imageProgress := imageProgress ((update.object? "rawOutput").bind (·.object? "imageProgress"))
      (previous.bind (·.imageProgress)) }

/-- `durableTool`. -/
def durableTool (item : DurableTimelineItem) : ToolActivity :=
  let metadata := item.metadata
  let content := ((metadata.get? "content").bind Json.arr?).getD []
  let content :=
    if item.content ≠ "" && !content.any (fun entry => textFromContent entry = item.content) then
      content ++ [.obj [("type", .str "text"), ("text", .str item.content)]]
    else content
  { callId := item.externalId.getD item.id
    name := metadata.string? "name"
    title := ((metadata.string? "title").or (metadata.string? "name")).getD "Tool activity"
    kind := (metadata.string? "kind").getD "other"
    status := item.status
    input := ((metadata.present? "arguments").or (metadata.present? "input")).getD .null
    content
    locations := (((metadata.get? "locations").bind Json.arr?).or
      ((metadata.get? "files").bind Json.arr?)).getD []
    imageProgress := imageProgress (metadata.object? "image_progress") none }

/-! ## Durable items -/

/-- `fromDurable`. -/
def fromDurable (item : DurableTimelineItem) : ClientTimelineItem :=
  let metadata := item.metadata
  let terminalVerified :=
    metadata.get? "terminalVerified" == some (.bool true) ||
      metadata.get? "terminal_verified" == some (.bool true)
  let row : ClientTimelineItem :=
    { id := item.id, turnId := item.turnId, sequence := some item.sequence, kind := .activity,
      text := item.content, status := some item.status }
  let failable := if item.status = "failed" then ItemKind.error else .activity
  match item.kind with
  | .userMessage => { row with kind := .user, clientItemId := item.clientItemId }
  | .assistantMessage =>
    { row with
      kind := .assistant, terminalVerified := some terminalVerified,
      finishReason := metadata.string? "finish_reason" }
  | .reasoning =>
    { row with
      kind := .reasoning, terminalVerified := some terminalVerified,
      finishReason := metadata.string? "finish_reason" }
  | .toolCall =>
    let tool := durableTool item
    { row with kind := .tool, text := tool.title, tool := some tool }
  | .plan => { row with kind := .plan, text := if item.content = "" then "Plan updated" else item.content }
  | .notice => { row with kind := failable }
  | .other name =>
    { row with
      kind := failable, clientItemId := item.clientItemId
      text := if item.content = "" then "Unsupported timeline item: " ++ name else item.content }

/-! ## Streamed chunks -/

/-- `messageTurnId`: the turn a message ID of the form `assistant:turn` names. -/
def messageTurnId (itemId : String) (kind : ItemKind) : Option String :=
  let named (p : String) :=
    ((Text.stripPrefix p.toList itemId.toList).filter (· ≠ [])).map String.ofList
  match kind with
  | .assistant => named "assistant:"
  | .reasoning => named "reasoning:"
  | .user => named "user:"
  | _ => none

/-- The kind of row a chunk of a standard update goes to. -/
def chunkKind? : String → Option ItemKind
  | "user_message_chunk" => some .user
  | "agent_message_chunk" => some .assistant
  | "agent_thought_chunk" => some .reasoning
  | _ => none

/-- The row a chunk continues. A named durable row is taken wherever it is; without a name, only a
row after the last tool or user row is, the latest first. -/
def chunkRow (timeline : List ClientTimelineItem) (named : Bool) (itemId : String)
    (turnId : Option String) (kind : ItemKind) : Option Nat :=
  if named then timeline.findIdx? fun item => item.id = itemId
  else
    let recent := timeline.reverse
    let segment :=
      if kind = .user then recent
      else recent.takeWhile fun item => item.kind ≠ .tool && item.kind ≠ .user
    let belongs (item : ClientTimelineItem) :=
      item.id = itemId || (turnId.any (· ≠ "") && kind ≠ .user && item.kind = kind && item.turnId = turnId)
    (segment.findIdx? belongs).map fun i => timeline.length - 1 - i

/-- The text of a chunk, added to the row it continues or in a new row. `random` are the random IDs
the call draws. -/
def applyChunk (random : Nat → String) (metadata : Option DeliveryMetadata) (kind : ItemKind)
    (update : Json) (timeline : List ClientTimelineItem) : List ClientTimelineItem :=
  let text := textFromContent ((update.get? "content").getD .null)
  let timelineItemId := metadata.bind (·.timelineItemId)
  let clientItemId := metadata.bind (·.clientItemId)
  let messageId :=
    ((update.string? "messageId").or (timelineItemId.or clientItemId)).getD (random 0)
  let itemId := timelineItemId.getD messageId
  let turnId := messageTurnId messageId kind
  let status := if kind = .user then "completed" else "streaming"
  match chunkRow timeline (timelineItemId.any (· ≠ "")) itemId turnId kind with
  | some i =>
    timeline.modify i fun item =>
      { item with
        text := item.text ++ text, status := some status,
        terminalVerified := if kind = .user then item.terminalVerified else some false }
  | none =>
    timeline ++
      [{ id := if timeline.any (fun item => item.id = itemId) then random 1 else itemId
         turnId, clientItemId, kind, text, status := some status }]

/-- A tool call or its update: merged into the row of the call, or in a new row. -/
def applyToolUpdate (callId : String) (update : Json) (timeline : List ClientTimelineItem) :
    List ClientTimelineItem :=
  match timeline.findIdx? fun item => item.id = callId || item.tool.any (·.callId = callId) with
  | some i =>
    timeline.modify i fun item =>
      { item with
        text := (update.string? "title").getD item.text
        status := (update.string? "status").or item.status
        tool := some (mergeTool item.tool callId update) }
  | none =>
    let tool := mergeTool none callId update
    let turnId := (timeline.reverse.find? fun item => item.turnId.any (· ≠ "")).bind (·.turnId)
    timeline ++
      [{ id := callId, turnId, kind := .tool, text := tool.title, status := some tool.status,
         tool := some tool }]

/-- A plan: its text replaces the row's, or stands in a new row. -/
def applyPlan (itemId : String) (update : Json) (timeline : List ClientTimelineItem) :
    List ClientTimelineItem :=
  match timeline.findIdx? fun item => item.id = itemId with
  | some i =>
    timeline.modify i fun item => { item with text := (update.string? "content").getD item.text }
  | none =>
    timeline ++
      [{ id := itemId, kind := .plan, text := (update.string? "content").getD "Plan updated" }]

end AxiomDesktop.Client
