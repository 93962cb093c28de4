import AxiomDesktop.Session.Queries

/-!
# Projection of durable records into runtime events

`projectRuntimeEvents` turns the rows of a thread back into the events a session is restored from:
the creation of the session, the events of each row in the order of the timeline, and the end of a
turn wherever the rows go on to another one. A turn is ended by what its record says
(`projectTurnTerminal`), so a row of a turn whose record is gone ends it with nothing.
-/

namespace AxiomDesktop

/-- `Value::as_u64`. -/
def Json.u64? (v : Json) : Option Nat := v.nat?.filter (· < 2 ^ 64)

/-- A field that is `true`. -/
def Json.flag (v : Json) (key : String) : Bool := (v.get? key).any Json.isTrue

/-- `value[key]`, which is `null` where there is no such field. -/
def Json.index (v : Json) (key : String) : Json := (v.get? key).getD .null

/-- `value[key] = ..`, which makes an object of `null`. -/
def Json.setIndex (v : Json) (key : String) (value : Json) : Json :=
  match v with
  | .null => .obj [(key, value)]
  | v => v.set key value

/-- `serde_json::from_value` at a list. -/
def Json.listOf? {α : Type} (read : Json → Option α) (v : Json) : Option (List α) :=
  v.arr?.bind fun vs => vs.mapM read

/-- `serde_json::from_value` at `FileDiff`. -/
def FileDiff.ofJson? (v : Json) : Option FileDiff := do
  let path ← v.string? "path"
  let oldText ←
    match v.get? "old_text" with
    | none | some .null => some none
    | some (.str text) => some (some text)
    | some _ => none
  let newText ← v.string? "new_text"
  pure { path, oldText, newText }

namespace Store

/-- What reads the stored texts: `DateTime::parse_from_rfc3339`, the `FromStr` of `TurnId` with the
text of its error, and `serde_json::from_value` at an image, and the text of its error at a list of
tasks. -/
structure Decoders where
  time? : String → Option DateTime
  turnId : String → Except String TurnId
  image? : Json → Option GeneratedImage
  tasksError : Json → String

/-- What one projection takes from outside, by the place of the event: `Utc::now` and
`CorrelationId::new`. -/
structure Fresh where
  now : Nat → DateTime
  correlationId : Nat → CorrelationId

/-- The events a projection pushes, each with the text its time is parsed from. -/
abbrev Pushed := List (String × AppEvent)

/-! ## Rows -/

section Rows

variable (d : Decoders)

/-- The turn a row names. -/
def parseTurnId (turnId : String) : Except AxiomError TurnId :=
  (d.turnId turnId).mapError fun error =>
    .storage ("invalid stored turn ID `" ++ turnId ++ "`: " ++ error)

/-- The event that ends a turn. -/
def terminalEvent (turn : TurnRecord) (turnId : TurnId) : AppEvent :=
  match turn.status with
  | .completed => .turnCompleted turnId
  | .cancelled => .turnCancelled turnId
  | .failed => .errorRaised (some turnId) (turn.error.getD "turn failed")
  | .interrupted | .running => .errorRaised (some turnId) (turn.error.getD
      "The previous process ended during this turn; unfinished work was not replayed")

/-- `project_turn_terminal`. -/
def projectTurnTerminal (turn : Option TurnRecord) : Pushed :=
  match turn with
  | none => []
  | some turn =>
    match d.turnId turn.id with
    | .error _ => []
    | .ok turnId =>
      let occurredAt := turn.completedAt.getD turn.startedAt
      (if turn.inputTokens > 0 || turn.outputTokens > 0 then
        [(occurredAt, .usageUpdated turn.inputTokens turn.outputTokens)]
      else []) ++
        [(occurredAt, terminalEvent turn turnId)]

/-- The names of the tools that own an image. -/
def isImageToolName (name : String) : Bool :=
  name = "generate" || name = "generate_image" || name = "edit_image"

/-- The progress of an image in the row of a tool. -/
def projectImageProgress (item : TimelineItem) (callId name : String) : Except AxiomError Pushed :=
  match item.metadata.get? "image_progress" with
  | none => .ok []
  | some value =>
    match ImageGenerationProgress.ofJson? value with
    | none => .error (.storage "invalid stored image progress")
    | some progress =>
      if !isImageToolName name || !progress.validAfter none then
        .error (.storage "invalid stored image progress")
      else .ok [(item.updatedAt, .imageGenerationProgress callId progress)]

/-- The images among the content blocks of a row. -/
def imageBlocks (blocks : List Json) : List Json :=
  blocks.filterMap fun entry =>
    let content := if entry.index "type" = .str "content" then entry.index "content" else entry
    if content.index "type" = .str "image" then some content else none

/-- The image in the row of a tool, put together from its proof and its bytes. -/
def projectImage (item : TimelineItem) (callId name : String) : Except AxiomError Pushed :=
  match item.metadata.get? "generated_image" with
  | none => .ok []
  | some proof =>
    if !isImageToolName name then
      .error (.storage "stored image requires its owning image tool")
    else
      match (item.metadata.get? "content").bind Json.arr? with
      | none => .error (.storage "stored image bytes are missing")
      | some blocks =>
        match imageBlocks blocks with
        | [image] =>
          if image.index "mimeType" ≠ proof.index "mimeType" then
            .error (.storage "stored image content differs")
          else
            match d.image? (proof.setIndex "data" (image.index "data")) with
            | none => .error (.storage "stored image proof is invalid")
            | some image => .ok [(item.updatedAt, .imageGenerated callId image)]
        | _ => .error (.storage "stored image content differs")

/-- The diff in the row of a tool. -/
def projectDiff (item : TimelineItem) (callId : String) : Pushed :=
  match item.metadata.string? "diff" with
  | none => []
  | some diff =>
    [(item.updatedAt, .diffAvailable callId diff (item.metadata.flag "diff_truncated")
      (((item.metadata.get? "files").bind (Json.listOf? FileDiff.ofJson?)).getD []))]

/-- `project_tool`. -/
def projectTool (item : TimelineItem) (turnId : TurnId) : Except AxiomError Pushed := do
  let callId := item.externalId.getD item.id
  let name := (item.metadata.string? "name").getD "tool"
  let arguments := (item.metadata.get? "arguments").getD (.obj [])
  let proposed : Pushed := [(item.createdAt, .toolProposed turnId callId name arguments)]
  let started : Pushed :=
    if item.status ≠ .pending then [(item.createdAt, .toolStarted callId name)] else []
  let progress ← projectImageProgress item callId name
  let output : Pushed :=
    if item.content ≠ "" then
      [(item.updatedAt, .toolOutput callId item.content (item.metadata.flag "output_truncated"))]
    else []
  let image ← projectImage d item callId name
  let completed : Pushed :=
    if item.status = .completed || item.status = .failed then
      [(item.updatedAt, .toolCompleted callId (item.status = .completed))]
    else []
  pure (proposed ++ started ++ progress ++ output ++ image ++ projectDiff item callId ++ completed)

/-- `project_plan`. -/
def projectPlan (item : TimelineItem) : Except AxiomError Pushed :=
  if item.metadata.string? "code" = some "task_list" then
    match item.metadata.get? "items" with
    | none => .ok []
    | some items =>
      match Json.listOf? TaskItem.ofJson? items with
      | none => .error (.storage ("invalid stored task list: " ++ d.tasksError items))
      | some tasks => .ok [(item.updatedAt, .taskListUpdated tasks)]
  else
    match item.externalId with
    | none => .ok []
    | some planId =>
      let revision := ((item.metadata.get? "revision").bind Json.u64?).getD 1
      .ok ((item.createdAt, .planProposed planId revision item.content) ::
        match item.metadata.string? "decision" with
        | some decision => [(item.updatedAt, .planReviewed planId revision decision)]
        | none => [])

/-- `project_notice`. -/
def projectNotice (item : TimelineItem) : Pushed :=
  let code := ((item.metadata.string? "code").or
    ((item.metadata.get? "details").bind (·.string? "code"))).getD "notice"
  let details := (item.metadata.get? "details").getD item.metadata
  if code = "progress" then
    [(item.updatedAt, .progressUpdated item.content
      ((item.metadata.get? "completed").bind Json.u64?)
      ((item.metadata.get? "total").bind Json.u64?))]
  else if code = "workspace_changed" then
    [(item.updatedAt, .workspaceChanged
      (((details.get? "paths").bind (Json.listOf? Json.asStr?)).getD []))]
  else if code = "context_compacted" then
    [(item.updatedAt, .contextCompacted item.content
      (((details.get? "messages_before").bind Json.u64?).getD 0))]
  else if code = "warning" then [(item.updatedAt, .warningRaised item.content)]
  else if code = "error" && !details.flag "terminal" then
    [(item.updatedAt, .errorRaised none item.content)]
  else []

/-- `project_thread_item`. -/
def projectThreadItem (item : TimelineItem) : Except AxiomError Pushed :=
  match item.kind with
  | .plan => projectPlan d item
  | .notice => .ok (projectNotice item)
  | _ => .ok []

/-- The events of a row that belongs to a turn and is not the user's. -/
def projectTurnItem (item : TimelineItem) (turnId : TurnId) : Except AxiomError Pushed :=
  match item.kind with
  | .assistantMessage =>
    .ok (if item.content ≠ "" then [(item.updatedAt, .textDelta turnId item.content)] else [])
  | .reasoning =>
    .ok (if item.content ≠ "" then [(item.updatedAt, .reasoningDelta turnId item.content)] else [])
  | .toolCall => projectTool d item turnId
  | .plan => projectPlan d item
  | .notice => .ok (projectNotice item)
  | .userMessage => .ok []

/-- A row of the user that steers a turn that runs. -/
def TimelineItem.isSteering (item : TimelineItem) : Bool := item.metadata.flag "steering"

/-- The events of a row of the user. -/
def projectUserItem (attachments : List (String × List PromptAttachment)) (item : TimelineItem)
    (turnId : TurnId) : Pushed :=
  if item.isSteering then
    [(item.createdAt, .steeringApplied turnId (item.clientItemId.getD item.id) item.content)]
  else
    [(item.createdAt,
        .promptAccepted turnId item.content ((attachments.lookup item.id).getD [])),
      (item.createdAt, .turnStarted turnId)]

/-! ## The loop -/

/-- The end of the active turn before a row of another one. -/
def projectLeft (turns : String → Option TurnRecord) (active turnId : Option String) : Pushed :=
  match active with
  | none => []
  | some previous =>
    if some previous ≠ turnId then projectTurnTerminal d (turns previous) else []

/-- One round of the loop of `project_runtime_events`: the events, and the turn that is active
after the row. -/
def projectItem (turns : String → Option TurnRecord)
    (attachments : List (String × List PromptAttachment)) (active : Option String)
    (item : TimelineItem) : Except AxiomError (Pushed × Option String) :=
  if item.kind = .userMessage then
    match item.turnId with
    | none => .error (.storage ("user timeline item " ++ item.id ++ " has no turn"))
    | some turnId => do
      let parsedTurn ← parseTurnId d turnId
      pure (projectLeft d turns active item.turnId ++ projectUserItem attachments item parsedTurn,
        some turnId)
  else
    match item.turnId with
    | none => do
      let pushed ← projectThreadItem d item
      pure (pushed, active)
    | some text => do
      let turnId ← parseTurnId d text
      -- a user-triggered image regeneration is a tool-only turn, with no prompt of its own
      let started : Pushed :=
        if active ≠ item.turnId then [(item.createdAt, .turnStarted turnId)] else []
      let pushed ← projectTurnItem d item turnId
      pure (projectLeft d turns active item.turnId ++ started ++ pushed, some text)

/-- The loop of `project_runtime_events`. -/
def projectItems (turns : String → Option TurnRecord)
    (attachments : List (String × List PromptAttachment)) :
    Option String → List TimelineItem → Except AxiomError (Pushed × Option String)
  | active, [] => .ok ([], active)
  | active, item :: rest => do
    let (pushed, active) ← projectItem d turns attachments active item
    let (more, active) ← projectItems turns attachments active rest
    pure (pushed ++ more, active)

/-- The events of the thread itself. -/
def projectThread (thread : ThreadSummary) : Pushed :=
  (thread.createdAt, .sessionCreated thread.cwd thread.origin thread.profile) ::
    (match thread.selectedModel with
      | some model => [(thread.createdAt, .modelChanged model)]
      | none => []) ++
    [(thread.createdAt, .thinkingLevelChanged thread.thinkingLevel)]

end Rows

/-! ## Envelopes -/

/-- `parse_time`, with the reading of the clock it falls back to. -/
def Decoders.parseTime (d : Decoders) (text : String) (now : DateTime) : DateTime :=
  (d.time? text).getD now

/-- `RuntimeProjection::push`, at its place among the events. -/
def push (d : Decoders) (fresh : Fresh) (id : SessionId) (origin : Origin) (n : Nat)
    (pushed : String × AppEvent) : EventEnvelope where
  schemaVersion := 1
  sequence := UInt64.ofNat (min (n + 1) (2 ^ 64 - 1))
  occurredAt := d.parseTime pushed.1 (fresh.now n)
  correlationId := fresh.correlationId n
  origin := origin
  sessionId := id
  event := pushed.2

/-- The turns of a thread by their ids, no two of which are alike. -/
def turnsById (turns : List TurnRecord) (id : String) : Option TurnRecord :=
  turns.find? fun turn => turn.id = id

/-- `project_runtime_events`. -/
def projectRuntimeEvents (d : Decoders) (fresh : Fresh) (id : SessionId) (thread : ThreadSummary)
    (turns : List TurnRecord) (items : List TimelineItem)
    (attachments : List (String × List PromptAttachment)) :
    Except AxiomError (List EventEnvelope) := do
  let (pushed, active) ← projectItems d (turnsById turns) attachments none items
  let all := projectThread thread ++ pushed ++ projectLeft d (turnsById turns) active none
  pure (all.mapIdx fun n pushed => push d fresh id thread.origin n pushed)

end Store

end AxiomDesktop

/-!
## Loading a thread

`load` reads the rows of a thread and projects them.
-/

namespace AxiomDesktop.Store

def MAX_TIMELINE_ITEMS_PER_LOAD : Nat := 100000

namespace Database

variable (db : Database)

/-- `query_thread_summary`. -/
def threadSummary (threadId : String) : Except AxiomError ThreadSummary :=
  match db.threads.get? threadId with
  | some thread => .ok thread.decode
  | none => .error (.sessionNotFound threadId)

/-- The row of the user with an id, or else the one the client gave that id. -/
def userItem (threadId itemId : String) : Option TimelineItem :=
  let users := (db.itemsOf threadId).filter fun i => i.kind = .userMessage
  (users.find? fun i => i.id = itemId).or (users.find? fun i => i.clientItemId = some itemId)

/-- `query_prompt_attachments`. -/
def queryPromptAttachments (threadId itemId : String) :
    Except AxiomError (List PromptAttachment) :=
  match db.userItem threadId itemId with
  | none => .error (.storage "Query returned no rows")
  | some item =>
    match db.promptAttachments.get? item.id with
    | some stored =>
      match validateStoredPrompt item.content stored.payload with
      | .ok _ => .ok stored.payload
      | .error e => .error (.storage e.message)
    | none =>
      if (item.metadata.get? "attachments").isSome then
        .error (.storage
          "Stored attachment contents are missing; the message cannot be replayed.")
      else .ok []

/-- The rows whose attachments are loaded. -/
def carriesAttachments (i : TimelineItem) : Bool :=
  i.kind = .userMessage && (i.metadata.get? "attachments").isSome

/-- The loop of `load_recovering` over the attachments of the prompts. -/
def loadAttachments (threadId : String) (items : List TimelineItem) :
    Except AxiomError (List (String × List PromptAttachment)) :=
  (items.filter carriesAttachments).mapM fun i =>
    (db.queryPromptAttachments threadId i.id).map fun a => (i.id, a)

end Database

/-- `LoadOutcome`. -/
structure LoadOutcome where
  events : List EventEnvelope
  warnings : List String

/-- `SessionStore::load_recovering`. -/
def loadRecovering (d : Decoders) (fresh : Fresh) (id : SessionId) (db : Database) :
    Except AxiomError LoadOutcome := do
  let threadId := id.toString
  let thread ← db.threadSummary threadId
  let stored := (db.itemsBySequence threadId).take (MAX_TIMELINE_ITEMS_PER_LOAD + 1)
  let exceeds := stored.length > MAX_TIMELINE_ITEMS_PER_LOAD
  let items := if exceeds then stored.dropLast else stored
  let warnings :=
    if exceeds then
      [s!"thread {threadId} exceeds the {MAX_TIMELINE_ITEMS_PER_LOAD}-item runtime restore limit"]
    else []
  let attachments ← db.loadAttachments threadId items
  let events ← projectRuntimeEvents d fresh id thread (db.queryTurns threadId) items attachments
  pure { events, warnings }

/-- `SessionStore::load`. -/
def load (d : Decoders) (fresh : Fresh) (id : SessionId) (db : Database) :
    Except AxiomError (List EventEnvelope) := do
  let outcome ← loadRecovering d fresh id db
  match outcome.warnings with
  | warning :: _ => .error (.storage warning)
  | [] => pure outcome.events

end AxiomDesktop.Store
