import AxiomDesktop.Session.Timeline

/-!
# Runtime events into durable records

`persistEvent` translates one event of the runtime into writes of the tables, and `appendBatch`
persists the events of one command as one transaction: the events, the times of the last
messages, and one more revision of the thread.
-/

namespace AxiomDesktop.Store

open Fallible

/-! ## Events with a body of their own -/

/-- `AppEvent::PromptAccepted`: the user's row, its attachments, an empty row for the answer, and
the running turn. -/
def persistPrompt (threadId turnId text : String) (attachments : List PromptAttachment)
    (clientItemId : Option String) (now : String) : StoreM PUnit := do
  let userItemId ← insertTimelineItem threadId
    { turnId := some turnId
      kind := .userMessage
      status := .completed
      clientItemId
      content := redactText text
      metadata :=
        if attachments.isEmpty then .obj []
        else .obj [("attachments", .arr (attachments.map (·.summary)))]
      now }
  if attachments ≠ [] then do
    ofResult ((validatePrompt text attachments).mapError fun e => .storage e.message)
    insertAttachments { userItemId, payload := attachments }
  let assistantItemId ← insertTimelineItem threadId
    { turnId := some turnId
      kind := .assistantMessage
      status := .inProgress
      metadata := .obj []
      now }
  insertTurn
    { threadId, id := turnId
      status := .running
      userItemId := some userItemId
      assistantItemId := some assistantItemId
      startedAt := now }
  updateThread threadId fun t => { t with lifecycle := .running }

/-- `AppEvent::TurnStarted`: `INSERT .. ON CONFLICT(thread_id, id) DO UPDATE SET
status='running'`. -/
def persistTurnStarted (threadId turnId now : String) : StoreM PUnit := do
  ensureThread threadId
  let db ← tables
  match db.turns.insert? { threadId, id := turnId, status := .running, startedAt := now } with
  | some turns => modifyTables fun db => { db with turns }
  | none => updateTurn threadId turnId fun t => { t with status := .running }
  updateThread threadId fun t => { t with lifecycle := .running }

/-- The empty answer of a turn that its first conversation request takes over. -/
def bindsRequest (db : Database) (threadId turnId requestId : String) (i : TimelineItem) : Bool :=
  i.threadId = threadId && i.turnId = some turnId && i.kind = .assistantMessage &&
    ((db.turns.get? (threadId, turnId)).bind (·.assistantItemId)) = some i.id &&
    i.status = .inProgress && i.content = "" && requestIdIs i.metadata none &&
    !(db.usageOf threadId).any fun u =>
      u.record.turnId = some turnId && u.record.purpose = .conversation &&
        u.requestId ≠ requestId

/-- The rows of a request that its verified report marks. -/
def isRequestText (threadId requestId : String) (i : TimelineItem) : Bool :=
  i.threadId = threadId && requestIdIs i.metadata (some requestId) &&
    (i.kind = .assistantMessage || i.kind = .reasoning)

/-- What a verified report of a request does to its rows. -/
def verifyItem (finishReason : Option String) (now : String) (i : TimelineItem) : TimelineItem :=
  { i with
    status := .completed
    metadata := (i.metadata.set "terminal_verified" (.bool true)).set "finish_reason"
      (.ofOption finishReason)
    updatedAt := now }

/-- `AppEvent::RequestUsageUpdated`: the last complete report of a request, without a row of its
own. A running conversation request takes the turn's empty answer, and a verified one marks the
rows of its text. -/
def persistRequestUsage (threadId : String) (usage : RequestUsage) (now : String) :
    StoreM PUnit := do
  failIf (!usage.validateCounters) (.storage "invalid request accounting")
  upsertUsage { requestId := usage.requestId, threadId, record := usage }
  if usage.purpose = .conversation ∧ usage.state = .running then do
    let db ← tables
    updateItems
      (fun i => usage.turnId.any fun turnId => bindsRequest db threadId turnId usage.requestId i)
      fun i => { i with metadata := i.metadata.set "request_id" (.str usage.requestId) }
  if usage.responseVerified then
    updateItems (isRequestText threadId usage.requestId) (verifyItem usage.finishReason now)

/-- The metadata of a tool call that is only known by its id. -/
def toolMetadata (name : String) (arguments : Json) : Json :=
  .obj
    [ ("name", .str name),
      ("arguments", arguments),
      ("output_truncated", .bool false),
      ("success", .null),
      ("diff", .null),
      ("files", .arr []) ]

/-- `AppEvent::ToolStarted`. -/
def persistToolStarted (threadId callId name now : String) : StoreM PUnit := do
  let db ← tables
  let id ← ensureExternalItem threadId (db.activeTurnId threadId) .toolCall callId
    (toolMetadata name (.obj [])) now
  updateItem id fun i => { i with status := .inProgress, updatedAt := now }

/-- `AppEvent::ToolOutput`. -/
def persistToolOutput (threadId callId content : String) (truncated : Bool) (now : String) :
    StoreM PUnit := do
  let db ← tables
  let id ← ensureExternalItem threadId (db.activeTurnId threadId) .toolCall callId
    (toolMetadata "tool" (.obj [])) now
  let metadata ← itemMetadata id
  updateItem id fun i =>
    { i with
      content := i.content ++ redactText content
      metadata := redactValue (metadata.set "output_truncated" (.bool truncated))
      status := .inProgress
      updatedAt := now }

/-- The names of the image tools. -/
def isImageTool (metadata : Json) : Bool :=
  match metadata.string? "name" with
  | some name => name = "generate" || name = "generate_image" || name = "edit_image"
  | none => false

/-- `AppEvent::ImageGenerationProgress`. -/
def persistImageProgress (threadId callId : String) (progress : ImageGenerationProgress)
    (now : String) : StoreM PUnit := do
  let db ← tables
  let item ← okOr (db.findExternalItem threadId .toolCall callId)
    (.storage "image progress requires its owning tool")
  let previous ←
    match item.metadata.get? "image_progress" with
    | none => pure none
    | some stored => do
      let previous ← okOr (ImageGenerationProgress.ofJson? stored)
        (.storage "invalid stored image progress")
      pure (some previous)
  failIf (!isImageTool item.metadata || !progress.validAfter previous)
    (.storage "invalid image progress or tool identity")
  updateItem item.id fun i =>
    { i with
      metadata := redactValue (item.metadata.set "image_progress" progress.toJson)
      updatedAt := now }

/-- `AppEvent::ImageGenerated`. -/
def persistImage (threadId callId : String) (image : GeneratedImage) (now : String) :
    StoreM PUnit := do
  let db ← tables
  let item ← okOr (db.findExternalItem threadId .toolCall callId)
    (.storage "image requires its owning tool call")
  failIf (!isImageTool item.metadata || (item.metadata.get? "generated_image").isSome)
    (.storage "image tool identity or replay differs")
  updateItem item.id fun i =>
    { i with
      metadata := redactValue
        ((item.metadata.set "generated_image" image.proof).set "content" image.content)
      updatedAt := now }

/-- `AppEvent::ToolCompleted`. -/
def persistToolCompleted (threadId callId : String) (success : Bool) (now : String) :
    StoreM PUnit := do
  let db ← tables
  match db.findExternalItem threadId .toolCall callId with
  | none => pure ⟨⟩
  | some item =>
    updateItem item.id fun i =>
      { i with
        status := if success then .completed else .failed
        metadata := redactValue (item.metadata.set "success" (.bool success))
        updatedAt := now }

/-- `AppEvent::DiffAvailable`. -/
def persistDiff (threadId callId diff : String) (truncated : Bool) (files : List FileDiff)
    (now : String) : StoreM PUnit := do
  let db ← tables
  let id ← ensureExternalItem threadId (db.activeTurnId threadId) .toolCall callId
    (.obj
      [ ("name", .str "tool"),
        ("arguments", .obj []),
        ("output_truncated", .bool false),
        ("success", .null) ])
    now
  let metadata ← itemMetadata id
  let metadata := metadata.set "diff" (.str (redactText diff))
  let metadata := metadata.set "diff_truncated" (.bool truncated)
  let metadata := metadata.set "files" (redactValue (.arr (files.map (·.toJson))))
  updateItem id fun i => { i with metadata := redactValue metadata, updatedAt := now }

/-- The status `AppEvent::BackgroundTaskChanged` gives the row of its task. -/
def backgroundStatus (state : String) : TimelineItemStatus :=
  if state = "completed" then .completed
  else if state = "cancelled" then .cancelled
  else if Text.startsWith "failed:" state then .failed
  else .inProgress

/-- `AppEvent::DesktopAgentConfigured`. -/
def persistDesktopAgent (threadId : String) (settings : DesktopAgentSettings) : StoreM PUnit := do
  let expected ← ofResult
    (if settings.revision - 1 < 2 ^ 63 then .ok (settings.revision - 1)
      else .error (.storage "Agent revision overflow"))
  let db ← tables
  failIf
    (!db.threads.any fun t =>
      t.id = threadId && t.lifecycle = .ready &&
        (t.desktopAgentSettings.map (·.revision)).getD 0 = expected)
    (.invalidTransition "Agent settings changed or the thread is busy")
  updateThread threadId fun t =>
    { t with
      cwd := settings.workingDirectory
      profile := .forDesktopAgent settings
      desktopAgentSettings := some settings }

/-- `AppEvent::UsageUpdated`. -/
def persistUsage (threadId : String) (inputTokens outputTokens : Nat) : StoreM PUnit := do
  let db ← tables
  match db.activeTurnId threadId with
  | none => pure ⟨⟩
  | some turnId => do
    let inputTokens ← ofResult (checkedI64 inputTokens "input token count")
    let outputTokens ← ofResult (checkedI64 outputTokens "output token count")
    updateTurn threadId turnId fun t => { t with inputTokens, outputTokens }

/-- `AppEvent::ErrorRaised`. -/
def persistError (threadId : String) (turnId : Option String) (message now : String) :
    StoreM PUnit := do
  match turnId with
  | some turnId => finishTurn threadId turnId .failed (some (redactText message)) now
  | none => pure ⟨⟩
  insertNotice threadId turnId .failed "error" (redactText message)
    (.obj [("terminal", .bool turnId.isSome)]) now

/-- A row that is rewritten as a whole whenever its event comes, in the turn that runs. -/
def persistExternal (threadId externalId : String) (kind : TimelineItemKind)
    (status : TimelineItemStatus) (content : String) (metadata : Json) (now : String) :
    StoreM PUnit := do
  let db ← tables
  let _ ← upsertTimelineItem threadId
    { turnId := db.activeTurnId threadId
      kind, status
      externalId := some externalId
      content, metadata, now }

/-- The same for a row that belongs to no turn. -/
def persistThreadNotice (threadId externalId : String) (status : TimelineItemStatus)
    (content : String) (metadata : Json) (now : String) : StoreM PUnit := do
  let _ ← upsertTimelineItem threadId
    { turnId := none
      kind := .notice
      status
      externalId := some externalId
      content, metadata, now }

/-- A notice in the turn that runs. -/
def persistNotice (threadId : String) (code content : String) (details : Json) (now : String) :
    StoreM PUnit := do
  let db ← tables
  insertNotice threadId (db.activeTurnId threadId) .completed code content details now

/-- The end of an interaction: its row is resolved and the turn runs on. -/
def persistResolution (threadId externalId : String) (fields : List (String × Json))
    (status : TimelineItemStatus) (now : String) : StoreM PUnit := do
  updateNoticeResolution threadId externalId fields status now
  setThreadLifecycle threadId .running

/-- The name `progress` and `task-list` rows have in a turn. -/
def turnScope (db : Database) (threadId : String) : String :=
  (db.activeTurnId threadId).getD "thread"

/-! ## The event -/

/-- `persist_event`. -/
def persistEvent (envelope : EventEnvelope) (clientItemId : Option String) : StoreM PUnit := do
  let threadId := envelope.sessionId.toString
  let now := envelope.occurredAt.rfc3339
  match envelope.event with
  | .sessionCreated cwd origin profile =>
    insertThread { id := threadId, cwd, origin, profile, createdAt := now, updatedAt := now }
  | .sessionResumed cwd origin profile => do
    ensureThread threadId
    updateThread threadId fun t => { t with cwd, origin, profile, lifecycle := .ready }
  | .steeringApplied turnId clientItemId text => do
    let clientId ← ofResult (validateClientItemId clientItemId)
    let _ ← insertTimelineItem threadId
      { turnId := some turnId.toString
        kind := .userMessage
        status := .completed
        clientItemId := some clientId
        content := redactText text
        metadata := .obj [("steering", .bool true)]
        now }
  | .promptAccepted turnId text attachments =>
    persistPrompt threadId turnId.toString text attachments clientItemId now
  | .turnStarted turnId => persistTurnStarted threadId turnId.toString now
  | .textDelta turnId text =>
    appendTurnContent threadId turnId.toString .assistantMessage (redactText text) now
  | .reasoningDelta turnId text =>
    appendTurnContent threadId turnId.toString .reasoning (redactText text) now
  | .requestUsageUpdated usage => persistRequestUsage threadId usage now
  | .contextUsageUpdated usage =>
    updateThread threadId fun t => { t with lastReportedUsage := some usage }
  | .usageUpdated inputTokens outputTokens => persistUsage threadId inputTokens outputTokens
  | .progressUpdated message completed total => do
    let db ← tables
    persistExternal threadId ("progress:" ++ turnScope db threadId) .notice .inProgress
      (redactText message)
      (.obj [("code", .str "progress"), ("completed", jsonNat? completed), ("total", jsonNat? total)])
      now
  | .taskListUpdated items => do
    let db ← tables
    persistExternal threadId ("task-list:" ++ turnScope db threadId) .plan .inProgress ""
      (.obj [("code", .str "task_list"), ("items", redactValue (.arr (items.map (·.toJson))))]) now
  | .toolProposed turnId callId name arguments => do
    let _ ← upsertTimelineItem threadId
      { turnId := some turnId.toString
        kind := .toolCall
        status := .pending
        externalId := some callId
        metadata := toolMetadata name (redactValue arguments)
        now }
  | .toolStarted callId name => persistToolStarted threadId callId name now
  | .toolOutput callId content truncated =>
    persistToolOutput threadId callId content truncated now
  | .imageGenerationProgress callId progress => persistImageProgress threadId callId progress now
  | .imageGenerated callId image => persistImage threadId callId image now
  | .toolCompleted callId success => persistToolCompleted threadId callId success now
  | .diffAvailable callId diff truncated files =>
    persistDiff threadId callId diff truncated files now
  | .permissionRequired requestId explanation effect choices => do
    persistExternal threadId requestId .notice .pending (redactText explanation)
      (.obj [("code", .str "permission"), ("effect", redactValue effect),
        ("choices", jsonStrings choices), ("allowed", .null)])
      now
    setThreadLifecycle threadId .waitingForApproval
  | .permissionResolved requestId allowed choice =>
    persistResolution threadId requestId [("allowed", .bool allowed), ("choice", .ofOption choice)]
      (if allowed then .completed else .cancelled) now
  | .questionAsked questionId prompt options =>
    persistQuestion threadId questionId (redactText prompt)
      (.obj [("code", .str "question"), ("options", jsonStrings options)]) now
  | .questionAnswered questionId answers =>
    persistResolution threadId questionId [("answers", redactValue (jsonStrings answers))]
      .completed now
  | .questionsAsked request =>
    persistQuestion threadId request.requestId ""
      (.obj [("code", .str "questions"), ("request", redactValue request.toJson)]) now
  | .questionsAnswered requestId answers =>
    persistResolution threadId requestId
      [("answers", redactValue (.obj (answers.map fun a => (a.1, jsonStrings a.2))))] .completed now
  | .questionsFailed requestId reason =>
    persistResolution threadId requestId [("reason", .str (redactText reason))] .failed now
  | .planProposed planId revision markdown =>
    persistExternal threadId planId .plan .pending (redactText markdown)
      (.obj [("code", .str "plan"), ("revision", .ofNat revision), ("decision", .null)]) now
  | .planReviewed planId revision decision =>
    updateNoticeResolution threadId planId
      [("revision", .ofNat revision), ("decision", .str decision)] .completed now
  | .backgroundTaskChanged taskId state =>
    persistExternal threadId taskId .toolCall (backgroundStatus state) ""
      (.obj [("name", .str "background_process"), ("state", .str (redactText state)),
        ("arguments", .obj []), ("success", .bool (backgroundStatus state = .completed))])
      now
  | .workspaceChanged paths =>
    persistNotice threadId "workspace_changed" ""
      (.obj [("paths", redactValue (jsonStrings paths))]) now
  | .desktopAgentConfigured settings => persistDesktopAgent threadId settings
  | .permissionProfileChanged profile => do
    ensureThread threadId
    updateThread threadId fun t => { t with profile }
  | .modelChanged model => do
    let _ ← ofResult (validateModel model)
    updateThread threadId fun t => { t with selectedModel := some model }
  | .thinkingLevelChanged level => updateThread threadId fun t => { t with thinkingLevel := level }
  | .contextCompacted summary messagesBefore =>
    insertNotice threadId none .completed "context_compacted" (redactText summary)
      (.obj [("messages_before", .ofNat messagesBefore)]) now
  | .providerStatusChanged connected detail =>
    persistThreadNotice threadId "provider-status" (if connected then .completed else .failed)
      (redactText detail)
      (.obj [("code", .str "provider_status"), ("connected", .bool connected)]) now
  | .securityStatusChanged state =>
    persistThreadNotice threadId "security-status" .completed ""
      (.obj [("code", .str "security_status"), ("state", .str state.name)]) now
  -- reports are public but ephemeral, and a live lease is never restored from history
  | .securityEvidenceUpdated _ => pure ⟨⟩
  | .responseVerified turnId => markResponseVerified threadId turnId.toString now
  | .warningRaised message =>
    persistNotice threadId "warning" (redactText message) (.obj []) now
  | .turnCompleted turnId => finishTurn threadId turnId.toString .completed none now
  | .turnCancelled turnId => finishTurn threadId turnId.toString .cancelled none now
  | .errorRaised turnId message =>
    persistError threadId (turnId.map (·.toString)) message now
  | .sessionClosed => setThreadLifecycle threadId .closed

/-! ## The batch -/

/-- Whether an event is a prompt. -/
def isPrompt : AppEvent → Bool
  | .promptAccepted .. => true
  | _ => false

/-- `has_attachments`. -/
def hasAttachments : AppEvent → Bool
  | .promptAccepted _ _ attachments => !attachments.isEmpty
  | _ => false

/-- The events that carry text of a message. -/
def hasMessage : AppEvent → Bool
  | .promptAccepted _ text attachments => !text.isEmpty || !attachments.isEmpty
  | .steeringApplied _ _ text | .textDelta _ text | .reasoningDelta _ text => !text.isEmpty
  | _ => false

/-- The events that carry text of the user. -/
def hasUserMessage : AppEvent → Bool
  | .promptAccepted _ text attachments => !text.isEmpty || !attachments.isEmpty
  | .steeringApplied _ _ text => !text.isEmpty
  | _ => false

/-- `MAX(COALESCE(stored, ''), at)`. -/
def laterTime (stored : Option String) (time : String) : Option String :=
  some (if stored.getD "" < time then time else stored.getD "")

/-- One round of the loop of `append_batch`; the client item id goes to the first prompt. -/
def persistEnvelope (threadId : String) (clientItemId : Option String) (envelope : EventEnvelope) :
    StoreM (Option String) := do
  persistEvent envelope clientItemId
  let messageAt := envelope.occurredAt.rfc3339Millis
  if hasMessage envelope.event then
    updateThread threadId fun t => { t with lastMessageAt := laterTime t.lastMessageAt messageAt }
  if hasUserMessage envelope.event then
    updateThread threadId fun t =>
      { t with lastUserMessageAt := laterTime t.lastUserMessageAt messageAt }
  pure (if isPrompt envelope.event then none else clientItemId)

/-- The loop of `append_batch`. -/
def persistEnvelopes (threadId : String) : Option String → List EventEnvelope → StoreM PUnit
  | _, [] => pure ⟨⟩
  | clientItemId, envelope :: rest => do
    let clientItemId ← persistEnvelope threadId clientItemId envelope
    persistEnvelopes threadId clientItemId rest

/-- The durable segment the last event of a batch changed, for the client. -/
def changedSegment (db : Database) (threadId : String) (envelope : EventEnvelope) : Option String :=
  let segment (turnId : TurnId) (kind : TimelineItemKind) :=
    (Database.lastItem ((db.itemsOf threadId).filter fun i =>
      i.turnId = some turnId.toString && i.kind = kind)).map (·.id)
  match envelope.event with
  | .textDelta turnId _ => segment turnId .assistantMessage
  | .reasoningDelta turnId _ => segment turnId .reasoning
  | _ => none

/-- The checks of `append_batch` before its transaction. -/
def checkBatch (envelopes : List EventEnvelope) (clientItemId : Option String)
    (preferences : Option (String × ThinkingLevel)) :
    Except AxiomError (EventEnvelope × Option String × Option (String × ThinkingLevel)) := do
  match envelopes with
  | [] => .error (.storage "cannot persist an empty runtime update")
  | first :: rest =>
    if rest.any fun e => e.sessionId ≠ first.sessionId then
      .error (.storage "one local-state transaction cannot span multiple threads")
    else do
      let clientItemId ← clientItemId.mapM validateClientItemId
      let preferences ← preferences.mapM fun p => (validateModel p.1).map fun model => (model, p.2)
      if clientItemId.isSome && !envelopes.any fun e => isPrompt e.event then
        .error (.storage "a client item ID is valid only for a prompt submission")
      else .ok (first, clientItemId, preferences)

/-- The transaction of `append_batch`. -/
def batch (first : EventEnvelope) (envelopes : List EventEnvelope) (clientItemId : Option String)
    (preferences : Option (String × ThinkingLevel)) (replacement : Option PromptRevision) :
    StoreM (ThreadRevision × Option ProfilePreferences) := do
  let threadId := first.sessionId.toString
  let now := (envelopes.getLastD first).occurredAt.rfc3339
  match replacement with
  | some replacement => do
    failIf (!envelopes.any fun e => isPrompt e.event)
      (.invalidTransition "A revision must include its replacement prompt.")
    truncateForRevision threadId replacement
  | none => pure ⟨⟩
  persistEnvelopes threadId clientItemId envelopes
  ensureThread threadId
  updateThread threadId fun t => { t with revision := t.revision + 1, updatedAt := now }
  match preferences with
  | some (model, thinking) =>
    modifyTables fun db =>
      { db with
        preferences := { model := some model, thinkingLevel := thinking, updatedAt := now } }
  | none => pure ⟨⟩
  let db ← tables
  let revision ← ofResult (db.threadRevision threadId)
  pure
    ({ revision with timelineItemId := changedSegment db threadId (envelopes.getLastD first) },
      preferences.map fun _ => db.preferences)

/-- `append_batch`. -/
def appendBatch (env : Environment) (envelopes : List EventEnvelope)
    (clientItemId : Option String) (preferences : Option (String × ThinkingLevel))
    (replacement : Option PromptRevision) (db : Database) :
    Except AxiomError (ThreadRevision × Option ProfilePreferences) × Database :=
  match checkBatch envelopes clientItemId preferences with
  | .error e => (.error e, db)
  | .ok (first, clientItemId, preferences) =>
    transaction env (batch first envelopes clientItemId preferences replacement) db

/-- `append_all`. -/
def appendAll (env : Environment) (envelopes : List EventEnvelope) (db : Database) :
    Except AxiomError ThreadRevision × Database :=
  let (result, db) := appendBatch env envelopes none none none db
  (result.map (·.1), db)

end AxiomDesktop.Store
