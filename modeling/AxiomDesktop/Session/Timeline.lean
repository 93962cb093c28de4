import AxiomDesktop.Session.Records

/-!
# Timeline writes, verification commits and turn transitions

The statements the store's transactions are made of. A transaction runs in `StoreM`: it reads and
writes the tables and may fail, and what a failed transaction wrote is dropped by
`Store.transaction`. The random identifiers and the readings of the clock that a call of the store
takes are its environment.
-/

namespace AxiomDesktop.Store

open Fallible

/-- What a call of the store takes from outside: `Uuid::new_v4` and `Utc::now`, by the place of
the call. -/
structure Environment where
  uuid : Nat → String
  utcNow : Nat → DateTime

/-- An open transaction: the tables as written so far. -/
structure Transaction where
  db : Database
  env : Environment
  /-- The identifiers and clock readings taken so far. -/
  taken : Nat := 0

abbrev StoreM := Fallible AxiomError Transaction

/-- A transaction: its writes are kept if it succeeds, and none of them if it fails. -/
def transaction {α : Type} (env : Environment) (x : StoreM α) (db : Database) :
    Except AxiomError α × Database :=
  match x.exec { db, env } with
  | (.ok a, t) => (.ok a, t.db)
  | (.error e, _) => (.error e, db)

/-- The tables, for a query. -/
def tables : StoreM Database := do
  let t ← get
  pure t.db

def modifyTables (f : Database → Database) : StoreM PUnit := modify fun t => { t with db := f t.db }

/-- `Uuid::new_v4().to_string()`. -/
def newUuid : StoreM String := do
  let t ← get
  set { t with taken := t.taken + 1 }
  pure (t.env.uuid t.taken)

/-- `Utc::now()`. -/
def utcNow : StoreM DateTime := do
  let t ← get
  set { t with taken := t.taken + 1 }
  pure (t.env.utcNow t.taken)

/-- The error of a violated constraint. -/
def constraintFailed (columns : String) : AxiomError :=
  .storage ("UNIQUE constraint failed: " ++ columns)

def foreignKeyFailed : AxiomError := .storage "FOREIGN KEY constraint failed"

/-! ## Rows -/

/-- `UPDATE threads SET .. WHERE id=?1`. -/
def updateThread (threadId : String) (f : StoredThread → StoredThread)
    (hf : ∀ t, (f t).id = t.id := by intro; rfl) : StoreM PUnit :=
  modifyTables fun db => { db with threads := db.threads.update (fun t => t.id = threadId) f hf }

/-- `UPDATE timeline_items SET .. WHERE ..`. -/
def updateItems (p : TimelineItem → Bool) (f : TimelineItem → TimelineItem)
    (hf : ∀ i, (f i).id = i.id := by intro; rfl) : StoreM PUnit :=
  modifyTables fun db => { db with timelineItems := db.timelineItems.update p f hf }

/-- `UPDATE timeline_items SET .. WHERE id=?1`. -/
def updateItem (id : String) (f : TimelineItem → TimelineItem)
    (hf : ∀ i, (f i).id = i.id := by intro; rfl) : StoreM PUnit :=
  updateItems (fun i => i.id = id) f hf

/-- `UPDATE turns SET .. WHERE thread_id=?1 AND id=?2`. -/
def updateTurn (threadId turnId : String) (f : TurnRecord → TurnRecord)
    (hf : ∀ t, (f t).key = t.key := by intro; rfl) : StoreM PUnit :=
  modifyTables fun db =>
    { db with turns := db.turns.update (fun t => t.key = (threadId, turnId)) f hf }

/-- `UPDATE request_usage SET record=.. WHERE ..`. -/
def updateUsage (p : StoredUsage → Bool) (f : RequestUsage → RequestUsage) : StoreM PUnit :=
  modifyTables fun db =>
    { db with
      requestUsage := db.requestUsage.update p (fun u => { u with record := f u.record })
        fun _ => rfl }

/-- `INSERT INTO threads`. -/
def insertThread (thread : StoredThread) : StoreM PUnit := do
  let db ← tables
  let threads ← okOr (db.threads.insert? thread) (constraintFailed "threads.id")
  modifyTables fun db => { db with threads }

/-- `INSERT INTO turns`. -/
def insertTurn (turn : TurnRecord) : StoreM PUnit := do
  let db ← tables
  let turns ← okOr (db.turns.insert? turn) (constraintFailed "turns.thread_id, turns.id")
  modifyTables fun db => { db with turns }

/-- `INSERT INTO timeline_items`. -/
def insertItem (item : TimelineItem) : StoreM PUnit := do
  let db ← tables
  failIf
    (db.timelineItems.any fun i => i.threadId = item.threadId && i.sequence = item.sequence)
    (constraintFailed "timeline_items.thread_id, timeline_items.sequence")
  failIf
    (item.clientItemId.isSome && db.timelineItems.any fun i =>
      i.threadId = item.threadId && i.clientItemId = item.clientItemId)
    (constraintFailed "timeline_items.thread_id, timeline_items.client_item_id")
  let timelineItems ← okOr (db.timelineItems.insert? item) (constraintFailed "timeline_items.id")
  modifyTables fun db => { db with timelineItems }

/-- `INSERT INTO prompt_attachments`. -/
def insertAttachments (attachments : StoredAttachments) : StoreM PUnit := do
  let db ← tables
  let promptAttachments ← okOr (db.promptAttachments.insert? attachments)
    (constraintFailed "prompt_attachments.user_item_id")
  modifyTables fun db => { db with promptAttachments }

/-- `INSERT INTO request_usage .. ON CONFLICT(request_id) DO UPDATE SET record=excluded.record
WHERE request_usage.thread_id=excluded.thread_id`. -/
def upsertUsage (usage : StoredUsage) : StoreM PUnit := do
  let db ← tables
  failIf (!db.threads.any fun t => t.id = usage.threadId) foreignKeyFailed
  match db.requestUsage.insert? usage with
  | some requestUsage => modifyTables fun db => { db with requestUsage }
  | none =>
    updateUsage (fun u => u.requestId = usage.requestId && u.threadId = usage.threadId)
      fun _ => usage.record

/-! ## Queries -/

namespace Database

variable (db : Database)

/-- The timeline items of a thread. -/
def itemsOf (threadId : String) : List TimelineItem :=
  db.timelineItems.rows.filter fun i => i.threadId = threadId

/-- The turns of a thread. -/
def turnsOf (threadId : String) : List TurnRecord :=
  db.turns.rows.filter fun t => t.threadId = threadId

/-- The accounting records of a thread. -/
def usageOf (threadId : String) : List StoredUsage :=
  db.requestUsage.rows.filter fun u => u.threadId = threadId

/-- The turns of a thread that run. -/
def runningTurns (threadId : String) : List TurnRecord :=
  (db.turnsOf threadId).filter fun t => t.status = .running

/-- `active_turn_id`. -/
def activeTurnId (threadId : String) : Option String :=
  ((db.runningTurns threadId).argmax fun t => toLex (t.startedAt, t.id)).map (·.id)

/-- The row of a query `.. ORDER BY sequence DESC LIMIT 1`. -/
def lastItem (items : List TimelineItem) : Option TimelineItem := items.argmax (·.sequence)

/-- `find_external_item`. -/
def findExternalItem (threadId : String) (kind : TimelineItemKind) (externalId : String) :
    Option TimelineItem :=
  lastItem ((db.itemsOf threadId).filter fun i => i.kind = kind && i.externalId = some externalId)

/-- `find_any_external_item`. -/
def findAnyExternalItem (threadId externalId : String) : Option TimelineItem :=
  lastItem ((db.itemsOf threadId).filter fun i => i.externalId = some externalId)

/-- The request a turn's conversation runs: the newest record of a running one. -/
def runningRequest (threadId turnId : String) : Option String :=
  (((db.usageOf threadId).filter fun u =>
    u.record.turnId = some turnId && u.record.purpose = .conversation &&
      u.record.state = .running).getLast?).map (·.requestId)

/-- Whether a turn has any accounting record. -/
def hasRequests (threadId turnId : String) : Bool :=
  (db.usageOf threadId).any fun u => u.record.turnId = some turnId

/-- The largest sequence of a tool or user row of a turn, or zero. -/
def lastBoundary (threadId turnId : String) : Nat :=
  (((db.itemsOf threadId).filter fun i =>
    i.turnId = some turnId && (i.kind = .toolCall || i.kind = .userMessage)).map
      (·.sequence)).foldl max 0

/-- The row a delta of a turn goes to: the last open row of its kind behind the last tool or user
row that belongs to the running request and is not verified. -/
def openSegment (threadId turnId : String) (kind : TimelineItemKind) (requestId : Option String) :
    Option TimelineItem :=
  lastItem ((db.itemsOf threadId).filter fun i =>
    i.turnId = some turnId && i.kind = kind && notVerified i.metadata && i.status.isOpen &&
      requestIdIs i.metadata requestId && db.lastBoundary threadId turnId < i.sequence)

/-- `query_thread_revision`. -/
def threadRevision (threadId : String) : Except AxiomError ThreadRevision :=
  match db.threads.get? threadId with
  | some t => .ok
      { revision := t.revision
        lastTimelineSequence := t.nextTimelineSequence
        lastMessageAt := t.lastMessageAt
        lastUserMessageAt := t.lastUserMessageAt }
  | none => .error (.sessionNotFound threadId)

end Database

/-! ## Statements of `timeline.rs` -/

/-- `ensure_thread`. -/
def ensureThread (threadId : String) : StoreM PUnit := do
  let db ← tables
  failIf (!db.threads.any fun t => t.id = threadId) (.sessionNotFound threadId)

structure TimelineItemWrite where
  turnId : Option String
  kind : TimelineItemKind
  status : TimelineItemStatus
  clientItemId : Option String := none
  externalId : Option String := none
  content : String := ""
  metadata : Json
  now : String

/-- `insert_timeline_item`. -/
def insertTimelineItem (threadId : String) (item : TimelineItemWrite) : StoreM String := do
  let db ← tables
  let thread ← okOr (db.threads.get? threadId) (.sessionNotFound threadId)
  let sequence := thread.nextTimelineSequence + 1
  updateThread threadId fun t => { t with nextTimelineSequence := t.nextTimelineSequence + 1 }
  let id ← newUuid
  insertItem
    { id, threadId, sequence
      turnId := item.turnId
      kind := item.kind
      status := item.status
      clientItemId := item.clientItemId
      externalId := item.externalId
      content := item.content
      metadata := redactValue item.metadata
      createdAt := item.now
      updatedAt := item.now }
  pure id

/-- `upsert_timeline_item`. -/
def upsertTimelineItem (threadId : String) (item : TimelineItemWrite) : StoreM String := do
  let db ← tables
  match item.externalId.bind fun externalId => db.findExternalItem threadId item.kind externalId with
  | some existing =>
    updateItem existing.id fun i =>
      { i with
        turnId := i.turnId.or item.turnId
        status := item.status
        content := item.content
        metadata := redactValue item.metadata
        updatedAt := item.now }
    pure existing.id
  | none => insertTimelineItem threadId item

/-- `append_turn_content`. -/
def appendTurnContent (threadId turnId : String) (kind : TimelineItemKind) (content now : String) :
    StoreM PUnit := do
  let db ← tables
  let requestId := db.runningRequest threadId turnId
  let id ←
    match db.openSegment threadId turnId kind requestId with
    | some existing => pure existing.id
    | none =>
      insertTimelineItem threadId
        { turnId := some turnId
          kind
          status := .inProgress
          metadata := .obj [("request_id", .ofOption requestId)]
          now }
  updateItem id fun i =>
    { i with
      content := i.content ++ content
      status := .inProgress
      metadata := (i.metadata.remove "terminal_verified").remove "terminalVerified"
      updatedAt := now }

/-- `ensure_external_item`. -/
def ensureExternalItem (threadId : String) (turnId : Option String) (kind : TimelineItemKind)
    (externalId : String) (metadata : Json) (now : String) : StoreM String := do
  let db ← tables
  match db.findExternalItem threadId kind externalId with
  | some existing => pure existing.id
  | none =>
    insertTimelineItem threadId
      { turnId, kind, status := .pending, externalId := some externalId, metadata, now }

/-- `item_metadata`. -/
def itemMetadata (id : String) : StoreM Json := do
  let db ← tables
  let item ← okOr (db.timelineItems.get? id) (.storage "Query returned no rows")
  pure item.metadata

/-- The rows a turn-wide verification marks. -/
def isTurnText (threadId turnId : String) (i : TimelineItem) : Bool :=
  i.threadId = threadId && i.turnId = some turnId &&
    (i.kind = .assistantMessage || i.kind = .reasoning)

/-- `mark_response_verified`. New requests are verified one at a time, and a turn-wide event never
upgrades a request that steering interrupted earlier in the turn. -/
def markResponseVerified (threadId turnId now : String) : StoreM PUnit := do
  let db ← tables
  if db.hasRequests threadId turnId then pure ⟨⟩
  else do
    failIf (!db.timelineItems.any (isTurnText threadId turnId))
      (.storage ("verified response has no assistant timeline item for turn " ++ turnId ++
        " in thread " ++ threadId))
    updateItems (isTurnText threadId turnId) fun i =>
      { i with
        metadata := redactValue (i.metadata.set "terminal_verified" (.bool true))
        updatedAt := now }

/-- `Map::extend`. -/
def extend (metadata : Json) (fields : List (String × Json)) : Json :=
  fields.foldl (fun v field => v.set field.1 field.2) metadata

/-- `update_notice_resolution`. -/
def updateNoticeResolution (threadId externalId : String) (fields : List (String × Json))
    (status : TimelineItemStatus) (now : String) : StoreM PUnit := do
  let db ← tables
  match db.findAnyExternalItem threadId externalId with
  | none => pure ⟨⟩
  | some item =>
    updateItem item.id fun i =>
      { i with status, metadata := redactValue (extend item.metadata fields), updatedAt := now }

/-- `set_thread_lifecycle`. -/
def setThreadLifecycle (threadId : String) (lifecycle : ThreadLifecycle) : StoreM PUnit := do
  ensureThread threadId
  updateThread threadId fun t => { t with lifecycle }

/-- `persist_question`. -/
def persistQuestion (threadId requestId content : String) (metadata : Json) (now : String) :
    StoreM PUnit := do
  let db ← tables
  let _ ← upsertTimelineItem threadId
    { turnId := db.activeTurnId threadId
      kind := .notice
      status := .pending
      externalId := some requestId
      content, metadata, now }
  setThreadLifecycle threadId .waitingForAnswer

/-- `insert_notice`. -/
def insertNotice (threadId : String) (turnId : Option String) (status : TimelineItemStatus)
    (code content : String) (details : Json) (now : String) : StoreM PUnit := do
  let _ ← insertTimelineItem threadId
    { turnId, kind := .notice, status, content, now
      metadata := .obj [("code", .str code), ("details", details)] }

/-- A prompt that replaces an earlier one: the item that started the old turn, and the revision it
was read at. -/
structure PromptRevision where
  userItemId : String
  expectedRevision : Nat
  deriving DecidableEq, Repr

/-- The user message that starts a turn. -/
def turnStart? (db : Database) (threadId itemId : String) : Option TimelineItem :=
  (db.itemsOf threadId).find? fun i =>
    i.id = itemId && i.kind = .userMessage &&
      (db.turnsOf threadId).any fun t => t.userItemId = some i.id

/-- `DELETE FROM turns WHERE thread_id=?1 AND user_item_id IN (SELECT id FROM timeline_items WHERE
thread_id=?1 AND sequence>=?2)` and `DELETE FROM timeline_items WHERE thread_id=?1 AND
sequence>=?2`, with the attachments of the deleted items. -/
def deleteFrom (threadId : String) (sequence : Nat) (db : Database) : Database :=
  let gone (i : TimelineItem) : Bool := i.threadId = threadId && sequence ≤ i.sequence
  { db with
    turns := db.turns.delete fun t =>
      t.threadId = threadId && db.timelineItems.any fun i => gone i && t.userItemId = some i.id
    timelineItems := db.timelineItems.delete gone
    promptAttachments := db.promptAttachments.delete fun a =>
      db.timelineItems.any fun i => gone i && i.id = a.userItemId }

/-- `truncate_for_revision`. -/
def truncateForRevision (threadId : String) (revision : PromptRevision) : StoreM PUnit := do
  let db ← tables
  let current ← ofResult (db.threadRevision threadId)
  failIf (current.revision ≠ revision.expectedRevision)
    (.invalidTransition "The conversation changed. Reload it before editing or regenerating.")
  failIf (db.runningTurns threadId ≠ [])
    (.invalidTransition "Stop the current reply before editing or regenerating.")
  let start ← okOr (turnStart? db threadId revision.userItemId)
    (.invalidTransition "Choose the message that started this turn.")
  modifyTables (deleteFrom threadId start.sequence)
  let now ← utcNow
  updateThread threadId fun t =>
    { t with revision := t.revision + 1, lastReportedUsage := none, updatedAt := now.rfc3339 }

/-- The status a turn's open items end in. -/
def itemStatusOf : TurnStatus → TimelineItemStatus
  | .running => .inProgress
  | .completed => .completed
  | .cancelled => .cancelled
  | .failed => .failed
  | .interrupted => .interrupted

/-- A request that ends with its turn, before its provider reported it. -/
def endRequest (status : TurnStatus) (finishedAtMs : String) (r : RequestUsage) : RequestUsage :=
  { r with
    state := if status = .cancelled then .cancelled else .failed
    errorCode := some (if status = .cancelled then "CANCELLED" else "CLIENT_INTERRUPTED")
    finishedAtMs := some finishedAtMs }

/-- `finish_turn`. A cancelled future can be dropped before its provider emits final accounting,
so the execution of its requests ends with the turn; billing stays recoverable on its own. -/
def finishTurn (threadId turnId : String) (status : TurnStatus) (error : Option String)
    (now : String) : StoreM PUnit := do
  let db ← tables
  failIf (!(db.runningTurns threadId).any fun t => t.id = turnId)
    (.storage ("turn " ++ turnId ++ " is not running in thread " ++ threadId))
  updateTurn threadId turnId fun t => { t with status, error, completedAt := some now }
  if status = .cancelled ∨ status = .failed ∨ status = .interrupted then do
    let finished ← utcNow
    updateUsage
      (fun u => u.threadId = threadId && u.record.turnId = some turnId &&
        u.record.state = .running)
      (endRequest status finished.timestampMillis)
  updateItems
    (fun i => i.threadId = threadId && i.turnId = some turnId && i.status.isOpen)
    fun i => { i with status := itemStatusOf status, updatedAt := now }
  setThreadLifecycle threadId .ready

end AxiomDesktop.Store

/-!
## Request accounting and startup recovery of the store

The writers of accounting records beside the runtime events: `recordRequestUsage` for requests
outside a turn, `reconcileRequestUsage` for the settlements a provider reports later, and
`interruptIncompleteTurns`, which ends what the previous process left running.
-/

namespace AxiomDesktop.Store

open Fallible

/-- `SessionStore::record_request_usage`. -/
def recordRequestUsage (env : Environment) (threadId : String) (usage : RequestUsage)
    (db : Database) : Except AxiomError PUnit × Database :=
  if !usage.validateCounters then (.error (.storage "invalid request accounting"), db)
  else
    transaction env (do
      ensureThread threadId
      upsertUsage { requestId := usage.requestId, threadId, record := usage }
      updateThread threadId fun t => { t with revision := t.revision + 1 }) db

/-- What a settled snapshot does to the record of its request. Recovery cannot recover a lost
receipt or upgrade verification. -/
def settle (snapshot l : RequestUsage) : RequestUsage :=
  { l with
    providerId := snapshot.providerId
    inputTokens := snapshot.inputTokens
    cachedInputTokens := snapshot.cachedInputTokens
    outputTokens := snapshot.outputTokens
    reasoningTokens := snapshot.reasoningTokens
    costMicrousd := snapshot.costMicrousd
    errorCode :=
      if snapshot.errorCode = some "CANCELLED_USAGE_WAIVED" then snapshot.errorCode
      else l.errorCode
    completeness := snapshot.completeness
    settled := snapshot.settled
    finishedAtMs := l.finishedAtMs.or snapshot.finishedAtMs }

/-- The record of a request in a thread. -/
def Database.record? (db : Database) (threadId requestId : String) : Option RequestUsage :=
  ((db.requestUsage.get? requestId).filter fun u => u.threadId = threadId).map (·.record)

/-- One round of the loop of `reconcile_request_usage`. -/
def reconcileSnapshot (threadId : String) (snapshot : RequestUsage) : StoreM PUnit := do
  failIf (!snapshot.validateCounters || snapshot.responseVerified)
    (.storage "invalid recovery record")
  let db ← tables
  match db.record? threadId snapshot.requestId with
  | none => pure ⟨⟩
  | some stored => do
    failIf
      (stored.modelId ≠ snapshot.modelId ∨
        (stored.providerId ≠ "" ∧ stored.providerId ≠ snapshot.providerId))
      (.storage "accounting recovery identity mismatch")
    if stored.settled || !snapshot.settled then pure ⟨⟩
    else
      updateUsage
        (fun u => u.requestId = stored.requestId && u.threadId = threadId)
        fun _ => settle snapshot stored

/-- `SessionStore::reconcile_request_usage`. -/
def reconcileRequestUsage (env : Environment) (threadId : String) (snapshots : List RequestUsage)
    (db : Database) : Except AxiomError PUnit × Database :=
  transaction env (do
    ensureThread threadId
    snapshots.forM (reconcileSnapshot threadId)) db

/-- A request the previous process left running. -/
def interruptRequest (r : RequestUsage) : RequestUsage :=
  { r with
    state := .failed
    responseVerified := false
    errorCode := some "CLIENT_INTERRUPTED" }

/-- A turn the previous process left running. -/
def interruptTurn (now : String) (t : TurnRecord) : TurnRecord :=
  { t with
    status := .interrupted
    completedAt := some now
    error := t.error.or (some "The previous process ended during this turn") }

/-- Whether a turn of the thread runs. -/
def Database.hasRunningTurn (db : Database) (threadId : String) : Bool :=
  db.turns.any fun t => t.threadId = threadId && t.status = .running

/-- `SessionStore::interrupt_incomplete_turns`: the requests, and where a turn runs the turns, the
open items of every interrupted turn, and the threads that had one. -/
def interruptIncompleteTurns (now : String) (db : Database) : Database :=
  let requestUsage := db.requestUsage.update (fun u => u.record.state = .running)
    (fun u => { u with record := interruptRequest u.record }) fun _ => rfl
  if !db.turns.any fun t => t.status = .running then { db with requestUsage }
  else
    let turns := db.turns.update (fun t => t.status = .running) (interruptTurn now) fun _ => rfl
    { db with
      requestUsage, turns
      timelineItems := db.timelineItems.update
        (fun i => i.status.isOpen && turns.any fun t =>
          t.threadId = i.threadId && some t.id = i.turnId && t.status = .interrupted)
        (fun i => { i with status := .interrupted, updatedAt := now }) fun _ => rfl
      threads := db.threads.update (fun t => db.hasRunningTurn t.id)
        (fun t =>
          { t with lifecycle := .ready, revision := t.revision + 1, updatedAt := now })
        fun _ => rfl }

end AxiomDesktop.Store
