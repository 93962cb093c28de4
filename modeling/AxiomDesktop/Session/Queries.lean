import Mathlib.Data.List.Sort
import AxiomDesktop.Session.Timeline

/-!
# Snapshots and metadata of a thread

`threadPage` reads one page of a thread for the client: the summary, the running turn, a page of
the accounting records by request id and a page of the timeline by sequence. All pages are taken
from one view of the thread (`Database.view?`). The other functions write the metadata of a
thread: its title, whether it is archived, and its deletion.
-/

namespace AxiomDesktop.Store

open Fallible

def MAX_TIMELINE_PAGE : Nat := 1000
def MAX_USAGE_PAGE : Nat := 100
def MAX_USAGE_PAGE_BYTES : Nat := 512 * 1024
def MAX_ITEM_PAGE_BYTES : Nat := 32 * 1024 * 1024

/-- The lengths of the JSON texts a page is bounded by. -/
structure Sizes where
  usage : RequestUsage → Nat
  item : TimelineItem → Nat

/-! ## The view of a thread -/

/-- Everything the pages of a thread are taken from. -/
structure ThreadView where
  thread : ThreadSummary
  contextUsage : Option ContextUsage
  /-- The accounting records, by request id. -/
  usage : List StoredUsage
  /-- The first turn that runs. -/
  turns : List TurnRecord
  /-- The timeline, by sequence. -/
  items : List TimelineItem
  deriving DecidableEq

namespace Database

variable (db : Database)

/-- The accounting records of a thread, `ORDER BY request_id`. -/
def usageById (threadId : String) : List StoredUsage :=
  (db.usageOf threadId).insertionSort fun a b => a.requestId ≤ b.requestId

/-- The timeline of a thread, `ORDER BY sequence`. -/
def itemsBySequence (threadId : String) : List TimelineItem :=
  (db.itemsOf threadId).insertionSort fun a b => a.sequence ≤ b.sequence

/-- `ORDER BY started_at, id`. -/
def inStartOrder (turns : List TurnRecord) : List TurnRecord :=
  turns.insertionSort fun a b => toLex (a.startedAt, a.id) ≤ toLex (b.startedAt, b.id)

/-- `query_turns`. -/
def queryTurns (threadId : String) : List TurnRecord := inStartOrder (db.turnsOf threadId)

/-- The view of a thread. -/
def view? (threadId : String) : Option ThreadView :=
  (db.threads.get? threadId).map fun t =>
    { thread := t.decode
      contextUsage := t.lastReportedUsage
      usage := db.usageById threadId
      turns := (inStartOrder (db.runningTurns threadId)).take 1
      items := db.itemsBySequence threadId }

end Database

/-! ## Pages -/

/-- `ThreadSnapshot`. -/
structure ThreadSnapshot where
  thread : ThreadSummary
  contextUsage : Option ContextUsage
  requestUsage : List RequestUsage
  turns : List TurnRecord
  items : List TimelineItem
  nextCursor : Option Nat
  nextRequestUsageCursor : Option String
  deriving DecidableEq

/-- A loop of `read_snapshot`: takes rows until one does not fit, whose predecessor is the
cursor. -/
def pageOf {α : Type} (count maxBytes : Nat) (size : α → Nat) (error : AxiomError) :
    List α → Nat → List α → Except AxiomError (List α × Option α)
  | taken, _, [] => .ok (taken, none)
  | taken, bytes, a :: rest =>
    if taken.length = count || bytes + size a > maxBytes then
      match taken.getLast? with
      | some last => .ok (taken, some last)
      | none => .error error
    else pageOf count maxBytes size error (taken ++ [a]) (bytes + size a) rest

/-- The page of a view behind two cursors. -/
def ThreadView.page (sizes : Sizes) (v : ThreadView) (afterSequence : Option Nat)
    (afterRequestId : Option String) (limit : Nat) : Except AxiomError ThreadSnapshot := do
  let (requestUsage, lastUsage) ←
    pageOf MAX_USAGE_PAGE MAX_USAGE_PAGE_BYTES sizes.usage
      (.storage "accounting record exceeds local page limit") [] 0
      (((v.usage.filter fun u => afterRequestId.getD "" < u.requestId).take
        (MAX_USAGE_PAGE + 1)).map (·.record))
  let after ← checkedI64 (afterSequence.getD 0) "timeline cursor"
  let (items, lastItem) ←
    pageOf limit MAX_ITEM_PAGE_BYTES sizes.item
      (.storage "timeline item exceeds local page limit") [] 0
      ((v.items.filter fun i => after < i.sequence).take (limit + 1))
  pure
    { thread := v.thread
      contextUsage := v.contextUsage
      requestUsage
      turns := v.turns
      items
      nextCursor := lastItem.map (·.sequence)
      nextRequestUsageCursor := lastUsage.map (·.requestId) }

/-- `SessionStore::thread_page`. -/
def threadPage (sizes : Sizes) (db : Database) (threadId : String) (afterSequence : Option Nat)
    (afterRequestId : Option String) (limit : Nat) : Except AxiomError ThreadSnapshot :=
  if limit = 0 || limit > MAX_TIMELINE_PAGE then
    .error (.storage s!"timeline page size must be between 1 and {MAX_TIMELINE_PAGE}")
  else
    match db.view? threadId with
    | none => .error (.sessionNotFound threadId)
    | some v => v.page sizes afterSequence afterRequestId limit

/-! ## Metadata -/

/-- A statement on one thread outside a transaction, and the revision it leaves. -/
def updateThreadMetadata (threadId : String) (f : StoredThread → StoredThread)
    (hf : ∀ t, (f t).id = t.id) (db : Database) : Except AxiomError ThreadRevision × Database :=
  if db.threads.any fun t => t.id = threadId then
    let db := { db with threads := db.threads.update (fun t => t.id = threadId) f hf }
    (db.threadRevision threadId, db)
  else (.error (.sessionNotFound threadId), db)

/-- `SessionStore::rename`. -/
def rename (threadId title now : String) (db : Database) :
    Except AxiomError ThreadRevision × Database :=
  match validateTitle title with
  | .error e => (.error e, db)
  | .ok title =>
    updateThreadMetadata threadId
      (fun t =>
        { t with
          title := some title
          titleGenerationId := none
          revision := t.revision + 1
          updatedAt := now })
      (fun _ => rfl) db

/-- `SessionStore::archive`. -/
def archive (threadId : String) (archived : Bool) (now : String) (db : Database) :
    Except AxiomError ThreadRevision × Database :=
  updateThreadMetadata threadId
    (fun t => { t with archived, revision := t.revision + 1, updatedAt := now }) (fun _ => rfl) db

/-- `SessionStore::set_title_if_absent`. -/
def setTitleIfAbsent (threadId title now : String) (db : Database) :
    Except AxiomError Bool × Database :=
  match validateTitle title with
  | .error e => (.error e, db)
  | .ok title =>
    let absent (t : StoredThread) : Bool := t.id = threadId && t.title.isNone
    if db.threads.any absent then
      (.ok true,
        { db with
          threads := db.threads.update absent
            (fun t => { t with title := some title, revision := t.revision + 1, updatedAt := now })
            fun _ => rfl })
    else if db.threads.any fun t => t.id = threadId then (.ok false, db)
    else (.error (.sessionNotFound threadId), db)

/-- `SessionStore::begin_title_generation`, with the identifier it draws. -/
def beginTitleGeneration (threadId fallback generation now : String) (db : Database) :
    Except AxiomError (Option String) × Database :=
  match validateTitle fallback with
  | .error e => (.error e, db)
  | .ok fallback =>
    let absent (t : StoredThread) : Bool := t.id = threadId && t.title.isNone
    (.ok (if db.threads.any absent then some generation else none),
      { db with
        threads := db.threads.update absent
          (fun t =>
            { t with
              title := some fallback
              titleGenerationId := some generation
              revision := t.revision + 1
              updatedAt := now })
          fun _ => rfl })

/-- `SessionStore::finish_title_generation`. -/
def finishTitleGeneration (threadId generation : String) (title : Option String) (now : String)
    (db : Database) : Except AxiomError Bool × Database :=
  match title.mapM validateTitle with
  | .error e => (.error e, db)
  | .ok title =>
    let pending (t : StoredThread) : Bool :=
      t.id = threadId && t.titleGenerationId = some generation
    (.ok (db.threads.any pending),
      { db with
        threads := db.threads.update pending
          (fun t =>
            { t with
              title := title.or t.title
              titleGenerationId := none
              revision := t.revision + 1
              updatedAt := now })
          fun _ => rfl })

/-- `DELETE FROM threads WHERE id=?1`, with the rows that reference the thread. -/
def deleteThread (threadId : String) (db : Database) : Database :=
  { db with
    threads := db.threads.delete fun t => t.id = threadId
    turns := db.turns.delete fun t => t.threadId = threadId
    timelineItems := db.timelineItems.delete fun i => i.threadId = threadId
    promptAttachments := db.promptAttachments.delete fun a =>
      db.timelineItems.any fun i => i.threadId = threadId && i.id = a.userItemId
    requestUsage := db.requestUsage.delete fun u => u.threadId = threadId
    threadCollections := db.threadCollections.delete fun c => c.threadId = threadId }

/-- `SessionStore::delete_sessions`: the number of deleted threads. -/
def deleteSessions : List String → Database → Nat × Database
  | [], db => (0, db)
  | threadId :: rest, db =>
    let (deleted, db') := deleteSessions rest (deleteThread threadId db)
    (deleted + if db.threads.any fun t => t.id = threadId then 1 else 0, db')

end AxiomDesktop.Store
