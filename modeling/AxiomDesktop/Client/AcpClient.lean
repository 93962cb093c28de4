import AxiomDesktop.Client.StateStore

/-!
# The client's requests and repairs

`AxiomAcpClient`, as far as it keeps the store in step with the agent: what it does with
notifications, the requests it has under way, the refreshes of threads, and the full resync that
follows a gap of the event sequence. The client runs one callback at a time; a `ClientStep` is one,
and a run is any order of them (`AxiomAcpClient.machine`).

A promise is the number of the call that settles it. What a gap leaves to repair is not kept by the
client; `GapLog` counts it.
-/

/-!
## Fetching a timeline

The loop of `AxiomAcpClient.fetchTimeline`, one answer at a time: what the loop holds while a page
is asked for (`TimelineFetch`), and what it does with the page (`TimelineFetch.onPage`).
-/

namespace AxiomDesktop.Client

def TIMELINE_PAGE_SIZE : Nat := 250
def TIMELINE_RESTART_LIMIT : Nat := 3

/-- The variables of `fetchTimeline` while it waits for a page. -/
structure TimelineFetch where
  threadId : String
  accountContext : Nat
  attempt : Nat := 0
  pages : List GetThreadTimelineResponse := []
  cursor : Option Nat := none
  usageCursor : Option String := none
  deriving DecidableEq, Repr

/-- What the loop does next. -/
inductive FetchOutcome where
  /-- It asks for the next page, or for the first one of the next attempt. -/
  | request (fetch : TimelineFetch)
  /-- It has all pages. -/
  | complete (pages : List GetThreadTimelineResponse)
  | failed (message : String)
  deriving DecidableEq, Repr

namespace TimelineFetch

variable (fetch : TimelineFetch)

/-- The request the loop waits for. -/
def request : GetThreadTimelineRequest :=
  { threadId := fetch.threadId, afterSequence := fetch.cursor, afterRequestId := fetch.usageCursor,
    limit := some TIMELINE_PAGE_SIZE }

/-- `continue` of the outer loop. -/
def restart : FetchOutcome :=
  if fetch.attempt + 1 < TIMELINE_RESTART_LIMIT then
    .request
      { threadId := fetch.threadId, accountContext := fetch.accountContext,
        attempt := fetch.attempt + 1 }
  else .failed "thread changed repeatedly while its timeline was being synchronized"

/-- A page that does not belong to the first one. -/
def disagrees (page : GetThreadTimelineResponse) : Bool :=
  fetch.pages.head?.any fun first =>
    page.thread.threadId ≠ first.thread.threadId || page.thread.revision ≠ first.thread.revision ||
      page.thread.lastTimelineSequence ≠ first.thread.lastTimelineSequence

/-- The cursors of a page lead on, and name its last row and its last record. -/
def progresses (page : GetThreadTimelineResponse) : Bool :=
  page.thread.threadId = fetch.threadId &&
    (page.nextCursor.all fun next =>
      fetch.cursor.getD 0 < next && page.items.getLast?.map (·.sequence) = some next) &&
    page.nextRequestUsageCursor.all fun next =>
      Text.jsLess (fetch.usageCursor.getD "") next &&
        page.requestUsage.getLast?.map (·.requestId) = some next

/-- The loop takes a page. -/
def onPage (page : GetThreadTimelineResponse) : FetchOutcome :=
  if fetch.disagrees page then fetch.restart
  else if fetch.progresses page = false then
    .failed "AxiomCLI returned a non-progressing timeline cursor"
  else
    let pages := fetch.pages ++ [page]
    if page.nextCursor.isSome || page.nextRequestUsageCursor.isSome then
      .request
        { fetch with
          pages
          cursor := some (page.nextCursor.getD page.thread.lastTimelineSequence)
          usageCursor := (page.nextRequestUsageCursor.or
            (page.requestUsage.getLast?.map (·.requestId))).or fetch.usageCursor }
    else .complete pages

end TimelineFetch

end AxiomDesktop.Client

namespace AxiomDesktop.Client

/-- A call under way, with what it holds while it waits for an answer. -/
inductive ClientCall where
  | listThreads (accountContext : Nat) (request : ListThreadsRequest) (cursor : Option String)
      (threads : List ThreadSummary) (pageIndex : Nat)
  | listCollections (accountContext : Nat)
  | getProfilePreferences (accountContext : Nat)
  | fetchTimeline (fetch : TimelineFetch)
  deriving DecidableEq, Repr

/-- What a full resync asks for. -/
inductive ListKind where
  | threads
  | collections
  | preferences
  deriving DecidableEq, Repr

/-- What the answer to a call brings whole. -/
def ClientCall.kind? : ClientCall → Option ListKind
  | listThreads _ request _ _ _ => if request = {} then some .threads else none
  | listCollections _ => some .collections
  | getProfilePreferences _ => some .preferences
  | fetchTimeline _ => none

/-- A call and the number of gaps reported when it sent the first of its requests; for a timeline,
of those whose pages it still holds. -/
structure PendingCall where
  call : ClientCall
  since : Nat
  deriving DecidableEq, Repr

/-- Where `resyncAll` is. -/
inductive FullResync where
  | lists (threads collections preferences : Nat)
  | refreshes (calls : List Nat)
  /-- The promise is settled, and `finally` still to come. -/
  | settled
  deriving DecidableEq, Repr

/-- What the gaps reported so far leave to repair. -/
structure GapLog where
  gaps : Nat := 0
  /-- The gaps reported before the first request behind the newest answer was sent. -/
  answered : ListKind → Nat := fun _ => 0
  /-- The session was loaded at the last gap and has not been replaced from pages requested
  since. -/
  stale : String → Bool := fun _ => false

/-- A call under way is answered in whole. -/
def GapLog.answer (log : GapLog) (call : ClientCall) (since : Nat) : GapLog :=
  match call.kind? with
  | none => log
  | some kind =>
    { log with answered := Function.update log.answered kind (max (log.answered kind) since) }

structure AxiomAcpClient where
  store : AxiomStateStore := {}
  fullResyncRequired : Bool := false
  fullResync : Option FullResync := none
  /-- The refresh under way in an account context, of a thread. -/
  refreshingThreads : Nat × String → Option Nat := fun _ => none
  calls : Nat → Option PendingCall := fun _ => none
  /-- The calls whose promise was rejected. -/
  rejected : List Nat := []
  nextCall : Nat := 0
  log : GapLog := {}

/-- The store operations by which the answers to other requests are applied. -/
def StoreOp.isAnswer : StoreOp → Bool
  | .replaceTimeline _ | .standardUpdate _ _ | .extensionEvent _ => false
  | _ => true

/-- One callback of the client. -/
inductive ClientStep where
  | extensionEvent (notification : EventNotification)
  | sessionUpdate (random : Nat → String) (params : Json)
  | listThreads (request : ListThreadsRequest)
  | listCollections
  | getProfilePreferences
  | refreshThread (threadId : String)
  | threadsPage (call : Nat) (page : ListThreadsResponse)
  | collections (call : Nat) (state : CollectionState)
  | preferences (call : Nat) (preferences : Json)
  | timelinePage (call : Nat) (page : GetThreadTimelineResponse)
  | requestFailed (call : Nat)
  /-- The `finally` of a refresh. -/
  | refreshSettled (key : Nat × String)
  /-- `resyncAll` goes on behind its `Promise.all`; the sessions in the order of the store. -/
  | resyncContinues (sessions : List String)
  /-- The `finally` of `resyncAll`. -/
  | resyncSettled
  /-- The answer to another request is applied. -/
  | answer (op : StoreOp)

namespace AxiomAcpClient

variable (c : AxiomAcpClient)

def accountContextToken : Nat := c.store.accountContextGeneration

/-! ## Calls -/

/-- A new call sends its first request. -/
def send (call : ClientCall) : AxiomAcpClient :=
  { c with
    calls := Function.update c.calls c.nextCall (some ⟨call, c.log.gaps⟩)
    nextCall := c.nextCall + 1 }

/-- A call sends its next request. -/
def resend (id : Nat) (call : ClientCall) (since : Nat) : AxiomAcpClient :=
  { c with calls := Function.update c.calls id (some ⟨call, since⟩) }

/-- The promise of a call is fulfilled. -/
def fulfil (id : Nat) : AxiomAcpClient := { c with calls := Function.update c.calls id none }

/-- The promise of a call is rejected. -/
def reject (id : Nat) : AxiomAcpClient := { c.fulfil id with rejected := id :: c.rejected }

def isFulfilled (id : Nat) : Bool := (c.calls id).isNone && !c.rejected.contains id

/-- `listThreads`. -/
def listThreads (request : ListThreadsRequest) : AxiomAcpClient :=
  c.send (.listThreads c.accountContextToken request request.cursor [] 0)

/-- `listCollections`. -/
def listCollections : AxiomAcpClient := c.send (.listCollections c.accountContextToken)

/-- `getProfilePreferences`. -/
def getProfilePreferences : AxiomAcpClient := c.send (.getProfilePreferences c.accountContextToken)

/-- `refreshThread`, with the call its promise belongs to: a refresh under way is shared. -/
def refreshThread (threadId : String) : AxiomAcpClient × Nat :=
  match c.refreshingThreads (c.accountContextToken, threadId) with
  | some call => (c, call)
  | none =>
    ({ c.send (.fetchTimeline { threadId, accountContext := c.accountContextToken }) with
        refreshingThreads := Function.update c.refreshingThreads (c.accountContextToken, threadId)
          (some c.nextCall) },
      c.nextCall)

/-- `resyncAll` up to its first `Promise.all`; a resync under way is shared. -/
def resyncAll : AxiomAcpClient :=
  match c.fullResync with
  | some _ => c
  | none =>
    { ((c.listThreads {}).listCollections).getProfilePreferences with
      fullResync := some (.lists c.nextCall (c.nextCall + 1) (c.nextCall + 2)) }

/-- `resetClientAccountContext`. -/
def resetClientAccountContext : AxiomAcpClient :=
  { c with refreshingThreads := fun _ => none, fullResync := none, fullResyncRequired := false }

/-! ## Notifications -/

/-- A gap is reported: every session that is loaded is stale. -/
def reportGap (loaded : String → Option ClientSessionState) : AxiomAcpClient :=
  { c with
    fullResyncRequired := true
    log := { c.log with gaps := c.log.gaps + 1, stale := fun id => (loaded id).isSome } }

/-- `onNotification` behind the store: a gap is remembered, unless the account changed with it. -/
def takeEvent (store : AxiomStateStore) (result : Option AxiomStateStore.ExtensionEventResult) :
    AxiomAcpClient :=
  let d : AxiomAcpClient := { c with store }
  if store.accountContextGeneration ≠ c.accountContextToken then d.resetClientAccountContext
  else if result.any (·.fullResync) then d.reportGap c.store.sessions
  else d

/-- `onNotification` of an extension event. -/
def onEvent (env : Environment) (notification : EventNotification) : AxiomAcpClient :=
  match c.store.extensionEvent env notification with
  | (store, .error _) => { c with store }
  | (store, .ok result) =>
    let d := c.takeEvent store result
    if d.fullResyncRequired then d.resyncAll
    else
      match result.bind (·.threadId) with
      | some threadId => (d.refreshThread threadId).1
      | none => d

/-- What `standardUpdate` returns: the thread of the update, if it asks for a resync. -/
def updatedThread (random : Nat → String) (params : Json) : Option String :=
  if c.store.accountBlocked then none
  else
    match params.string? "sessionId", params.object? "update" with
    | some sessionId, some update =>
      let behind := (AxiomStateStore.deliveryMetadata params update).any
        (·.threadRevision < (c.store.session sessionId "").threadRevision)
      if !behind && sessionId ≠ "" &&
          ((c.store.standardUpdate random params).sessions sessionId).any (·.needsResync) then
        some sessionId
      else none
    | _, _ => none

/-- `onNotification` of a standard update. -/
def onUpdate (random : Nat → String) (params : Json) : AxiomAcpClient :=
  let d : AxiomAcpClient := { c with store := c.store.standardUpdate random params }
  match c.updatedThread random params with
  | some threadId => (d.refreshThread threadId).1
  | none => d

/-! ## Answers -/

/-- The promise of a call is fulfilled with the answer in the store. -/
def complete (id : Nat) (call : ClientCall) (since : Nat) (store : AxiomStateStore) :
    AxiomAcpClient :=
  { c.fulfil id with store, log := c.log.answer call since }

/-- `listThreads` takes a page. -/
def onThreads (id : Nat) (page : ListThreadsResponse) : AxiomAcpClient :=
  match c.calls id with
  | some ⟨.listThreads context request cursor threads pageIndex, since⟩ =>
    if context ≠ c.accountContextToken then c.reject id
    else
      match page.nextCursor with
      | some next =>
        if pageIndex + 1 < 10000 then
          c.resend id (.listThreads context request (some next) (threads ++ page.threads)
            (pageIndex + 1)) since
        else c.reject id
      | none =>
        c.complete id (.listThreads context request cursor threads pageIndex) since
          (c.store.setCatalog (threads ++ page.threads))
  | _ => c

/-- `listCollections` takes its answer. -/
def onCollections (id : Nat) (state : CollectionState) : AxiomAcpClient :=
  match c.calls id with
  | some ⟨.listCollections context, since⟩ =>
    if context ≠ c.accountContextToken then c.reject id
    else c.complete id (.listCollections context) since (c.store.setCollections state)
  | _ => c

/-- `getProfilePreferences` takes its answer. -/
def onPreferences (id : Nat) (preferences : Json) : AxiomAcpClient :=
  match c.calls id with
  | some ⟨.getProfilePreferences context, since⟩ =>
    if context ≠ c.accountContextToken then c.reject id
    else
      c.complete id (.getProfilePreferences context) since
        { c.store with preferences := some preferences }
  | _ => c

/-- `fetchTimeline` goes on to another request; one without pages starts over. -/
def refetch (id : Nat) (outcome : FetchOutcome) (since : Nat) : AxiomAcpClient :=
  match outcome with
  | .request fetch =>
    c.resend id (.fetchTimeline fetch) (if fetch.pages = [] then c.log.gaps else since)
  | _ => c.reject id

/-- The timeline of a thread was replaced. -/
def replaced (threadId : String) (since : Nat) : AxiomAcpClient :=
  if since = c.log.gaps then
    { c with log := { c.log with stale := Function.update c.log.stale threadId false } }
  else c

/-- `fetchTimeline` takes a page. -/
def onTimeline (env : Environment) (id : Nat) (page : GetThreadTimelineResponse) :
    AxiomAcpClient :=
  match c.calls id with
  | some ⟨.fetchTimeline fetch, since⟩ =>
    if fetch.accountContext ≠ c.accountContextToken then c.reject id
    else
      match fetch.onPage page with
      | .complete pages =>
        match c.store.replaceTimeline env pages with
        | .error _ => c.reject id
        | .ok (store, false) => { c with store }.refetch id fetch.restart since
        | .ok (store, true) => ({ c with store }.fulfil id).replaced fetch.threadId since
      | outcome => c.refetch id outcome since
  | _ => c

/-- The answer to another request is applied. A session it removes is not stale any more. -/
def onAnswer (env : Environment) (op : StoreOp) : AxiomAcpClient :=
  if op.isAnswer = false then c
  else
    let store := c.store.apply env op
    let d : AxiomAcpClient :=
      { c with
        store
        log := { c.log with stale := fun id => c.log.stale id && (store.sessions id).isSome } }
    if store.accountContextGeneration ≠ c.accountContextToken then d.resetClientAccountContext
    else d

/-! ## The full resync -/

/-- `refreshThread` of several threads. -/
def refreshThreads : List String → AxiomAcpClient → AxiomAcpClient × List Nat
  | [], c => (c, [])
  | threadId :: threadIds, c =>
    let (d, call) := c.refreshThread threadId
    let (e, calls) := refreshThreads threadIds d
    (e, call :: calls)

/-- `resyncAll` behind a `Promise.all`, which is rejected with the first of its promises. -/
def resyncContinues (sessions : List String) : AxiomAcpClient :=
  match c.fullResync with
  | some (.lists threads collections preferences) =>
    if [threads, collections, preferences].any c.rejected.contains then
      { c with fullResync := some .settled }
    else if [threads, collections, preferences].all c.isFulfilled then
      let staleThreads := sessions.filter fun id => (c.store.sessions id).any (·.needsResync)
      let (d, calls) := refreshThreads staleThreads c
      { d with fullResync := some (.refreshes calls) }
    else c
  | some (.refreshes calls) =>
    if calls.any c.rejected.contains then { c with fullResync := some .settled }
    else if calls.all c.isFulfilled then
      { c with fullResyncRequired := false, fullResync := some .settled }
    else c
  | _ => c

/-- The client after one callback. -/
def step (env : Environment) : ClientStep → AxiomAcpClient
  | .extensionEvent notification => c.onEvent env notification
  | .sessionUpdate random params => c.onUpdate random params
  | .listThreads request => c.listThreads request
  | .listCollections => c.listCollections
  | .getProfilePreferences => c.getProfilePreferences
  | .refreshThread threadId => (c.refreshThread threadId).1
  | .threadsPage call page => c.onThreads call page
  | .collections call state => c.onCollections call state
  | .preferences call preferences => c.onPreferences call preferences
  | .timelinePage call page => c.onTimeline env call page
  | .requestFailed call => if (c.calls call).isSome then c.reject call else c
  | .refreshSettled key =>
    if (c.refreshingThreads key).any fun call => (c.calls call).isNone then
      { c with refreshingThreads := Function.update c.refreshingThreads key none }
    else c
  | .resyncContinues sessions => c.resyncContinues sessions
  | .resyncSettled => if c.fullResync = some .settled then { c with fullResync := none } else c
  | .answer op => c.onAnswer env op

/-- The orders of callbacks. -/
def machine (env : Environment) : Machine AxiomAcpClient ClientStep Empty where
  step c step := (c.step env step, [])

end AxiomAcpClient

end AxiomDesktop.Client
