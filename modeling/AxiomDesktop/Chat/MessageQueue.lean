import Mathlib.Data.Finset.Basic
import AxiomDesktop.Inference.Attachments
import AxiomDesktop.Lib.Machine

/-!
# The message queue

`MessageQueue` keeps the messages that wait to be sent, on the device, for one account and runtime.
A message is sent by `dispatch`, which waits for the API three times, and the reply of a running
thread is stopped for a message by `interrupt`, which waits twice. What waits is a task of the queue
(`pending`), and an input of the machine is a call of one of the methods or the answer to one of
these waits, so that a run is any order of calls and answers.

A method runs from one wait to the next without a break. There is one call back: where a message is
found undeliverable before its first wait, `dispatch` ends inside of `pump` and pumps again. The
depth of these calls is a parameter of the host.

Outside of the queue are the host (`QueueHost`), the view of the client (`ClientState`) and whatever
sets a reserved message up until it is `ready`; `preparations` lists the setups under way.
-/

namespace AxiomDesktop

/-! ## The messages and what the queue reads -/

inductive QueueStatus where
  | queued
  | sending
  | stopping
  deriving DecidableEq, Repr

structure QueuedMessage where
  id : String
  threadId : String
  text : String
  attachments : List PromptAttachment
  payloadId : Option String
  webEnabled : Bool
  agentRevision : Nat
  mcpRevision : Option Nat
  status : QueueStatus
  preparing : Bool
  error : Option String
  deriving DecidableEq, Repr

/-- A message as it is read back from the storage. -/
structure SavedMessage where
  id : String
  threadId : String
  text : String
  attachments : List PromptAttachment := []
  payloadId : Option String := none
  webEnabled : Bool
  agentRevision : Option Nat := none
  mcpRevision : Option Nat := none
  preparing : Bool := false
  /-- The fields are of the types that the check asks for. -/
  typed : Bool := true
  deriving DecidableEq, Repr

/-- There is a payload beside the message. -/
def SavedMessage.hasPayload (value : SavedMessage) : Bool := value.payloadId.getD "" ≠ ""

/-- A message as it is written. The text of one with a payload is not, nor are its attachments. -/
def QueuedMessage.saved (item : QueuedMessage) : SavedMessage where
  id := item.id
  threadId := item.threadId
  text := if item.payloadId.getD "" = "" then item.text else ""
  attachments := if item.payloadId.getD "" = "" then item.attachments else []
  payloadId := item.payloadId
  webEnabled := item.webEnabled
  agentRevision := some item.agentRevision
  mcpRevision := item.mcpRevision
  preparing := item.preparing

structure PromptPayload where
  text : String
  attachments : List PromptAttachment

namespace MessageQueue

structure TimelineRow where
  kind : String
  clientItemId : Option String

/-- A session in the client's view. -/
structure Session where
  running : Bool
  timeline : List TimelineRow
  /-- `desktopAgent?.revision`. -/
  agentRevision : Option Nat

structure AccountStatus where
  state : String
  /-- `account?.id`. -/
  account : Option String

/-- The client's view, as far as the queue reads it. -/
structure ClientState where
  connected : Bool
  runtimeInstanceId : Option String
  account : Option AccountStatus
  sessions : String → Option Session
  /-- `mcp?.revision`. -/
  mcpRevision : Option Nat

/-- The account that the queue works for. -/
def ClientState.owner (state : ClientState) : Option String :=
  match state.account with
  | some status => if state.connected ∧ status.state = "valid" then status.account else none
  | none => none

/-- The optional methods that an API has. -/
structure QueueApi where
  persistQueue : Bool
  promptWithAttachments : Bool
  deriving DecidableEq, Repr

def MAX_MESSAGES : Nat := 32
def MAX_QUEUE_BYTES : Nat := 64 * 1024 * 1024

/-- A reply that is being stopped, or was, for a message or for none. -/
structure Interruption where
  threadId : String
  /-- Which of the objects made for the thread this is. -/
  token : Nat
  id : Option String
  ready : Bool
  deriving DecidableEq, Repr

/-! ## What the queue waits for -/

inductive DispatchStage where
  /-- `persistQueue`. -/
  | persisting
  /-- `promptWithWebConsent` or `promptWithAttachments`. -/
  | prompting
  /-- `getState`, after the prompt ended. -/
  | reading (stopReason : String)
  deriving DecidableEq, Repr

inductive InterruptStage where
  | cancelling
  | reading
  deriving DecidableEq, Repr

inductive RestoreStage where
  /-- The payload of a message, with the messages after it. -/
  | payload (value : SavedMessage) (rest : List (Option SavedMessage))
  | failed
  | finishing
  deriving DecidableEq, Repr

/-- What is left of an asynchronous method, with what it holds on to. -/
inductive Task where
  | dispatch (generation : Nat) (item : QueuedMessage) (api : QueueApi) (stage : DispatchStage)
  | interrupt (generation : Nat) (threadId : String) (token : Nat) (api : QueueApi)
      (stage : InterruptStage)
  | restoring (generation : Nat) (stage : RestoreStage)
  deriving DecidableEq, Repr

/-- The outcome of a wait. -/
inductive Answer where
  | done
  | prompted (stopReason : String)
  | state (state : ClientState)
  | payload (payload : Option PromptPayload)
  /-- The call was rejected, with the message where it was rejected with an error. -/
  | failed (message : Option String)

end MessageQueue

open MessageQueue

/-- What the queue rests on. -/
structure QueueHost where
  validatePrompt : String → List PromptAttachment → Except String Unit
  promptBytes : String → List PromptAttachment → Nat
  /-- What the storage answers to the `n`-th write. -/
  setItem : Nat → Except String Unit
  /-- How deep `pump` calls itself. -/
  depth : Nat

structure MessageQueue where
  loading : Bool := false
  account : Option String := none
  runtime : Option String := none
  generation : Nat := 0
  state : Option ClientState := none
  api : Option QueueApi := none
  items : List QueuedMessage := []
  paused : Finset String := ∅
  freshSends : Finset String := ∅
  operations : List (String × String) := []
  interruptions : List Interruption := []
  pending : List Task := []
  preparations : List String := []
  /-- What the storage holds for an account, or `none` where it is no JSON array. -/
  storage : String → Option (List (Option SavedMessage)) := fun _ => some []
  /-- The calls of `reportError`. -/
  reports : List String := []
  writes : Nat := 0
  tokens : Nat := 0

namespace MessageQueue

variable (h : QueueHost)

/-! ## Small steps -/

/-- `this.items.find`, by an id. -/
def find (id : String) (q : MessageQueue) : Option QueuedMessage :=
  q.items.find? fun item => item.id = id

/-- A write through the reference to an item. -/
def update (id : String) (f : QueuedMessage → QueuedMessage) (q : MessageQueue) : MessageQueue :=
  { q with items := q.items.map fun item => if item.id = id then f item else item }

/-- The item waits for the user, with what went wrong. -/
def requeue (id error : String) : MessageQueue → MessageQueue :=
  update id fun item => { item with status := .queued, error := some error }

def hold (threadId : String) (q : MessageQueue) : MessageQueue :=
  { q with paused := insert threadId q.paused }

def holdIf (c : Bool) (threadId : String) (q : MessageQueue) : MessageQueue :=
  if c then q.hold threadId else q

/-- `this.state?.sessions[threadId]`. -/
def session (threadId : String) (q : MessageQueue) : Option Session :=
  q.state.bind fun state => state.sessions threadId

/-- `hasOperation`. -/
def hasOperation (threadId : String) (q : MessageQueue) : Bool :=
  q.operations.any fun operation => operation.2 = threadId

/-- `isStopping`. -/
def isStopping (threadId : String) (q : MessageQueue) : Bool :=
  q.interruptions.any fun interruption => interruption.threadId = threadId

/-- `this.interruptions.get`. -/
def interruption (threadId : String) (q : MessageQueue) : Option Interruption :=
  q.interruptions.find? fun interruption => interruption.threadId = threadId

/-- `this.interruptions.delete`. -/
def uninterrupt (threadId : String) (q : MessageQueue) : MessageQueue :=
  { q with interruptions := q.interruptions.filter fun i => i.threadId ≠ threadId }

/-- A write through the reference to an interruption. -/
def updateInterruption (threadId : String) (f : Interruption → Interruption) (q : MessageQueue) :
    MessageQueue :=
  { q with interruptions := q.interruptions.map fun i => if i.threadId = threadId then f i else i }

/-- The rest of a method waits. -/
def await (task : Task) (q : MessageQueue) : MessageQueue :=
  { q with pending := q.pending ++ [task] }

/-- `persist`. -/
def persist (q : MessageQueue) : Except String Unit × MessageQueue :=
  match q.account with
  | none => (.error "The message queue could not be saved. No new message was sent.", q)
  | some account =>
    match h.setItem q.writes with
    | .error message => (.error message, { q with writes := q.writes + 1 })
    | .ok _ =>
      (.ok (), { q with
        writes := q.writes + 1
        storage := Function.update q.storage account
          (some (q.items.map fun item => some item.saved)) })

def report (message : String) (q : MessageQueue) : MessageQueue :=
  { q with reports := q.reports ++ [message] }

/-- `save`. -/
def save (q : MessageQueue) : Bool × MessageQueue :=
  match persist h q with
  | (.ok _, q) => (true, q)
  | (.error _, q) =>
    (false, q.report ("The message queue could not be saved. Sending is paused; " ++
      "please keep Axiom open and try again."))

/-! ## Sending -/

/-- `checkAgentRevision`. -/
def checkAgentRevision (item : QueuedMessage) (q : MessageQueue) : Bool × MessageQueue :=
  let revision := ((q.session item.threadId).bind (·.agentRevision)).getD 0
  if item.agentRevision ≠ revision then
    let error := "Agent settings changed. Remove this queued message and send it again with " ++
      "the settings you want."
    (false, (save h ((q.requeue item.id error).hold item.threadId)).2)
  else if item.mcpRevision ≠ q.state.bind (·.mcpRevision) then
    let error := "MCP settings changed. Remove this queued message and send it again with " ++
      "the tools you want."
    (false, (save h ((q.requeue item.id error).hold item.threadId)).2)
  else (true, q)

/-- The last entry of the thread is an error. -/
def endsInError (threadId : String) (q : MessageQueue) : Bool :=
  match (q.session threadId).bind (·.timeline.getLast?) with
  | some row => row.kind = "error"
  | none => false

/-- The end of `dispatch`, whatever became of it. -/
def settle (repump : MessageQueue → MessageQueue) (item : QueuedMessage) (q : MessageQueue) :
    MessageQueue :=
  let q := { q with operations := q.operations.filter fun operation => operation.1 ≠ item.id }
  let q := q.holdIf (q.endsInError item.threadId) item.threadId
  let (saved, q) := save h q
  repump (q.holdIf (!saved) item.threadId)

/-- `dispatch`, where something was thrown. -/
def undelivered (repump : MessageQueue → MessageQueue) (item : QueuedMessage)
    (message : Option String) (q : MessageQueue) : MessageQueue :=
  let q := q.requeue item.id ((message.map (· ++ " ")).getD "" ++
    "Not confirmed. Your message is still queued; check the thread before retrying.")
  settle h repump item (q.hold item.threadId)

/-- `dispatch`, up to the prompt. -/
def submit (repump : MessageQueue → MessageQueue) (item : QueuedMessage) (api : QueueApi)
    (q : MessageQueue) : MessageQueue :=
  if item.attachments ≠ [] ∧ !api.promptWithAttachments then
    undelivered h repump item (some "Restart Axiom to enable attachments.") q
  else q.await (.dispatch q.generation item api .prompting)

/-- `dispatch`, up to its first wait. -/
def dispatch (repump : MessageQueue → MessageQueue) (item : QueuedMessage) (q : MessageQueue) :
    MessageQueue :=
  match q.api with
  | none => q
  | some api =>
    if q.account = none then q
    else
      match checkAgentRevision h item q with
      | (false, q) => q
      | (true, q) =>
        let q := { q with freshSends := q.freshSends.erase item.id }
        match save h (q.update item.id fun i => { i with status := .sending, error := none }) with
        | (false, q) =>
          (q.update item.id fun i => { i with status := .queued }).hold item.threadId
        | (true, q) =>
          let operations := q.operations.filter fun operation => operation.1 ≠ item.id
          let q := { q with operations := operations ++ [(item.id, item.threadId)] }
          if api.persistQueue then q.await (.dispatch q.generation item api .persisting)
          else submit h repump item api q

/-- `pump`, for one interruption. -/
def release (repump : MessageQueue → MessageQueue) (q : MessageQueue) (threadId : String) :
    MessageQueue :=
  match q.interruption threadId, q.session threadId with
  | some interruption, some session =>
    if !interruption.ready || session.running || q.hasOperation threadId then q
    else
      let q := q.uninterrupt threadId
      match interruption.id.bind q.find with
      | some item => dispatch h repump item q
      | none => q
  | _, _ => q

/-- `pump`, for one item. The threads that were seen are kept beside the queue. -/
def offer (repump : MessageQueue → MessageQueue) :
    Finset String × MessageQueue → String → Finset String × MessageQueue
  | (seen, q), id =>
    match q.find id with
    | none => (seen, q)
    | some item =>
      if item.preparing || q.isStopping item.threadId then (seen, q)
      else if item.threadId ∈ q.paused ∧ item.id ∉ q.freshSends then (seen, q)
      else if item.threadId ∈ seen then (seen, q)
      else
        match q.session item.threadId with
        | none => (insert item.threadId seen, q)
        | some session =>
          if item.status = .queued ∧ !session.running ∧ !q.hasOperation item.threadId then
            (insert item.threadId seen, dispatch h repump item q)
          else (insert item.threadId seen, q)

/-- The client is connected, and the saved messages are there. -/
def canPump (q : MessageQueue) : Bool :=
  q.account.isSome && q.api.isSome && (q.state.any (·.connected)) && !q.loading

/-- `pump`. -/
def pump : Nat → MessageQueue → MessageQueue
  | 0, q => q
  | depth + 1, q =>
    if !q.canPump then q
    else
      let q := (q.interruptions.map (·.threadId)).foldl (release h (pump depth)) q
      ((q.items.map (·.id)).foldl (offer h (pump depth)) (∅, q)).2

/-! ## Following the client -/

/-- `restore`, in `sync`: whether the message was taken. -/
def restore (value : Option SavedMessage) (q : MessageQueue) : Bool × MessageQueue :=
  match value with
  | none => (false, q)
  | some value =>
    if !value.typed ∨ value.id = "" ∨ 128 < Text.utf16Length value.id ∨ value.threadId = "" ∨
        128 < Text.utf16Length value.threadId ∨ (q.find value.id).isSome ∨
        2 ^ 53 ≤ value.agentRevision.getD 0 ∨ 2 ^ 53 ≤ value.mcpRevision.getD 0 then (false, q)
    else
      match h.validatePrompt value.text value.attachments with
      | .error _ => (false, q)
      | .ok _ =>
        let size := (q.items.map fun item => h.promptBytes item.text item.attachments).sum
        if MAX_QUEUE_BYTES < size + h.promptBytes value.text value.attachments then (false, q)
        else
          let item : QueuedMessage :=
            { id := value.id, threadId := value.threadId, text := value.text
              attachments := value.attachments, payloadId := value.payloadId
              webEnabled := value.webEnabled, agentRevision := value.agentRevision.getD 0
              mcpRevision := value.mcpRevision, status := .queued, preparing := value.preparing
              error := some "Restored after reconnect. Review and send when ready." }
          (true, { q with items := q.items ++ [item] }.hold value.threadId)

/-- The saved messages, where no payload is to be read. -/
def restoreAll : List (Option SavedMessage) → MessageQueue → Bool × MessageQueue
  | [], q => (true, q)
  | value :: rest, q =>
    match restore h value q with
    | (true, q) => restoreAll rest q
    | (false, q) => (false, q)

/-- The saved messages, up to the next payload. -/
def restoreNext : List (Option SavedMessage) → MessageQueue → MessageQueue
  | [], q => q.await (.restoring q.generation .finishing)
  | none :: _, q => q.await (.restoring q.generation .failed)
  | some value :: rest, q =>
    if value.hasPayload then
      if value.payloadId ≠ some value.id then q.await (.restoring q.generation .failed)
      else q.await (.restoring q.generation (.payload value rest))
    else
      match restore h (some value) q with
      | (true, q) => restoreNext rest q
      | (false, q) => q.await (.restoring q.generation .failed)

def unreadable (q : MessageQueue) : MessageQueue :=
  { q with items := [] }.report "The saved message queue could not be read. Nothing was sent."

/-- A generation begins: the queue of an account and a runtime. -/
def begin (account runtime : Option String) (q : MessageQueue) : MessageQueue :=
  let q := { q with
    generation := q.generation + 1
    account, runtime
    operations := [], interruptions := [], items := [], paused := ∅, freshSends := ∅ }
  match account with
  | none => q
  | some account =>
    match q.storage account with
    | none => q.unreadable
    | some saved =>
      if MAX_MESSAGES < saved.length then q.unreadable
      else if saved.any (·.any (·.hasPayload)) then restoreNext h saved { q with loading := true }
      else
        match restoreAll h saved { q with loading := false } with
        | (true, q) => q
        | (false, q) => q.unreadable

/-- The thread shows the message as one that was sent. -/
def acknowledged (state : ClientState) (item : QueuedMessage) : Bool :=
  match state.sessions item.threadId with
  | some session =>
    session.timeline.any fun row => row.kind = "user" ∧ row.clientItemId = some item.id
  | none => false

/-- The messages that were sent leave the queue. -/
def acknowledge (state : ClientState) (q : MessageQueue) : MessageQueue :=
  let remaining := q.items.filter fun item => !acknowledged state item
  if remaining.length ≠ q.items.length then (save h { q with items := remaining }).2 else q

/-- `sync`. -/
def sync (state : ClientState) (api : Option QueueApi) (q : MessageQueue) : MessageQueue :=
  let account := state.owner
  let runtime := if account = none then none else state.runtimeInstanceId
  let q := { q with state := some state, api }
  let q := if account ≠ q.account ∨ runtime ≠ q.runtime then begin h account runtime q else q
  if account = none ∨ api = none ∨ q.loading then q
  else pump h h.depth (acknowledge h state q)

/-- `dispose`. -/
def dispose (q : MessageQueue) : MessageQueue :=
  { q with
    generation := q.generation + 1
    account := none, runtime := none, api := none, state := none
    operations := [], interruptions := []
    items := [], paused := ∅, freshSends := ∅, loading := false }

/-! ## The calls of the user -/

/-- `pause`. -/
def pause (threadId : String) (q : MessageQueue) : MessageQueue :=
  let q := { q with
    freshSends := q.freshSends.filter fun id =>
      ¬q.items.any fun item => item.threadId = threadId ∧ item.id = id }
  let q :=
    match q.interruption threadId with
    | some interruption =>
      let q :=
        match interruption.id with
        | some id => q.update id fun item => { item with status := .queued }
        | none => q
      (save h (q.updateInterruption threadId fun i => { i with id := none })).2
    | none => q
  q.hold threadId

/-- `remove`. -/
def remove (id : String) (q : MessageQueue) : MessageQueue :=
  match q.find id with
  | none => q
  | some item =>
    if item.status = .sending then q
    else
      match save h { q with items := q.items.filter fun item => item.id ≠ id } with
      | (false, q') => pause h item.threadId { q' with items := q.items }
      | (true, q) =>
        let q :=
          match q.interruption item.threadId with
          | some interruption =>
            if interruption.id = some id then
              (q.updateInterruption item.threadId fun i => { i with id := none }).hold item.threadId
            else q
          | none => q
        { q with freshSends := q.freshSends.erase id }

/-- `forget`. -/
def forget (threadId : String) (q : MessageQueue) : MessageQueue :=
  let q := { q with
    freshSends := q.freshSends.filter fun id =>
      ¬q.items.any fun item => item.threadId = threadId ∧ item.id = id }
  let q := { q with
    items := q.items.filter fun item => item.threadId ≠ threadId
    paused := q.paused.erase threadId }
  (save h (q.uninterrupt threadId)).2

/-- `sendNow`. -/
def sendNow (id : String) (q : MessageQueue) : MessageQueue :=
  match q.find id with
  | none => q
  | some item =>
    if item.preparing ∨ item.status ≠ .queued then q
    else
      match q.session item.threadId, q.api with
      | some session, some api =>
        if !q.state.any (·.connected) ∨ q.account = none ∨ q.isStopping item.threadId then q
        else
          match checkAgentRevision h item q with
          | (false, q) => q
          | (true, q) =>
            if !session.running ∧ !q.hasOperation item.threadId then
              dispatch h (pump h h.depth) item q
            else
              let q := { q with freshSends := q.freshSends.erase id }
              match save h (q.update id fun i => { i with status := .stopping, error := none }) with
              | (false, q) =>
                (q.update id fun i => { i with status := .queued }).hold item.threadId
              | (true, q) =>
                let interruption : Interruption :=
                  { threadId := item.threadId, token := q.tokens, id := some id, ready := false }
                let q := { q with
                  interruptions := q.interruptions ++ [interruption]
                  tokens := q.tokens + 1 }
                q.await (.interrupt q.generation item.threadId interruption.token api .cancelling)
      | _, _ => q

/-- `reserve`, up to the message: why it is refused. -/
def refusal (text : String) (attachments : List PromptAttachment) (q : MessageQueue) :
    Option String :=
  if q.account = none ∨ q.api = none ∨ !q.state.any (·.connected) then
    some "Connect to Axiom before sending."
  else if MAX_MESSAGES ≤ q.items.length then
    some "The message queue is full. Send or remove a queued message first."
  else if q.loading then some "Wait for your saved messages to load."
  else
    match h.validatePrompt text attachments with
    | .error message => some message
    | .ok _ =>
      let size := (q.items.map fun item => h.promptBytes item.text item.attachments).sum
      if MAX_QUEUE_BYTES < size + h.promptBytes text attachments then
        some "The local queue is full (64 MiB). Send or remove a queued message first."
      else none

/-- A message for which `reserve` makes room. -/
def reserved (threadId : Option String) (text : String) (webEnabled : Bool)
    (attachments : List PromptAttachment) (payloadId : Option String) (id : String)
    (q : MessageQueue) : QueuedMessage where
  id := id
  threadId := threadId.getD ("pending:" ++ id)
  text := text
  attachments := attachments
  payloadId := payloadId
  webEnabled := webEnabled
  agentRevision := ((threadId.bind q.session).bind (·.agentRevision)).getD 0
  mcpRevision := q.state.bind (·.mcpRevision)
  status := .sending
  preparing := true
  error := none

/-- `reserve`, with the identifier that `randomUUID` gives. It answers with the id of the message,
or with what it threw. -/
def reserve (threadId : Option String) (text : String) (webEnabled : Bool)
    (attachments : List PromptAttachment) (payloadId : Option String) (uuid : String)
    (q : MessageQueue) : Except String String × MessageQueue :=
  match refusal h text attachments q with
  | some message => (.error message, q)
  | none =>
    let item := q.reserved threadId text webEnabled attachments payloadId (payloadId.getD uuid)
    match persist h { q with items := q.items ++ [item] } with
    | (.error _, q') =>
      (.error "The message could not be saved to the queue. Your draft was kept.",
        { q' with items := q.items })
    | (.ok _, q) => (.ok item.id, q)

/-- The reserved message of an id, where its setup is under way in this generation. -/
def preparation (id : String) (q : MessageQueue) : Option QueuedMessage :=
  q.items.find? fun item => item.id = id ∧ item.preparing ∧ item.status = .sending

/-- The setup of a message is over. -/
def prepared (id : String) (q : MessageQueue) : MessageQueue :=
  { q with preparations := q.preparations.filter fun other => other ≠ id }

/-- `ready`. -/
def ready (id threadId : String) (q : MessageQueue) : Except String Unit × MessageQueue :=
  match q.preparation id, q.session threadId with
  | some _, some session =>
    let setUp := q.update id fun item =>
      { item with
        threadId, preparing := false, status := .queued, error := none
        mcpRevision := q.state.bind (·.mcpRevision)
        agentRevision := session.agentRevision.getD 0 }
    match persist h setUp with
    | (.error message, q') => (.error message, { q' with items := q.items })
    | (.ok _, q) =>
      let q := if threadId ∈ q.paused then { q with freshSends := insert id q.freshSends } else q
      (.ok (), pump h h.depth (q.prepared id))
  | _, _ => (.error "The thread is not ready. Your message is saved for review.", q)

/-- `bindPreparation`. -/
def bindPreparation (id threadId : String) (q : MessageQueue) : Except String Unit × MessageQueue :=
  match q.preparation id with
  | none =>
    (.error "The account or connection changed. Your message remains saved for review.", q)
  | some _ =>
    match persist h (q.update id fun item => { item with threadId }) with
    | (.ok _, q) => (.ok (), q)
    | (.error message, q) => (.error message, q)

/-- `failPreparation`. -/
def failPreparation (id error : String) (q : MessageQueue) : MessageQueue :=
  match q.preparation id with
  | none => q.prepared id
  | some _ => (save h ((q.requeue id error).prepared id)).2

/-- `enqueue`. -/
def enqueue (threadId text : String) (webEnabled : Bool) (uuid : String) (q : MessageQueue) :
    Except String String × MessageQueue :=
  match reserve h (some threadId) text webEnabled [] none uuid q with
  | (.error message, q) => (.error message, q)
  | (.ok id, q) =>
    match ready h id threadId q with
    | (.error message, q) => (.error message, q)
    | (.ok _, q) => (.ok id, q)

/-! ## Going on after a wait -/

/-- The interruption that a task was started for. -/
def current (generation : Nat) (threadId : String) (token : Nat) (q : MessageQueue) : Bool :=
  generation = q.generation ∧ (q.interruption threadId).any (·.token = token)

/-- `interrupt`, where something was thrown. -/
def notStopped (threadId : String) (q : MessageQueue) : MessageQueue :=
  let q :=
    match (q.interruption threadId).bind (·.id) with
    | some id => q.requeue id "Couldn’t stop the reply. Try again."
    | none => q
  (save h ((q.uninterrupt threadId).hold threadId)).2

/-- `dispatch`, after the prompt ended and the state was read. -/
def confirm (item : QueuedMessage) (api : QueueApi) (stopReason : String) (state : ClientState)
    (q : MessageQueue) : MessageQueue :=
  let generation := q.generation
  let q := sync h state (some api) q
  if generation ≠ q.generation then q
  else
    let q := q.holdIf (stopReason ≠ "end_turn" && !q.isStopping item.threadId) item.threadId
    let q :=
      if (q.find item.id).isSome then
        (q.requeue item.id "Delivery was not confirmed. Check the thread before retrying.").hold
          item.threadId
      else q
    settle h (pump h h.depth) item q

/-- The restoration, with a payload or without one. -/
def restorePayload (generation : Nat) (value : SavedMessage) (rest : List (Option SavedMessage))
    (payload : Option PromptPayload) (q : MessageQueue) : MessageQueue :=
  match payload with
  | none => q.await (.restoring generation .failed)
  | some payload =>
    if generation ≠ q.generation then q
    else
      let value := { value with text := payload.text, attachments := payload.attachments }
      match restore h (some value) q with
      | (true, q) => restoreNext h rest q
      | (false, q) => q.await (.restoring generation .failed)

/-- What follows a wait, where the answer is one that the wait can have. -/
def resume (q : MessageQueue) : Task → Answer → Option MessageQueue
  | .dispatch generation item api .persisting, .done =>
    if generation ≠ q.generation then q else submit h (pump h h.depth) item api q
  | .dispatch generation item api .prompting, .prompted stopReason =>
    if generation ≠ q.generation then q
    else q.await (.dispatch generation item api (.reading stopReason))
  | .dispatch generation item api (.reading stopReason), .state state =>
    if generation ≠ q.generation then q else confirm h item api stopReason state q
  | .dispatch generation item _ _, .failed message =>
    if generation ≠ q.generation then q else undelivered h (pump h h.depth) item message q
  | .interrupt generation threadId token api .cancelling, .done =>
    if !q.current generation threadId token then q
    else q.await (.interrupt generation threadId token api .reading)
  | .interrupt generation threadId token api .reading, .state state =>
    if !q.current generation threadId token then q
    else sync h state (some api) (q.updateInterruption threadId fun i => { i with ready := true })
  | .interrupt generation threadId token _ _, .failed _ =>
    if !q.current generation threadId token then q else notStopped h threadId q
  | .restoring generation (.payload value rest), .payload payload =>
    restorePayload h generation value rest payload q
  | .restoring generation (.payload _ _), .failed _ => q.await (.restoring generation .failed)
  | .restoring generation .failed, .done =>
    if generation ≠ q.generation then q
    else q.unreadable.await (.restoring generation .finishing)
  | .restoring generation .finishing, .done =>
    if generation ≠ q.generation then q
    else
      let q := { q with loading := false }
      match q.state with
      | some state => sync h state q.api q
      | none => q
  | _, _ => none

/-! ## The queue as a machine -/

/-- A call of the queue, or the answer to what it waits for. `reserveDurable` is a `reserve` with a
payload: what it waits for before touches nothing of the queue. -/
inductive Input where
  | sync (state : ClientState) (api : Option QueueApi)
  | reserve (threadId : Option String) (text : String) (webEnabled : Bool)
      (attachments : List PromptAttachment) (payloadId : Option String) (uuid : String)
  | enqueue (threadId text : String) (webEnabled : Bool) (uuid : String)
  | bindPreparation (id threadId : String)
  | failPreparation (id error : String)
  | ready (id threadId : String)
  | remove (id : String)
  | forget (threadId : String)
  | pause (threadId : String)
  | sendNow (id : String)
  | dispose
  | resume (n : Nat) (answer : Answer)

def step (q : MessageQueue) : Input → MessageQueue
  | .sync state api => sync h state api q
  | .reserve threadId text webEnabled attachments payloadId uuid =>
    match reserve h threadId text webEnabled attachments payloadId uuid q with
    | (.ok id, q) => { q with preparations := q.preparations ++ [id] }
    | (.error _, q) => q
  | .enqueue threadId text webEnabled uuid => (enqueue h threadId text webEnabled uuid q).2
  | .bindPreparation id threadId => (bindPreparation h id threadId q).2
  | .failPreparation id error => failPreparation h id error q
  | .ready id threadId => (ready h id threadId q).2
  | .remove id => remove h id q
  | .forget threadId => forget h threadId q
  | .pause threadId => pause h threadId q
  | .sendNow id => sendNow h id q
  | .dispose => q.dispose
  | .resume n answer =>
    match q.pending[n]? with
    | none => q
    | some task => (resume h { q with pending := q.pending.eraseIdx n } task answer).getD q

/-- The queue as a machine. It has no outputs. -/
def machine : Machine MessageQueue Input Empty where
  step q input := (step h q input, [])

end MessageQueue

end AxiomDesktop
