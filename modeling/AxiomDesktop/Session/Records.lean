import Mathlib.Data.List.MinMax
import Mathlib.Data.Prod.Lex
import Mathlib.Data.String.Basic
import AxiomDesktop.Lib.Fallible
import AxiomDesktop.Lib.Rows
import AxiomDesktop.Session.Redact

/-!
# The records of the local store

The tables of the account-scoped database (`Database`) and the vocabulary of their columns. A
column that holds a name of an enumeration, a path or a serialized record has the value as its
type; the metadata of a timeline item stays the JSON object it is. The texts of a runtime event
that are stored as JSON are built here (`TaskItem.toJson` and its like).
-/

namespace AxiomDesktop.Store

inductive ThreadLifecycle where
  | ready
  | running
  | waitingForApproval
  | waitingForAnswer
  | compacting
  | closed
  deriving DecidableEq, Repr, Inhabited

inductive TurnStatus where
  | running
  | completed
  | cancelled
  | failed
  | interrupted
  deriving DecidableEq, Repr, Inhabited

inductive TimelineItemKind where
  | userMessage
  | assistantMessage
  | reasoning
  | toolCall
  | plan
  | notice
  deriving DecidableEq, Repr, Inhabited

inductive TimelineItemStatus where
  | pending
  | inProgress
  | completed
  | cancelled
  | failed
  | interrupted
  deriving DecidableEq, Repr, Inhabited

/-- `status IN ('pending','in_progress')`. -/
def TimelineItemStatus.isOpen : TimelineItemStatus → Bool
  | .pending | .inProgress => true
  | .completed | .cancelled | .failed | .interrupted => false

/-! ## Rows -/

/-- A row of `threads`. -/
structure StoredThread where
  id : String
  title : Option String := none
  cwd : PathBuf
  origin : Origin
  profile : PermissionProfile
  selectedModel : Option String := none
  thinkingLevel : ThinkingLevel := .medium
  lifecycle : ThreadLifecycle := .ready
  archived : Bool := false
  revision : Nat := 0
  nextTimelineSequence : Nat := 0
  lastMessageAt : Option String := none
  lastUserMessageAt : Option String := none
  lastReportedUsage : Option ContextUsage := none
  desktopAgentSettings : Option DesktopAgentSettings := none
  titleGenerationId : Option String := none
  createdAt : String
  updatedAt : String
  deriving DecidableEq, Repr

/-- A row of `turns`. -/
structure TurnRecord where
  threadId : String
  id : String
  status : TurnStatus
  userItemId : Option String := none
  assistantItemId : Option String := none
  inputTokens : Nat := 0
  outputTokens : Nat := 0
  error : Option String := none
  startedAt : String
  completedAt : Option String := none
  deriving DecidableEq, Repr

/-- The primary key of `turns`. -/
def TurnRecord.key (t : TurnRecord) : String × String := (t.threadId, t.id)

/-- A row of `timeline_items`. -/
structure TimelineItem where
  id : String
  threadId : String
  turnId : Option String
  sequence : Nat
  kind : TimelineItemKind
  status : TimelineItemStatus
  clientItemId : Option String
  externalId : Option String
  content : String
  metadata : Json
  createdAt : String
  updatedAt : String
  deriving DecidableEq, Repr

/-- A row of `request_usage`. -/
structure StoredUsage where
  requestId : String
  threadId : String
  record : RequestUsage
  deriving DecidableEq, Repr

/-- A row of `prompt_attachments`. -/
structure StoredAttachments where
  userItemId : String
  payload : List PromptAttachment
  deriving DecidableEq, Repr

/-- A row of `collections`. -/
structure StoredCollection where
  id : String
  name : String
  collapsed : Bool := false
  position : Nat
  createdAt : String
  updatedAt : String
  deriving DecidableEq, Repr

/-- A row of `thread_collections`. -/
structure ThreadCollection where
  threadId : String
  collectionId : String
  assignedAt : String
  deriving DecidableEq, Repr

/-- The row of `profile_preferences`. -/
structure ProfilePreferences where
  model : Option String := none
  thinkingLevel : ThinkingLevel := .medium
  updatedAt : String
  deriving DecidableEq, Repr

/-- The tables. -/
structure Database where
  threads : Rows StoredThread.id := .empty
  turns : Rows TurnRecord.key := .empty
  timelineItems : Rows TimelineItem.id := .empty
  requestUsage : Rows StoredUsage.requestId := .empty
  promptAttachments : Rows StoredAttachments.userItemId := .empty
  collections : Rows StoredCollection.id := .empty
  threadCollections : Rows ThreadCollection.threadId := .empty
  collectionRevision : Nat := 0
  preferences : ProfilePreferences := { updatedAt := "" }

/-- `ThreadRevision`. -/
structure ThreadRevision where
  revision : Nat
  lastTimelineSequence : Nat
  lastMessageAt : Option String
  lastUserMessageAt : Option String
  timelineItemId : Option String := none
  deriving DecidableEq, Repr

/-- `ThreadSummary`. -/
structure ThreadSummary where
  id : String
  title : Option String
  cwd : PathBuf
  origin : Origin
  profile : PermissionProfile
  selectedModel : Option String
  thinkingLevel : ThinkingLevel
  lifecycle : ThreadLifecycle
  archived : Bool
  revision : Nat
  lastTimelineSequence : Nat
  createdAt : String
  updatedAt : String
  lastMessageAt : Option String
  lastUserMessageAt : Option String
  deriving DecidableEq, Repr

/-- `StoredThread::decode`. -/
def StoredThread.decode (t : StoredThread) : ThreadSummary where
  id := t.id
  title := t.title
  cwd := t.cwd
  origin := t.origin
  profile := t.profile
  selectedModel := t.selectedModel
  thinkingLevel := t.thinkingLevel
  lifecycle := t.lifecycle
  archived := t.archived
  revision := t.revision
  lastTimelineSequence := t.nextTimelineSequence
  createdAt := t.createdAt
  updatedAt := t.updatedAt
  lastMessageAt := t.lastMessageAt
  lastUserMessageAt := t.lastUserMessageAt

/-! ## Metadata -/

/-- `json_extract(metadata, '$.request_id') IS ?`. -/
def requestIdIs (metadata : Json) (requestId : Option String) : Bool :=
  match metadata.get? "request_id", requestId with
  | none, none | some .null, none => true
  | some (.str s), some r => s = r
  | _, _ => false

/-- `COALESCE(json_extract(metadata, '$.terminal_verified'), 0)=0`. -/
def notVerified (metadata : Json) : Bool :=
  match metadata.get? "terminal_verified" with
  | none | some .null | some (.bool false) => true
  | some (.num literal) => literal = "0"
  | _ => false

/-! ## Event data as JSON -/

/-- A number, or `null`. -/
def jsonNat? : Option Nat → Json
  | some n => .ofNat n
  | none => .null

def jsonStrings (values : List String) : Json := .arr (values.map .str)

end Store

open Store

namespace TaskStatus

def name : TaskStatus → String
  | .pending => "pending"
  | .inProgress => "in_progress"
  | .completed => "completed"

/-- The status of a name. -/
def ofName? : String → Option TaskStatus
  | "pending" => some .pending
  | "in_progress" => some .inProgress
  | "completed" => some .completed
  | _ => none

end TaskStatus

def TaskItem.toJson (item : TaskItem) : Json :=
  .obj [("id", .str item.id), ("title", .str item.title), ("status", .str item.status.name)]

/-- `serde_json::from_value` at `TaskItem`. -/
def TaskItem.ofJson? (v : Json) : Option TaskItem := do
  let id ← v.string? "id"
  let title ← v.string? "title"
  let status ← (v.string? "status").bind TaskStatus.ofName?
  pure { id, title, status }

def QuestionSpec.toJson (q : QuestionSpec) : Json :=
  .obj [("id", .str q.id), ("prompt", .str q.prompt), ("options", jsonStrings q.options),
    ("multiple", .bool q.multiple), ("required", .bool q.required)]

def QuestionRequest.toJson (r : QuestionRequest) : Json :=
  .obj [("request_id", .str r.requestId), ("questions", .arr (r.questions.map (·.toJson)))]

def FileDiff.toJson (d : FileDiff) : Json :=
  .obj [("path", .str d.path), ("old_text", .ofOption d.oldText), ("new_text", .str d.newText)]

def SecurityStatus.name : SecurityStatus → String
  | .unverified => "unverified"
  | .verifying => "verifying"
  | .unattestedDevelopment => "unattested_development"
  | .verified => "verified"
  | .degraded => "degraded"
  | .outdated => "outdated"
  | .failed => "failed"

namespace ImageGenerationStage

def name : ImageGenerationStage → String
  | .queued => "queued"
  | .generating => "generating"
  | .finishing => "finishing"

def ofName? : String → Option ImageGenerationStage
  | "queued" => some .queued
  | "generating" => some .generating
  | "finishing" => some .finishing
  | _ => none

/-- The place of a stage in the order of the declaration. -/
def rank : ImageGenerationStage → Nat
  | .queued => 0
  | .generating => 1
  | .finishing => 2

end ImageGenerationStage

namespace ImageGenerationProgress

def toJson (p : ImageGenerationProgress) : Json :=
  .obj [("stage", .str p.stage.name), ("percent", .ofNat p.percent)]

/-- `serde_json::from_value`, which refuses an unknown field and a percentage above a byte. -/
def ofJson? (v : Json) : Option ImageGenerationProgress :=
  match v with
  | .obj fields =>
    if fields.all fun f => f.1 == "stage" || f.1 == "percent" then do
      let stage ← (v.string? "stage").bind ImageGenerationStage.ofName?
      let percent ← (v.get? "percent").bind Json.nat?
      if percent < 256 then pure { stage, percent } else none
    else none
  | _ => none

/-- `ImageGenerationProgress::valid_after`. -/
def validAfter (p : ImageGenerationProgress) (previous : Option ImageGenerationProgress) : Bool :=
  p.percent ≤ 99 &&
    (match p.stage with
    | .queued => p.percent == 0
    | .generating => true
    | .finishing => p.percent == 99) &&
    (match previous with
    | some old => old.stage.rank ≤ p.stage.rank && old.percent ≤ p.percent
    | none => true)

end ImageGenerationProgress

namespace RequestUsage

def completenessName : UsageCompleteness → String
  | .unknown => "unknown"
  | .live => "live"
  | .final => "final"
  | .partialUsage => "partial"

def stateName : InvocationState → String
  | .running => "running"
  | .completed => "completed"
  | .failed => "failed"
  | .cancelled => "cancelled"

def purposeName : InvocationPurpose → String
  | .conversation => "conversation"
  | .title => "title"
  | .compaction => "compaction"

/-- `serde_json::to_value`. -/
def toJson (u : RequestUsage) : Json :=
  .obj
    [ ("requestId", .str u.requestId),
      ("modelId", .str u.modelId),
      ("providerId", .str u.providerId),
      ("contextWindowTokens", jsonNat? u.contextWindowTokens),
      ("autoCompactThresholdTokens", jsonNat? u.autoCompactThresholdTokens),
      ("turnId", .ofOption u.turnId),
      ("purpose", .str (purposeName u.purpose)),
      ("state", .str (stateName u.state)),
      ("completeness", .str (completenessName u.completeness)),
      ("inputTokens", .ofOption u.inputTokens),
      ("cachedInputTokens", .ofOption u.cachedInputTokens),
      ("outputTokens", .ofOption u.outputTokens),
      ("reasoningTokens", .ofOption u.reasoningTokens),
      ("imagePixels", .ofOption u.imagePixels),
      ("imageSteps", .ofOption u.imageSteps),
      ("inputImagePixels", .ofOption u.inputImagePixels),
      ("costMicrousd", .ofOption u.costMicrousd),
      ("settled", .bool u.settled),
      ("responseVerified", .bool u.responseVerified),
      ("startedAtMs", .str u.startedAtMs),
      ("finishedAtMs", .ofOption u.finishedAtMs),
      ("errorCode", .ofOption u.errorCode),
      ("finishReason", .ofOption u.finishReason) ]

end RequestUsage

/-- `serde_json::to_value` of an image, with its bytes removed. -/
def GeneratedImage.proof (i : GeneratedImage) : Json :=
  .obj
    ([ ("requestId", .str i.requestId),
       ("mimeType", .str i.mimeType),
       ("width", .ofNat i.width),
       ("height", .ofNat i.height),
       ("sha256", .str i.sha256) ] ++
      (if i.sourceImageIds.isEmpty then [] else [("sourceImageIds", jsonStrings i.sourceImageIds)]) ++
      (match i.chatModelId with
      | some model => [("chatModelId", .str model)]
      | none => []) ++
      [ ("evidence", i.evidence), ("usage", i.usage.toJson) ])

/-- The content block that carries the bytes of an image. -/
def GeneratedImage.content (i : GeneratedImage) : Json :=
  .arr [.obj [("type", .str "content"),
    ("content", .obj [("type", .str "image"), ("data", .str i.data), ("mimeType", .str i.mimeType)])]]

end AxiomDesktop
