import AxiomDesktop.App.Event

/-!
# The messages of the extension protocol

What the desktop client receives from the agent: thread summaries and timeline pages, the events
of the extension channel, and the delivery metadata that standard updates carry. A document no
operation of the client reads into is kept as JSON.
-/

namespace AxiomDesktop.Client

inductive ThreadLifecycle where
  | ready
  | running
  | waitingForApproval
  | waitingForAnswer
  | compacting
  | closed
  deriving DecidableEq, Repr

structure ThreadSummary where
  threadId : String
  title : Option String := none
  cwd : String := ""
  origin : String := ""
  profile : String := ""
  selectedModel : Option String := none
  thinkingLevel : String := ""
  lifecycle : ThreadLifecycle := .ready
  archived : Bool := false
  revision : Nat
  lastTimelineSequence : Nat := 0
  createdAt : String := ""
  updatedAt : String := ""
  lastMessageAt : Option String := none
  lastUserMessageAt : Option String := none
  deriving DecidableEq, Repr

/-- The kinds of a durable timeline item; a client keeps one it does not know. -/
inductive TimelineItemKind where
  | userMessage
  | assistantMessage
  | reasoning
  | toolCall
  | plan
  | notice
  | other (name : String)
  deriving DecidableEq, Repr

structure DurableTimelineItem where
  id : String
  threadId : String
  turnId : Option String := none
  sequence : Nat
  kind : TimelineItemKind
  status : String
  clientItemId : Option String := none
  externalId : Option String := none
  content : String
  metadata : Json := .null
  deriving DecidableEq, Repr

structure GetThreadTimelineResponse where
  thread : ThreadSummary
  desktopAgent : Option DesktopAgentSettings := none
  activeTurnId : Option String := none
  contextUsage : Option ContextUsage := none
  requestUsage : List RequestUsage := []
  items : List DurableTimelineItem := []
  nextCursor : Option Nat := none
  nextRequestUsageCursor : Option String := none
  deriving DecidableEq, Repr

/-- What a page of a timeline is asked for with. -/
structure GetThreadTimelineRequest where
  threadId : String
  afterSequence : Option Nat := none
  afterRequestId : Option String := none
  limit : Option Nat := none
  deriving DecidableEq, Repr

structure ListThreadsRequest where
  query : Option String := none
  includeArchived : Bool := false
  limit : Option Nat := none
  cursor : Option String := none
  deriving DecidableEq, Repr

structure ListThreadsResponse where
  threads : List ThreadSummary
  nextCursor : Option String := none
  deriving DecidableEq, Repr

/-- The identity of a durable row, beneath `_meta.axiom` of a standard update. A message time is
absent, or present and possibly `null`. -/
structure DeliveryMetadata where
  threadRevision : Nat
  lastTimelineSequence : Nat
  lastMessageAt : Option (Option String) := none
  lastUserMessageAt : Option (Option String) := none
  timelineItemId : Option String := none
  clientItemId : Option String := none
  deriving DecidableEq, Repr

inductive AccountState where
  | starting
  | signedOut
  | valid
  | expired
  | unavailable
  deriving DecidableEq, Repr

/-- The status of the account; `account` is the profile's ID, and `document` the rest. -/
structure AccountStatus where
  revision : Nat
  state : AccountState
  account : Option String := none
  document : Json := .null
  deriving DecidableEq, Repr

structure BillingStatus where
  revision : Nat
  ledgerSequence : Nat
  document : Json := .null
  deriving DecidableEq, Repr

structure CollectionState where
  revision : Nat := 0
  collections : List Json := []
  deriving DecidableEq, Repr

structure DesktopMcpResponse where
  revision : Nat
  servers : List Json := []
  selectedTools : List String := []
  deriving DecidableEq, Repr

structure ConfigureDesktopAgentResponse where
  thread : ThreadSummary
  agent : DesktopAgentSettings
  deriving DecidableEq, Repr

structure SecurityReport where
  state : SecurityStatus
  detail : Option String := none
  deriving DecidableEq, Repr

structure SessionMode where
  id : String
  name : String
  description : Option String := none
  deriving DecidableEq, Repr

structure SessionConfigOption where
  id : String
  name : String
  currentValue : String
  deriving DecidableEq, Repr

inductive InteractionKind where
  | permission
  | elicitation
  deriving DecidableEq, Repr

structure PendingInteraction where
  id : String
  requestId : String
  sessionId : Option String := none
  kind : InteractionKind
  payload : Json := .null
  deriving DecidableEq, Repr

/-- The events of the extension channel. `other` stands for the kinds the store does not act on
(background tasks, workspace changes, compaction, ..). -/
inductive ActivityEvent where
  | activeTurnChanged (turnId : Option String)
  | contextUsageChanged (usage : ContextUsage)
  | requestUsageChanged (usage : RequestUsage)
  | securityChanged (status : SecurityReport) (evidence : Option Json)
  | accountChanged (status : AccountStatus)
  | billingChanged (status : BillingStatus)
  | collectionsChanged (state : CollectionState)
  | profilePreferencesChanged (preferences : Json)
  | other (kind : String)
  deriving DecidableEq, Repr

structure EventNotification where
  runtimeInstanceId : String
  sessionId : Option String := none
  sequence : Nat
  threadRevision : Option Nat := none
  lastTimelineSequence : Option Nat := none
  event : ActivityEvent
  deriving DecidableEq, Repr

/-! ## Checks of what arrives -/

/-- `Number.MAX_SAFE_INTEGER`. -/
def MAX_SAFE_INTEGER : Nat := 2 ^ 53 - 1

/-- The white space `String.prototype.trim` removes. -/
def isJsWhitespace (c : Char) : Bool :=
  c.toNat == 0xfeff || (Text.isWhitespace c && c.toNat != 0x85)

/-- `validRequestUsage`. -/
def validRequestUsage (usage : RequestUsage) : Bool :=
  usage.requestId.length == 32 &&
    usage.requestId.toList.all (fun c => c.isDigit || ('a' ≤ c && c ≤ 'f')) &&
    match RequestUsage.parseCounter usage.inputTokens,
      RequestUsage.parseCounter usage.cachedInputTokens,
      RequestUsage.parseCounter usage.outputTokens,
      RequestUsage.parseCounter usage.reasoningTokens,
      RequestUsage.parseCounter usage.costMicrousd with
    | some input, some cached, some output, some reasoning, some _ =>
      !RequestUsage.exceeds cached input && !RequestUsage.exceeds reasoning output
    | _, _, _, _, _ => false

/-- `validContextUsage`, given which texts `Date.parse` reads as a finite time. -/
def validContextUsage (isDate : String → Bool) (usage : Option ContextUsage) :
    Option ContextUsage :=
  usage.filter fun usage =>
    let validLimit (limit : Option Nat) := limit.all fun n => 0 < n && n ≤ MAX_SAFE_INTEGER
    usage.inputTokens ≤ MAX_SAFE_INTEGER && usage.outputTokens ≤ MAX_SAFE_INTEGER &&
      usage.inputTokens + usage.outputTokens ≤ MAX_SAFE_INTEGER &&
      !usage.modelId.toList.all isJsWhitespace && isDate usage.reportedAt &&
      validLimit usage.contextWindowTokens && validLimit usage.autoCompactThresholdTokens &&
      !RequestUsage.exceeds usage.autoCompactThresholdTokens usage.contextWindowTokens

end AxiomDesktop.Client
