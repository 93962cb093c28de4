import AxiomDesktop.Inference.Accounting
import AxiomDesktop.Inference.Attachments
import AxiomDesktop.Lib.FileSystem

/-!
# Commands and events of the application runtime

The typed commands the front ends send and the typed events the kernel emits and the journal
keeps (`AppCommand`, `AppEvent`, `EventEnvelope`). A security report is kept as the document it
is serialized to, since no modelled function reads it.
-/

namespace AxiomDesktop

/-- A path, by its text. -/
abbrev PathBuf := String

structure SessionId where
  uuid : BitVec 128
  deriving DecidableEq, Repr, Inhabited

structure TurnId where
  uuid : BitVec 128
  deriving DecidableEq, Repr, Inhabited

structure CorrelationId where
  uuid : BitVec 128
  deriving DecidableEq, Repr, Inhabited

def SessionId.toString (id : SessionId) : String := Text.uuid id.uuid
def TurnId.toString (id : TurnId) : String := Text.uuid id.uuid

/-- An instant, by the texts the program writes it as. -/
structure DateTime where
  /-- `to_rfc3339`. -/
  rfc3339 : String
  /-- `to_rfc3339_opts(SecondsFormat::Millis, true)`. -/
  rfc3339Millis : String
  /-- `timestamp_millis`. -/
  timestampMillis : String
  deriving DecidableEq, Repr, Inhabited

inductive Origin where
  | tui
  | acp
  | headless
  | test
  deriving DecidableEq, Repr, Inhabited

inductive DesktopAgentPermission where
  | approveCommands
  | fullAccess
  deriving DecidableEq, Repr

/-- The native agent settings of a thread. -/
structure DesktopAgentSettings where
  enabled : Bool
  permission : DesktopAgentPermission
  workingDirectory : String
  defaultWorkingDirectory : String
  usesDefaultDirectory : Bool
  revision : Nat
  deriving DecidableEq, Repr

inductive PermissionProfile where
  | none
  | web
  | observe
  | confirm
  | fullAccess
  deriving DecidableEq, Repr, Inhabited

/-- `PermissionProfile::for_desktop_agent`. -/
def PermissionProfile.forDesktopAgent (settings : DesktopAgentSettings) : PermissionProfile :=
  if !settings.enabled then .web
  else
    match settings.permission with
    | .approveCommands => .confirm
    | .fullAccess => .fullAccess

inductive ThinkingLevel where
  | providerDefault
  | enabled
  | disabled
  | minimal
  | low
  | medium
  | high
  | extraHigh
  deriving DecidableEq, Repr, Inhabited

inductive SessionLifecycle where
  | ready
  | running
  | waitingForApproval
  | waitingForAnswer
  | closed
  deriving DecidableEq, Repr, Inhabited

/-- The `Debug` form of a lifecycle, which an error message shows. -/
def SessionLifecycle.debug : SessionLifecycle → String
  | .ready => "Ready"
  | .running => "Running"
  | .waitingForApproval => "WaitingForApproval"
  | .waitingForAnswer => "WaitingForAnswer"
  | .closed => "Closed"

/-- The lifecycles of a session whose turn is in flight. -/
def SessionLifecycle.inFlight : SessionLifecycle → Bool
  | .running | .waitingForApproval | .waitingForAnswer => true
  | .ready | .closed => false

inductive AppCommand where
  | createSession (sessionId : SessionId) (cwd : PathBuf) (origin : Origin)
      (profile : PermissionProfile)
  | resumeSession (sessionId : SessionId) (cwd : PathBuf) (origin : Origin)
      (profile : PermissionProfile)
  | submitPrompt (sessionId : SessionId) (turnId : TurnId) (text : String)
      (attachments : List PromptAttachment)
  | startImageGeneration (sessionId : SessionId) (turnId : TurnId)
  | cancelTurn (sessionId : SessionId) (turnId : TurnId)
  | finishTurn (sessionId : SessionId) (turnId : TurnId)
  | failTurn (sessionId : SessionId) (turnId : TurnId) (message : String)
  | changePermissionProfile (sessionId : SessionId) (profile : PermissionProfile)
  | configureDesktopAgent (sessionId : SessionId) (settings : DesktopAgentSettings)
  | changeModel (sessionId : SessionId) (model : String)
  | changeModelSettings (sessionId : SessionId) (model : String) (thinking : ThinkingLevel)
      (resetSecurity : Bool)
  | changeThinkingLevel (sessionId : SessionId) (level : ThinkingLevel)
  | recordContextCompaction (sessionId : SessionId) (summary : String) (messagesBefore : Nat)
  | closeSession (sessionId : SessionId)
  deriving DecidableEq, Repr

/-- `AppCommand::session_id`. -/
def AppCommand.sessionId : AppCommand → SessionId
  | createSession id .. | resumeSession id .. | submitPrompt id .. | startImageGeneration id ..
  | cancelTurn id .. | finishTurn id .. | failTurn id .. | changePermissionProfile id ..
  | configureDesktopAgent id .. | changeModel id .. | changeModelSettings id ..
  | changeThinkingLevel id .. | recordContextCompaction id .. | closeSession id => id

/-- A command as the kernel receives it. -/
structure CommandEnvelope where
  correlationId : CorrelationId
  origin : Origin
  /-- `cancellation.is_cancelled()` at the moment the command is applied. -/
  cancelled : Bool
  command : AppCommand
  deriving DecidableEq, Repr

inductive TaskStatus where
  | pending
  | inProgress
  | completed
  deriving DecidableEq, Repr

structure TaskItem where
  id : String
  title : String
  status : TaskStatus
  deriving DecidableEq, Repr

structure QuestionSpec where
  id : String
  prompt : String
  options : List String
  multiple : Bool
  required : Bool
  deriving DecidableEq, Repr

structure QuestionRequest where
  requestId : String
  questions : List QuestionSpec
  deriving DecidableEq, Repr

/-- The content of a file before and after a change. -/
structure FileDiff where
  path : PathBuf
  oldText : Option String
  newText : String
  deriving DecidableEq, Repr

inductive SecurityStatus where
  | unverified
  | verifying
  | unattestedDevelopment
  | verified
  | degraded
  | outdated
  | failed
  deriving DecidableEq, Repr

/-- The context size the last conversation request reported. -/
structure ContextUsage where
  inputTokens : Nat
  outputTokens : Nat
  modelId : String
  reportedAt : String
  contextWindowTokens : Option Nat
  autoCompactThresholdTokens : Option Nat
  deriving DecidableEq, Repr

inductive ImageGenerationStage where
  | queued
  | generating
  | finishing
  deriving DecidableEq, Repr

structure ImageGenerationProgress where
  stage : ImageGenerationStage
  percent : Nat
  deriving DecidableEq, Repr

/-- A verified image, kept out of the model's history. -/
structure GeneratedImage where
  requestId : String
  data : String
  mimeType : String
  width : Nat
  height : Nat
  sha256 : String
  sourceImageIds : List String
  chatModelId : Option String
  evidence : Json
  usage : RequestUsage
  deriving Repr

inductive AppEvent where
  | steeringApplied (turnId : TurnId) (clientItemId text : String)
  | sessionCreated (cwd : PathBuf) (origin : Origin) (profile : PermissionProfile)
  | sessionResumed (cwd : PathBuf) (origin : Origin) (profile : PermissionProfile)
  | promptAccepted (turnId : TurnId) (text : String) (attachments : List PromptAttachment)
  | turnStarted (turnId : TurnId)
  | textDelta (turnId : TurnId) (text : String)
  | reasoningDelta (turnId : TurnId) (text : String)
  | usageUpdated (inputTokens outputTokens : Nat)
  | contextUsageUpdated (usage : ContextUsage)
  | requestUsageUpdated (usage : RequestUsage)
  | progressUpdated (message : String) (completed total : Option Nat)
  | taskListUpdated (items : List TaskItem)
  | toolProposed (turnId : TurnId) (callId name : String) (arguments : Json)
  | permissionRequired (requestId explanation : String) (effect : Json) (choices : List String)
  | permissionResolved (requestId : String) (allowed : Bool) (choice : Option String)
  | toolStarted (callId name : String)
  | toolOutput (callId content : String) (truncated : Bool)
  | imageGenerated (callId : String) (image : GeneratedImage)
  | imageGenerationProgress (callId : String) (progress : ImageGenerationProgress)
  | toolCompleted (callId : String) (success : Bool)
  | workspaceChanged (paths : List PathBuf)
  | diffAvailable (callId diff : String) (truncated : Bool) (files : List FileDiff)
  | questionAsked (questionId prompt : String) (options : List String)
  | questionAnswered (questionId : String) (answers : List String)
  | questionsAsked (request : QuestionRequest)
  | questionsAnswered (requestId : String) (answers : List (String × List String))
  | questionsFailed (requestId reason : String)
  | planProposed (planId : String) (revision : Nat) (markdown : String)
  | planReviewed (planId : String) (revision : Nat) (decision : String)
  | backgroundTaskChanged (taskId state : String)
  | permissionProfileChanged (profile : PermissionProfile)
  | desktopAgentConfigured (settings : DesktopAgentSettings)
  | modelChanged (model : String)
  | thinkingLevelChanged (level : ThinkingLevel)
  | contextCompacted (summary : String) (messagesBefore : Nat)
  | providerStatusChanged (connected : Bool) (detail : String)
  | securityStatusChanged (state : SecurityStatus)
  | securityEvidenceUpdated (evidence : Json)
  | responseVerified (turnId : TurnId)
  | warningRaised (message : String)
  | turnCompleted (turnId : TurnId)
  | turnCancelled (turnId : TurnId)
  | errorRaised (turnId : Option TurnId) (message : String)
  | sessionClosed
  deriving Repr

structure CompactionResult where
  summary : String
  messagesBefore : Nat
  deriving DecidableEq, Repr

structure EventEnvelope where
  schemaVersion : Nat
  sequence : UInt64
  occurredAt : DateTime
  correlationId : CorrelationId
  origin : Origin
  sessionId : SessionId
  event : AppEvent
  deriving Repr

/-- The error categories of the modelled functions, with the texts they carry. -/
inductive AxiomError where
  | config (message : String)
  | invalidTransition (message : String)
  | sessionNotFound (id : String)
  | permissionDenied (message : String)
  | outsideWorkspace (path : PathBuf)
  | tool (message : String)
  | storage (message : String)
  | protocol (message : String)
  | cancelled
  | io (error : IoError)
  deriving DecidableEq, Repr

/-- `Display for AxiomError`. -/
def AxiomError.message : AxiomError → String
  | config message => s!"invalid configuration: {message}"
  | invalidTransition message => s!"invalid state transition: {message}"
  | sessionNotFound id => s!"session not found: {id}"
  | permissionDenied message => s!"permission denied: {message}"
  | outsideWorkspace path => s!"path is outside the workspace: {path}"
  | tool message => s!"tool error: {message}"
  | storage message => s!"storage error: {message}"
  | protocol message => s!"protocol error: {message}"
  | cancelled => "operation cancelled"
  | io error => error.message

end AxiomDesktop

/-!
## Paths and their texts

How an absolute path is printed, and the components the operating system reads in the text of one.
-/

namespace AxiomDesktop

/-- `Path::display` of an absolute path. -/
def Path.display (p : Path) : PathBuf := "/" ++ "/".intercalate p

/-- The components of a path text: empty ones are dropped, and a slash at the end asks for a
directory, as a dot does. -/
def Path.components (text : PathBuf) : List String :=
  let parts := (Text.splitChar '/' text.toList).map String.ofList
  let named := parts.filter (· ≠ "")
  if parts.getLast? = some "" ∧ named ≠ [] then named ++ ["."] else named

end AxiomDesktop
