import AxiomDesktop.App.SessionStep
import AxiomDesktop.Inference.Request
import AxiomDesktop.Lib.Compensated
import AxiomDesktop.Session.Events
import AxiomDesktop.Session.Projection
import Mathlib.Data.List.Destutter
import Mathlib.Data.List.Sort
import Mathlib.Data.Prod.Lex
import Mathlib.Data.String.Basic

/-!
# A change of a session's settings

The settings of a session are held four times: by the runner, by the kernel, by the ACP server's
mirror of the session and by the store. `setSessionMode`, `setSessionConfigOption` and the slash
command for thinking change the four in turn, and undo by hand what was changed before a step that
fails. The module models the three requests, the settings of `AgentEngine` with the provider's
catalog behind them, and the faults of the runner's setter, the kernel and the storage.
-/

namespace AxiomDesktop

open Fallible

/-! ## The catalog -/

/-- `ModelInfo`, as far as the settings and the place of a model depend on it. -/
structure OfferedModelInfo where
  id : String
  providerId : String
  upstreamModel : String
  supportedThinkingModes : List ThinkingMode
  supportedReasoningEfforts : List ReasoningEffort
  deriving DecidableEq, Repr

structure ModelSettings where
  model : String
  thinking : ThinkingLevel
  supportsReasoning : Bool
  deriving DecidableEq, Repr

/-- `thinking_level`. -/
def ReasoningEffort.thinkingLevel : ReasoningEffort → ThinkingLevel
  | .minimal => .minimal
  | .low => .low
  | .medium => .medium
  | .high => .high
  | .extraHigh => .extraHigh

/-- The level of a mode that is a control. -/
def ThinkingMode.level? : ThinkingMode → Option ThinkingLevel
  | .providerDefault => none
  | .enabled => some .enabled
  | .disabled => some .disabled

/-- A level is added where it is not there. -/
def addLevel (levels : List ThinkingLevel) (level : ThinkingLevel) : List ThinkingLevel :=
  if level ∈ levels then levels else levels ++ [level]

/-- `supported_thinking_levels`. -/
def supportedThinkingLevels (model : OfferedModelInfo) : List ThinkingLevel :=
  match (model.supportedThinkingModes.filterMap ThinkingMode.level?).foldl addLevel [] with
  | [] => model.supportedReasoningEfforts.map ReasoningEffort.thinkingLevel
  | levels => levels

/-- The level that `reconcile_model_settings` makes effective. -/
def reconciledLevel (supported : List ThinkingLevel) (preferred : ThinkingLevel) : ThinkingLevel :=
  if preferred ∈ supported then preferred
  else if .enabled ∈ supported then .enabled
  else if .medium ∈ supported then .medium
  else supported.head?.getD .providerDefault

/-- `reconcile_model_settings`. -/
def reconcileModelSettings (model : OfferedModelInfo) (preferred : ThinkingLevel) : ModelSettings where
  model := model.id
  thinking := reconciledLevel (supportedThinkingLevels model) preferred
  supportsReasoning := !(supportedThinkingLevels model).isEmpty

/-- The key of `compare_model_preference`. -/
def preferenceKey (model : OfferedModelInfo) : ℕ ×ₗ String ×ₗ Bool ×ₗ String :=
  let priority :=
    if model.providerId = "tinfoil" then 0 else if model.providerId = "near" then 1 else 2
  let preferred := model.providerId = "tinfoil" && model.upstreamModel = "deepseek-v4-1-flash"
  toLex (priority, toLex (model.providerId, toLex (!preferred, model.id)))

/-- `sort_by(compare_model_preference)`. -/
def sortByPreference (models : List OfferedModelInfo) : List OfferedModelInfo :=
  models.insertionSort fun a b => preferenceKey a ≤ preferenceKey b

/-- `AgentEngine::available_model_details`, of what the provider offers. -/
def availableModelDetails (offered : List OfferedModelInfo) : List OfferedModelInfo :=
  let models := offered.filter fun model => !Kernel.invalidModel model.id
  let models := models.insertionSort fun a b => a.id ≤ b.id
  sortByPreference (models.destutter fun a b => a.id ≠ b.id)

/-- What a request answers with where it fails. -/
inductive RequestError where
  /-- `agent_error`. -/
  | agent (error : AxiomError)
  /-- `AxiomError::Provider`. -/
  | provider (message : String)
  /-- `internal_error`. -/
  | internal (message : String)
  /-- `extension_rpc_error`. -/
  | extension (code : Int) (message : String)

/-! ## The runner -/

/-- The settings that `AgentEngine` holds for a session. -/
structure RunnerSettings where
  model : String
  thinking : ThinkingLevel
  deriving DecidableEq, Repr

namespace RunnerSettings

/-- `AgentEngine::model_info`. -/
def modelInfo (offered : List OfferedModelInfo) (model : String) : Except RequestError OfferedModelInfo :=
  match (sortByPreference offered).find? fun m => model = "auto" || m.id = model with
  | some model => .ok model
  | none => .error (.provider
      s!"selected model \x60{model}\x60 is no longer in the live provider catalog")

/-- `AgentEngine::set_model_settings`. -/
def setModelSettings (offered : List OfferedModelInfo) (selection : ModelSettings)
    (_ : RunnerSettings) : Except RequestError RunnerSettings :=
  if Kernel.invalidModel selection.model then
    .error (.agent (.invalidTransition "model ID must be a non-empty value without whitespace"))
  else do
    let model ← modelInfo offered selection.model
    let selection := reconcileModelSettings model selection.thinking
    pure { model := selection.model, thinking := selection.thinking }

/-- `AgentEngine::set_thinking_level`. -/
def setThinkingLevel (offered : List OfferedModelInfo) (level : ThinkingLevel) (r : RunnerSettings) :
    Except RequestError RunnerSettings :=
  match offered.find? fun m => m.id = r.model with
  | some model => .ok { r with thinking := (reconcileModelSettings model level).thinking }
  | none =>
    .error (.agent (.invalidTransition "current model is no longer in the provider catalog"))

/-- What the replay of a journal has found out about the settings. -/
structure Replay where
  thinking : ThinkingLevel
  activeModel : String
  lastUsedModel : Option String := none

/-- What an event of a journal says about the settings. -/
def Replay.apply (r : Replay) : AppEvent → Replay
  | .promptAccepted .. | .steeringApplied .. => { r with lastUsedModel := some r.activeModel }
  | .modelChanged model => { r with activeModel := model }
  | .thinkingLevelChanged level => { r with thinking := level }
  | _ => r

/-- The settings of `AgentEngine::restore_session`: the model is the one that was last used. -/
def restored (defaultModel : String) (events : List EventEnvelope) : RunnerSettings :=
  let replay := (events.map (·.event)).foldl Replay.apply
    { thinking := .medium, activeModel := defaultModel }
  { model := replay.lastUsedModel.getD replay.activeModel, thinking := replay.thinking }

end RunnerSettings

/-! ## The four copies -/

/-- The ACP server's mirror of a session. -/
structure AcpSession where
  internalId : SessionId
  cwd : PathBuf
  profile : PermissionProfile
  model : String
  thinking : ThinkingLevel
  models : List String
  hasPrompt : Bool
  security : SecurityStatus
  deriving DecidableEq, Repr

/-- `apply_session_model_settings`. -/
def AcpSession.applyModelSettings (session : AcpSession) (model : String) (thinking : ThinkingLevel)
    (models : List String) (resetSecurity : Bool) : AcpSession :=
  { session with
    model, thinking, models
    security := if resetSecurity then .unverified else session.security }

/-- Where the settings of a session are held. -/
structure HeldSettings where
  runner : RunnerSettings
  kernel : Kernel
  mirror : AcpSession
  /-- There may be no durable store. -/
  store : Option Store.Database

/-- What a request is answered with: the server, the provider's catalog, and a fault of each step
that changes one of the copies. -/
structure SettingsContext where
  desktopChat : Bool
  offered : List OfferedModelInfo
  defaultModel : String
  correlationId : Nat → CorrelationId
  origin : Origin
  env : Store.Environment
  decoders : Store.Decoders
  fresh : Store.Fresh
  setterFault : Option RequestError := none
  dispatchFault : Option RequestError := none
  storeFault : Option RequestError := none

namespace SettingsContext

/-- The handlers of the requests. -/
abbrev SettingsM := Fallible RequestError HeldSettings

def modifyMirror (f : AcpSession → AcpSession) : SettingsM PUnit :=
  modify fun h => { h with mirror := f h.mirror }

/-- A setter of the runner. -/
def setRunner (setter : RunnerSettings → Except RequestError RunnerSettings) :
    SettingsM PUnit := do
  let h ← get
  let runner ← ofResult (setter h.runner)
  modify fun h => { h with runner }

variable (c : SettingsContext)

/-- `Runtime::dispatch`, the `n`-th call of the request. -/
def dispatch (n : Nat) (command : AppCommand) : SettingsM (List EventEnvelope) :=
  mapError .agent <| focus (·.kernel) (fun kernel h => { h with kernel }) <|
    Kernel.apply ⟨c.correlationId n, c.origin, false, command⟩

/-- `Runtime::emit`. -/
def emit (n : Nat) (sessionId : SessionId) (event : AppEvent) : SettingsM EventEnvelope :=
  mapError .agent <| focus (·.kernel) (fun kernel h => { h with kernel }) <|
    Kernel.record sessionId (c.correlationId n) c.origin event

/-- `append_all`, and `append_all_and_set_profile_preferences`, where there is a store. -/
def persist (events : List EventEnvelope) (preferences : Option (String × ThinkingLevel)) :
    SettingsM PUnit := do
  let h ← get
  match h.store with
  | none => pure ⟨⟩
  | some db =>
    let (result, db) := Store.appendBatch c.env events none preferences none db
    modify fun h => { h with store := some db }
    let _ ← ofResult (result.mapError .agent)

/-- `restore_model_selection`. -/
def restoreModelSelection (previous : ModelSettings) (history : Option (List EventEnvelope)) :
    SettingsM PUnit :=
  match history with
  | some history => modify fun h => { h with runner := .restored c.defaultModel history }
  | none => setRunner (RunnerSettings.setModelSettings c.offered previous)

/-- `PermissionProfile::from_str`. -/
def parseProfile (text : String) : Except RequestError PermissionProfile :=
  match text with
  | "none" => .ok .none
  | "web" => .ok .web
  | "observe" => .ok .observe
  | "confirm" => .ok .confirm
  | "full_access" => .ok .fullAccess
  | _ => .error (.agent (.config s!"unknown permission profile \x60{text}\x60"))

/-- `ThinkingLevel::from_str`. -/
def parseThinking (text : String) : Except RequestError ThinkingLevel :=
  match text with
  | "provider_default" => .ok .providerDefault
  | "enabled" | "on" => .ok .enabled
  | "disabled" | "off" => .ok .disabled
  | "minimal" => .ok .minimal
  | "low" => .ok .low
  | "medium" => .ok .medium
  | "high" => .ok .high
  | "xhigh" => .ok .extraHigh
  | _ => .error (.agent (.config s!"unknown thinking level \x60{text}\x60"))

/-! ## The requests -/

/-- `set_session_mode`. -/
def setSessionMode (mode : String) : SettingsM PUnit := do
  let profile ← ofResult (parseProfile mode)
  failIf c.desktopChat
    (.extension (-32003) "desktop permissions must be changed through the Agent controls")
  let h ← get
  let id := h.mirror.internalId
  let previousProfile := h.mirror.profile
  let events ← faulty c.dispatchFault (c.dispatch 0 (.changePermissionProfile id profile))
  modifyMirror fun session => { session with profile }
  orUndo (faulty c.storeFault (c.persist events none)) do
    bestEffort (c.dispatch 1 (.changePermissionProfile id previousProfile))
    modifyMirror fun session => { session with profile := previousProfile }

/-- `SlashCommand::Thinking`. -/
def slashThinking (level : ThinkingLevel) : SettingsM PUnit := do
  let session := (← get).mirror
  let model ← okOr ((availableModelDetails c.offered).find? fun m => m.id = session.model)
    (.internal "current model is not in the provider catalog")
  let level := (reconcileModelSettings model level).thinking
  faulty c.setterFault (setRunner (RunnerSettings.setThinkingLevel c.offered level))
  let events ← orUndo
    (faulty c.dispatchFault (c.dispatch 0 (.changeThinkingLevel session.internalId level)))
    (setRunner (RunnerSettings.setThinkingLevel c.offered session.thinking))
  modifyMirror fun session => { session with thinking := level }
  orUndo (faulty c.storeFault (c.persist events (some (session.model, level)))) do
    bestEffort (setRunner (RunnerSettings.setThinkingLevel c.offered session.thinking))
    bestEffort (c.dispatch 1 (.changeThinkingLevel session.internalId session.thinking))
    modifyMirror fun current => { current with thinking := session.thinking }

/-- There is an event that resets the security of the session. -/
def resetsSecurity (events : List EventEnvelope) : Bool :=
  events.any fun e =>
    match e.event with
    | .securityStatusChanged .unverified => true
    | _ => false

/-- The settings that the runner is given back. -/
def previousSettings (session : AcpSession) : ModelSettings :=
  match (availableModelDetails c.offered).find? fun m => m.id = session.model with
  | some model => reconcileModelSettings model session.thinking
  | none => { model := session.model, thinking := session.thinking, supportsReasoning := false }

/-- The history that the runner is restored from, where its model has left the catalog. -/
def previousHistory (session : AcpSession) : SettingsM (Option (List EventEnvelope)) := do
  match (availableModelDetails c.offered).find? fun m => m.id = session.model with
  | some _ => pure none
  | none => do
    let db ← okOr (← get).store (.internal "unavailable model requires saved history")
    let history ← ofResult ((Store.load c.decoders c.fresh session.internalId db).mapError .agent)
    pure (some history)

/-- What is undone where the storage of a changed configuration fails. -/
def undoConfig (session : AcpSession) (history : Option (List EventEnvelope))
    (resetSecurity : Bool) : SettingsM PUnit := do
  bestEffort (c.restoreModelSelection (c.previousSettings session) history)
  bestEffort (c.dispatch 1
    (.changeModelSettings session.internalId session.model session.thinking false))
  if resetSecurity then
    bestEffort (c.emit 2 session.internalId (.securityStatusChanged session.security))
  modifyMirror fun _ => session

/-- The rest of `set_session_config_option`, from the mirror on. -/
def commitConfig (session : AcpSession) (history : Option (List EventEnvelope))
    (settings : ModelSettings) (events : List EventEnvelope) : SettingsM PUnit := do
  let models := (availableModelDetails c.offered).map (·.id)
  let models := (models.insertionSort (· ≤ ·)).destutter (· ≠ ·)
  let resetSecurity := resetsSecurity events
  modifyMirror fun current =>
    current.applyModelSettings settings.model settings.thinking models resetSecurity
  orUndo (faulty c.storeFault (c.persist events (some (settings.model, settings.thinking))))
    (c.undoConfig session history resetSecurity)

/-- `set_session_config_option` for the model. -/
def setModel (session : AcpSession) (history : Option (List EventEnvelope)) (selected : String) :
    SettingsM PUnit := do
  let selectedModel ← okOr ((availableModelDetails c.offered).find? fun m => m.id = selected)
    (.internal "model is not in the provider catalog")
  let settings := reconcileModelSettings selectedModel session.thinking
  faulty c.setterFault (setRunner (RunnerSettings.setModelSettings c.offered settings))
  let events ← orUndo
    (faulty c.dispatchFault (c.dispatch 0
      (.changeModelSettings session.internalId settings.model settings.thinking
        (selectedModel.id ≠ session.model))))
    (c.restoreModelSelection (c.previousSettings session) history)
  c.commitConfig session history settings events

/-- `set_session_config_option` for the thinking level. -/
def setThinking (session : AcpSession) (history : Option (List EventEnvelope)) (selected : String) :
    SettingsM PUnit := do
  let level ← ofResult (parseThinking selected)
  let selectedModel ← okOr ((availableModelDetails c.offered).find? fun m => m.id = session.model)
    (.internal "current model is not in the provider catalog")
  let settings := reconcileModelSettings selectedModel level
  faulty c.setterFault (setRunner (RunnerSettings.setThinkingLevel c.offered settings.thinking))
  let events ← orUndo
    (faulty c.dispatchFault
      (c.dispatch 0 (.changeThinkingLevel session.internalId settings.thinking)))
    (setRunner (RunnerSettings.setThinkingLevel c.offered session.thinking))
  c.commitConfig session history settings events

/-- `set_session_config_option`. -/
def setSessionConfigOption (configId selected : String) : SettingsM PUnit := do
  failIf (configId ≠ "model" ∧ configId ≠ "thinking") (.internal "unknown session config option")
  let session := (← get).mirror
  let history ← c.previousHistory session
  if configId = "model" then c.setModel session history selected
  else c.setThinking session history selected

/-- The three requests. -/
inductive Request where
  | mode (mode : String)
  | config (configId selected : String)
  | thinking (level : ThinkingLevel)

def handle : Request → SettingsM PUnit
  | .mode mode => c.setSessionMode mode
  | .config configId selected => c.setSessionConfigOption configId selected
  | .thinking level => c.slashThinking level

end SettingsContext

end AxiomDesktop
