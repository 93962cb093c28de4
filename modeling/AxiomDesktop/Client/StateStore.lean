import AxiomDesktop.Client.Timeline
import AxiomDesktop.Lib.Fallible
import AxiomDesktop.Lib.Machine
import Mathlib.Logic.Function.Basic

/-!
# The client's state store

`AxiomStateStore`, the client's copy of what the agent holds: sessions with their timelines, the
thread catalog, the account and its billing. Its operations apply what arrives, in whatever order
it arrives; `StoreOp` lists them and `AxiomStateStore.machine` runs them.

Two numbers of a thread matter for streamed text: `threadRevision`, the revision of the newest
thing applied to the session, and `textRevisions`, the newest revision whose text the timeline
holds. A session whose copy may be incomplete carries `needsResync`.
-/

namespace AxiomDesktop.Client

structure ThreadSettings where
  model : String
  thinkingLevel : String
  permissionProfile : String
  deriving DecidableEq, Repr

/-- The tools a thread has selected, at a revision of the configured servers. -/
structure SelectedTools where
  revision : Nat
  selectedTools : List String
  deriving DecidableEq, Repr

structure ClientSessionState where
  sessionId : String
  title : Option String := none
  cwd : String := ""
  settings : Option ThreadSettings := none
  security : Option SecurityReport := none
  securityEvidence : Option Json := none
  securityVerificationPending : Bool := false
  securityVerificationError : Option String := none
  /-- The identity `securityContexts` holds for the session. -/
  securityContext : Option Nat := none
  contextUsage : Option ContextUsage := none
  requestUsage : List RequestUsage := []
  modes : List SessionMode := []
  currentModeId : Option String := none
  configOptions : List SessionConfigOption := []
  timeline : List ClientTimelineItem := []
  interactions : List PendingInteraction := []
  running : Bool := false
  activeTurnId : Option String := none
  desktopAgent : Option DesktopAgentSettings := none
  desktopMcp : Option SelectedTools := none
  needsResync : Bool := false
  threadRevision : Nat := 0
  lastTimelineSequence : Nat := 0
  lastMessageAt : Option String := none
  lastUserMessageAt : Option String := none
  deriving DecidableEq, Repr

/-- `emptySession`. -/
def emptySession (sessionId : String) (cwd : String) : ClientSessionState := { sessionId, cwd }

structure AxiomStateStore where
  imageGenerationAvailable : Bool := false
  mcp : Option DesktopMcpResponse := none
  connected : Bool := false
  runtimeInstanceId : Option String := none
  lastSequence : Nat := 0
  sessions : String → Option ClientSessionState := fun _ => none
  catalog : List ThreadSummary := []
  collections : CollectionState := {}
  preferences : Option Json := none
  account : Option AccountStatus := none
  billing : Option BillingStatus := none
  diagnostic : String := ""
  error : Option String := none
  accountContextGeneration : Nat := 0
  /-- The identities `securityContexts` has given out. -/
  securityContexts : Nat := 0
  /-- The newest revision whose text the timeline of a thread holds. -/
  textRevisions : String → Option Nat := fun _ => none

/-- What the verification report of a session event comes to (`publicSecurityEvidence`, and the
check of its expiry). -/
inductive Report where
  | fresh (report : Json)
  | missing
  | malformed

/-- What the store takes from its environment. -/
structure Environment where
  /-- `publicSecurityEvidence` of a status, its evidence and the session's model, now. -/
  publicSecurityEvidence : SecurityReport → Json → String → Report
  /-- `Date.parse` reads the text as a finite time. -/
  isDate : String → Bool

namespace AxiomStateStore

variable (s : AxiomStateStore)

/-! ## Sessions -/

/-- `sessions[id] ??= emptySession(id, cwd)`. -/
def session (id : String) (cwd : String) : ClientSessionState :=
  (s.sessions id).getD (emptySession id cwd)

def putSession (id : String) (session : ClientSessionState) : AxiomStateStore :=
  { s with sessions := Function.update s.sessions id (some session) }

/-- Changes a session, which is created where it is missing. -/
def withSession (id : String) (f : ClientSessionState → ClientSessionState) : AxiomStateStore :=
  s.putSession id (f (s.session id ""))

/-- Changes a session, where there is one. -/
def editSession (id : String) (f : ClientSessionState → ClientSessionState) : AxiomStateStore :=
  { s with sessions := Function.update s.sessions id ((s.sessions id).map f) }

/-- Changes every session. -/
def editSessions (f : ClientSessionState → ClientSessionState) : AxiomStateStore :=
  { s with sessions := fun id => (s.sessions id).map f }

/-- `invalidateSecurity`. -/
def invalidateSecurity (session : ClientSessionState) : ClientSessionState :=
  { session with
    securityContext := none, security := some { state := .unverified }, securityEvidence := none,
    securityVerificationPending := false, securityVerificationError := none }

/-- `settingsFromThread`. -/
def settingsFromThread (thread : ThreadSummary) : ThreadSettings :=
  { model := thread.selectedModel.getD "", thinkingLevel := thread.thinkingLevel,
    permissionProfile := thread.profile }

/-- The changes `applyThreadSummary` makes to the session of a thread. -/
def summarize (thread : ThreadSummary) (session : ClientSessionState) : ClientSessionState :=
  if thread.revision < session.threadRevision then session
  else
    let secured :=
      if session.settings.any fun settings =>
          settings.model ≠ "" && some settings.model ≠ thread.selectedModel then
        invalidateSecurity session
      else session
    let running := thread.lifecycle ≠ .ready ∧ thread.lifecycle ≠ .closed
    { secured with
      title := thread.title
      cwd := thread.cwd
      settings := some (settingsFromThread thread)
      running
      activeTurnId := if running then session.activeTurnId else none
      threadRevision := thread.revision
      lastTimelineSequence := thread.lastTimelineSequence
      lastMessageAt := thread.lastMessageAt
      lastUserMessageAt := thread.lastUserMessageAt }

/-- `applyThreadSummary`. -/
def applyThreadSummary (thread : ThreadSummary) : AxiomStateStore :=
  s.putSession thread.threadId (summarize thread (s.session thread.threadId thread.cwd))

/-! ## Account and connection -/

/-- Everything that belongs to an account context, dropped. -/
def clearContext : AxiomStateStore :=
  { s with
    mcp := none, sessions := fun _ => none, textRevisions := fun _ => none, catalog := []
    collections := {}, preferences := none, billing := none, error := none
    accountContextGeneration := s.accountContextGeneration + 1 }

/-- `applyAccount`, where the account is the next one. -/
def applyAccount (account : AccountStatus) : AxiomStateStore :=
  if s.account.any (account.revision ≤ ·.revision) then s
  else
    let previousAccountId := s.account.bind (·.account)
    let nextAccountId := if account.state = .valid then account.account else none
    let context := if previousAccountId ≠ nextAccountId then s.clearContext else s
    { context with account := some account }

/-- The guard of the account: a status that is there and not valid. -/
def accountBlocked : Bool := s.account.any (·.state ≠ .valid)

/-- A runtime identity `initializeRuntime` takes. -/
def validRuntimeId (id : String) : Bool :=
  !id.isEmpty && Text.utf16Length id ≤ 128 &&
    id.toList.all fun c => !isJsWhitespace c && 0x1f < c.toNat && c.toNat ≠ 0x7f

/-- `initializeRuntime`. -/
def initializeRuntime (runtimeInstanceId : String) : Except String AxiomStateStore :=
  if validRuntimeId runtimeInstanceId = false then
    .error "AxiomCLI returned an invalid runtime identity during initialization"
  else if s.runtimeInstanceId.any (· ≠ runtimeInstanceId) then
    .error "AxiomCLI initialization runtime identity disagrees with its events"
  else .ok { s with runtimeInstanceId := some runtimeInstanceId }

/-- `setConnected`. -/
def setConnected (connected : Bool) (error : Option String) : AxiomStateStore :=
  let t := if connected then s else s.editSessions invalidateSecurity
  { t with connected, error }

/-- `setBilling`. -/
def setBilling (status : BillingStatus) : AxiomStateStore :=
  if s.billing.any (fun b => status.revision ≤ b.revision || status.ledgerSequence < b.ledgerSequence)
  then s
  else { s with billing := some status }

/-- `setCollections`. -/
def setCollections (collections : CollectionState) : AxiomStateStore :=
  if s.collections.revision ≤ collections.revision then { s with collections } else s

/-! ## Sessions and catalog -/

/-- `securityContextToken`. -/
def securityContextToken (sessionId : String) : AxiomStateStore × Option Nat :=
  match s.sessions sessionId with
  | none => (s, none)
  | some session =>
    match session.securityContext with
    | some token => (s, some token)
    | none =>
      ({ s.putSession sessionId { session with securityContext := some s.securityContexts } with
          securityContexts := s.securityContexts + 1 },
        some s.securityContexts)

/-- `setSecurityVerification`; an evidence that is not given stays. -/
def setSecurityVerification (sessionId : String) (pending : Bool) (evidence : Option (Option Json))
    (error : Option String) (status : Option SecurityReport) : AxiomStateStore :=
  s.editSession sessionId fun session =>
    { session with
      securityVerificationPending := pending
      securityVerificationError := error
      securityEvidence := evidence.getD session.securityEvidence
      security := status.or session.security }

/-- `addSession`. -/
def addSession (sessionId cwd : String) : AxiomStateStore :=
  let session := s.session sessionId cwd
  s.putSession sessionId (if cwd = "" then session else { session with cwd })

/-- `removeSession`. -/
def removeSession (sessionId : String) : AxiomStateStore :=
  { s with
    sessions := Function.update s.sessions sessionId none
    textRevisions := Function.update s.textRevisions sessionId none }

/-- `setCatalog`. -/
def setCatalog (catalog : List ThreadSummary) : AxiomStateStore :=
  catalog.foldl
    (fun t thread => if (t.sessions thread.threadId).isSome then t.applyThreadSummary thread else t)
    { s with catalog }

/-- `Object.assign` of a summary onto one of the catalog: a field the new one leaves out stays. -/
def assignSummary (thread old : ThreadSummary) : ThreadSummary :=
  { thread with
    title := thread.title.or old.title
    selectedModel := thread.selectedModel.or old.selectedModel
    lastMessageAt := thread.lastMessageAt.or old.lastMessageAt
    lastUserMessageAt := thread.lastUserMessageAt.or old.lastUserMessageAt }

/-- `applyThreadRename`. -/
def applyThreadRename (thread : ThreadSummary) : AxiomStateStore :=
  let known := s.catalog.find? (·.threadId = thread.threadId)
  let latest := (known.filter (thread.revision < ·.revision)).getD thread
  let catalog :=
    if known.any (thread.revision < ·.revision) then s.catalog
    else
      match s.catalog.findIdx? (·.threadId = thread.threadId) with
      | some i => s.catalog.modify i (assignSummary thread)
      | none => s.catalog
  { s with catalog }.editSession thread.threadId fun session =>
    { session with title := latest.title }

/-- The checks of `replaceTimeline` on the rows of the pages, from the sequence and the IDs seen. -/
def orderedItems (threadId : String) : Nat → List String → List DurableTimelineItem → Bool
  | _, _, [] => true
  | previous, ids, item :: items =>
    item.threadId = threadId && previous < item.sequence && !ids.contains item.id &&
      orderedItems threadId item.sequence (item.id :: ids) items

/-- The checks of `replaceTimeline` on the request records of the pages. -/
def validUsages : List String → List RequestUsage → Bool
  | _, [] => true
  | ids, usage :: usages =>
    validRequestUsage usage && !ids.contains usage.requestId &&
      validUsages (usage.requestId :: ids) usages

/-- `replaceTimeline`: whether the pages replaced the timeline, or why they are refused. -/
def replaceTimeline (env : Environment) (pages : List GetThreadTimelineResponse) :
    Except String (AxiomStateStore × Bool) :=
  match pages with
  | [] => .error "timeline replacement requires at least one page"
  | first :: _ =>
    let threadId := first.thread.threadId
    let revision := first.thread.revision
    let lastSequence := first.thread.lastTimelineSequence
    if pages.any fun page =>
        page.thread.threadId ≠ threadId || page.thread.revision ≠ revision ||
          page.thread.lastTimelineSequence ≠ lastSequence then
      .error "timeline changed while it was being paginated"
    else if (s.sessions threadId).any (revision < ·.threadRevision) then
      .ok (s.editSession threadId fun session => { session with needsResync := true }, false)
    else
      let items := pages.flatMap (·.items)
      let requestUsage := pages.flatMap (·.requestUsage)
      if orderedItems threadId 0 [] items = false then
        .error "timeline page order or identity is invalid"
      else if items.getLast?.map (·.sequence) ≠ some lastSequence ∧ lastSequence ≠ 0 then
        .error "timeline replacement did not reach the authoritative tail"
      else if validUsages [] requestUsage = false then
        .error "timeline accounting page identity is invalid"
      else
        let t := s.applyThreadSummary first.thread
        let replaced := t.withSession threadId fun session =>
          { session with
            activeTurnId := if session.running then first.activeTurnId else none
            contextUsage := validContextUsage env.isDate first.contextUsage
            requestUsage
            desktopAgent := first.desktopAgent
            timeline := items.map fromDurable
            needsResync := false }
        .ok ({ replaced with
          textRevisions := Function.update replaced.textRevisions threadId (some revision) }, true)

/-- `setDesktopMcp`. -/
def setDesktopMcp (response : DesktopMcpResponse) (threadId : Option String)
    (resetSelections : Bool) : AxiomStateStore :=
  let t := { s with mcp := some response }.editSessions fun session =>
    { session with
      desktopMcp := session.desktopMcp.map fun (selected : SelectedTools) =>
        ⟨response.revision, if resetSelections then [] else selected.selectedTools⟩ }
  match threadId.filter (· ≠ "") with
  | none => t
  | some threadId =>
    t.editSession threadId fun session =>
      { session with desktopMcp := some ⟨response.revision, response.selectedTools⟩ }

/-- `setDesktopAgent`. -/
def setDesktopAgent (response : ConfigureDesktopAgentResponse) : AxiomStateStore :=
  let threadId := response.thread.threadId
  if (s.sessions threadId).any (response.thread.revision < ·.threadRevision) then s
  else
    (s.applyThreadSummary response.thread).withSession threadId fun session =>
      { session with
        desktopAgent := some response.agent, currentModeId := some response.thread.profile }

/-- `setModes`. -/
def setModes (sessionId currentModeId : String) (modes : List SessionMode) : AxiomStateStore :=
  s.withSession sessionId fun session => { session with currentModeId := some currentModeId, modes }

/-- The current value of a configuration option, unless it is empty. -/
def optionValue (id : String) (options : List SessionConfigOption) : Option String :=
  ((options.find? (·.id = id)).map (·.currentValue)).filter (· ≠ "")

/-- `setConfig`. -/
def setConfig (sessionId : String) (options : List SessionConfigOption) : AxiomStateStore :=
  s.withSession sessionId fun session =>
    let session := { session with configOptions := options }
    let model := optionValue "model" options
    let thinking := optionValue "thinking" options
    if model.isNone ∧ thinking.isNone then session
    else
      let settings := session.settings.getD
        { model := "", thinkingLevel := "medium", permissionProfile := "web" }
      let secured := if model.any (· ≠ settings.model) then invalidateSecurity session else session
      { secured with
        settings := some { settings with
          model := model.getD settings.model
          thinkingLevel := thinking.getD settings.thinkingLevel } }

/-- `setRunning`. -/
def setRunning (sessionId : String) (running : Bool) : AxiomStateStore :=
  s.withSession sessionId fun session =>
    { session with running, activeTurnId := if running then session.activeTurnId else none }

/-- `addInteraction`. -/
def addInteraction (interaction : PendingInteraction) : AxiomStateStore :=
  match interaction.sessionId.filter (· ≠ "") with
  | none => s
  | some sessionId =>
    s.withSession sessionId fun session =>
      { session with interactions := session.interactions ++ [interaction] }

/-- `removeInteraction`. -/
def removeInteraction (interactionId : String) : AxiomStateStore :=
  s.editSessions fun session =>
    { session with interactions := session.interactions.filter (·.id ≠ interactionId) }

/-! ## Standard updates -/

/-- A message time of the delivery metadata: absent, `null`, or a text. -/
def messageTime (candidate : Json) (key : String) : Option (Option String) :=
  (candidate.get? key).map Json.asStr?

/-- `deliveryMetadata`: the first place that has an `axiom` object decides. -/
def deliveryMetadata (record update : Json) : Option DeliveryMetadata :=
  let axiomOf (v : Option Json) := (v.bind (·.object? "_meta")).bind (·.object? "axiom")
  match (axiomOf (some record)).or ((axiomOf (some update)).or (axiomOf (update.object? "content"))) with
  | none => none
  | some candidate =>
    match (candidate.get? "threadRevision").bind Json.nat?,
      (candidate.get? "lastTimelineSequence").bind Json.nat? with
    | some threadRevision, some lastTimelineSequence =>
      some
        { threadRevision, lastTimelineSequence
          lastMessageAt := messageTime candidate "lastMessageAt"
          lastUserMessageAt := messageTime candidate "lastUserMessageAt"
          timelineItemId := candidate.string? "timelineItemId"
          clientItemId := candidate.string? "clientItemId" }
    | _, _ => none

/-- What the delivery metadata of an update does to its session: a revision that is skipped asks
for a resync. -/
def advance (metadata : DeliveryMetadata) (session : ClientSessionState) : ClientSessionState :=
  { session with
    needsResync := session.needsResync ||
      (0 < session.threadRevision && session.threadRevision + 1 < metadata.threadRevision)
    threadRevision := max session.threadRevision metadata.threadRevision
    lastTimelineSequence := max session.lastTimelineSequence metadata.lastTimelineSequence
    lastMessageAt := metadata.lastMessageAt.getD session.lastMessageAt
    lastUserMessageAt := metadata.lastUserMessageAt.getD session.lastUserMessageAt }

/-- A configuration option of an update. -/
def configOption? (v : Json) : Option SessionConfigOption :=
  match v.string? "id", v.string? "name", v.string? "currentValue" with
  | some id, some name, some currentValue => some { id, name, currentValue }
  | _, _, _ => none

/-- The arms of `standardUpdate` other than chunks, by the type of the update. -/
def applyOther (random : Nat → String) (sessionId : String) (metadata : Option DeliveryMetadata)
    (type : String) (update : Json) : AxiomStateStore :=
  let timelineItemId := metadata.bind (·.timelineItemId)
  match type with
  | "tool_call" | "tool_call_update" =>
    let callId := ((update.string? "toolCallId").or
      ((update.string? "id").or timelineItemId)).getD (random 0)
    s.withSession sessionId fun session =>
      { session with timeline := applyToolUpdate callId update session.timeline }
  | "plan" =>
    let itemId := (timelineItemId.or (update.string? "id")).getD (random 0)
    s.withSession sessionId fun session =>
      { session with timeline := applyPlan itemId update session.timeline }
  | "current_mode_update" =>
    match update.string? "currentModeId" with
    | some currentModeId =>
      s.withSession sessionId fun session => { session with currentModeId := some currentModeId }
    | none => s
  | "config_option_update" =>
    match (update.get? "configOptions").bind Json.arr? with
    | some options => s.setConfig sessionId (options.filterMap configOption?)
    | none => s
  | "session_info_update" =>
    match update.string? "title" with
    | none => s
    | some title =>
      let summary := s.catalog.find? (·.threadId = sessionId)
      if metadata.isNone ∨ summary.isNone ∨
          (metadata.map (·.threadRevision)).getD 0 ≥ (summary.map (·.revision)).getD 0 then
        let t := s.withSession sessionId fun session => { session with title := some title }
        match s.catalog.findIdx? (·.threadId = sessionId) with
        | none => t
        | some i =>
          { t with catalog := s.catalog.modify i fun summary =>
            { summary with
              title := some title
              revision := max summary.revision ((metadata.map (·.threadRevision)).getD 0) } }
      else s
  | _ => s

/-- A chunk: its text goes to the timeline unless the timeline holds it already. -/
def deliverChunk (random : Nat → String) (sessionId : String) (metadata : Option DeliveryMetadata)
    (kind : ItemKind) (update : Json) : AxiomStateStore :=
  if metadata.any fun m => (s.textRevisions sessionId).any (m.threadRevision ≤ ·) then s
  else
    let t := s.withSession sessionId fun session =>
      { session with timeline := applyChunk random metadata kind update session.timeline }
    match metadata with
    | none => t
    | some m =>
      { t with textRevisions := Function.update t.textRevisions sessionId (some m.threadRevision) }

/-- The part of `standardUpdate` that follows its delivery metadata. -/
def deliver (random : Nat → String) (sessionId : String) (metadata : Option DeliveryMetadata)
    (update : Json) : AxiomStateStore :=
  let type := (update.string? "sessionUpdate").getD ""
  match chunkKind? type with
  | some kind => s.deliverChunk random sessionId metadata kind update
  | none => s.applyOther random sessionId metadata type update

/-- `standardUpdate` of an update of a session. -/
def updateSession (random : Nat → String) (sessionId : String) (record update : Json) :
    AxiomStateStore :=
  let session := s.session sessionId ""
  match deliveryMetadata record update with
  | none => (s.putSession sessionId session).deliver random sessionId none update
  | some m =>
    if m.threadRevision < session.threadRevision then s.putSession sessionId session
    else (s.putSession sessionId (advance m session)).deliver random sessionId (some m) update

/-- `standardUpdate`. -/
def standardUpdate (random : Nat → String) (params : Json) : AxiomStateStore :=
  if s.accountBlocked then s
  else
    match params.string? "sessionId", params.object? "update" with
    | some sessionId, some update => s.updateSession random sessionId params update
    | _, _ => s

/-! ## Extension events -/

/-- `applyActivity` of a session's security event. -/
def applySecurity (env : Environment) (sessionId : String) (status : SecurityReport)
    (evidence : Option Json) : AxiomStateStore × Except String Unit :=
  let session := s.session sessionId ""
  let t := s.putSession sessionId session
  match evidence with
  | none => (t.putSession sessionId { session with security := some status }, .ok ())
  | some evidence =>
    match env.publicSecurityEvidence status evidence ((session.settings.map (·.model)).getD "") with
    | .malformed =>
      (t, .error "AxiomCLI returned an incomplete or mismatched verification report")
    | .missing => (t, .error "The inference session returned no fresh attestation report")
    | .fresh report =>
      ({ t.putSession sessionId
          { session with
            securityContext := some s.securityContexts
            securityEvidence := some report
            securityVerificationPending := false
            securityVerificationError := none
            security := some status } with
          securityContexts := s.securityContexts + 1 },
        .ok ())

/-- The records of a session's requests with one put where its request is, or at the end. -/
def putUsage (usage : RequestUsage) (usages : List RequestUsage) : List RequestUsage :=
  match usages.findIdx? (·.requestId = usage.requestId) with
  | some i => usages.modify i fun _ => usage
  | none => usages ++ [usage]

/-- `applyActivity`. -/
def applyActivity (env : Environment) (sessionId : Option String) (event : ActivityEvent) :
    AxiomStateStore × Except String Unit :=
  match event with
  | .accountChanged status => (s.applyAccount status, .ok ())
  | event =>
    if s.accountBlocked then (s, .ok ())
    else
      match event, sessionId.filter (· ≠ "") with
      | .activeTurnChanged turnId, some id =>
        (s.withSession id fun session => { session with activeTurnId := turnId }, .ok ())
      | .collectionsChanged state, _ => (s.setCollections state, .ok ())
      | .profilePreferencesChanged preferences, _ =>
        ({ s with preferences := some preferences }, .ok ())
      | .billingChanged status, _ => (s.setBilling status, .ok ())
      | .securityChanged status evidence, some id => s.applySecurity env id status evidence
      | .requestUsageChanged usage, some id =>
        if validRequestUsage usage then
          (s.withSession id fun session =>
            { session with
              requestUsage := putUsage usage session.requestUsage
              needsResync := session.needsResync || usage.responseVerified }, .ok ())
        else (s, .ok ())
      | .contextUsageChanged usage, some id =>
        (s.withSession id fun session =>
          { session with contextUsage := validContextUsage env.isDate (some usage) }, .ok ())
      | _, _ => (s, .ok ())

/-- What an event's own revision does to its session, where there is one. -/
def advanceByEvent (notification : EventNotification) : AxiomStateStore :=
  match notification.sessionId.filter (· ≠ ""), notification.threadRevision with
  | some sessionId, some revision =>
    s.editSession sessionId fun session =>
      { session with
        needsResync := session.needsResync ||
          (0 < session.threadRevision && session.threadRevision + 1 < revision)
        threadRevision := max session.threadRevision revision
        lastTimelineSequence :=
          max session.lastTimelineSequence (notification.lastTimelineSequence.getD 0) }
  | _, _ => s

/-- What `extensionEvent` does before it applies the activity: a new runtime drops everything, a
gap of the event sequence asks every session for a resync. -/
def observeEvent (notification : EventNotification) : AxiomStateStore :=
  let runtimeChanged := s.runtimeInstanceId.any (· ≠ notification.runtimeInstanceId)
  let sequenceGap := s.runtimeInstanceId = some notification.runtimeInstanceId ∧
    s.lastSequence + 1 < notification.sequence
  let t :=
    if runtimeChanged then { s.clearContext with lastSequence := 0, account := none }
    else if sequenceGap then s.editSessions fun session => { session with needsResync := true }
    else s
  { t with
    runtimeInstanceId := some notification.runtimeInstanceId
    lastSequence := max t.lastSequence notification.sequence }

structure ExtensionEventResult where
  threadId : Option String
  fullResync : Bool
  deriving DecidableEq, Repr

/-- `extensionEvent`; an event that was seen has no result. -/
def extensionEvent (env : Environment) (notification : EventNotification) :
    AxiomStateStore × Except String (Option ExtensionEventResult) :=
  if s.runtimeInstanceId = some notification.runtimeInstanceId ∧
      notification.sequence ≤ s.lastSequence then
    (s, .ok none)
  else
    let fullResync := s.runtimeInstanceId.any fun id =>
      id ≠ notification.runtimeInstanceId || s.lastSequence + 1 < notification.sequence
    match (s.observeEvent notification).applyActivity env notification.sessionId
      notification.event with
    | (t, .error e) => (t, .error e)
    | (t, .ok _) =>
      let u := t.advanceByEvent notification
      let threadId := notification.sessionId.filter fun id =>
        id ≠ "" && (u.sessions id).any (·.needsResync)
      (u, .ok (some ⟨threadId, fullResync⟩))

end AxiomStateStore

/-! ## The store as a machine -/

/-- The operations of the store. -/
inductive StoreOp where
  | initializeRuntime (runtimeInstanceId : String)
  | setConnected (connected : Bool) (error : Option String)
  | setDiagnostic (diagnostic : String)
  | setImageGenerationAvailable (available : Bool)
  | securityContextToken (sessionId : String)
  | setSecurityVerification (sessionId : String) (pending : Bool) (evidence : Option (Option Json))
      (error : Option String) (status : Option SecurityReport)
  | setAccount (account : AccountStatus)
  | setCollections (collections : CollectionState)
  | setPreferences (preferences : Json)
  | setBilling (status : BillingStatus)
  | addSession (sessionId cwd : String)
  | removeSession (sessionId : String)
  | setCatalog (catalog : List ThreadSummary)
  | applyThreadRename (thread : ThreadSummary)
  | replaceTimeline (pages : List GetThreadTimelineResponse)
  | setDesktopMcp (response : DesktopMcpResponse) (threadId : Option String) (reset : Bool)
  | setDesktopAgent (response : ConfigureDesktopAgentResponse)
  | setModes (sessionId currentModeId : String) (modes : List SessionMode)
  | setConfig (sessionId : String) (options : List SessionConfigOption)
  | setRunning (sessionId : String) (running : Bool)
  | addInteraction (interaction : PendingInteraction)
  | removeInteraction (interactionId : String)
  | standardUpdate (random : Nat → String) (params : Json)
  | extensionEvent (notification : EventNotification)

namespace AxiomStateStore

/-- The state after an operation. -/
def apply (env : Environment) (s : AxiomStateStore) : StoreOp → AxiomStateStore
  | .initializeRuntime id =>
    match s.initializeRuntime id with
    | .ok t => t
    | .error _ => s
  | .setConnected connected error => s.setConnected connected error
  | .setDiagnostic diagnostic => { s with diagnostic }
  | .setImageGenerationAvailable available => { s with imageGenerationAvailable := available }
  | .securityContextToken id => (s.securityContextToken id).1
  | .setSecurityVerification id pending evidence error status =>
    s.setSecurityVerification id pending evidence error status
  | .setAccount account => s.applyAccount account
  | .setCollections collections => s.setCollections collections
  | .setPreferences preferences => { s with preferences := some preferences }
  | .setBilling status => s.setBilling status
  | .addSession id cwd => s.addSession id cwd
  | .removeSession id => s.removeSession id
  | .setCatalog catalog => s.setCatalog catalog
  | .applyThreadRename thread => s.applyThreadRename thread
  | .replaceTimeline pages =>
    match s.replaceTimeline env pages with
    | .ok (t, _) => t
    | .error _ => s
  | .setDesktopMcp response threadId reset => s.setDesktopMcp response threadId reset
  | .setDesktopAgent response => s.setDesktopAgent response
  | .setModes id currentModeId modes => s.setModes id currentModeId modes
  | .setConfig id options => s.setConfig id options
  | .setRunning id running => s.setRunning id running
  | .addInteraction interaction => s.addInteraction interaction
  | .removeInteraction id => s.removeInteraction id
  | .standardUpdate random params => s.standardUpdate random params
  | .extensionEvent notification => (s.extensionEvent env notification).1

/-- The store as a machine; what it publishes is its state. -/
def machine (env : Environment) : Machine AxiomStateStore StoreOp Empty where
  step s op := (s.apply env op, [])

end AxiomStateStore

end AxiomDesktop.Client
