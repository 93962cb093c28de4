import Mathlib.Logic.Relation
import AxiomDesktop.Session.Metadata

/-!
# What one event writes

A persisted event is one of a few cases (`Persisted`): the creation of the thread, a change of its
columns, a prompt, the start of a turn, a delta, a report of a request, a verification, the end of
a turn, or a series of notes (`Annotates`) beside the messages, which an interaction follows with
a change of the lifecycle. `persistEvent_ok` sorts every event into its case; what the store keeps
is then proved case by case.
-/

namespace AxiomDesktop.Store

open Fallible

/-! ## Notes -/

/-- What a note leaves of its thread. -/
structure KeepsThread (r r' : StoredThread) : Prop where
  id : r'.id = r.id
  revision : r'.revision = r.revision
  nextTimelineSequence : r'.nextTimelineSequence = r.nextTimelineSequence
  lifecycle : r'.lifecycle = r.lifecycle
  cwd : r'.cwd = r.cwd
  profile : r'.profile = r.profile
  origin : r'.origin = r.origin
  title : r'.title = r.title
  titleGenerationId : r'.titleGenerationId = r.titleGenerationId

/-- What a rewrite leaves of a row. -/
structure KeepsRow (i i' : TimelineItem) : Prop where
  id : i'.id = i.id
  threadId : i'.threadId = i.threadId
  sequence : i'.sequence = i.sequence
  kind : i'.kind = i.kind
  clientItemId : i'.clientItemId = i.clientItemId
  externalId : i'.externalId = i.externalId

/-- One statement of a note of thread `t`. A note names turns in `N`, and it opens a row that was
closed only in a turn of `A`. -/
inductive Annotates (t : String) (N A : String → Prop) : Database → Database → Prop where
  | thread (s : Database) (f : StoredThread → StoredThread) (hf : ∀ r, KeepsThread r (f r)) :
      Annotates t N A s (s.setThread t f fun r => (hf r).id)
  | newRow (s s' : Database) (w : TimelineItemWrite) (i : TimelineItem) (h : Inserted t w s i s')
      (hkind : w.kind ≠ .assistantMessage ∧ w.kind ≠ .reasoning)
      (hnoted : Noted i.metadata)
      (hturn : ∀ T, w.turnId = some T → N T)
      (huser : w.kind = .userMessage → w.turnId ≠ none ∧ w.status = .completed) :
      Annotates t N A s s'
  | row (s : Database) (id : String) (f : TimelineItem → TimelineItem)
      (hf : ∀ i, KeepsRow i (f i))
      (hrow : ∀ i ∈ s.timelineItems.rows, i.id = id → i.threadId = t ∧ i.externalId ≠ none)
      (hnoted : ∀ i ∈ s.timelineItems.rows, i.id = id → Noted i.metadata → Noted (f i).metadata)
      (hturn : ∀ i ∈ s.timelineItems.rows, i.id = id → ∀ T, (f i).turnId = some T →
        i.turnId = some T ∨ i.turnId = none ∧ N T)
      (hturn' : ∀ i T, i.turnId = some T → (f i).turnId = some T)
      (hopen : ∀ i ∈ s.timelineItems.rows, i.id = id → (f i).status.isOpen = true →
        i.status.isOpen = true ∨ ∀ T, i.turnId = some T → A T) :
      Annotates t N A s (s.setItem id f fun i => (hf i).id)
  | counts (s : Database) (T : String) (input output : Nat) :
      Annotates t N A s
        { s with
          turns := s.turns.update (fun r => r.key = (t, T))
            (fun r => { r with inputTokens := input, outputTokens := output }) fun _ => rfl }

/-- A series of notes. -/
def Annotations (t : String) (N A : String → Prop) : Database → Database → Prop :=
  Relation.ReflTransGen (Annotates t N A)

section Notes

variable {t : String} {N A : String → Prop} {tx tx' : Transaction}

theorem Annotations.refl (s : Database) : Annotations t N A s s := Relation.ReflTransGen.refl

theorem Annotates.single {s s' : Database} (h : Annotates t N A s s') : Annotations t N A s s' :=
  Relation.ReflTransGen.single h

theorem Annotations.trans {s s' s'' : Database} (h : Annotations t N A s s')
    (h' : Annotations t N A s' s'') : Annotations t N A s s'' :=
  Relation.ReflTransGen.trans h h'

/-- A row found by its external id is the only one with its id. -/
theorem found_unique {s : Database} {i j : TimelineItem} (hi : i ∈ s.timelineItems.rows)
    (hj : j ∈ s.timelineItems.rows) (h : j.id = i.id) : j = i :=
  s.timelineItems.eq_of_key hj hi h

/-- A row that was found is rewritten. -/
theorem annotates_found {s : Database} {i : TimelineItem} {x : String}
    (hi : i ∈ s.timelineItems.rows ∧ i.threadId = t ∧ i.externalId = some x)
    (f : TimelineItem → TimelineItem) (hf : ∀ i, KeepsRow i (f i))
    (hnoted : Noted i.metadata → Noted (f i).metadata)
    (hturn : ∀ T, (f i).turnId = some T → i.turnId = some T ∨ i.turnId = none ∧ N T)
    (hturn' : ∀ i T, i.turnId = some T → (f i).turnId = some T)
    (hopen : (f i).status.isOpen = true → i.status.isOpen = true ∨ ∀ T, i.turnId = some T → A T) :
    Annotates t N A s (s.setItem i.id f fun i => (hf i).id) := by
  obtain ⟨hmem, hthread, hext⟩ := hi
  refine .row s i.id f hf ?_ ?_ ?_ hturn' ?_
  · intro j hj hid
    rw [found_unique hmem hj hid]
    exact ⟨hthread, by simp [hext]⟩
  · intro j hj hid
    rw [found_unique hmem hj hid]
    exact hnoted
  · intro j hj hid
    rw [found_unique hmem hj hid]
    exact hturn
  · intro j hj hid
    rw [found_unique hmem hj hid]
    exact hopen

theorem mem_inserted {s s' : Database} {w : TimelineItemWrite} {i : TimelineItem}
    (h : Inserted t w s i s') : i ∈ s'.timelineItems.rows := by
  cases h with
  | intro thread items hthread hitems hrow hclient =>
    exact (Rows.mem_insert? hitems).mpr (.inr rfl)

theorem Inserted.fields {s s' : Database} {w : TimelineItemWrite} {i : TimelineItem}
    (h : Inserted t w s i s') :
    i.threadId = t ∧ i.turnId = w.turnId ∧ i.kind = w.kind ∧ i.status = w.status ∧
      i.externalId = w.externalId ∧ i.content = w.content ∧ i.metadata = redactValue w.metadata ∧
      i.clientItemId = w.clientItemId := by
  cases h with
  | intro thread items hthread hitems hrow hclient =>
    rw [hrow]
    exact ⟨rfl, rfl, rfl, rfl, rfl, rfl, rfl, rfl⟩

/-- A note that writes a row by its external id. -/
theorem annotations_upsert {w : TimelineItemWrite} {id : String}
    (h : (upsertTimelineItem t w).exec tx = (.ok id, tx'))
    (hkind : w.kind ≠ .assistantMessage ∧ w.kind ≠ .reasoning ∧ w.kind ≠ .userMessage)
    (hnoted : Noted w.metadata) (hturn : ∀ T, w.turnId = some T → N T)
    (hopen : w.status.isOpen = true → ∀ x i T, w.externalId = some x →
      tx.db.findExternalItem t w.kind x = some i → i.turnId = some T → A T) :
    Annotations t N A tx.db tx'.db := by
  obtain ⟨x, i, hx, hfound, hdb⟩ | ⟨-, i, hi⟩ := upsertTimelineItem_ok h
  · obtain ⟨hmem, hthread, -, hext⟩ := findExternalItem_some hfound
    rw [hdb]
    refine (annotates_found ⟨hmem, hthread, hext⟩ w.overwrite
      (fun _ => ⟨rfl, rfl, rfl, rfl, rfl, rfl⟩) (fun _ => hnoted.redact) ?_ ?_ ?_).single
    · intro T hT
      cases hi : i.turnId with
      | none =>
        rw [TimelineItemWrite.overwrite, hi] at hT
        exact .inr ⟨rfl, hturn T hT⟩
      | some T' =>
        rw [TimelineItemWrite.overwrite, hi] at hT
        exact .inl hT
    · intro i T hT
      rw [TimelineItemWrite.overwrite, hT]
      rfl
    · exact fun hw => .inr fun T hT => hopen hw x i T hx hfound hT
  · obtain ⟨-, -, -, -, -, -, hmeta, -⟩ := hi.fields
    exact (Annotates.newRow _ _ w i hi ⟨hkind.1, hkind.2.1⟩ (by rw [hmeta]; exact hnoted.redact)
      hturn fun hu => absurd hu hkind.2.2).single

/-- A note of a row known by its external id: the row is made where there is none, and then
rewritten. -/
theorem annotations_ensure {turnId : Option String} {kind : TimelineItemKind} {x now id : String}
    {metadata : Json}
    (h : (ensureExternalItem t turnId kind x metadata now).exec tx = (.ok id, tx'))
    (hkind : kind ≠ .assistantMessage ∧ kind ≠ .reasoning ∧ kind ≠ .userMessage)
    (hnoted : Noted metadata) (hturn : ∀ T, turnId = some T → N T) :
    Annotations t N A tx.db tx'.db ∧
      ∃ i ∈ tx'.db.timelineItems.rows, i.id = id ∧ i.threadId = t ∧ i.externalId = some x ∧
        (tx.db.findExternalItem t kind x = some i ∨ i.status.isOpen = true) ∧
        (tx.db.findExternalItem t kind x = some i ∨ Noted i.metadata) := by
  obtain ⟨i, hfound, rfl, rfl⟩ | ⟨-, i, rfl, hi⟩ := ensureExternalItem_ok h
  · obtain ⟨hmem, hthread, -, hext⟩ := findExternalItem_some hfound
    exact ⟨.refl _, i, hmem, rfl, hthread, hext, .inl hfound, .inl hfound⟩
  · obtain ⟨hthread, -, -, hstatus, hext, -, hmeta, -⟩ := hi.fields
    have hnoted' : Noted i.metadata := by
      rw [hmeta]
      exact hnoted.redact
    refine ⟨(Annotates.newRow _ _ _ i hi ⟨hkind.1, hkind.2.1⟩ hnoted' hturn
      fun hu => absurd hu hkind.2.2).single, i, mem_inserted hi, rfl, hthread, hext, .inr ?_,
      .inr hnoted'⟩
    rw [hstatus]
    rfl

theorem annotations_notice {turnId : Option String} {status : TimelineItemStatus}
    {code content now : String} {details : Json} {u : PUnit}
    (h : (insertNotice t turnId status code content details now).exec tx = (.ok u, tx'))
    (hturn : ∀ T, turnId = some T → N T) :
    Annotations t N A tx.db tx'.db := by
  rw [insertNotice, exec_bind_ok] at h
  obtain ⟨id, tx₁, hinsert, h⟩ := h
  rw [exec_pure] at h
  obtain ⟨-, rfl⟩ := Prod.mk.inj h
  obtain ⟨i, -, hi⟩ := insertTimelineItem_ok hinsert
  obtain ⟨-, -, -, -, -, -, hmeta, -⟩ := hi.fields
  refine (Annotates.newRow _ _ _ i hi ⟨nofun, nofun⟩ ?_ hturn nofun).single
  rw [hmeta]
  exact (Noted.obj rfl).redact

theorem annotations_resolution {x now : String} {fields : List (String × Json)}
    {status : TimelineItemStatus} {u : PUnit}
    (h : (updateNoticeResolution t x fields status now).exec tx = (.ok u, tx'))
    (hfields : fields.all (fun f => isPlainKey f.1) = true) (hstatus : status.isOpen = false) :
    Annotations t N A tx.db tx'.db := by
  obtain hdb | ⟨i, hfound, hdb⟩ := updateNoticeResolution_ok h
  · rw [hdb]
    exact .refl _
  · obtain ⟨hmem, hthread, hext⟩ := findAnyExternalItem_some hfound
    rw [hdb]
    refine (annotates_found ⟨hmem, hthread, hext⟩
      (fun j =>
        { j with status, metadata := redactValue (extend i.metadata fields), updatedAt := now })
      (fun _ => ⟨rfl, rfl, rfl, rfl, rfl, rfl⟩) (fun hi => (hi.extend hfields).redact)
      (fun T hT => .inl hT) (fun _ _ hT => hT) ?_).single
    intro hopen
    rw [hstatus] at hopen
    cases hopen

end Notes

/-! ## The cases of an event -/

/-- The turn an event names beside the one that runs. -/
def namedTurn : AppEvent → Option String
  | .steeringApplied turnId _ _ | .toolProposed turnId _ _ _ => some turnId.toString
  | _ => none

/-- The kind and the external id of the row an event opens. -/
def address (e : AppEvent) (t : String) (s : Database) : Option (TimelineItemKind × String) :=
  match e with
  | .progressUpdated _ _ _ => some (.notice, "progress:" ++ turnScope s t)
  | .taskListUpdated _ => some (.plan, "task-list:" ++ turnScope s t)
  | .toolProposed _ callId _ _ | .toolStarted callId _ | .toolOutput callId _ _ =>
    some (.toolCall, callId)
  | .permissionRequired requestId _ _ _ => some (.notice, requestId)
  | .questionAsked questionId _ _ => some (.notice, questionId)
  | .questionsAsked request => some (.notice, request.requestId)
  | .planProposed planId _ _ => some (.plan, planId)
  | .backgroundTaskChanged taskId _ => some (.toolCall, taskId)
  | _ => none

/-- The row an event opens again, where it is there. -/
def addressed (e : AppEvent) (t : String) (s : Database) : Option TimelineItem :=
  (address e t s).bind fun a => s.findExternalItem t a.1 a.2

/-- The turns the notes of an event name. -/
def Names (e : AppEvent) (t : String) (s : Database) (T : String) : Prop :=
  s.activeTurnId t = some T ∨ namedTurn e = some T

/-- The turn of the row an event opens again. -/
def Reopens (e : AppEvent) (t : String) (s : Database) (T : String) : Prop :=
  ∃ i, addressed e t s = some i ∧ i.turnId = some T

/-- The events that are notes and nothing else. -/
def isNote : AppEvent → Bool
  | .steeringApplied .. | .contextUsageUpdated _ | .usageUpdated .. | .progressUpdated ..
  | .taskListUpdated _ | .toolProposed .. | .toolStarted .. | .toolOutput ..
  | .imageGenerationProgress .. | .imageGenerated .. | .toolCompleted .. | .diffAvailable ..
  | .planProposed .. | .planReviewed .. | .backgroundTaskChanged .. | .workspaceChanged _
  | .modelChanged _ | .thinkingLevelChanged _ | .contextCompacted .. | .providerStatusChanged ..
  | .securityStatusChanged _ | .securityEvidenceUpdated _ | .warningRaised _
  | .errorRaised none _ => true
  | _ => false

/-- The lifecycle an interaction puts its thread in. -/
def interactionLifecycle : AppEvent → Option ThreadLifecycle
  | .permissionRequired .. => some .waitingForApproval
  | .questionAsked .. | .questionsAsked _ => some .waitingForAnswer
  | .permissionResolved .. | .questionAnswered .. | .questionsAnswered .. | .questionsFailed .. =>
    some .running
  | _ => none

/-- The turn, the kind and the text of a delta. -/
def deltaOf : AppEvent → Option (String × TimelineItemKind × String)
  | .textDelta turnId text => some (turnId.toString, .assistantMessage, text)
  | .reasoningDelta turnId text => some (turnId.toString, .reasoning, text)
  | _ => none

/-- The turn an event ends, its status and its error. -/
def finishOf : AppEvent → Option (String × TurnStatus × Option String)
  | .turnCompleted turnId => some (turnId.toString, .completed, none)
  | .turnCancelled turnId => some (turnId.toString, .cancelled, none)
  | .errorRaised (some turnId) message => some (turnId.toString, .failed, some (redactText message))
  | _ => none

/-- The row of the user. -/
def promptWrite (T text : String) (attachments : List PromptAttachment)
    (clientItemId : Option String) (now : String) : TimelineItemWrite :=
  { turnId := some T
    kind := .userMessage
    status := .completed
    clientItemId
    content := redactText text
    metadata :=
      if attachments.isEmpty then .obj []
      else .obj [("attachments", .arr (attachments.map (·.summary)))]
    now }

/-- The empty row of the answer. -/
def answerWrite (T now : String) : TimelineItemWrite :=
  { turnId := some T, kind := .assistantMessage, status := .inProgress, metadata := .obj [], now }

/-- The row of a delta that finds no open one. -/
def segmentWrite (T : String) (kind : TimelineItemKind) (requestId : Option String) (now : String) :
    TimelineItemWrite :=
  { turnId := some T
    kind
    status := .inProgress
    metadata := .obj [("request_id", .ofOption requestId)]
    now }

/-- What a delta does to its row. -/
def appendDelta (content now : String) (i : TimelineItem) : TimelineItem :=
  { i with
    content := i.content ++ content
    status := .inProgress
    metadata := (i.metadata.remove "terminal_verified").remove "terminalVerified"
    updatedAt := now }

/-- The attachments of a prompt are stored beside its row. -/
inductive Attached (text : String) (attachments : List PromptAttachment) (userItemId : String)
    (s : Database) : Database → Prop where
  | none (h : attachments = []) : Attached text attachments userItemId s s
  | some (h : attachments ≠ []) (rows : Rows StoredAttachments.userItemId)
      (hvalid : validatePrompt text attachments = .ok ())
      (hrows : s.promptAttachments.insert? { userItemId, payload := attachments } = Option.some rows) :
      Attached text attachments userItemId s { s with promptAttachments := rows }

/-! No write changes the key of a row. -/

theorem TurnRecord.key_running (r : TurnRecord) : { r with status := .running }.key = r.key := rfl

theorem TurnRecord.key_finished (status : TurnStatus) (error : Option String) (now : String)
    (r : TurnRecord) : { r with status, error, completedAt := some now }.key = r.key := rfl

theorem StoredUsage.id_ended (status : TurnStatus) (finished : String) (u : StoredUsage) :
    { u with record := endRequest status finished u.record }.requestId = u.requestId := rfl

theorem TimelineItem.id_closed (status : TurnStatus) (now : String) (i : TimelineItem) :
    { i with status := itemStatusOf status, updatedAt := now }.id = i.id := rfl

theorem TimelineItem.id_bound (usage : RequestUsage) (i : TimelineItem) :
    { i with metadata := i.metadata.set "request_id" (.str usage.requestId) }.id = i.id := rfl

theorem TimelineItem.id_verified (now : String) (i : TimelineItem) :
    { i with
      metadata := redactValue (i.metadata.set "terminal_verified" (.bool true))
      updatedAt := now }.id = i.id := rfl

theorem id_verifyItem (usage : RequestUsage) (now : String) (i : TimelineItem) :
    (verifyItem usage.finishReason now i).id = i.id := rfl

namespace Database

variable (s : Database) (t : String)

/-- `INSERT INTO turns .. ON CONFLICT(thread_id, id) DO UPDATE SET status='running'`. -/
def startTurn (T now : String) : Database :=
  { s with
    turns :=
      match s.turns.insert? { threadId := t, id := T, status := .running, startedAt := now } with
      | some turns => turns
      | none =>
        s.turns.update (fun r => r.key = (t, T)) (fun r => { r with status := .running })
          TurnRecord.key_running }

/-- The tables after `finish_turn` wrote them, its clock reading given. -/
def finishTurn (T : String) (status : TurnStatus) (error : Option String)
    (now finished : String) : Database :=
  let s' : Database :=
    { s with
      turns := s.turns.update (fun r => r.key = (t, T))
        (fun r => { r with status, error, completedAt := some now })
        (TurnRecord.key_finished status error now)
      requestUsage :=
        if status = .cancelled ∨ status = .failed ∨ status = .interrupted then
          s.requestUsage.update
            (fun u => u.threadId = t && u.record.turnId = some T && u.record.state = .running)
            (fun u => { u with record := endRequest status finished u.record })
            (StoredUsage.id_ended status finished)
        else s.requestUsage
      timelineItems := s.timelineItems.update
        (fun i => i.threadId = t && i.turnId = some T && i.status.isOpen)
        (fun i => { i with status := itemStatusOf status, updatedAt := now })
        (TimelineItem.id_closed status now) }
  s'.setLifecycle t .ready

/-- The records after a report of a request. -/
def putUsage (usage : RequestUsage) : Database :=
  { s with
    requestUsage :=
      match s.requestUsage.insert? { requestId := usage.requestId, threadId := t, record := usage }
      with
      | some requestUsage => requestUsage
      | none =>
        s.requestUsage.update (fun u => u.requestId = usage.requestId && u.threadId = t)
          (fun u => { u with record := usage }) fun _ => rfl }

/-- The empty answer of a turn goes to its first conversation request. -/
def bindRequest (usage : RequestUsage) : Database :=
  { s with
    timelineItems :=
      s.timelineItems.update
        (fun i => usage.turnId.any fun T => bindsRequest s t T usage.requestId i)
        (fun i => { i with metadata := i.metadata.set "request_id" (.str usage.requestId) })
        (TimelineItem.id_bound usage) }

/-- The rows of a verified request are marked. -/
def verifyRequest (usage : RequestUsage) (now : String) : Database :=
  { s with
    timelineItems := s.timelineItems.update (isRequestText t usage.requestId)
      (verifyItem usage.finishReason now) (id_verifyItem usage now) }

/-- The tables after a report of a request. -/
def reportUsage (usage : RequestUsage) (now : String) : Database :=
  let s₁ := s.putUsage t usage
  let s₂ :=
    if usage.purpose = .conversation ∧ usage.state = .running then s₁.bindRequest t usage else s₁
  if usage.responseVerified then s₂.verifyRequest t usage now else s₂

/-- The text of a turn is marked as a whole. -/
def verifyTurn (T now : String) : Database :=
  { s with
    timelineItems := s.timelineItems.update (isTurnText t T)
      (fun i =>
        { i with
          metadata := redactValue (i.metadata.set "terminal_verified" (.bool true))
          updatedAt := now })
      (TimelineItem.id_verified now) }

end Database

/-- The row a delta of a turn goes to: one that is there, or a new one. -/
inductive Segment (t T : String) (kind : TimelineItemKind) (now : String) (s : Database)
    (i : TimelineItem) : Database → Prop where
  | found (h : s.openSegment t T kind (s.runningRequest t T) = some i) :
      Segment t T kind now s i s
  | made (s' : Database) (h : s.openSegment t T kind (s.runningRequest t T) = none)
      (hi : Inserted t (segmentWrite T kind (s.runningRequest t T) now) s i s') :
      Segment t T kind now s i s'

/-- What an event did to the tables. -/
inductive Persisted (e : AppEvent) (t : String) (clientItemId : Option String) (now : String) :
    Database → Database → Prop where
  | notes (s s' : Database) (he : isNote e = true)
      (h : Annotations t (Names e t s) (Reopens e t s) s s') :
      Persisted e t clientItemId now s s'
  | interaction (s s' : Database) (l : ThreadLifecycle) (he : interactionLifecycle e = some l)
      (h : Annotations t (Names e t s) (Reopens e t s) s s') (hthread : s'.hasThread t = true) :
      Persisted e t clientItemId now s (s'.setLifecycle t l)
  | created (s : Database) (cwd : PathBuf) (origin : Origin) (profile : PermissionProfile)
      (he : e = .sessionCreated cwd origin profile) (threads : Rows StoredThread.id)
      (h : s.threads.insert?
        { id := t, cwd, origin, profile, createdAt := now, updatedAt := now } = some threads) :
      Persisted e t clientItemId now s { s with threads }
  | resumed (s : Database) (cwd : PathBuf) (origin : Origin) (profile : PermissionProfile)
      (he : e = .sessionResumed cwd origin profile) (hthread : s.hasThread t = true) :
      Persisted e t clientItemId now s
        (s.setThread t (fun r => { r with cwd, origin, profile, lifecycle := .ready }) fun _ => rfl)
  | configured (s : Database) (settings : DesktopAgentSettings)
      (he : e = .desktopAgentConfigured settings)
      (hthread : ∃ r ∈ s.threads.rows, r.id = t ∧ r.lifecycle = .ready) :
      Persisted e t clientItemId now s
        (s.setThread t
          (fun r =>
            { r with
              cwd := settings.workingDirectory
              profile := .forDesktopAgent settings
              desktopAgentSettings := some settings })
          fun _ => rfl)
  | profiled (s : Database) (profile : PermissionProfile) (he : e = .permissionProfileChanged profile)
      (hthread : s.hasThread t = true) :
      Persisted e t clientItemId now s (s.setThread t (fun r => { r with profile }) fun _ => rfl)
  | closed (s : Database) (he : e = .sessionClosed) (hthread : s.hasThread t = true) :
      Persisted e t clientItemId now s (s.setLifecycle t .closed)
  | prompt (s s₁ s₂ s₃ : Database) (turnId : TurnId) (text : String)
      (attachments : List PromptAttachment) (he : e = .promptAccepted turnId text attachments)
      (i j : TimelineItem)
      (hi : Inserted t (promptWrite turnId.toString text attachments clientItemId now) s i s₁)
      (hattached : Attached text attachments i.id s₁ s₂)
      (hj : Inserted t (answerWrite turnId.toString now) s₂ j s₃) (turns : Rows TurnRecord.key)
      (hturns : s₃.turns.insert?
        { threadId := t, id := turnId.toString, status := .running, userItemId := some i.id
          assistantItemId := some j.id, startedAt := now } = some turns) :
      Persisted e t clientItemId now s (({ s₃ with turns } : Database).setLifecycle t .running)
  | started (s : Database) (turnId : TurnId) (he : e = .turnStarted turnId)
      (hthread : s.hasThread t = true) :
      Persisted e t clientItemId now s
        ((s.startTurn t turnId.toString now).setLifecycle t .running)
  | delta (s s' : Database) (T : String) (kind : TimelineItemKind) (text : String)
      (he : deltaOf e = some (T, kind, text)) (i : TimelineItem)
      (h : Segment t T kind now s i s') :
      Persisted e t clientItemId now s
        (s'.setItem i.id (appendDelta (redactText text) now) fun _ => rfl)
  | reported (s : Database) (usage : RequestUsage) (he : e = .requestUsageUpdated usage)
      (hvalid : usage.validateCounters = true) (hthread : s.hasThread t = true) :
      Persisted e t clientItemId now s (s.reportUsage t usage now)
  | passed (s : Database) (turnId : TurnId) (he : e = .responseVerified turnId)
      (h : s.hasRequests t turnId.toString = true) :
      Persisted e t clientItemId now s s
  | verified (s : Database) (turnId : TurnId) (he : e = .responseVerified turnId)
      (h : s.hasRequests t turnId.toString = false) :
      Persisted e t clientItemId now s (s.verifyTurn t turnId.toString now)
  | finished (s s' : Database) (T : String) (status : TurnStatus) (error : Option String)
      (he : finishOf e = some (T, status, error))
      (hrunning : ∃ r ∈ s.turns.rows, r.threadId = t ∧ r.id = T ∧ r.status = .running)
      (hthread : s.hasThread t = true) (finished : String)
      (h : Annotations t (· = T) (fun _ => False) (s.finishTurn t T status error now finished) s') :
      Persisted e t clientItemId now s s'

end AxiomDesktop.Store
