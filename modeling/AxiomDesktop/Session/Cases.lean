import AxiomDesktop.Session.Writes

/-!
# The case of an event

Every event that was persisted is one of the cases of `Persisted` (`persistEvent_ok`). The lemmas
before it invert the bodies of the events one by one.
-/

namespace AxiomDesktop.Store

open Fallible

variable {t now : String} {tx tx' : Transaction} {u : PUnit}

/-! ## Turns -/

theorem mem_runningTurns {s : Database} {r : TurnRecord} :
    r ∈ s.runningTurns t ↔ r ∈ s.turns.rows ∧ r.threadId = t ∧ r.status = .running := by
  simp [Database.runningTurns, Database.turnsOf, and_assoc, and_comm]

theorem finishTurn_ok {T : String} {status : TurnStatus} {error : Option String}
    (h : (finishTurn t T status error now).exec tx = (.ok u, tx')) :
    (∃ r ∈ tx.db.turns.rows, r.threadId = t ∧ r.id = T ∧ r.status = .running) ∧
      tx.db.hasThread t = true ∧
      ∃ finished, tx'.db = tx.db.finishTurn t T status error now finished := by
  rw [finishTurn, exec_tables_bind, exec_bind_ok] at h
  obtain ⟨_, _, hcheck, h⟩ := h
  obtain ⟨hrunning, rfl⟩ := exec_failIf_ok.mp hcheck
  unfold updateTurn at h
  rw [exec_modifyTables_bind] at h
  have hrun : ∃ r ∈ tx.db.turns.rows, r.threadId = t ∧ r.id = T ∧ r.status = .running := by
    simp only [Bool.not_eq_true', Bool.not_eq_false, List.any_eq_true, decide_eq_true_eq] at hrunning
    obtain ⟨r, hr, hid⟩ := hrunning
    obtain ⟨hmem, hthread, hstatus⟩ := mem_runningTurns.mp hr
    exact ⟨r, hmem, hthread, hid, hstatus⟩
  refine ⟨hrun, ?_⟩
  split at h
  · rename_i hends
    dsimp only at h
    rw [exec_utcNow_bind] at h
    unfold updateUsage updateItems at h
    rw [exec_modifyTables_bind, exec_modifyTables_bind] at h
    obtain ⟨hthread, hdb⟩ := setThreadLifecycle_ok h
    refine ⟨hthread, (tx.env.utcNow tx.taken).timestampMillis, ?_⟩
    rw [hdb, Database.finishTurn, if_pos hends]
  · rename_i hends
    dsimp only at h
    unfold updateItems at h
    rw [exec_modifyTables_bind] at h
    obtain ⟨hthread, hdb⟩ := setThreadLifecycle_ok h
    refine ⟨hthread, "", ?_⟩
    rw [hdb, Database.finishTurn, if_neg hends]

theorem insertTurn_ok {r : TurnRecord} (h : (insertTurn r).exec tx = (.ok u, tx')) :
    ∃ turns, tx.db.turns.insert? r = some turns ∧ tx'.db = { tx.db with turns } := by
  rw [insertTurn, exec_tables_bind, exec_bind_ok] at h
  obtain ⟨turns, _, hinsert, h⟩ := h
  obtain ⟨hturns, rfl⟩ := exec_okOr_ok.mp hinsert
  rw [exec_modifyTables] at h
  exact ⟨turns, hturns, (congrArg (fun r => r.2.db) h).symm⟩

theorem insertAttachments_ok {a : StoredAttachments}
    (h : (insertAttachments a).exec tx = (.ok u, tx')) :
    ∃ rows, tx.db.promptAttachments.insert? a = some rows ∧
      tx'.db = { tx.db with promptAttachments := rows } := by
  rw [insertAttachments, exec_tables_bind, exec_bind_ok] at h
  obtain ⟨rows, _, hinsert, h⟩ := h
  obtain ⟨hrows, rfl⟩ := exec_okOr_ok.mp hinsert
  rw [exec_modifyTables] at h
  exact ⟨rows, hrows, (congrArg (fun r => r.2.db) h).symm⟩

theorem updateThread_ok {f : StoredThread → StoredThread} {hf : ∀ r, (f r).id = r.id}
    (h : (updateThread t f hf).exec tx = (.ok u, tx')) : tx'.db = tx.db.setThread t f hf := by
  unfold updateThread at h
  rw [exec_modifyTables] at h
  exact (congrArg (fun r => r.2.db) h).symm

theorem persistPrompt_ok {T text : String} {attachments : List PromptAttachment}
    {clientItemId : Option String}
    (h : (persistPrompt t T text attachments clientItemId now).exec tx = (.ok u, tx')) :
    ∃ (s₁ s₂ s₃ : Database) (i j : TimelineItem) (turns : Rows TurnRecord.key),
      Inserted t (promptWrite T text attachments clientItemId now) tx.db i s₁ ∧
      Attached text attachments i.id s₁ s₂ ∧ Inserted t (answerWrite T now) s₂ j s₃ ∧
      s₃.turns.insert?
        { threadId := t, id := T, status := .running, userItemId := some i.id
          assistantItemId := some j.id, startedAt := now } = some turns ∧
      tx'.db = ({ s₃ with turns } : Database).setLifecycle t .running := by
  rw [persistPrompt, exec_bind_ok] at h
  obtain ⟨_, tx₁, huser, h⟩ := h
  obtain ⟨i, rfl, hi⟩ := insertTimelineItem_ok huser
  have answer : ∀ (tx₂ : Transaction), Attached text attachments i.id tx₁.db tx₂.db →
      (do
        let assistantItemId ← insertTimelineItem t
          { turnId := some T
            kind := .assistantMessage
            status := .inProgress
            metadata := .obj []
            now }
        insertTurn
          { threadId := t, id := T
            status := .running
            userItemId := some i.id
            assistantItemId := some assistantItemId
            startedAt := now }
        updateThread t fun r => { r with lifecycle := .running } : StoreM PUnit).exec tx₂ =
          (.ok u, tx') →
      ∃ (s₁ s₂ s₃ : Database) (i j : TimelineItem) (turns : Rows TurnRecord.key),
        Inserted t (promptWrite T text attachments clientItemId now) tx.db i s₁ ∧
        Attached text attachments i.id s₁ s₂ ∧ Inserted t (answerWrite T now) s₂ j s₃ ∧
        s₃.turns.insert?
          { threadId := t, id := T, status := .running, userItemId := some i.id
            assistantItemId := some j.id, startedAt := now } = some turns ∧
        tx'.db = ({ s₃ with turns } : Database).setLifecycle t .running := by
    intro tx₂ hattached h
    rw [exec_bind_ok] at h
    obtain ⟨_, tx₃, hanswer, h⟩ := h
    obtain ⟨j, rfl, hj⟩ := insertTimelineItem_ok hanswer
    obtain ⟨_, tx₄, hturn, h⟩ := exec_bind_ok.mp h
    obtain ⟨turns, hturns, hdb⟩ := insertTurn_ok hturn
    refine ⟨tx₁.db, tx₂.db, tx₃.db, i, j, turns, hi, hattached, hj, hturns, ?_⟩
    rw [updateThread_ok h, hdb]
    rfl
  split at h
  · rename_i hne
    dsimp only at h
    obtain ⟨_, tx₂, hcheck, h⟩ := exec_bind_ok.mp h
    obtain ⟨hvalid, rfl⟩ := exec_ofResult_ok.mp hcheck
    obtain ⟨_, tx₂, hattach, h⟩ := exec_bind_ok.mp h
    obtain ⟨rows, hrows, hdb⟩ := insertAttachments_ok hattach
    have hvalid' : validatePrompt text attachments = .ok () := by
      cases hv : validatePrompt text attachments with
      | ok => rfl
      | error e =>
        rw [hv] at hvalid
        cases hvalid
    refine answer tx₂ ?_ h
    rw [hdb]
    exact .some hne rows hvalid' hrows
  · rename_i heq
    dsimp only at h
    exact answer tx₁ (.none (by simpa using heq)) h

theorem persistTurnStarted_ok {T : String}
    (h : (persistTurnStarted t T now).exec tx = (.ok u, tx')) :
    tx.db.hasThread t = true ∧ tx'.db = (tx.db.startTurn t T now).setLifecycle t .running := by
  rw [persistTurnStarted, exec_bind_ok] at h
  obtain ⟨_, tx₁, hensure, h⟩ := h
  obtain ⟨hthread, rfl⟩ := ensureThread_ok hensure
  rw [exec_tables_bind] at h
  refine ⟨hthread, ?_⟩
  unfold updateTurn at h
  split at h
  · rename_i turns hturns
    dsimp only at h
    rw [exec_modifyTables_bind] at h
    rw [updateThread_ok h, Database.startTurn, hturns]
    rfl
  · rename_i hturns
    dsimp only at h
    rw [exec_modifyTables_bind] at h
    rw [updateThread_ok h, Database.startTurn, hturns]
    rfl

/-! ## Message text -/

theorem appendTurnContent_ok {T content : String} {kind : TimelineItemKind}
    (h : (appendTurnContent t T kind content now).exec tx = (.ok u, tx')) :
    ∃ (s' : Database) (i : TimelineItem), Segment t T kind now tx.db i s' ∧
      tx'.db = s'.setItem i.id (appendDelta content now) fun _ => rfl := by
  rw [appendTurnContent, exec_tables_bind] at h
  dsimp only at h
  split at h
  · rename_i i hfound
    rw [pure_bind] at h
    exact ⟨tx.db, i, .found hfound, updateItem_ok h⟩
  · rename_i hnone
    obtain ⟨_, tx₁, hinsert, h⟩ := exec_bind_ok.mp h
    obtain ⟨i, rfl, hi⟩ := insertTimelineItem_ok hinsert
    exact ⟨tx₁.db, i, .made tx₁.db hnone hi, updateItem_ok h⟩

theorem upsertUsage_ok {usage : RequestUsage}
    (h : (upsertUsage { requestId := usage.requestId, threadId := t, record := usage }).exec tx =
      (.ok u, tx')) :
    tx.db.hasThread t = true ∧ tx'.db = tx.db.putUsage t usage := by
  rw [upsertUsage, exec_tables_bind, exec_bind_ok] at h
  obtain ⟨_, _, hcheck, h⟩ := h
  obtain ⟨hthread, rfl⟩ := exec_failIf_ok.mp hcheck
  refine ⟨by simpa [Database.hasThread] using hthread, ?_⟩
  unfold updateUsage at h
  unfold Database.putUsage
  generalize tx.db.requestUsage.insert?
    { requestId := usage.requestId, threadId := t, record := usage } = inserted at h ⊢
  cases inserted with
  | some rows => exact (congrArg (fun r => r.2.db) h).symm
  | none => exact (congrArg (fun r => r.2.db) h).symm

theorem persistRequestUsage_ok {usage : RequestUsage}
    (h : (persistRequestUsage t usage now).exec tx = (.ok u, tx')) :
    usage.validateCounters = true ∧ tx.db.hasThread t = true ∧
      tx'.db = tx.db.reportUsage t usage now := by
  rw [persistRequestUsage, exec_bind_ok] at h
  obtain ⟨_, _, hcheck, h⟩ := h
  obtain ⟨hvalid, rfl⟩ := exec_failIf_ok.mp hcheck
  obtain ⟨_, tx₁, hput, h⟩ := exec_bind_ok.mp h
  obtain ⟨hthread, hdb⟩ := upsertUsage_ok hput
  refine ⟨by simpa using hvalid, hthread, ?_⟩
  have verify : ∀ tx₂ : Transaction,
      (if usage.responseVerified = true then
        updateItems (isRequestText t usage.requestId) (verifyItem usage.finishReason now)
      else pure ⟨⟩ : StoreM PUnit).exec tx₂ = (.ok u, tx') →
      tx'.db = if usage.responseVerified then tx₂.db.verifyRequest t usage now else tx₂.db := by
    intro tx₂ h
    unfold updateItems at h
    split at h
    · rename_i hverified
      rw [if_pos hverified]
      exact (congrArg (fun r => r.2.db) h).symm
    · rename_i hverified
      rw [if_neg hverified]
      exact (congrArg (fun r => r.2.db) h).symm
  rw [Database.reportUsage, ← hdb]
  dsimp only at h
  by_cases hrunning : usage.purpose = .conversation ∧ usage.state = .running
  · rw [if_pos hrunning, exec_tables_bind] at h
    obtain ⟨_, tx₂, hbind, h⟩ := exec_bind_ok.mp h
    unfold updateItems at hbind
    rw [exec_modifyTables] at hbind
    obtain ⟨-, rfl⟩ := Prod.mk.inj hbind
    rw [if_pos hrunning]
    exact verify _ h
  · rw [if_neg hrunning] at h
    rw [if_neg hrunning]
    exact verify _ h

theorem markResponseVerified_ok {T : String}
    (h : (markResponseVerified t T now).exec tx = (.ok u, tx')) :
    (tx.db.hasRequests t T = true ∧ tx'.db = tx.db) ∨
      (tx.db.hasRequests t T = false ∧ tx'.db = tx.db.verifyTurn t T now) := by
  rw [markResponseVerified, exec_tables_bind] at h
  split at h
  · rename_i hrequests
    exact .inl ⟨hrequests, (congrArg (fun r => r.2.db) h).symm⟩
  · rename_i hrequests
    obtain ⟨_, _, hcheck, h⟩ := exec_bind_ok.mp h
    obtain ⟨-, rfl⟩ := exec_failIf_ok.mp hcheck
    unfold updateItems at h
    exact .inr ⟨by simpa using hrequests, (congrArg (fun r => r.2.db) h).symm⟩

theorem persistDesktopAgent_ok {settings : DesktopAgentSettings}
    (h : (persistDesktopAgent t settings).exec tx = (.ok u, tx')) :
    (∃ r ∈ tx.db.threads.rows, r.id = t ∧ r.lifecycle = .ready) ∧
      tx'.db = tx.db.setThread t
        (fun r =>
          { r with
            cwd := settings.workingDirectory
            profile := .forDesktopAgent settings
            desktopAgentSettings := some settings })
        fun _ => rfl := by
  rw [persistDesktopAgent, exec_bind_ok] at h
  obtain ⟨expected, _, hrevision, h⟩ := h
  obtain ⟨-, rfl⟩ := exec_ofResult_ok.mp hrevision
  rw [exec_tables_bind, exec_bind_ok] at h
  obtain ⟨_, _, hcheck, h⟩ := h
  obtain ⟨hready, rfl⟩ := exec_failIf_ok.mp hcheck
  refine ⟨?_, updateThread_ok h⟩
  simp only [Bool.not_eq_true', Bool.not_eq_false, Rows.any, List.any_eq_true, Bool.and_eq_true,
    decide_eq_true_eq] at hready
  obtain ⟨r, hr, ⟨hid, hlife⟩, -⟩ := hready
  exact ⟨r, hr, hid, hlife⟩

/-! ## Notes -/

section Notes

variable {N A : String → Prop}

theorem annotations_external {x content : String} {kind : TimelineItemKind}
    {status : TimelineItemStatus} {metadata : Json}
    (h : (persistExternal t x kind status content metadata now).exec tx = (.ok u, tx'))
    (hkind : kind ≠ .assistantMessage ∧ kind ≠ .reasoning ∧ kind ≠ .userMessage)
    (hnoted : Noted metadata) (hactive : ∀ T, tx.db.activeTurnId t = some T → N T)
    (hopen : status.isOpen = true → ∀ i T, tx.db.findExternalItem t kind x = some i →
      i.turnId = some T → A T) :
    Annotations t N A tx.db tx'.db := by
  rw [persistExternal, exec_tables_bind, exec_bind_ok] at h
  obtain ⟨_, tx₁, hupsert, h⟩ := h
  rw [exec_pure] at h
  obtain ⟨-, rfl⟩ := Prod.mk.inj h
  refine annotations_upsert hupsert hkind hnoted hactive ?_
  intro hw y i T hy hfound hT
  cases hy
  exact hopen hw i T hfound hT

theorem annotations_threadNotice {x content : String} {status : TimelineItemStatus}
    {metadata : Json}
    (h : (persistThreadNotice t x status content metadata now).exec tx = (.ok u, tx'))
    (hstatus : status.isOpen = false) (hnoted : Noted metadata) :
    Annotations t N A tx.db tx'.db := by
  rw [persistThreadNotice, exec_bind_ok] at h
  obtain ⟨_, tx₁, hupsert, h⟩ := h
  rw [exec_pure] at h
  obtain ⟨-, rfl⟩ := Prod.mk.inj h
  refine annotations_upsert hupsert ⟨nofun, nofun, nofun⟩ hnoted nofun ?_
  intro hw
  rw [hstatus] at hw
  cases hw

theorem annotations_persistNotice {code content : String} {details : Json}
    (h : (persistNotice t code content details now).exec tx = (.ok u, tx'))
    (hactive : ∀ T, tx.db.activeTurnId t = some T → N T) :
    Annotations t N A tx.db tx'.db := by
  rw [persistNotice, exec_tables_bind] at h
  exact annotations_notice h hactive

theorem annotations_thread {f : StoredThread → StoredThread} {hid : ∀ r, (f r).id = r.id}
    (h : (updateThread t f hid).exec tx = (.ok u, tx')) (hf : ∀ r, KeepsThread r (f r)) :
    Annotations t N A tx.db tx'.db := by
  rw [updateThread_ok h]
  exact (Annotates.thread tx.db f hf).single

/-- The row of a note is rewritten after it was made sure to be there. -/
theorem annotations_rewrite {s : Database} {i : TimelineItem} {x : String}
    (hi : i ∈ tx.db.timelineItems.rows ∧ i.threadId = t ∧ i.externalId = some x)
    {f : TimelineItem → TimelineItem} {hid : ∀ i, (f i).id = i.id}
    (h : (updateItem i.id f hid).exec tx = (.ok u, tx')) (hs : Annotations t N A s tx.db)
    (hf : ∀ i, KeepsRow i (f i)) (hturn : ∀ i, (f i).turnId = i.turnId)
    (hnoted : Noted i.metadata → Noted (f i).metadata)
    (hopen : (f i).status.isOpen = true → i.status.isOpen = true ∨ ∀ T, i.turnId = some T → A T) :
    Annotations t N A s tx'.db := by
  rw [updateItem_ok h]
  refine hs.trans (annotates_found hi f hf hnoted ?_ ?_ hopen).single
  · intro T hT
    rw [hturn] at hT
    exact .inl hT
  · intro j T hT
    rw [hturn, hT]

theorem itemMetadata_ok {id : String} {m : Json} (h : (itemMetadata id).exec tx = (.ok m, tx')) :
    tx' = tx ∧ ∃ i ∈ tx.db.timelineItems.rows, i.id = id ∧ m = i.metadata := by
  rw [itemMetadata, exec_tables_bind, exec_bind_ok] at h
  obtain ⟨i, _, hread, h⟩ := h
  obtain ⟨hget, rfl⟩ := exec_okOr_ok.mp hread
  rw [exec_pure] at h
  obtain ⟨hm, rfl⟩ := Prod.mk.inj h
  obtain ⟨hmem, hid⟩ := Rows.get?_mem hget
  exact ⟨rfl, i, hmem, hid, (Except.ok.inj hm).symm⟩

theorem toolNoted (name : String) (arguments : Json) : Noted (toolMetadata name arguments) :=
  .obj rfl

theorem annotations_toolStarted {callId name : String}
    (h : (persistToolStarted t callId name now).exec tx = (.ok u, tx'))
    (hactive : ∀ T, tx.db.activeTurnId t = some T → N T)
    (hopen : ∀ i T, tx.db.findExternalItem t .toolCall callId = some i → i.turnId = some T → A T) :
    Annotations t N A tx.db tx'.db := by
  rw [persistToolStarted, exec_tables_bind, exec_bind_ok] at h
  obtain ⟨_, tx₁, hensure, h⟩ := h
  obtain ⟨hs, i, hmem, rfl, hthread, hext, hstatus, -⟩ :=
    annotations_ensure hensure ⟨nofun, nofun, nofun⟩ (toolNoted _ _) hactive
  refine annotations_rewrite ⟨hmem, hthread, hext⟩ h hs (fun _ => ⟨rfl, rfl, rfl, rfl, rfl, rfl⟩)
    (fun _ => rfl) id fun _ => ?_
  exact hstatus.elim (fun hfound => .inr fun T hT => hopen i T hfound hT) .inl

theorem annotations_toolOutput {callId content : String} {truncated : Bool}
    (h : (persistToolOutput t callId content truncated now).exec tx = (.ok u, tx'))
    (hactive : ∀ T, tx.db.activeTurnId t = some T → N T)
    (hopen : ∀ i T, tx.db.findExternalItem t .toolCall callId = some i → i.turnId = some T → A T) :
    Annotations t N A tx.db tx'.db := by
  rw [persistToolOutput, exec_tables_bind, exec_bind_ok] at h
  obtain ⟨_, tx₁, hensure, h⟩ := h
  obtain ⟨hs, i, hmem, rfl, hthread, hext, hstatus, -⟩ :=
    annotations_ensure hensure ⟨nofun, nofun, nofun⟩ (toolNoted _ _) hactive
  obtain ⟨metadata, tx₂, hmeta, h⟩ := exec_bind_ok.mp h
  obtain ⟨rfl, j, hj, hid, rfl⟩ := itemMetadata_ok hmeta
  obtain rfl := found_unique hmem hj hid
  refine annotations_rewrite ⟨hmem, hthread, hext⟩ h hs (fun _ => ⟨rfl, rfl, rfl, rfl, rfl, rfl⟩)
    (fun _ => rfl) (fun hi => (hi.set (by decide) _).redact) fun _ => ?_
  exact hstatus.elim (fun hfound => .inr fun T hT => hopen j T hfound hT) .inl

theorem annotations_toolCompleted {callId : String} {success : Bool}
    (h : (persistToolCompleted t callId success now).exec tx = (.ok u, tx')) :
    Annotations t N A tx.db tx'.db := by
  rw [persistToolCompleted, exec_tables_bind] at h
  split at h
  · rw [exec_pure] at h
    rw [← congrArg (fun r => r.2.db) h]
    exact .refl _
  · rename_i i hfound
    obtain ⟨hmem, hthread, -, hext⟩ := findExternalItem_some hfound
    refine annotations_rewrite ⟨hmem, hthread, hext⟩ h (.refl _)
      (fun _ => ⟨rfl, rfl, rfl, rfl, rfl, rfl⟩) (fun _ => rfl)
      (fun hi => (hi.set (by decide) _).redact) fun hopen => ?_
    cases success <;> cases hopen

theorem annotations_diff {callId diff : String} {truncated : Bool} {files : List FileDiff}
    (h : (persistDiff t callId diff truncated files now).exec tx = (.ok u, tx'))
    (hactive : ∀ T, tx.db.activeTurnId t = some T → N T) :
    Annotations t N A tx.db tx'.db := by
  rw [persistDiff, exec_tables_bind, exec_bind_ok] at h
  obtain ⟨_, tx₁, hensure, h⟩ := h
  obtain ⟨hs, i, hmem, rfl, hthread, hext, -, -⟩ :=
    annotations_ensure hensure ⟨nofun, nofun, nofun⟩ (.obj rfl) hactive
  obtain ⟨metadata, tx₂, hmeta, h⟩ := exec_bind_ok.mp h
  obtain ⟨rfl, j, hj, hid, rfl⟩ := itemMetadata_ok hmeta
  obtain rfl := found_unique hmem hj hid
  exact annotations_rewrite ⟨hmem, hthread, hext⟩ h hs (fun _ => ⟨rfl, rfl, rfl, rfl, rfl, rfl⟩)
    (fun _ => rfl)
    (fun hi => (((hi.set (by decide) _).set (by decide) _).set
      (by decide) _).redact)
    .inl

/-- Valid progress is read back from its JSON. -/
theorem ofJson?_toJson {p : ImageGenerationProgress} {previous : Option ImageGenerationProgress}
    (h : p.validAfter previous = true) : ImageGenerationProgress.ofJson? p.toJson = some p := by
  have hbound : p.percent < 100 := by
    unfold ImageGenerationProgress.validAfter at h
    simp only [Bool.and_eq_true, decide_eq_true_eq] at h
    omega
  have hnat : Json.nat? (.ofNat p.percent) = some p.percent := Text.digits?_toString p.percent
  obtain ⟨stage, percent⟩ := p
  have hpercent : percent < 256 := by
    change percent < 100 at hbound
    omega
  have hstage : ImageGenerationStage.ofName? stage.name = some stage := by cases stage <;> rfl
  simp [ImageGenerationProgress.toJson, ImageGenerationProgress.ofJson?, Json.string?, Json.get?,
    Json.lookup, Json.asStr?, hstage, hnat, hpercent]

/-- What is valid after other progress is valid. -/
theorem validAfter_none {p : ImageGenerationProgress} {previous : Option ImageGenerationProgress}
    (h : p.validAfter previous = true) : p.validAfter none = true := by
  unfold ImageGenerationProgress.validAfter at h ⊢
  rw [Bool.and_eq_true] at h
  rw [Bool.and_eq_true]
  exact ⟨h.1, rfl⟩

theorem annotations_imageProgress {callId : String} {progress : ImageGenerationProgress}
    (h : (persistImageProgress t callId progress now).exec tx = (.ok u, tx')) :
    Annotations t N A tx.db tx'.db := by
  rw [persistImageProgress, exec_tables_bind, exec_bind_ok] at h
  obtain ⟨i, _, hget, h⟩ := h
  obtain ⟨hfound, rfl⟩ := exec_okOr_ok.mp hget
  obtain ⟨hmem, hthread, -, hext⟩ := findExternalItem_some hfound
  -- whatever the stored progress is, the check that follows it decides
  have rest : ∀ (previous : Option ImageGenerationProgress) (tx₁ : Transaction), tx₁ = tx →
      (do
        failIf (!isImageTool i.metadata || !progress.validAfter previous)
          (.storage "invalid image progress or tool identity")
        updateItem i.id fun j =>
          { j with
            metadata := redactValue (i.metadata.set "image_progress" progress.toJson)
            updatedAt := now } : StoreM PUnit).exec tx₁ = (.ok u, tx') →
      Annotations t N A tx.db tx'.db := by
    rintro previous _ rfl h
    obtain ⟨_, _, hcheck, h⟩ := exec_bind_ok.mp h
    obtain ⟨hvalid, rfl⟩ := exec_failIf_ok.mp hcheck
    simp only [Bool.or_eq_true, Bool.not_eq_true', not_or, Bool.not_eq_false] at hvalid
    obtain ⟨htool, hvalid⟩ := hvalid
    refine annotations_rewrite ⟨hmem, hthread, hext⟩ h (.refl _)
      (fun _ => ⟨rfl, rfl, rfl, rfl, rfl, rfl⟩) (fun _ => rfl) (fun hi => Noted.redact ?_) .inl
    have htool' : isImageTool (i.metadata.set "image_progress" progress.toJson) = true := by
      rw [isImageTool_set (by decide)]
      exact htool
    constructor
    · rw [Json.get?_set_ne (by decide)]
      exact hi.unverified
    · intro v hv
      refine ⟨htool', progress, ?_, validAfter_none hvalid⟩
      cases hm : i.metadata with
      | obj fields =>
        rw [hm, Json.get?_set_obj] at hv
        rw [← Option.some.inj hv]
        exact ofJson?_toJson hvalid
      | null | bool | num | str | arr =>
        rw [hm] at htool
        cases htool
    · intro v hv
      rw [Json.get?_set_ne (by decide)] at hv
      rw [isImageTool_set (by decide), Json.get?_set_ne (by decide)]
      exact hi.image v hv
    · intro v hv
      rw [Json.get?_set_ne (by decide)] at hv
      exact hi.tasks v hv
  dsimp only at h
  split at h
  · rw [pure_bind] at h
    exact rest none _ rfl h
  · obtain ⟨previous, _, hread, h⟩ := exec_bind_ok.mp h
    obtain ⟨-, rfl⟩ := exec_okOr_ok.mp hread
    exact rest (some previous) _ rfl h

theorem annotations_image {callId : String} {image : GeneratedImage}
    (h : (persistImage t callId image now).exec tx = (.ok u, tx')) :
    Annotations t N A tx.db tx'.db := by
  rw [persistImage, exec_tables_bind, exec_bind_ok] at h
  obtain ⟨i, _, hget, h⟩ := h
  obtain ⟨hfound, rfl⟩ := exec_okOr_ok.mp hget
  obtain ⟨hmem, hthread, -, hext⟩ := findExternalItem_some hfound
  obtain ⟨_, _, hcheck, h⟩ := exec_bind_ok.mp h
  obtain ⟨hvalid, rfl⟩ := exec_failIf_ok.mp hcheck
  simp only [Bool.or_eq_true, Bool.not_eq_true', not_or, Bool.not_eq_false] at hvalid
  obtain ⟨htool, -⟩ := hvalid
  refine annotations_rewrite ⟨hmem, hthread, hext⟩ h (.refl _)
    (fun _ => ⟨rfl, rfl, rfl, rfl, rfl, rfl⟩) (fun _ => rfl) (fun hi => Noted.redact ?_) .inl
  have htool' : isImageTool ((i.metadata.set "generated_image" image.proof).set "content"
      image.content) = true := by
    rw [isImageTool_set (by decide), isImageTool_set (by decide)]
    exact htool
  constructor
  · rw [Json.get?_set_ne (by decide), Json.get?_set_ne (by decide)]
    exact hi.unverified
  · intro v hv
    rw [Json.get?_set_ne (by decide), Json.get?_set_ne (by decide)] at hv
    exact ⟨htool', (hi.progress v hv).2⟩
  · intro v hv
    refine ⟨htool', image, 0, ?_⟩
    cases hm : i.metadata with
    | obj fields =>
      rw [hm, Json.get?_set_ne (by decide), Json.get?_set_obj] at hv
      exact ⟨(Option.some.inj hv).symm, Json.get?_set_obj _ _ _⟩
    | null | bool | num | str | arr =>
      rw [hm] at htool
      cases htool
  · intro v hv
    rw [Json.get?_set_ne (by decide), Json.get?_set_ne (by decide)] at hv
    exact hi.tasks v hv

theorem annotations_usage {input output : Nat}
    (h : (persistUsage t input output).exec tx = (.ok u, tx')) :
    Annotations t N A tx.db tx'.db := by
  rw [persistUsage, exec_tables_bind] at h
  split at h
  · rw [exec_pure] at h
    rw [← congrArg (fun r => r.2.db) h]
    exact .refl _
  · rename_i T _
    obtain ⟨input', _, hinput, h⟩ := exec_bind_ok.mp h
    obtain ⟨-, rfl⟩ := exec_ofResult_ok.mp hinput
    obtain ⟨output', _, houtput, h⟩ := exec_bind_ok.mp h
    obtain ⟨-, rfl⟩ := exec_ofResult_ok.mp houtput
    unfold updateTurn at h
    rw [exec_modifyTables] at h
    rw [← congrArg (fun r => r.2.db) h]
    exact (Annotates.counts tx.db T input' output').single

theorem ofJson?_task (item : TaskItem) : TaskItem.ofJson? item.toJson = some item := by
  have hstatus : TaskStatus.ofName? item.status.name = some item.status := by
    cases item.status <;> rfl
  simp [TaskItem.toJson, TaskItem.ofJson?, Json.string?, Json.get?, Json.lookup, Json.asStr?,
    hstatus]

/-- The tasks of an event are read back from its row. -/
theorem tasks?_toJson (items : List TaskItem) :
    tasks? (.arr (items.map (·.toJson))) = some items := by
  show (items.map (·.toJson)).mapM TaskItem.ofJson? = some items
  induction items with
  | nil => rfl
  | cons item rest ih =>
    rw [List.map_cons, List.mapM_cons, ofJson?_task, ih]
    rfl

theorem taskListNoted (items : List TaskItem) :
    Noted (.obj [("code", .str "task_list"),
      ("items", redactValue (.arr (items.map (·.toJson))))]) where
  unverified := rfl
  progress v hv := by cases hv
  image v hv := by cases hv
  tasks v hv := by
    cases hv
    exact tasks?_redact (by rw [tasks?_toJson]; rfl)

end Notes

/-! ## Interactions -/

theorem persistResolution_ok {N A : String → Prop} {x : String} {fields : List (String × Json)}
    {status : TimelineItemStatus}
    (h : (persistResolution t x fields status now).exec tx = (.ok u, tx'))
    (hfields : fields.all (fun f => isPlainKey f.1) = true) (hstatus : status.isOpen = false) :
    ∃ s', Annotations t N A tx.db s' ∧ s'.hasThread t = true ∧
      tx'.db = s'.setLifecycle t .running := by
  rw [persistResolution, exec_bind_ok] at h
  obtain ⟨_, tx₁, hupdate, h⟩ := h
  obtain ⟨hthread, hdb⟩ := setThreadLifecycle_ok h
  exact ⟨tx₁.db, annotations_resolution hupdate hfields hstatus, hthread, hdb⟩

theorem persistQuestion_ok {N A : String → Prop} {x content : String} {metadata : Json}
    (h : (persistQuestion t x content metadata now).exec tx = (.ok u, tx'))
    (hnoted : Noted metadata) (hactive : ∀ T, tx.db.activeTurnId t = some T → N T)
    (hopen : ∀ i T, tx.db.findExternalItem t .notice x = some i → i.turnId = some T → A T) :
    ∃ s', Annotations t N A tx.db s' ∧ s'.hasThread t = true ∧
      tx'.db = s'.setLifecycle t .waitingForAnswer := by
  rw [persistQuestion, exec_tables_bind, exec_bind_ok] at h
  obtain ⟨_, tx₁, hupsert, h⟩ := h
  obtain ⟨hthread, hdb⟩ := setThreadLifecycle_ok h
  refine ⟨tx₁.db, annotations_upsert hupsert ⟨nofun, nofun, nofun⟩ hnoted hactive ?_, hthread, hdb⟩
  intro _ y i T hy hfound hT
  cases hy
  exact hopen i T hfound hT

/-! ## The event -/

/-- **Every event that was persisted is one of the cases.** -/
theorem persistEvent_ok {envelope : EventEnvelope} {clientItemId : Option String}
    (h : (persistEvent envelope clientItemId).exec tx = (.ok u, tx')) :
    Persisted envelope.event envelope.sessionId.toString clientItemId envelope.occurredAt.rfc3339
      tx.db tx'.db := by
  obtain ⟨_, _, occurredAt, _, _, sessionId, event⟩ := envelope
  generalize ht : sessionId.toString = t
  generalize hnow : occurredAt.rfc3339 = now
  have active : ∀ T, tx.db.activeTurnId t = some T → Names event t tx.db T := fun T hT => .inl hT
  unfold persistEvent at h
  dsimp only at h
  rw [ht, hnow] at h
  show Persisted event t clientItemId now tx.db tx'.db
  cases event with dsimp only at h
  | sessionCreated cwd origin profile =>
    unfold insertThread at h
    rw [exec_tables_bind, exec_bind_ok] at h
    obtain ⟨threads, _, hinsert, h⟩ := h
    obtain ⟨hthreads, rfl⟩ := exec_okOr_ok.mp hinsert
    rw [exec_modifyTables] at h
    rw [← congrArg (fun r => r.2.db) h]
    exact .created tx.db cwd origin profile rfl threads hthreads
  | sessionResumed cwd origin profile =>
    obtain ⟨_, _, hensure, hupdate⟩ := exec_bind_ok.mp h
    obtain ⟨hthread, rfl⟩ := ensureThread_ok hensure
    rw [updateThread_ok hupdate]
    exact .resumed _ cwd origin profile rfl hthread
  | steeringApplied turnId clientItemId' text =>
    obtain ⟨clientId, _, hcheck, hrest⟩ := exec_bind_ok.mp h
    obtain ⟨-, rfl⟩ := exec_ofResult_ok.mp hcheck
    obtain ⟨_, tx₁, hinsert, hpure⟩ := exec_bind_ok.mp hrest
    rw [exec_pure] at hpure
    obtain ⟨-, rfl⟩ := Prod.mk.inj hpure
    obtain ⟨i, -, hi⟩ := insertTimelineItem_ok hinsert
    obtain ⟨-, -, -, -, -, -, hmeta, -⟩ := hi.fields
    refine .notes _ _ rfl (Annotates.newRow _ _ _ i hi ⟨nofun, nofun⟩ ?_ ?_ ?_).single
    · rw [hmeta]
      exact (Noted.obj rfl).redact
    · exact fun T hT => .inr hT
    · exact fun _ => ⟨nofun, rfl⟩
  | promptAccepted turnId text attachments =>
    obtain ⟨s₁, s₂, s₃, i, j, turns, hi, hattached, hj, hturns, hdb⟩ := persistPrompt_ok h
    rw [hdb]
    exact .prompt _ s₁ s₂ s₃ turnId text attachments rfl i j hi hattached hj turns hturns
  | turnStarted turnId =>
    obtain ⟨hthread, hdb⟩ := persistTurnStarted_ok h
    rw [hdb]
    exact .started _ turnId rfl hthread
  | textDelta turnId text =>
    obtain ⟨s', i, hsegment, hdb⟩ := appendTurnContent_ok h
    rw [hdb]
    exact .delta _ s' _ _ text rfl i hsegment
  | reasoningDelta turnId text =>
    obtain ⟨s', i, hsegment, hdb⟩ := appendTurnContent_ok h
    rw [hdb]
    exact .delta _ s' _ _ text rfl i hsegment
  | requestUsageUpdated usage =>
    obtain ⟨hvalid, hthread, hdb⟩ := persistRequestUsage_ok h
    rw [hdb]
    exact .reported _ usage rfl hvalid hthread
  | contextUsageUpdated usage =>
    exact .notes _ _ rfl (annotations_thread h fun _ => ⟨rfl, rfl, rfl, rfl, rfl, rfl, rfl, rfl, rfl⟩)
  | usageUpdated input output => exact .notes _ _ rfl (annotations_usage h)
  | progressUpdated message completed total =>
    rw [exec_tables_bind] at h
    refine .notes _ _ rfl (annotations_external h ⟨nofun, nofun, nofun⟩ (.obj rfl) active ?_)
    exact fun _ i T hfound hT => ⟨i, hfound, hT⟩
  | taskListUpdated items =>
    rw [exec_tables_bind] at h
    refine .notes _ _ rfl (annotations_external h ⟨nofun, nofun, nofun⟩ (taskListNoted items)
      active ?_)
    exact fun _ i T hfound hT => ⟨i, hfound, hT⟩
  | toolProposed turnId callId name arguments =>
    obtain ⟨_, tx₁, hupsert, hpure⟩ := exec_bind_ok.mp h
    rw [exec_pure] at hpure
    obtain ⟨-, rfl⟩ := Prod.mk.inj hpure
    refine .notes _ _ rfl (annotations_upsert hupsert ⟨nofun, nofun, nofun⟩ (toolNoted _ _) ?_ ?_)
    · exact fun T hT => .inr hT
    · rintro - x i T ⟨⟩ hfound hT
      exact ⟨i, hfound, hT⟩
  | permissionRequired requestId explanation effect choices =>
    obtain ⟨_, tx₁, hexternal, hlifecycle⟩ := exec_bind_ok.mp h
    obtain ⟨hthread, hdb⟩ := setThreadLifecycle_ok hlifecycle
    rw [hdb]
    refine .interaction _ _ _ rfl (annotations_external hexternal ⟨nofun, nofun, nofun⟩ (.obj rfl)
      active ?_) hthread
    exact fun _ i T hfound hT => ⟨i, hfound, hT⟩
  | permissionResolved requestId allowed choice =>
    obtain ⟨s', hs, hthread, hdb⟩ := persistResolution_ok h rfl (by cases allowed <;> rfl)
    rw [hdb]
    exact .interaction _ s' _ rfl hs hthread
  | toolStarted callId name =>
    refine .notes _ _ rfl (annotations_toolStarted h active ?_)
    exact fun i T hfound hT => ⟨i, hfound, hT⟩
  | toolOutput callId content truncated =>
    refine .notes _ _ rfl (annotations_toolOutput h active ?_)
    exact fun i T hfound hT => ⟨i, hfound, hT⟩
  | imageGenerated callId image => exact .notes _ _ rfl (annotations_image h)
  | imageGenerationProgress callId progress => exact .notes _ _ rfl (annotations_imageProgress h)
  | toolCompleted callId success => exact .notes _ _ rfl (annotations_toolCompleted h)
  | workspaceChanged paths => exact .notes _ _ rfl (annotations_persistNotice h active)
  | diffAvailable callId diff truncated files =>
    exact .notes _ _ rfl (annotations_diff h active)
  | questionAsked questionId prompt options =>
    have reopens : ∀ i T, addressed (.questionAsked questionId prompt options) t tx.db = some i → i.turnId = some T →
        Reopens (.questionAsked questionId prompt options) t tx.db T := fun i T hfound hT => ⟨i, hfound, hT⟩
    obtain ⟨s', hs, hthread, hdb⟩ := persistQuestion_ok h (.obj rfl) active reopens
    rw [hdb]
    exact .interaction _ s' _ rfl hs hthread
  | questionAnswered questionId answers =>
    obtain ⟨s', hs, hthread, hdb⟩ := persistResolution_ok h rfl rfl
    rw [hdb]
    exact .interaction _ s' _ rfl hs hthread
  | questionsAsked request =>
    have reopens : ∀ i T, addressed (.questionsAsked request) t tx.db = some i → i.turnId = some T →
        Reopens (.questionsAsked request) t tx.db T := fun i T hfound hT => ⟨i, hfound, hT⟩
    obtain ⟨s', hs, hthread, hdb⟩ := persistQuestion_ok h (.obj rfl) active reopens
    rw [hdb]
    exact .interaction _ s' _ rfl hs hthread
  | questionsAnswered requestId answers =>
    obtain ⟨s', hs, hthread, hdb⟩ := persistResolution_ok h rfl rfl
    rw [hdb]
    exact .interaction _ s' _ rfl hs hthread
  | questionsFailed requestId reason =>
    obtain ⟨s', hs, hthread, hdb⟩ := persistResolution_ok h rfl rfl
    rw [hdb]
    exact .interaction _ s' _ rfl hs hthread
  | planProposed planId revision markdown =>
    refine .notes _ _ rfl (annotations_external h ⟨nofun, nofun, nofun⟩ (.obj rfl) active ?_)
    exact fun _ i T hfound hT => ⟨i, hfound, hT⟩
  | planReviewed planId revision decision =>
    exact .notes _ _ rfl (annotations_resolution h rfl rfl)
  | backgroundTaskChanged taskId state =>
    refine .notes _ _ rfl (annotations_external h ⟨nofun, nofun, nofun⟩ (.obj rfl) active ?_)
    exact fun _ i T hfound hT => ⟨i, hfound, hT⟩
  | permissionProfileChanged profile =>
    obtain ⟨_, _, hensure, hupdate⟩ := exec_bind_ok.mp h
    obtain ⟨hthread, rfl⟩ := ensureThread_ok hensure
    rw [updateThread_ok hupdate]
    exact .profiled _ profile rfl hthread
  | desktopAgentConfigured settings =>
    obtain ⟨hthread, hdb⟩ := persistDesktopAgent_ok h
    rw [hdb]
    exact .configured _ settings rfl hthread
  | modelChanged model =>
    obtain ⟨_, _, hcheck, hupdate⟩ := exec_bind_ok.mp h
    obtain ⟨-, rfl⟩ := exec_ofResult_ok.mp hcheck
    exact .notes _ _ rfl (annotations_thread hupdate fun _ => ⟨rfl, rfl, rfl, rfl, rfl, rfl, rfl, rfl, rfl⟩)
  | thinkingLevelChanged level =>
    exact .notes _ _ rfl (annotations_thread h fun _ => ⟨rfl, rfl, rfl, rfl, rfl, rfl, rfl, rfl, rfl⟩)
  | contextCompacted summary messagesBefore =>
    exact .notes _ _ rfl (annotations_notice h nofun)
  | providerStatusChanged connected detail =>
    exact .notes _ _ rfl (annotations_threadNotice h (by cases connected <;> rfl) (.obj rfl))
  | securityStatusChanged state => exact .notes _ _ rfl (annotations_threadNotice h rfl (.obj rfl))
  | securityEvidenceUpdated evidence =>
    rw [exec_pure] at h
    rw [← congrArg (fun r => r.2.db) h]
    exact .notes _ _ rfl (.refl _)
  | responseVerified turnId =>
    obtain ⟨hrequests, hdb⟩ | ⟨hrequests, hdb⟩ := markResponseVerified_ok h
    · rw [hdb]
      exact .passed _ turnId rfl hrequests
    · rw [hdb]
      exact .verified _ turnId rfl hrequests
  | warningRaised message => exact .notes _ _ rfl (annotations_persistNotice h active)
  | turnCompleted turnId =>
    obtain ⟨hrunning, hthread, finished, hdb⟩ := finishTurn_ok h
    rw [hdb]
    exact .finished _ _ _ _ _ rfl hrunning hthread finished (.refl _)
  | turnCancelled turnId =>
    obtain ⟨hrunning, hthread, finished, hdb⟩ := finishTurn_ok h
    rw [hdb]
    exact .finished _ _ _ _ _ rfl hrunning hthread finished (.refl _)
  | errorRaised turnId message =>
    unfold persistError at h
    cases turnId with
    | none =>
      exact .notes _ _ rfl (annotations_notice h nofun)
    | some turnId =>
      dsimp only [Option.map_some] at h
      obtain ⟨_, tx₁, hfinish, hnotice⟩ := exec_bind_ok.mp h
      obtain ⟨hrunning, hthread, finished, hdb⟩ := finishTurn_ok hfinish
      refine .finished _ _ _ _ _ rfl hrunning hthread finished ?_
      rw [← hdb]
      exact annotations_notice hnotice fun T hT => (Option.some.inj hT).symm
  | sessionClosed =>
    obtain ⟨hthread, hdb⟩ := setThreadLifecycle_ok h
    rw [hdb]
    exact .closed _ rfl hthread

end AxiomDesktop.Store
