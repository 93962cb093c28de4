import AxiomDesktop.Session.History
import AxiomDesktop.Session.Sequences

/-!
# The rows of tool calls

A tool event finds its row by the id of its call, whatever turn the row belongs to. As long as no
call id names a row of another turn, and none is proposed twice (`Step.callsApart`), the rows of
other turns are as they were, every proposed call has a row of its own behind everything before it,
and the text of its turn goes behind that row (`tool_rows_kept`).
-/

namespace AxiomDesktop.Store

open Fallible

variable {t : String} {s s' : Database} {tx tx' : Transaction}

/-! ## Rows that stay -/

/-- A row that stands where it stood. -/
structure Stays (i j : TimelineItem) : Prop where
  row : KeepsRow i j
  turn : ∀ T, i.turnId = some T → j.turnId = some T

theorem Stays.refl (i : TimelineItem) : Stays i i :=
  ⟨⟨rfl, rfl, rfl, rfl, rfl, rfl⟩, fun _ h => h⟩

theorem Stays.trans {i j k : TimelineItem} (h : Stays i j) (h' : Stays j k) : Stays i k where
  row :=
    { id := h'.row.id.trans h.row.id
      threadId := h'.row.threadId.trans h.row.threadId
      sequence := h'.row.sequence.trans h.row.sequence
      kind := h'.row.kind.trans h.row.kind
      clientItemId := h'.row.clientItemId.trans h.row.clientItemId
      externalId := h'.row.externalId.trans h.row.externalId }
  turn T hT := h'.turn T (h.turn T hT)

/-- Every row stays. -/
def KeepsRows (s s' : Database) : Prop :=
  ∀ i ∈ s.timelineItems.rows, ∃ j ∈ s'.timelineItems.rows, Stays i j

/-- Every row that is still there stays. -/
def RowsStand (s s' : Database) : Prop :=
  ∀ i ∈ s.timelineItems.rows, ∀ j ∈ s'.timelineItems.rows, j.id = i.id → Stays i j

theorem KeepsRows.of_eq (h : s'.timelineItems = s.timelineItems) : KeepsRows s s' :=
  fun i hi => ⟨i, h ▸ hi, .refl i⟩

theorem KeepsRows.trans {s'' : Database} (h : KeepsRows s s') (h' : KeepsRows s' s'') :
    KeepsRows s s'' := by
  intro i hi
  obtain ⟨j, hj, hij⟩ := h i hi
  obtain ⟨k, hk, hjk⟩ := h' j hj
  exact ⟨k, hk, hij.trans hjk⟩

/-- Columns of rows are changed where they stand. -/
theorem KeepsRows.of_update {q : TimelineItem → Bool} {g : TimelineItem → TimelineItem}
    (hitems : s'.timelineItems.rows = s.timelineItems.rows.map (Rows.edit q g))
    (hg : ∀ i, Stays i (g i)) : KeepsRows s s' := by
  intro i hi
  refine ⟨Rows.edit q g i, ?_, ?_⟩
  · rw [hitems]
    exact List.mem_map_of_mem hi
  · unfold Rows.edit
    split
    · exact hg i
    · exact .refl i

theorem Inserted.keepsRows {w : TimelineItemWrite} {i : TimelineItem} (h : Inserted t w s i s') :
    KeepsRows s s' := by
  obtain ⟨-, -, hitems, -⟩ := h.place
  exact fun j hj => ⟨j, (hitems j).mpr (.inl hj), .refl j⟩

theorem KeepsRows.stand (h : KeepsRows s s') : RowsStand s s' := by
  intro i hi j hj hid
  obtain ⟨k, hk, hik⟩ := h i hi
  rw [s'.timelineItems.eq_of_key hj hk (hid.trans hik.row.id.symm)]
  exact hik

/-- Where rows are only deleted, what is there stands. -/
theorem RowsStand.of_subset (h : ∀ j ∈ s'.timelineItems.rows, j ∈ s.timelineItems.rows) :
    RowsStand s s' := by
  intro i hi j hj hid
  rw [s.timelineItems.eq_of_key (h j hj) hi hid]
  exact .refl i

theorem Annotations.keepsRows {N A : String → Prop} (h : Annotations t N A s s') :
    KeepsRows s s' := by
  induction h with
  | refl => exact .of_eq rfl
  | tail _ hstep ih =>
    refine ih.trans ?_
    cases hstep with
    | thread => exact .of_eq rfl
    | newRow _ w i hi => exact hi.keepsRows
    | row id f hf _ _ _ hturn' => exact .of_update rfl fun i => ⟨hf i, hturn' i⟩
    | counts => exact .of_eq rfl

theorem keepsRows_reportUsage (usage : RequestUsage) (now : String) :
    KeepsRows s (s.reportUsage t usage now) := by
  have hbind : KeepsRows (s.putUsage t usage) ((s.putUsage t usage).bindRequest t usage) := by
    refine .of_update rfl ?_
    exact fun _ => ⟨⟨rfl, rfl, rfl, rfl, rfl, rfl⟩, fun _ h => h⟩
  have hput : KeepsRows s (s.putUsage t usage) := .of_eq rfl
  have hverify : ∀ s : Database, KeepsRows s (s.verifyRequest t usage now) := by
    intro s
    refine .of_update rfl ?_
    exact fun _ => ⟨⟨rfl, rfl, rfl, rfl, rfl, rfl⟩, fun _ h => h⟩
  unfold Database.reportUsage
  dsimp only
  split
  · split
    · exact (hput.trans hbind).trans (hverify _)
    · exact hput.trans (hverify _)
  · split
    · exact hput.trans hbind
    · exact hput

theorem Persisted.keepsRows {e : AppEvent} {c : Option String} {now : String}
    (h : Persisted e t c now s s') : KeepsRows s s' := by
  cases h with
  | notes _ he h => exact h.keepsRows
  | interaction s₁ l he h => exact h.keepsRows
  | created | resumed | configured | profiled | closed | started => exact .of_eq rfl
  | prompt s₁ s₂ s₃ turnId text attachments he i j hi hattached hj =>
    have h₂ : KeepsRows s₁ s₂ := by
      cases hattached <;> exact .of_eq rfl
    exact (hi.keepsRows.trans h₂).trans hj.keepsRows
  | delta s₁ T kind text he i hsegment =>
    have hwrite : KeepsRows s₁ (s₁.setItem i.id (appendDelta (redactText text) now)
        fun _ => rfl) := by
      refine .of_update rfl ?_
      exact fun _ => ⟨⟨rfl, rfl, rfl, rfl, rfl, rfl⟩, fun _ h => h⟩
    cases hsegment with
    | found => exact hwrite
    | made _ _ hi => exact hi.keepsRows.trans hwrite
  | reported usage => exact keepsRows_reportUsage usage now
  | passed => exact .of_eq rfl
  | verified turnId =>
    refine .of_update rfl ?_
    exact fun _ => ⟨⟨rfl, rfl, rfl, rfl, rfl, rfl⟩, fun _ h => h⟩
  | finished _ T status error he hrunning hthread finished h =>
    refine KeepsRows.trans (.of_update rfl ?_) h.keepsRows
    exact fun _ => ⟨⟨rfl, rfl, rfl, rfl, rfl, rfl⟩, fun _ h => h⟩

theorem deleteSessions_subset (ids : List String) {j : TimelineItem}
    (hj : j ∈ (deleteSessions ids s).2.timelineItems.rows) : j ∈ s.timelineItems.rows := by
  induction ids generalizing s with
  | nil => exact hj
  | cons id rest ih => exact (Rows.mem_delete.mp (ih hj)).1

theorem Wrote.rowsStand {op : Write} (h : Wrote op s s') (hop : op.isBatch = false) :
    RowsStand s s' := by
  cases h with
  | same => exact KeepsRows.stand (.of_eq rfl)
  | batch _ t envelopes clientItemId c preferences replacement hbatch =>
    rw [hbatch] at hop
    cases hop
  | metadata _ h =>
    refine KeepsRows.stand ?_
    induction h with
    | refl => exact .of_eq rfl
    | tail _ hstep ih =>
      refine ih.trans ?_
      cases hstep with
      | aside _ _ hitems => exact .of_eq hitems
      | count _ _ _ _ _ _ _ hitems => exact .of_eq hitems
  | recorded t usage => exact KeepsRows.stand (.of_eq rfl)
  | reconciled t snapshots =>
    obtain ⟨-, -, hitems⟩ := settleAll_tables (t := t) (s := s) snapshots
    exact KeepsRows.stand (.of_eq hitems)
  | interrupted now =>
    refine KeepsRows.stand ?_
    unfold interruptIncompleteTurns
    dsimp only
    split
    · exact .of_eq rfl
    · refine .of_update rfl ?_
      exact fun _ => ⟨⟨rfl, rfl, rfl, rfl, rfl, rfl⟩, fun _ h => h⟩
  | deleted ids => exact .of_subset fun _ hj => deleteSessions_subset ids hj

/-! ## Tool events -/

/-- The call a tool event is about. -/
def callOf : AppEvent → Option String
  | .toolProposed _ callId _ _ | .toolStarted callId _ | .toolOutput callId _ _
  | .toolCompleted callId _ | .diffAvailable callId _ _ _ | .imageGenerationProgress callId _ =>
    some callId
  | _ => none

/-- Whether an event proposes a call. -/
def isProposal : AppEvent → Bool
  | .toolProposed .. => true
  | _ => false

/-- The turn of a tool event: the one it names, or the one that runs. -/
def turnOfCall (e : AppEvent) (t : String) (s : Database) : Option String :=
  match e with
  | .toolProposed turnId _ _ _ => some turnId.toString
  | _ => s.activeTurnId t

/-- What a tool event did to the timeline: it rewrote the row it found, or it made one, or it found
none and left it at that. -/
inductive ToolWrite (e : AppEvent) (t x : String) (s : Database) : Database → Prop where
  | skipped (hproposal : isProposal e = false)
      (hnone : s.findExternalItem t .toolCall x = none) : ToolWrite e t x s s
  | found (s' : Database) (i : TimelineItem) (f : TimelineItem → TimelineItem)
      (hfound : s.findExternalItem t .toolCall x = some i)
      (hf : isProposal e = false → ∀ j, KeepsRow j (f j) ∧ (f j).turnId = j.turnId)
      (hitems : s'.timelineItems.rows =
        s.timelineItems.rows.map (Rows.edit (fun j => j.id = i.id) f)) :
      ToolWrite e t x s s'
  | made (s₁ s' : Database) (w : TimelineItemWrite) (i : TimelineItem)
      (f : TimelineItem → TimelineItem) (hnone : s.findExternalItem t .toolCall x = none)
      (hw : w.turnId = turnOfCall e t s ∧ w.kind = .toolCall ∧ w.externalId = some x)
      (hi : Inserted t w s i s₁) (hf : ∀ j, KeepsRow j (f j) ∧ (f j).turnId = j.turnId)
      (hitems : s'.timelineItems.rows =
        s₁.timelineItems.rows.map (Rows.edit (fun j => j.id = i.id) f)) :
      ToolWrite e t x s s'

section ToolEvents

variable {e : AppEvent} {x now : String}

/-- A row that is made sure to be there, and then rewritten. -/
theorem toolWrite_ensure {metadata : Json} {id : String} {tx₁ : Transaction}
    {f : TimelineItem → TimelineItem} {hf : ∀ i, (f i).id = i.id} {u : PUnit}
    (hturn : turnOfCall e t tx.db = tx.db.activeTurnId t)
    (h : (ensureExternalItem t (tx.db.activeTurnId t) .toolCall x metadata now).exec tx =
      (.ok id, tx₁))
    (hupdate : (updateItem id f hf).exec tx₁ = (.ok u, tx'))
    (hkeeps : ∀ j, KeepsRow j (f j) ∧ (f j).turnId = j.turnId) :
    ToolWrite e t x tx.db tx'.db := by
  rw [updateItem_ok hupdate]
  obtain ⟨i, hfound, rfl, rfl⟩ | ⟨hnone, i, rfl, hi⟩ := ensureExternalItem_ok h
  · exact .found _ i f hfound (fun _ => hkeeps) rfl
  · exact .made _ _ _ i f hnone ⟨hturn.symm, rfl, rfl⟩ hi hkeeps rfl

/-- A row that was found is rewritten. -/
theorem toolWrite_found {i : TimelineItem} {f : TimelineItem → TimelineItem}
    {hf : ∀ i, (f i).id = i.id} {u : PUnit}
    (hfound : tx.db.findExternalItem t .toolCall x = some i)
    (hupdate : (updateItem i.id f hf).exec tx = (.ok u, tx'))
    (hkeeps : ∀ j, KeepsRow j (f j) ∧ (f j).turnId = j.turnId) :
    ToolWrite e t x tx.db tx'.db := by
  rw [updateItem_ok hupdate]
  exact .found _ i f hfound (fun _ => hkeeps) rfl

theorem toolWrite_imageProgress {callId : String} {progress : ImageGenerationProgress} {u : PUnit}
    (h : (persistImageProgress t callId progress now).exec tx = (.ok u, tx')) :
    ToolWrite e t callId tx.db tx'.db := by
  rw [persistImageProgress, exec_tables_bind, exec_bind_ok] at h
  obtain ⟨i, _, hget, h⟩ := h
  obtain ⟨hfound, rfl⟩ := exec_okOr_ok.mp hget
  have rest : ∀ (previous : Option ImageGenerationProgress) (tx₁ : Transaction), tx₁ = tx →
      (do
        failIf (!isImageTool i.metadata || !progress.validAfter previous)
          (.storage "invalid image progress or tool identity")
        updateItem i.id fun j =>
          { j with
            metadata := redactValue (i.metadata.set "image_progress" progress.toJson)
            updatedAt := now } : StoreM PUnit).exec tx₁ = (.ok u, tx') →
      ToolWrite e t callId tx.db tx'.db := by
    rintro previous _ rfl h
    obtain ⟨_, _, hcheck, h⟩ := exec_bind_ok.mp h
    obtain ⟨-, rfl⟩ := exec_failIf_ok.mp hcheck
    exact toolWrite_found hfound h fun _ => ⟨⟨rfl, rfl, rfl, rfl, rfl, rfl⟩, rfl⟩
  dsimp only at h
  split at h
  · rw [pure_bind] at h
    exact rest none _ rfl h
  · obtain ⟨previous, _, hread, h⟩ := exec_bind_ok.mp h
    obtain ⟨-, rfl⟩ := exec_okOr_ok.mp hread
    exact rest (some previous) _ rfl h

/-- **What a tool event writes.** -/
theorem toolEvent_ok {e : EventEnvelope} {c : Option String} {u : PUnit}
    (hcall : callOf e.event = some x) (h : (persistEvent e c).exec tx = (.ok u, tx')) :
    ToolWrite e.event e.sessionId.toString x tx.db tx'.db := by
  obtain ⟨_, _, occurredAt, _, _, sessionId, event⟩ := e
  generalize ht : sessionId.toString = t
  generalize hnow : occurredAt.rfc3339 = now
  unfold persistEvent at h
  dsimp only at h hcall ⊢
  rw [ht, hnow] at h
  have keeps : ∀ (j : TimelineItem) (status : TimelineItemStatus) (content : String)
      (metadata : Json),
      KeepsRow j { j with status, content, metadata, updatedAt := now } ∧
        ({ j with status, content, metadata, updatedAt := now } : TimelineItem).turnId = j.turnId :=
    fun _ _ _ _ => ⟨⟨rfl, rfl, rfl, rfl, rfl, rfl⟩, rfl⟩
  cases event with dsimp only at h
  | toolProposed turnId callId name arguments =>
    cases hcall
    obtain ⟨_, tx₁, hupsert, hpure⟩ := exec_bind_ok.mp h
    rw [exec_pure] at hpure
    obtain ⟨-, rfl⟩ := Prod.mk.inj hpure
    obtain ⟨y, i, hy, hfound, hdb⟩ | ⟨hnone, i, hi⟩ := upsertTimelineItem_ok hupsert
    · cases hy
      exact .found _ i _ hfound nofun (by rw [hdb]; rfl)
    · refine .made _ _ _ i id hnone ⟨rfl, rfl, rfl⟩ hi (fun j => ⟨⟨rfl, rfl, rfl, rfl, rfl, rfl⟩, rfl⟩) ?_
      exact (Rows.map_edit_id _ _).symm
  | toolStarted callId name =>
    cases hcall
    rw [persistToolStarted, exec_tables_bind, exec_bind_ok] at h
    obtain ⟨_, tx₁, hensure, h⟩ := h
    exact toolWrite_ensure rfl hensure h fun j => keeps j _ _ _
  | toolOutput callId content truncated =>
    cases hcall
    rw [persistToolOutput, exec_tables_bind, exec_bind_ok] at h
    obtain ⟨_, tx₁, hensure, h⟩ := h
    obtain ⟨metadata, tx₂, hmeta, hupdate⟩ := exec_bind_ok.mp h
    obtain ⟨rfl, -⟩ := itemMetadata_ok hmeta
    exact toolWrite_ensure rfl hensure hupdate fun j => keeps j _ _ _
  | imageGenerationProgress callId progress =>
    cases hcall
    exact toolWrite_imageProgress h
  | toolCompleted callId success =>
    cases hcall
    rw [persistToolCompleted, exec_tables_bind] at h
    split at h
    · rename_i hnone
      rw [exec_pure] at h
      rw [← congrArg (fun r => r.2.db) h]
      exact .skipped rfl hnone
    · rename_i i hfound
      exact toolWrite_found hfound h fun j => keeps j _ _ _
  | diffAvailable callId diff truncated files =>
    cases hcall
    rw [persistDiff, exec_tables_bind, exec_bind_ok] at h
    obtain ⟨_, tx₁, hensure, h⟩ := h
    obtain ⟨metadata, tx₂, hmeta, hupdate⟩ := exec_bind_ok.mp h
    obtain ⟨rfl, -⟩ := itemMetadata_ok hmeta
    exact toolWrite_ensure rfl hensure hupdate fun j => keeps j _ _ _
  | _ => cases hcall

end ToolEvents

/-! ## Rows of other turns -/

/-- Whether the call id of an event names no row of another turn, and no row at all where the event
proposes the call. -/
def callApart (e : AppEvent) (t : String) (s : Database) : Bool :=
  (callOf e).all fun x => (s.findExternalItem t .toolCall x).all fun i =>
    !isProposal e && (i.turnId = none || i.turnId = turnOfCall e t s)

/-- The same for the event of a step. -/
def Step.callsApart (d : Step) : Bool :=
  d.event.all fun e => callApart e.event e.sessionId.toString d.before

/-- A row of a turn that is not the one of an event. -/
def OtherTurn (e : AppEvent) (t : String) (s : Database) (i : TimelineItem) : Prop :=
  i.turnId ≠ none ∧ ¬(i.threadId = t ∧ i.turnId = turnOfCall e t s)

/-- A tool event leaves the rows of every other turn, and makes none there. -/
def Step.KeepsOtherTurns (d : Step) : Prop :=
  ∀ e x, d.event = some e → callOf e.event = some x → ∀ i,
    OtherTurn e.event e.sessionId.toString d.before i →
      (i ∈ d.after.timelineItems.rows ↔ i ∈ d.before.timelineItems.rows)

/-- A rewrite of one row leaves the other rows. -/
theorem mem_map_edit_iff {f : TimelineItem → TimelineItem} (hf : ∀ j, KeepsRow j (f j))
    {rows : List TimelineItem} {i k : TimelineItem} (h : k.id ≠ i.id) :
    k ∈ rows.map (Rows.edit (fun j => j.id = i.id) f) ↔ k ∈ rows := by
  constructor
  · intro hk
    obtain ⟨j, hj, rfl⟩ := List.mem_map.mp hk
    by_cases hid : j.id = i.id
    · rw [Rows.edit_pos (by simpa using hid), (hf j).id] at h
      exact absurd hid h
    · rw [Rows.edit_neg (by simpa using hid)]
      exact hj
  · intro hk
    refine List.mem_map.mpr ⟨k, hk, Rows.edit_neg ?_⟩
    simpa using h

/-- The row that was rewritten. -/
theorem mem_map_edit_self {f : TimelineItem → TimelineItem} (hf : ∀ j, KeepsRow j (f j))
    {i k : TimelineItem} (hi : i ∈ s.timelineItems.rows) (h : k.id = i.id) :
    k ∈ s.timelineItems.rows.map (Rows.edit (fun j => j.id = i.id) f) ↔ k = f i := by
  constructor
  · intro hk
    obtain ⟨j, hj, rfl⟩ := List.mem_map.mp hk
    rw [Rows.edit_keeps fun j => (hf j).id] at h
    rw [s.timelineItems.eq_of_key hj hi h]
    exact Rows.edit_pos (by simp)
  · rintro rfl
    exact List.mem_map.mpr ⟨i, hi, Rows.edit_pos (by simp)⟩

theorem ToolWrite.others {e : AppEvent} {x : String} (h : ToolWrite e t x s s')
    (hcall : callOf e = some x) (hapart : callApart e t s = true) {i : TimelineItem}
    (hother : OtherTurn e t s i) :
    i ∈ s'.timelineItems.rows ↔ i ∈ s.timelineItems.rows := by
  obtain ⟨hturn, hplace⟩ := hother
  unfold callApart at hapart
  rw [hcall] at hapart
  cases h with
  | skipped => exact Iff.rfl
  | found _ k f hfound hf hitems =>
    obtain ⟨hk, hthread, -, -⟩ := findExternalItem_some hfound
    simp only [Option.all_some, hfound, Bool.and_eq_true, Bool.not_eq_true', Bool.or_eq_true,
      decide_eq_true_eq] at hapart
    obtain ⟨hproposal, hapart⟩ := hapart
    have hkeeps := hf hproposal
    rw [hitems]
    by_cases hid : i.id = k.id
    · -- The row that was found is in the turn of the event, and so is the row it becomes.
      have apart : ∀ j : TimelineItem, j.threadId = k.threadId → j.turnId = k.turnId → j ≠ i := by
        rintro j hjt hjT rfl
        obtain hnone | hsame := hapart
        · exact hturn (hjT.trans hnone)
        · exact hplace ⟨hjt.trans hthread, hjT.trans hsame⟩
      rw [mem_map_edit_self (fun j => (hkeeps j).1) hk hid]
      constructor
      · rintro rfl
        exact absurd rfl (apart _ (hkeeps k).1.threadId (hkeeps k).2)
      · intro hi
        exact absurd (s.timelineItems.eq_of_key hk hi hid.symm) (apart k rfl rfl)
    · exact mem_map_edit_iff (fun j => (hkeeps j).1) hid
  | made s₁ _ w k f hnone hw hi hf hitems =>
    obtain ⟨-, hthread, hrows, -⟩ := hi.place
    obtain ⟨-, hwturn, -⟩ := hi.fields
    rw [hitems]
    have apart : ∀ j : TimelineItem, j.threadId = k.threadId → j.turnId = k.turnId → j ≠ i := by
      rintro j hjt hjT rfl
      exact hplace ⟨hjt.trans hthread, hjT.trans (hwturn.trans hw.1)⟩
    by_cases hid : i.id = k.id
    · rw [mem_map_edit_self (fun j => (hf j).1) ((hrows k).mpr (.inr rfl)) hid]
      constructor
      · rintro rfl
        exact absurd rfl (apart _ (hf k).1.threadId (hf k).2)
      · intro hi'
        have := s₁.timelineItems.eq_of_key ((hrows k).mpr (.inr rfl)) ((hrows i).mpr (.inl hi'))
          hid.symm
        exact absurd this (apart k rfl rfl)
    · rw [mem_map_edit_iff (fun j => (hf j).1) hid, hrows]
      exact or_iff_left fun h => hid (congrArg (·.id) h)

/-! ## The row of a call -/

/-- A step that persisted the proposal of a call. -/
def Step.Proposes (d : Step) (t T x : String) : Prop :=
  ∃ e, d.event = some e ∧ e.sessionId.toString = t ∧
    ∃ turnId name arguments, e.event = .toolProposed turnId x name arguments ∧ turnId.toString = T

/-- The row a step made for a call: in the turn of the call, behind every row of the thread. -/
structure OwnRow (t T x : String) (d : Step) (j : TimelineItem) : Prop where
  mem : j ∈ d.after.timelineItems.rows
  new : ∀ i ∈ d.before.timelineItems.rows, i.id ≠ j.id
  place : j.threadId = t ∧ j.turnId = some T ∧ j.kind = .toolCall ∧ j.externalId = some x
  last : ∀ i ∈ d.before.timelineItems.rows, i.threadId = t → i.sequence < j.sequence

/-- A new row comes behind every row of its thread. -/
theorem Inserted.behind {w : TimelineItemWrite} {i : TimelineItem} (hs : Sequenced s)
    (h : Inserted t w s i s') {j : TimelineItem} (hj : j ∈ s.timelineItems.rows)
    (ht : j.threadId = t) : j.sequence < i.sequence := by
  obtain ⟨⟨thread, hmem, hid, hsequence⟩, -⟩ := h.place
  obtain ⟨r, hr, hrid, -, hle⟩ := hs.bounded j hj
  rw [s.threads.eq_of_key hr hmem (hrid.trans (ht.trans hid.symm))] at hle
  omega

theorem Inserted.new {w : TimelineItemWrite} {i : TimelineItem} (h : Inserted t w s i s')
    {j : TimelineItem} (hj : j ∈ s.timelineItems.rows) : j.id ≠ i.id := by
  cases h with
  | intro thread items hthread hitems =>
    intro hid
    exact (Rows.insert?_eq_some hitems).2 (hid ▸ List.mem_map_of_mem hj)

theorem ToolWrite.own {e : AppEvent} {turnId : TurnId} {x name : String} {arguments : Json}
    (h : ToolWrite e t x s s') (he : e = .toolProposed turnId x name arguments)
    (hapart : callApart e t s = true) (hs : Sequenced s) :
    ∃ j ∈ s'.timelineItems.rows, (∀ i ∈ s.timelineItems.rows, i.id ≠ j.id) ∧
      (j.threadId = t ∧ j.turnId = some turnId.toString ∧ j.kind = .toolCall ∧
        j.externalId = some x) ∧
      ∀ i ∈ s.timelineItems.rows, i.threadId = t → i.sequence < j.sequence := by
  subst he
  unfold callApart at hapart
  cases h with
  | skipped hproposal => cases hproposal
  | found _ k f hfound =>
    simp [callOf, hfound, isProposal] at hapart
  | made s₁ _ w k f hnone hw hi hf hitems =>
    obtain ⟨hthread, hturn, hkind, -, hext, -⟩ := hi.fields
    have hk : k ∈ s₁.timelineItems.rows := mem_inserted hi
    have hkeeps := (hf k).1
    refine ⟨f k, ?_, ?_, ?_, ?_⟩
    · rw [hitems]
      exact (mem_map_edit_self (fun j => (hf j).1) hk hkeeps.id).mpr rfl
    · intro i hmem
      rw [hkeeps.id]
      exact hi.new hmem
    · refine ⟨hkeeps.threadId.trans hthread, ?_, hkeeps.kind.trans (hkind.trans hw.2.1),
        hkeeps.externalId.trans (hext.trans hw.2.2)⟩
      rw [(hf k).2, hturn, hw.1]
      rfl
    · intro i hmem ht
      rw [hkeeps.sequence]
      exact hi.behind hs hmem ht

/-! ## Text after a call -/

/-- A step that persisted text of a turn. -/
def Step.Streams (d : Step) (t T : String) (kind : TimelineItemKind) (text : String) : Prop :=
  ∃ e, d.event = some e ∧ e.sessionId.toString = t ∧ deltaOf e.event = some (T, kind, text)

/-- The row a step appended text to; the other rows are as they were. -/
structure TextRowOf (t T : String) (kind : TimelineItemKind) (text : String) (d : Step)
    (k : TimelineItem) : Prop where
  mem : k ∈ d.after.timelineItems.rows
  place : k.threadId = t ∧ k.turnId = some T ∧ k.kind = kind
  content : k.content = ((d.before.timelineItems.get? k.id).elim "" (·.content)) ++ redactText text
  rest : ∀ i, i.id ≠ k.id → (i ∈ d.after.timelineItems.rows ↔ i ∈ d.before.timelineItems.rows)

/-- A delta went to a segment. -/
theorem Persisted.segment {e : AppEvent} {c : Option String} {T now text : String}
    {kind : TimelineItemKind} (hdelta : deltaOf e = some (T, kind, text))
    (h : Persisted e t c now s s') :
    ∃ s₁ i, Segment t T kind now s i s₁ ∧
      s' = s₁.setItem i.id (appendDelta (redactText text) now) fun _ => rfl := by
  cases h with
  | delta s₁ T' kind' text' he i hsegment =>
    rw [hdelta] at he
    cases he
    exact ⟨s₁, i, hsegment, rfl⟩
  | notes _ he | interaction _ _ he | finished _ _ _ _ he =>
    cases e with
    | textDelta | reasoningDelta => cases he
    | _ => cases hdelta
  | created _ _ _ he | resumed _ _ _ he | configured _ he | profiled _ he | closed he
  | prompt _ _ _ _ _ _ he | started _ he | reported _ he | passed _ he | verified _ he =>
    rw [he] at hdelta
    cases hdelta

theorem le_foldl_max {ns : List Nat} {m n : Nat} (h : n ∈ ns) : n ≤ ns.foldl max m := by
  have hbound : ∀ (ns : List Nat) (m : Nat), m ≤ ns.foldl max m := by
    intro ns
    induction ns with
    | nil => exact fun m => Nat.le_refl m
    | cons n ns ih => exact fun m => Nat.le_trans (Nat.le_max_left m n) (ih (max m n))
  induction ns generalizing m with
  | nil => cases h
  | cons a ns ih =>
    obtain rfl | h := List.mem_cons.mp h
    · exact Nat.le_trans (Nat.le_max_right m n) (hbound ns (max m n))
    · exact ih h

/-- The tool rows of a turn are up to its last boundary. -/
theorem le_lastBoundary {T : String} {i : TimelineItem} (hi : i ∈ s.timelineItems.rows)
    (ht : i.threadId = t) (hT : i.turnId = some T) (hkind : i.kind = .toolCall) :
    i.sequence ≤ s.lastBoundary t T := by
  refine le_foldl_max (List.mem_map_of_mem (List.mem_filter.mpr ⟨mem_itemsOf.mpr ⟨hi, ht⟩, ?_⟩))
  simp [hT, hkind]

theorem Segment.textRow {T now text : String} {kind : TimelineItemKind} {i : TimelineItem}
    {s₁ : Database} (hs : Sequenced s) (h : Segment t T kind now s i s₁)
    (hitems : s'.timelineItems =
      (s₁.setItem i.id (appendDelta (redactText text) now) fun _ => rfl).timelineItems)
    (e : Option EventEnvelope) :
    ∃ k, TextRowOf t T kind text ⟨s, e, s'⟩ k ∧
      ∀ j ∈ s.timelineItems.rows, j.threadId = t → j.turnId = some T → j.kind = .toolCall →
        j.sequence < k.sequence := by
  have hkeeps : ∀ j, KeepsRow j (appendDelta (redactText text) now j) :=
    fun _ => ⟨rfl, rfl, rfl, rfl, rfl, rfl⟩
  have hid : (appendDelta (redactText text) now i).id = i.id := rfl
  have hrows : s'.timelineItems.rows = s₁.timelineItems.rows.map
      (Rows.edit (fun j => j.id = i.id) (appendDelta (redactText text) now)) := by
    rw [hitems]
    rfl
  refine ⟨appendDelta (redactText text) now i, ?_⟩
  cases h with
  | found hopen =>
    have hmem := mem_of_lastItem hopen
    simp only [List.mem_filter, mem_itemsOf, Bool.and_eq_true, decide_eq_true_eq] at hmem
    obtain ⟨⟨hi, hthread⟩, ⟨⟨⟨⟨hturn, hkind⟩, -⟩, -⟩, -⟩, hlast⟩ := hmem
    refine ⟨⟨?_, ⟨hthread, hturn, hkind⟩, ?_, ?_⟩, ?_⟩
    · show _ ∈ s'.timelineItems.rows
      rw [hrows]
      exact (mem_map_edit_self hkeeps hi hid).mpr rfl
    · show i.content ++ redactText text = _
      have hget : s.timelineItems.get? (appendDelta (redactText text) now i).id = some i :=
        Rows.get?_of_mem hi
      rw [hget]
      rfl
    · intro j hj
      show j ∈ s'.timelineItems.rows ↔ _
      rw [hrows]
      exact mem_map_edit_iff hkeeps hj
    · intro j hj ht hT hcall
      exact Nat.lt_of_le_of_lt (le_lastBoundary hj ht hT hcall) hlast
  | made _ hnone hi =>
    obtain ⟨hthread, hturn, hkind, -, -, hcontent, -⟩ := hi.fields
    obtain ⟨-, -, hinserted, -⟩ := hi.place
    refine ⟨⟨?_, ⟨hthread, hturn, hkind⟩, ?_, ?_⟩, ?_⟩
    · show _ ∈ s'.timelineItems.rows
      rw [hrows]
      exact (mem_map_edit_self hkeeps (mem_inserted hi) hid).mpr rfl
    · show i.content ++ redactText text = _
      have hget : s.timelineItems.get? (appendDelta (redactText text) now i).id = none := by
        refine List.find?_eq_none.mpr fun j hj => ?_
        rw [hid]
        simpa using hi.new hj
      rw [hget, hcontent]
      rfl
    · intro j hj
      rw [hid] at hj
      show j ∈ s'.timelineItems.rows ↔ _
      rw [hrows, mem_map_edit_iff hkeeps hj, hinserted]
      exact or_iff_left fun h => hj (congrArg (·.id) h)
    · exact fun j hj ht _ _ => hi.behind hs hj ht

/-! ## Runs -/

/-- What holds of every step of a history. -/
structure Step.Lawful (d : Step) : Prop where
  sequenced : Sequenced d.before
  stand : RowsStand d.before d.after
  kept : d.event ≠ none → KeepsRows d.before d.after
  others : d.callsApart = true → d.KeepsOtherTurns
  own : d.callsApart = true → ∀ t T x, d.Proposes t T x → ∃ j, OwnRow t T x d j
  text : ∀ t T kind text, d.Streams t T kind text → ∃ k, TextRowOf t T kind text d k ∧
    ∀ j ∈ d.before.timelineItems.rows, j.threadId = t → j.turnId = some T → j.kind = .toolCall →
      j.sequence < k.sequence

/-- A step without an event neither proposes nor streams anything. -/
theorem lawful_of_none {d : Step} (hevent : d.event = none) (hs : Sequenced d.before)
    (h : RowsStand d.before d.after) : d.Lawful where
  sequenced := hs
  stand := h
  kept hne := absurd hevent hne
  others _ e x he := by
    rw [hevent] at he
    cases he
  own := by
    rintro - t T x ⟨e, he, -⟩
    rw [hevent] at he
    cases he
  text := by
    rintro t T kind text ⟨e, he, -⟩
    rw [hevent] at he
    cases he

/-- **The step lemma.** Every step keeps the sequences distinct and is lawful. -/
theorem Moved.lawful {op : Write} {d : Step} (hs : Sequenced d.before) (h : Moved op d) :
    Sequenced d.after ∧ d.Lawful := by
  cases h with
  | cut s s' t r h =>
    refine ⟨h.sequenced hs, lawful_of_none rfl hs ?_⟩
    cases h with
    | intro => exact .of_subset fun j hj => (Rows.mem_delete.mp hj).1
  | columns s s' p f hf hthreads hturns hitems husage =>
    refine ⟨?_, lawful_of_none rfl hs (KeepsRows.stand (.of_eq hitems))⟩
    exact hs.same (.of_threads hthreads hitems fun r => ⟨(hf r).id, (hf r).nextTimelineSequence⟩)
  | other s s' hop h => exact ⟨h.sequenced hs, lawful_of_none rfl hs (h.rowsStand hop)⟩
  | event s s₁ s' e c he hrun hitems hevent htimes =>
    have hkept : KeepsRows s s' := hevent.keepsRows.trans (.of_eq hitems)
    have hwrite : ∀ x, callOf e.event = some x →
        ToolWrite e.event e.sessionId.toString x s s₁ := by
      obtain ⟨c', tx, tx', rfl, rfl, hexec⟩ := hrun
      exact fun x hx => toolEvent_ok hx hexec
    refine ⟨?_, hs, hkept.stand, fun _ => hkept, ?_, ?_, ?_⟩
    · obtain ⟨b, hdraws, -⟩ := hevent.draws
      obtain ⟨b', htimes⟩ := htimes.draws
      exact htimes.sequenced (hdraws.sequenced hs)
    · rintro hapart _ x ⟨⟩ hx i hother
      show i ∈ s'.timelineItems.rows ↔ _
      rw [hitems]
      exact (hwrite x hx).others hx hapart hother
    · rintro hapart t T x ⟨_, ⟨⟩, rfl, turnId, name, arguments, hpropose, rfl⟩
      have hx : callOf e.event = some x := by
        rw [hpropose]
        rfl
      obtain ⟨j, hj, hnew, hplace, hlast⟩ := (hwrite x hx).own hpropose hapart hs
      exact ⟨j, hitems ▸ hj, hnew, hplace, hlast⟩
    · rintro t T kind text ⟨_, ⟨⟩, rfl, hdelta⟩
      obtain ⟨s₂, i, hsegment, rfl⟩ := hevent.segment hdelta
      exact hsegment.textRow hs hitems _

/-- A step that took a row away: a truncation, or the deletion of a thread. -/
def Step.Removes (d : Step) (id : String) : Prop :=
  d.event = none ∧ ∀ i ∈ d.after.timelineItems.rows, i.id ≠ id

/-- As long as no step takes it away, the row of a call stays where it is, and the text of its turn
goes to a row behind it. -/
def Followed (t T : String) (j : TimelineItem) (post : List Step) : Prop :=
  ∀ mid e rest, post = mid ++ e :: rest → (∀ m ∈ mid, ¬m.Removes j.id) →
    (∃ i ∈ e.before.timelineItems.rows, Stays j i) ∧
      ∀ kind text, e.Streams t T kind text →
        ∃ k, TextRowOf t T kind text e k ∧ j.sequence < k.sequence

/-- What holds of the tool rows of a history. -/
structure CallsKept (os : List Step) : Prop where
  /-- A tool event of a turn leaves every row of every other turn. -/
  others : ∀ d ∈ os, d.KeepsOtherTurns
  /-- A proposed call has its own row, behind everything before it, and text follows it. -/
  own : ∀ pre d post t T x, os = pre ++ d :: post → d.Proposes t T x →
    ∃ j, OwnRow t T x d j ∧ Followed t T j post

theorem Chain.split {P : Step → Prop} {s s' : Database} {pre post : List Step} {d : Step}
    (h : Chain P s (pre ++ d :: post) s') : P d ∧ Chain P d.after post s' := by
  generalize hos : pre ++ d :: post = os at h
  induction h generalizing pre with
  | nil => exact absurd hos (by simp)
  | cons e rest s' he hrest ih =>
    cases pre with
    | nil =>
      obtain ⟨rfl, rfl⟩ := List.cons.inj hos
      exact ⟨he, hrest⟩
    | cons _ pre =>
      obtain ⟨-, rfl⟩ := List.cons.inj hos
      exact ih rfl

/-- A lawful step that does not take a row away keeps it. -/
theorem Step.Lawful.stays {d : Step} (h : d.Lawful) {i : TimelineItem}
    (hi : i ∈ d.before.timelineItems.rows) (hremoves : ¬d.Removes i.id) :
    ∃ j ∈ d.after.timelineItems.rows, Stays i j := by
  cases hevent : d.event with
  | some e => exact h.kept (by simp [hevent]) i hi
  | none =>
    have : ∃ j ∈ d.after.timelineItems.rows, j.id = i.id := by
      by_contra hgone
      push Not at hgone
      exact hremoves ⟨hevent, hgone⟩
    obtain ⟨j, hj, hid⟩ := this
    exact ⟨j, hj, h.stand i hi j hj hid⟩

/-- The rows of a call are followed through a lawful history. -/
theorem Chain.followed {T : String} {post : List Step} {j i : TimelineItem}
    (h : Chain Step.Lawful s post s') (hi : i ∈ s.timelineItems.rows) (hij : Stays j i)
    (ht : j.threadId = t) (hT : j.turnId = some T) (hkind : j.kind = .toolCall) :
    Followed t T j post := by
  intro mid e rest hpost hmid
  subst hpost
  induction mid generalizing s i with
  | nil =>
    cases h with
    | cons _ _ _ he hrest =>
      refine ⟨⟨i, hi, hij⟩, ?_⟩
      intro kind text hstreams
      obtain ⟨k, hk, hbehind⟩ := he.text t T kind text hstreams
      refine ⟨k, hk, ?_⟩
      have := hbehind i hi (hij.row.threadId.trans ht) (hij.turn T hT) (hij.row.kind.trans hkind)
      rw [hij.row.sequence] at this
      exact this
  | cons m mid ih =>
    cases h with
    | cons _ _ _ hm hrest =>
      obtain ⟨hremoves, hmid⟩ := List.forall_mem_cons.mp hmid
      rw [← hij.row.id] at hremoves
      obtain ⟨k, hk, hik⟩ := hm.stays hi hremoves
      exact ih hk (hij.trans hik) hmid hrest

/-- The steps of a run are lawful. -/
theorem recorder_lawful (ops : List (Environment × Write)) :
    Chain Step.Lawful {} (recorder.run {} ops).2 (recorder.run {} ops).1 := by
  have h := history_induction (I := fun os s => Chain Step.Lawful {} os s ∧ Sequenced s)
    (Q := fun _ => True) (C := fun _ => True) ⟨.nil _, ?_⟩ ?_ ops (fun _ _ => trivial)
  · exact h.1.1
  · exact ⟨fun _ h => absurd h List.not_mem_nil, fun _ h => absurd h List.not_mem_nil⟩
  · rintro op - os d ⟨hchain, hs⟩ hd
    obtain ⟨hs', hlawful⟩ := hd.lawful hs
    exact ⟨⟨hchain.append (.cons d [] _ hlawful (.nil _)), hs'⟩, trivial⟩

/-- **Tool rows of other turns are never touched**, as long as the call id of no tool event names a
row of another turn and no call id is proposed that names one of the thread. -/
theorem tool_rows_kept (ops : List (Environment × Write))
    (hops : ∀ d ∈ (recorder.run {} ops).2, d.callsApart = true) :
    CallsKept (recorder.run {} ops).2 := by
  have hchain := recorder_lawful ops
  constructor
  · intro d hd
    obtain ⟨pre, post, hos⟩ := List.append_of_mem hd
    rw [hos] at hchain
    exact hchain.split.1.others (hops d hd)
  · intro pre d post t T x hos hproposes
    rw [hos] at hchain
    obtain ⟨hlawful, hrest⟩ := hchain.split
    have hd : d ∈ (recorder.run {} ops).2 := by
      rw [hos]
      exact List.mem_append_right _ List.mem_cons_self
    obtain ⟨j, hj⟩ := hlawful.own (hops d hd) t T x hproposes
    exact ⟨j, hj, hrest.followed hj.mem (.refl j) hj.place.1 hj.place.2.1 hj.place.2.2.1⟩

namespace Sample

/-- A turn with one tool call. -/
def toolTurn (name callId : String) (turnId : TurnId) : List (Environment × Write) :=
  [call (name ++ "prompt") [.promptAccepted turnId "list the files" []],
    call (name ++ "propose") [.toolProposed turnId callId "shell" (.obj [])],
    call (name ++ "run") [.toolStarted callId "shell", .toolOutput callId "a.txt" false],
    call (name ++ "end") [.toolCompleted callId true, .textDelta turnId "There is one."],
    call (name ++ "done") [.turnCompleted turnId]]

/-- Two turns whose calls have the given ids. -/
def twoCalls (first second : String) : List (Environment × Write) :=
  create :: (toolTurn "first" first ⟨1⟩ ++ toolTurn "second" second ⟨2⟩)

end Sample

/-- Two turns whose calls have different ids. -/
theorem tool_rows_kept_two : CallsKept (recorder.run {} (Sample.twoCalls "call_0" "call_1")).2 :=
  tool_rows_kept _ (by
    have : ((recorder.run {} (Sample.twoCalls "call_0" "call_1")).2.all Step.callsApart) = true := by
      decide +kernel
    exact List.all_eq_true.mp this)

/-- A call id of an earlier turn is proposed again: the row of that turn is rewritten. -/
theorem reused_call_rewrites : ¬CallsKept (recorder.run {} (Sample.twoCalls "call_0" "call_0")).2 := by
  intro h
  have hstep : (recorder.run {} (Sample.twoCalls "call_0" "call_0")).2.any (fun d =>
      d.event.any fun e => callOf e.event = some "call_0" && d.before.timelineItems.rows.any fun i =>
        i.turnId ≠ none && i.turnId ≠ turnOfCall e.event e.sessionId.toString d.before &&
          !d.after.timelineItems.rows.contains i) = true := by
    decide +kernel
  obtain ⟨d, hd, hevent⟩ := List.any_eq_true.mp hstep
  rw [Option.any_eq_true] at hevent
  obtain ⟨e, he, hcall⟩ := hevent
  simp only [Bool.and_eq_true, decide_eq_true_eq, List.any_eq_true, Bool.not_eq_true'] at hcall
  obtain ⟨hcall, i, hi, ⟨hturn, hother⟩, hgone⟩ := hcall
  have hi' := (h.others d hd e "call_0" he hcall i ⟨hturn, fun hsame => hother hsame.2⟩).mpr hi
  rw [← List.contains_iff_mem, hgone] at hi'
  cases hi'

end AxiomDesktop.Store
