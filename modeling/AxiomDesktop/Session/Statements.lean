import AxiomDesktop.Session.Events

/-!
# What the statements of a transaction leave

The inversion lemmas of the statements in `Timeline`: what a statement that succeeded found in the
tables it ran on, and the tables it left. A row that enters the timeline enters it through
`Inserted`, with the next sequence of its thread.
-/

namespace AxiomDesktop.Store

open Fallible

variable {t : String} {tx tx' : Transaction}

/-! ## Primitive statements -/

@[simp] theorem exec_modifyTables (f : Database → Database) (tx : Transaction) :
    (modifyTables f).exec tx = (.ok ⟨⟩, { tx with db := f tx.db }) := rfl

@[simp] theorem exec_newUuid (tx : Transaction) :
    newUuid.exec tx = (.ok (tx.env.uuid tx.taken), { tx with taken := tx.taken + 1 }) := rfl

/-- A query before the rest of a transaction reads the tables the rest runs on. -/
@[simp] theorem exec_tables_bind {α : Type} (f : Database → StoreM α) (tx : Transaction) :
    (tables >>= f).exec tx = (f tx.db).exec tx := rfl

@[simp] theorem exec_modifyTables_bind {α : Type} (f : Database → Database) (g : PUnit → StoreM α)
    (tx : Transaction) : (modifyTables f >>= g).exec tx = (g ⟨⟩).exec { tx with db := f tx.db } := rfl

@[simp] theorem exec_newUuid_bind {α : Type} (f : String → StoreM α) (tx : Transaction) :
    (newUuid >>= f).exec tx =
      (f (tx.env.uuid tx.taken)).exec { tx with taken := tx.taken + 1 } := rfl

@[simp] theorem exec_utcNow_bind {α : Type} (f : DateTime → StoreM α) (tx : Transaction) :
    (utcNow >>= f).exec tx =
      (f (tx.env.utcNow tx.taken)).exec { tx with taken := tx.taken + 1 } := rfl

/-- A transaction that succeeds keeps what it wrote. -/
theorem transaction_ok {α : Type} {env : Environment} {x : StoreM α} {db db' : Database} {a : α}
    (h : transaction env x db = (.ok a, db')) :
    ∃ tx', x.exec { db, env } = (.ok a, tx') ∧ tx'.db = db' := by
  unfold transaction at h
  split at h
  · rename_i a' tx' hx
    obtain ⟨ha, hdb⟩ := Prod.mk.inj h
    exact ⟨tx', by rw [hx, Except.ok.inj ha], hdb⟩
  · cases (Prod.mk.inj h).1

/-- A transaction that fails leaves the tables. -/
theorem transaction_error {α : Type} {env : Environment} {x : StoreM α} {db db' : Database}
    {e : AxiomError} (h : transaction env x db = (.error e, db')) : db' = db := by
  unfold transaction at h
  split at h
  · cases (Prod.mk.inj h).1
  · exact (Prod.mk.inj h).2.symm

/-- The columns of a thread, changed where it stands. -/
def Database.setThread (s : Database) (t : String) (f : StoredThread → StoredThread)
    (hf : ∀ r, (f r).id = r.id) : Database :=
  { s with threads := s.threads.update (fun r => r.id = t) f hf }

theorem StoredThread.id_lifecycle (lifecycle : ThreadLifecycle) (r : StoredThread) :
    { r with lifecycle }.id = r.id := rfl

theorem StoredThread.id_sequence (r : StoredThread) :
    { r with nextTimelineSequence := r.nextTimelineSequence + 1 }.id = r.id := rfl

/-- The lifecycle of a thread. -/
def Database.setLifecycle (s : Database) (t : String) (l : ThreadLifecycle) : Database :=
  s.setThread t (fun r => { r with lifecycle := l }) (StoredThread.id_lifecycle l)

/-- Whether a thread exists. -/
def Database.hasThread (s : Database) (t : String) : Bool := s.threads.any fun r => r.id = t

theorem Database.hasThread_iff {s : Database} :
    s.hasThread t = true ↔ ∃ r ∈ s.threads.rows, r.id = t := by
  simp [hasThread, Rows.any]

theorem ensureThread_ok {u : PUnit} (h : (ensureThread t).exec tx = (.ok u, tx')) :
    tx.db.hasThread t = true ∧ tx' = tx := by
  rw [ensureThread, exec_tables_bind, exec_failIf_ok] at h
  exact ⟨by simpa [Database.hasThread] using h.1, h.2.symm⟩

theorem setThreadLifecycle_ok {l : ThreadLifecycle} {u : PUnit}
    (h : (setThreadLifecycle t l).exec tx = (.ok u, tx')) :
    tx.db.hasThread t = true ∧ tx'.db = tx.db.setLifecycle t l := by
  rw [setThreadLifecycle, exec_bind_ok] at h
  obtain ⟨_, tx₁, hensure, hset⟩ := h
  obtain ⟨hthread, rfl⟩ := ensureThread_ok hensure
  rw [updateThread, exec_modifyTables] at hset
  exact ⟨hthread, (congrArg (fun r => r.2.db) hset).symm⟩

/-! ## Rows of the timeline -/

/-- The tables with a row more in the timeline of a thread. -/
def Database.addItem (s : Database) (t : String) (items : Rows TimelineItem.id) : Database :=
  { s with
    timelineItems := items
    threads := s.threads.update (fun r => r.id = t)
      (fun r => { r with nextTimelineSequence := r.nextTimelineSequence + 1 })
      StoredThread.id_sequence }

/-- A row entered the timeline of a thread. -/
inductive Inserted (t : String) (w : TimelineItemWrite) (s : Database) (i : TimelineItem) :
    Database → Prop where
  | intro (thread : StoredThread) (items : Rows TimelineItem.id)
      (hthread : s.threads.get? t = some thread)
      (hitems : s.timelineItems.insert? i = some items)
      (hrow : i =
        { id := i.id, threadId := t, sequence := thread.nextTimelineSequence + 1
          turnId := w.turnId, kind := w.kind, status := w.status, clientItemId := w.clientItemId
          externalId := w.externalId, content := w.content, metadata := redactValue w.metadata
          createdAt := w.now, updatedAt := w.now })
      (hclient : ∀ c, w.clientItemId = some c →
        ∀ j ∈ s.timelineItems.rows, j.threadId = t → j.clientItemId ≠ some c) :
      Inserted t w s i (s.addItem t items)

theorem insertItem_ok {i : TimelineItem} {u : PUnit} (h : (insertItem i).exec tx = (.ok u, tx')) :
    ∃ items, tx.db.timelineItems.insert? i = some items ∧
      tx'.db = { tx.db with timelineItems := items } ∧
      ∀ c, i.clientItemId = some c →
        ∀ j ∈ tx.db.timelineItems.rows, j.threadId = i.threadId → j.clientItemId ≠ some c := by
  rw [insertItem, exec_tables_bind, exec_bind_ok] at h
  obtain ⟨_, _, hsequence, h⟩ := h
  obtain ⟨-, rfl⟩ := exec_failIf_ok.mp hsequence
  obtain ⟨_, _, hcheck, h⟩ := exec_bind_ok.mp h
  obtain ⟨hclient, rfl⟩ := exec_failIf_ok.mp hcheck
  obtain ⟨items, _, hinsert, h⟩ := exec_bind_ok.mp h
  obtain ⟨hitems, rfl⟩ := exec_okOr_ok.mp hinsert
  rw [exec_modifyTables] at h
  refine ⟨items, hitems, (congrArg (fun r => r.2.db) h).symm, ?_⟩
  intro c hc j hj hthread hjc
  refine hclient ?_
  simp only [hc, Option.isSome_some, Bool.true_and, Rows.any, List.any_eq_true, Bool.and_eq_true,
    decide_eq_true_eq]
  exact ⟨j, hj, hthread, hjc⟩

theorem insertTimelineItem_ok {w : TimelineItemWrite} {id : String}
    (h : (insertTimelineItem t w).exec tx = (.ok id, tx')) :
    ∃ i, i.id = id ∧ Inserted t w tx.db i tx'.db := by
  rw [insertTimelineItem, exec_tables_bind, exec_bind_ok] at h
  obtain ⟨thread, _, hget, h⟩ := h
  obtain ⟨hthread, rfl⟩ := exec_okOr_ok.mp hget
  rw [updateThread, exec_modifyTables_bind, exec_newUuid_bind] at h
  obtain ⟨_, tx₃, hinsert, h⟩ := exec_bind_ok.mp h
  obtain ⟨items, hitems, hdb, hclient⟩ := insertItem_ok hinsert
  rw [exec_pure] at h
  obtain ⟨hid', rfl⟩ := Prod.mk.inj h
  cases Except.ok.inj hid'
  rw [hdb]
  refine ⟨_, ?_, .intro thread items hthread hitems rfl hclient⟩
  rfl

/-- The tables with a row of the timeline changed. -/
def Database.setItem (s : Database) (id : String) (f : TimelineItem → TimelineItem)
    (hf : ∀ i, (f i).id = i.id) : Database :=
  { s with timelineItems := s.timelineItems.update (fun i => i.id = id) f hf }

/-- What the rewrite of a row by its external id does to it. -/
def TimelineItemWrite.overwrite (w : TimelineItemWrite) (i : TimelineItem) : TimelineItem :=
  { i with
    turnId := i.turnId.or w.turnId
    status := w.status
    content := w.content
    metadata := redactValue w.metadata
    updatedAt := w.now }

theorem upsertTimelineItem_ok {w : TimelineItemWrite} {id : String}
    (h : (upsertTimelineItem t w).exec tx = (.ok id, tx')) :
    (∃ x i, w.externalId = some x ∧ tx.db.findExternalItem t w.kind x = some i ∧
      tx'.db = tx.db.setItem i.id w.overwrite fun _ => rfl) ∨
    (w.externalId.bind fun x => tx.db.findExternalItem t w.kind x) = none ∧
      ∃ i, Inserted t w tx.db i tx'.db := by
  rw [upsertTimelineItem, exec_tables_bind] at h
  split at h
  · rename_i i hfound
    obtain ⟨x, hx, hfound⟩ := Option.bind_eq_some_iff.mp hfound
    rw [updateItem, updateItems, exec_modifyTables_bind, exec_pure] at h
    exact .inl ⟨x, i, hx, hfound, (congrArg (fun r => r.2.db) h).symm⟩
  · rename_i hnone
    obtain ⟨i, -, hi⟩ := insertTimelineItem_ok h
    exact .inr ⟨hnone, i, hi⟩

/-- The row `ensure_external_item` makes where there is none. -/
def newExternal (turnId : Option String) (kind : TimelineItemKind) (x : String) (metadata : Json)
    (now : String) : TimelineItemWrite :=
  { turnId, kind, status := .pending, externalId := some x, metadata, now }

theorem ensureExternalItem_ok {turnId : Option String} {kind : TimelineItemKind} {x now id : String}
    {metadata : Json} (h : (ensureExternalItem t turnId kind x metadata now).exec tx = (.ok id, tx')) :
    (∃ i, tx.db.findExternalItem t kind x = some i ∧ i.id = id ∧ tx' = tx) ∨
    tx.db.findExternalItem t kind x = none ∧
      ∃ i, i.id = id ∧ Inserted t (newExternal turnId kind x metadata now) tx.db i tx'.db := by
  rw [ensureExternalItem, exec_tables_bind] at h
  split at h
  · rename_i i hfound
    rw [exec_pure] at h
    obtain ⟨hid, rfl⟩ := Prod.mk.inj h
    exact .inl ⟨i, hfound, Except.ok.inj hid, rfl⟩
  · rename_i hnone
    exact .inr ⟨hnone, insertTimelineItem_ok h⟩

theorem updateItem_ok {id : String} {f : TimelineItem → TimelineItem} {hf : ∀ i, (f i).id = i.id}
    {u : PUnit} (h : (updateItem id f hf).exec tx = (.ok u, tx')) :
    tx'.db = tx.db.setItem id f hf := by
  rw [updateItem, updateItems, exec_modifyTables] at h
  exact (congrArg (fun r => r.2.db) h).symm

theorem updateNoticeResolution_ok {x now : String} {fields : List (String × Json)}
    {status : TimelineItemStatus} {u : PUnit}
    (h : (updateNoticeResolution t x fields status now).exec tx = (.ok u, tx')) :
    tx'.db = tx.db ∨
    ∃ i, tx.db.findAnyExternalItem t x = some i ∧
      tx'.db = tx.db.setItem i.id
        (fun j =>
          { j with status, metadata := redactValue (extend i.metadata fields), updatedAt := now })
        fun _ => rfl := by
  rw [updateNoticeResolution, exec_tables_bind] at h
  split at h
  · rw [exec_pure] at h
    exact .inl (congrArg (fun r => r.2.db) h).symm
  · rename_i i hfound
    exact .inr ⟨i, hfound, updateItem_ok h⟩

/-! ## What queries find -/

theorem mem_of_lastItem {items : List TimelineItem} {i : TimelineItem}
    (h : Database.lastItem items = some i) : i ∈ items :=
  List.argmax_mem h

theorem mem_itemsOf {s : Database} {i : TimelineItem} :
    i ∈ s.itemsOf t ↔ i ∈ s.timelineItems.rows ∧ i.threadId = t := by
  simp [Database.itemsOf]

/-- The row `find_external_item` finds. -/
theorem findExternalItem_some {s : Database} {kind : TimelineItemKind} {x : String}
    {i : TimelineItem} (h : s.findExternalItem t kind x = some i) :
    i ∈ s.timelineItems.rows ∧ i.threadId = t ∧ i.kind = kind ∧ i.externalId = some x := by
  have hmem := mem_of_lastItem h
  simp only [List.mem_filter, mem_itemsOf, Bool.and_eq_true, decide_eq_true_eq] at hmem
  exact ⟨hmem.1.1, hmem.1.2, hmem.2.1, hmem.2.2⟩

/-- The row `find_any_external_item` finds. -/
theorem findAnyExternalItem_some {s : Database} {x : String} {i : TimelineItem}
    (h : s.findAnyExternalItem t x = some i) :
    i ∈ s.timelineItems.rows ∧ i.threadId = t ∧ i.externalId = some x := by
  have hmem := mem_of_lastItem h
  simp only [List.mem_filter, mem_itemsOf, decide_eq_true_eq] at hmem
  exact ⟨hmem.1.1, hmem.1.2, hmem.2⟩

end AxiomDesktop.Store
