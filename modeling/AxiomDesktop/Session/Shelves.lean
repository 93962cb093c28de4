import AxiomDesktop.Session.Effects

/-!
# The collections of a store over its runs

`library` is the store with the operations on its collections. What an operation does to the
collections is one of the cases of `Shelving`; from it come the positions and the memberships that
hold in every run (`Shelved`), and that whatever changes the listing counts the revision of the
collections, unless it deletes threads that are in one (`library_lawful`).
-/

namespace AxiomDesktop.Store

open Fallible

/-! ## The machine -/

/-- The operations on a store with those on its collections. -/
inductive Edit where
  | write (op : Write)
  | createCollection (name now : String)
  | renameCollection (id name now : String)
  | setCollectionCollapsed (id : String) (collapsed : Bool) (now : String)
  | moveCollection (id : String) (position : Int) (now : String)

/-- The error of an operation, and the tables it leaves. -/
def outcome {α : Type} (r : Except AxiomError α × Database) : Option AxiomError × Database :=
  (match r.1 with
    | .ok _ => none
    | .error e => some e, r.2)

/-- What a caller of an operation on the threads sees, and the tables. -/
def Write.outcome (env : Environment) (op : Write) (db : Database) : Option AxiomError × Database :=
  match op with
  | .appendBatch envelopes clientItemId preferences replacement =>
    Store.outcome (Store.appendBatch env envelopes clientItemId preferences replacement db)
  | .rename threadId title now => Store.outcome (Store.rename threadId title now db)
  | .archive threadId archived now => Store.outcome (Store.archive threadId archived now db)
  | .setTitleIfAbsent threadId title now =>
    Store.outcome (Store.setTitleIfAbsent threadId title now db)
  | .beginTitleGeneration threadId fallback generation now =>
    Store.outcome (Store.beginTitleGeneration threadId fallback generation now db)
  | .finishTitleGeneration threadId generation title now =>
    Store.outcome (Store.finishTitleGeneration threadId generation title now db)
  | .assignThreadCollection threadId collectionId now =>
    Store.outcome (Store.assignThreadCollection env threadId collectionId now db)
  | .deleteCollection id now => Store.outcome (Store.deleteCollection env id now db)
  | .recordRequestUsage threadId usage =>
    Store.outcome (Store.recordRequestUsage env threadId usage db)
  | .reconcileRequestUsage threadId snapshots =>
    Store.outcome (Store.reconcileRequestUsage env threadId snapshots db)
  | .interruptIncompleteTurns now => (none, Store.interruptIncompleteTurns now db)
  | .deleteSessions ids => (none, (Store.deleteSessions ids db).2)

def Edit.outcome (env : Environment) (op : Edit) (db : Database) : Option AxiomError × Database :=
  match op with
  | .write op => op.outcome env db
  | .createCollection name now => Store.outcome (Store.createCollection env name now db)
  | .renameCollection id name now => Store.outcome (Store.renameCollection env id name now db)
  | .setCollectionCollapsed id collapsed now =>
    Store.outcome (Store.setCollectionCollapsed env id collapsed now db)
  | .moveCollection id position now =>
    Store.outcome (Store.moveCollection env id position now db)

/-- The store with its collections: one operation after the other. -/
def library : Machine Database (Environment × Edit) Empty where
  step db op := ((op.2.outcome op.1 db).2, [])

theorem Write.outcome_run (env : Environment) (op : Write) (s : Database) :
    (op.outcome env s).2 = op.run env s := by
  cases op <;> simp only [outcome, run, Store.outcome]

variable {t : String} {s s' : Database} {env : Environment}

/-! ## An operation that fails -/

theorem outcome_ok {α : Type} {r : Except AxiomError α × Database}
    (h : outcome r = (none, s')) : ∃ a, r = (.ok a, s') := by
  obtain ⟨result, db⟩ := r
  obtain ⟨hresult, rfl⟩ := Prod.mk.inj h
  cases result with
  | ok a => exact ⟨a, rfl⟩
  | error => cases hresult

theorem outcome_error {α : Type} {r : Except AxiomError α × Database} {e : AxiomError}
    (h : outcome r = (some e, s')) : r = (.error e, s') := by
  obtain ⟨result, db⟩ := r
  obtain ⟨hresult, rfl⟩ := Prod.mk.inj h
  cases result with
  | ok => cases hresult
  | error => rw [Option.some.inj hresult]

theorem updateThreadMetadata_error {f : StoredThread → StoredThread} {hf : ∀ r, (f r).id = r.id}
    {e : AxiomError} (h : updateThreadMetadata t f hf s = (.error e, s')) : s' = s := by
  obtain ⟨-, hcase⟩ | ⟨-, revision, hcase⟩ := updateThreadMetadata_cases t f hf s
  · rw [hcase] at h
    exact (Prod.mk.inj h).2.symm
  · rw [hcase] at h
    cases (Prod.mk.inj h).1

theorem updateCollection_error {id : String} {f : StoredCollection → StoredCollection}
    {hf : ∀ c, (f c).id = c.id} {e : AxiomError}
    (h : updateCollection env id f hf s = (.error e, s')) : s' = s :=
  transaction_error h

/-- **A failed operation changes nothing.** -/
theorem Edit.outcome_failed {op : Edit} {e : AxiomError} (h : op.outcome env s = (some e, s')) :
    s' = s := by
  cases op with
  | createCollection name now =>
    have h := outcome_error h
    unfold Store.createCollection at h
    split at h
    · exact (Prod.mk.inj h).2.symm
    · exact transaction_error h
  | renameCollection id name now =>
    have h := outcome_error h
    unfold Store.renameCollection at h
    split at h
    · exact (Prod.mk.inj h).2.symm
    · exact updateCollection_error h
  | setCollectionCollapsed id collapsed now =>
    have h := outcome_error h
    unfold Store.setCollectionCollapsed at h
    exact updateCollection_error h
  | moveCollection id position now =>
    have h := outcome_error h
    cases position with
    | negSucc n => exact (Prod.mk.inj h).2.symm
    | ofNat n => exact transaction_error h
  | write op =>
    cases op with
    | appendBatch envelopes clientItemId preferences replacement =>
      exact appendBatch_error (outcome_error h)
    | rename threadId title now =>
      have h := outcome_error h
      unfold Store.rename at h
      split at h
      · exact (Prod.mk.inj h).2.symm
      · exact updateThreadMetadata_error h
    | archive threadId archived now => exact updateThreadMetadata_error (outcome_error h)
    | setTitleIfAbsent threadId title now =>
      have h := outcome_error h
      unfold Store.setTitleIfAbsent at h
      split at h
      · exact (Prod.mk.inj h).2.symm
      · dsimp only at h
        split at h
        · cases (Prod.mk.inj h).1
        · split at h
          · cases (Prod.mk.inj h).1
          · exact (Prod.mk.inj h).2.symm
    | beginTitleGeneration threadId fallback generation now =>
      have h := outcome_error h
      unfold Store.beginTitleGeneration at h
      split at h
      · exact (Prod.mk.inj h).2.symm
      · cases (Prod.mk.inj h).1
    | finishTitleGeneration threadId generation title now =>
      have h := outcome_error h
      unfold Store.finishTitleGeneration at h
      split at h
      · exact (Prod.mk.inj h).2.symm
      · cases (Prod.mk.inj h).1
    | assignThreadCollection threadId collectionId now => exact transaction_error (outcome_error h)
    | deleteCollection id now => exact transaction_error (outcome_error h)
    | recordRequestUsage threadId usage =>
      have h := outcome_error h
      unfold Store.recordRequestUsage at h
      split at h
      · exact (Prod.mk.inj h).2.symm
      · exact transaction_error h
    | reconcileRequestUsage threadId snapshots => exact transaction_error (outcome_error h)
    | interruptIncompleteTurns now => cases (Prod.mk.inj h).1
    | deleteSessions ids => cases (Prod.mk.inj h).1

/-! ## Operations beside the collections -/

/-- The collections and their threads are as they were, and no thread was deleted. -/
structure Aside (s s' : Database) : Prop where
  collections : s'.collections = s.collections
  filed : s'.threadCollections = s.threadCollections
  revision : s'.collectionRevision = s.collectionRevision
  threads : s.threads.rows.map (·.id) ⊆ s'.threads.rows.map (·.id)

namespace Aside

theorem refl (s : Database) : Aside s s := ⟨rfl, rfl, rfl, List.Subset.refl _⟩

theorem trans {s'' : Database} (h : Aside s s') (h' : Aside s' s'') : Aside s s'' :=
  ⟨h'.collections.trans h.collections, h'.filed.trans h.filed, h'.revision.trans h.revision,
    List.Subset.trans h.threads h'.threads⟩

/-- Only tables of turns, rows and requests changed. -/
theorem of_threads (hcollections : s'.collections = s.collections)
    (hfiled : s'.threadCollections = s.threadCollections)
    (hrevision : s'.collectionRevision = s.collectionRevision) (hthreads : s'.threads = s.threads) :
    Aside s s' :=
  ⟨hcollections, hfiled, hrevision, by rw [hthreads]; exact List.Subset.refl _⟩

/-- Columns of threads changed. -/
theorem of_update {p : StoredThread → Bool} {f : StoredThread → StoredThread}
    (hcollections : s'.collections = s.collections)
    (hfiled : s'.threadCollections = s.threadCollections)
    (hrevision : s'.collectionRevision = s.collectionRevision)
    (hthreads : s'.threads.rows = s.threads.rows.map (Rows.edit p f))
    (hf : ∀ r, (f r).id = r.id) : Aside s s' := by
  refine ⟨hcollections, hfiled, hrevision, ?_⟩
  rw [hthreads, Rows.map_edit hf]
  exact List.Subset.refl _

end Aside

theorem aside_setThread {f : StoredThread → StoredThread} {hf : ∀ r, (f r).id = r.id} :
    Aside s (s.setThread t f hf) := .of_update rfl rfl rfl rfl hf

theorem Inserted.aside {w : TimelineItemWrite} {i : TimelineItem} (h : Inserted t w s i s') :
    Aside s s' := by
  cases h
  exact .of_update rfl rfl rfl rfl fun _ => rfl

theorem Annotations.aside {N A : String → Prop} (h : Annotations t N A s s') : Aside s s' := by
  induction h with
  | refl => exact .refl s
  | tail _ hstep ih =>
    refine ih.trans ?_
    cases hstep with
    | thread f hf => exact aside_setThread
    | newRow _ w i hi => exact hi.aside
    | row id f hf => exact .of_threads rfl rfl rfl rfl
    | counts => exact .of_threads rfl rfl rfl rfl

theorem aside_reportUsage (usage : RequestUsage) (now : String) :
    Aside s (s.reportUsage t usage now) := by
  unfold Database.reportUsage
  dsimp only
  split <;> split <;> exact .of_threads rfl rfl rfl rfl

theorem Persisted.aside {e : AppEvent} {c : Option String} {now : String}
    (h : Persisted e t c now s s') : Aside s s' := by
  cases h with
  | notes _ he h => exact h.aside
  | interaction s' l he h hthread => exact h.aside.trans aside_setThread
  | created cwd origin profile he threads h =>
    refine ⟨rfl, rfl, rfl, ?_⟩
    rw [(Rows.insert?_eq_some h).1, List.map_append]
    exact List.subset_append_left _ _
  | resumed => exact aside_setThread
  | configured => exact aside_setThread
  | profiled => exact aside_setThread
  | closed => exact aside_setThread
  | prompt s₁ s₂ s₃ turnId text attachments he i j hi hattached hj turns hturns =>
    have hbeside : Aside s₁ s₂ := by
      cases hattached with
      | none => exact .refl s₁
      | some => exact .of_threads rfl rfl rfl rfl
    have hturn : Aside s₃ ({ s₃ with turns } : Database) := .of_threads rfl rfl rfl rfl
    exact hi.aside.trans (hbeside.trans (hj.aside.trans (hturn.trans aside_setThread)))
  | started turnId he hthread =>
    have hturn : Aside s (s.startTurn t turnId.toString now) := .of_threads rfl rfl rfl rfl
    exact hturn.trans aside_setThread
  | delta s' T kind text he i h =>
    have happend : Aside s' (s'.setItem i.id (appendDelta (redactText text) now) fun _ => rfl) :=
      .of_threads rfl rfl rfl rfl
    cases h with
    | found => exact happend
    | made _ _ hi => exact hi.aside.trans happend
  | reported usage => exact aside_reportUsage usage now
  | passed => exact .refl s
  | verified => exact .of_threads rfl rfl rfl rfl
  | finished _ T status error he hrunning hthread finished h =>
    have hfinish : Aside s (s.finishTurn t T status error now finished) :=
      .of_update rfl rfl rfl rfl fun _ => rfl
    exact hfinish.trans h.aside

theorem Appended.aside {c : Option String} {envelopes : List EventEnvelope}
    (h : Appended t c envelopes s s') : Aside s s' := by
  induction h with
  | nil c s => exact .refl s
  | cons c e rest s s₁ s₂ s' hevent htimes _ ih => exact hevent.aside.trans (htimes.aside.trans ih)

theorem Batched.aside {envelopes : List EventEnvelope} {c : Option String}
    {replacement : Option PromptRevision} (h : Batched t envelopes c replacement s s') :
    Aside s s' := by
  cases h with
  | intro s₁ s₂ now preferences htruncate happend hthread =>
    have hcut : Aside s s₁ := by
      obtain ⟨-, rfl⟩ | ⟨r, -, -, hr⟩ := htruncate
      · exact .refl _
      · cases hr
        exact .of_update rfl rfl rfl rfl fun _ => rfl
    exact hcut.trans (happend.aside.trans (.of_update rfl rfl rfl rfl fun _ => rfl))

theorem settleAll_aside (snapshots : List RequestUsage) :
    Aside s (snapshots.foldl (settleStored t) s) := by
  induction snapshots generalizing s with
  | nil => exact .refl s
  | cons snapshot rest ih =>
    refine Aside.trans ?_ (ih (s := settleStored t s snapshot))
    unfold settleStored
    split
    · exact .refl s
    · split
      · exact .refl s
      · exact .of_threads rfl rfl rfl rfl

theorem updateThreadMetadata_aside {f : StoredThread → StoredThread} {hf : ∀ r, (f r).id = r.id} :
    Aside s (updateThreadMetadata t f hf s).2 := by
  obtain ⟨-, hcase⟩ | ⟨-, revision, hcase⟩ := updateThreadMetadata_cases t f hf s
  · rw [hcase]
    exact .refl s
  · rw [hcase]
    exact aside_setThread

theorem interrupt_aside (now : String) : Aside s (interruptIncompleteTurns now s) := by
  unfold interruptIncompleteTurns
  dsimp only
  split
  · exact .of_threads rfl rfl rfl rfl
  · exact .of_update rfl rfl rfl rfl fun _ => rfl

/-- The operations on the collections and their threads, and the deletion of threads. -/
def Write.shelves : Write → Bool
  | .assignThreadCollection .. | .deleteCollection .. | .deleteSessions _ => true
  | _ => false

theorem Write.run_aside {op : Write} (h : op.shelves = false) : Aside s (op.run env s) := by
  cases op with
  | appendBatch envelopes clientItemId preferences replacement =>
    show Aside s (Store.appendBatch env envelopes clientItemId preferences replacement s).2
    generalize hrun : Store.appendBatch env envelopes clientItemId preferences replacement s = r
    obtain ⟨result, s'⟩ := r
    cases result with
    | error e =>
      rw [appendBatch_error hrun]
      exact .refl s
    | ok out =>
      obtain ⟨first, -, -, c, hbatch⟩ := appendBatch_ok hrun
      exact hbatch.aside
  | rename threadId title now =>
    show Aside s (Store.rename threadId title now s).2
    unfold Store.rename
    split
    · exact .refl s
    · exact updateThreadMetadata_aside
  | archive threadId archived now => exact updateThreadMetadata_aside
  | setTitleIfAbsent threadId title now =>
    show Aside s (Store.setTitleIfAbsent threadId title now s).2
    unfold Store.setTitleIfAbsent
    dsimp only
    split
    · exact .refl s
    · split
      · exact .of_update rfl rfl rfl rfl fun _ => rfl
      · split <;> exact .refl s
  | beginTitleGeneration threadId fallback generation now =>
    show Aside s (Store.beginTitleGeneration threadId fallback generation now s).2
    unfold Store.beginTitleGeneration
    dsimp only
    split
    · exact .refl s
    · exact .of_update rfl rfl rfl rfl fun _ => rfl
  | finishTitleGeneration threadId generation title now =>
    show Aside s (Store.finishTitleGeneration threadId generation title now s).2
    unfold Store.finishTitleGeneration
    dsimp only
    split
    · exact .refl s
    · exact .of_update rfl rfl rfl rfl fun _ => rfl
  | recordRequestUsage threadId usage =>
    show Aside s (Store.recordRequestUsage env threadId usage s).2
    obtain hsame | ⟨-, -, hdb⟩ := recordRequestUsage_run env threadId usage s
    · rw [hsame]
      exact .refl s
    · rw [hdb]
      exact .of_update rfl rfl rfl rfl fun _ => rfl
  | reconcileRequestUsage threadId snapshots =>
    show Aside s (Store.reconcileRequestUsage env threadId snapshots s).2
    rw [reconcileRequestUsage_eq]
    split
    · exact settleAll_aside snapshots
    · exact .refl s
  | interruptIncompleteTurns now => exact interrupt_aside now
  | assignThreadCollection | deleteCollection | deleteSessions => cases h

/-! ## Operations on the collections -/

/-- The collections of the listing, in order. -/
def order (s : Database) : List String := s.collectionsInOrder.map (·.id)

/-- The threads are as they were, and the revision of the collections was counted. -/
structure Counted (s s' : Database) : Prop where
  threads : s'.threads.rows.map (·.id) = s.threads.rows.map (·.id)
  revision : s'.collectionRevision = s.collectionRevision + 1

/-- What an operation did to the collections and their threads. -/
inductive Shelving (op : Edit) (s s' : Database) : Prop where
  | aside (h : Aside s s')
  | created (c : StoredCollection)
      (hposition : c.position = nextRank (s.collections.rows.map (·.position)))
      (hcollections : s.collections.insert? c = some s'.collections)
      (hfiled : s'.threadCollections = s.threadCollections) (h : Counted s s')
  | updated (p : StoredCollection → Bool) (f : StoredCollection → StoredCollection)
      (hf : ∀ c, (f c).id = c.id ∧ (f c).position = c.position)
      (hcollections : s'.collections.rows = s.collections.rows.map (Rows.edit p f))
      (hfiled : s'.threadCollections = s.threadCollections) (h : Counted s s')
  | moved (id : String) (position : Nat) (now : String) (hid : id ∈ order s)
      (hposition : position < (order s).length)
      (hcollections : s'.collections = (renumber (moveTo (order s) id position) now s).collections)
      (hfiled : s'.threadCollections = s.threadCollections) (h : Counted s s')
  | removed (id now : String) (s₁ : Database)
      (hcollections₁ : s₁.collections = s.collections.delete fun c => c.id = id)
      (hcollections : s'.collections = (renumber (order s₁) now s₁).collections)
      (hfiled : s'.threadCollections = s.threadCollections.delete fun c => c.collectionId = id)
      (h : Counted s s')
  | assigned (r : ThreadCollection) (hthread : s.hasThread r.threadId = true)
      (hcollection : ∃ c ∈ s.collections.rows, c.id = r.collectionId)
      (hcollections : s'.collections = s.collections)
      (hfiled : s'.threadCollections = (upsertThreadCollection r s).threadCollections)
      (h : Counted s s')
  | unassigned (t : String) (hcollections : s'.collections = s.collections)
      (hfiled : s'.threadCollections = s.threadCollections.delete fun c => c.threadId = t)
      (h : Counted s s')
  | deleted (ids : List String) (hop : op = .write (.deleteSessions ids))
      (hs : s' = (deleteSessions ids s).2)

/-- The end of every operation on the collections. -/
theorem bumpCollectionRevision_run {id : Option String} {tx tx' : Transaction}
    {change : CollectionChange} (h : (bumpCollectionRevision id).exec tx = (.ok change, tx')) :
    tx'.db = { tx.db with collectionRevision := tx.db.collectionRevision + 1 } ∧
      change = { collectionId := id, state := tx'.db.collectionState } := by
  rw [bumpCollectionRevision, exec_modifyTables_bind, exec_tables_bind, exec_pure] at h
  obtain ⟨hchange, rfl⟩ := Prod.mk.inj h
  exact ⟨rfl, (Except.ok.inj hchange).symm⟩

theorem createCollection_ok {name now : String} {change : CollectionChange} {op : Edit}
    (h : createCollection env name now s = (.ok change, s')) : Shelving op s s' := by
  unfold createCollection at h
  split at h
  · cases (Prod.mk.inj h).1
  · obtain ⟨tx', hexec, rfl⟩ := transaction_ok h
    rw [exec_newUuid_bind, exec_tables_bind] at hexec
    obtain ⟨collections, _, hget, hexec⟩ := exec_bind_ok.mp hexec
    obtain ⟨hinsert, rfl⟩ := exec_okOr_ok.mp hget
    rw [exec_modifyTables_bind] at hexec
    obtain ⟨hdb, -⟩ := bumpCollectionRevision_run hexec
    rw [hdb]
    exact .created _ rfl hinsert rfl ⟨rfl, rfl⟩

theorem updateCollection_ok {id : String} {f : StoredCollection → StoredCollection}
    {hid : ∀ c, (f c).id = c.id} {change : CollectionChange} {op : Edit}
    (hf : ∀ c, (f c).id = c.id ∧ (f c).position = c.position)
    (h : updateCollection env id f hid s = (.ok change, s')) : Shelving op s s' := by
  obtain ⟨tx', hexec, rfl⟩ := transaction_ok h
  rw [exec_tables_bind] at hexec
  obtain ⟨_, _, hcheck, hexec⟩ := exec_bind_ok.mp hexec
  obtain ⟨-, rfl⟩ := exec_failIf_ok.mp hcheck
  rw [exec_modifyTables_bind] at hexec
  obtain ⟨hdb, -⟩ := bumpCollectionRevision_run hexec
  rw [hdb]
  exact .updated (fun c => c.id = id) f hf rfl rfl ⟨rfl, rfl⟩

/-- A move that succeeded was of a collection to a place in the list. -/
theorem moveCollection_run {id now : String} {position : Int} {change : CollectionChange}
    (h : moveCollection env id position now s = (.ok change, s')) :
    ∃ n : Nat, position = n ∧ id ∈ order s ∧ n < (order s).length ∧
      s'.collections = (renumber (moveTo (order s) id n) now s).collections ∧
      s'.threadCollections = s.threadCollections ∧ Counted s s' := by
  cases position with
  | negSucc n => cases (Prod.mk.inj h).1
  | ofNat n =>
    obtain ⟨tx', hexec, rfl⟩ := transaction_ok h
    rw [exec_tables_bind] at hexec
    dsimp only at hexec
    obtain ⟨_, _, hcheck, hexec⟩ := exec_bind_ok.mp hexec
    obtain ⟨hid, rfl⟩ := exec_failIf_ok.mp hcheck
    obtain ⟨_, _, hcheck, hexec⟩ := exec_bind_ok.mp hexec
    obtain ⟨hposition, rfl⟩ := exec_failIf_ok.mp hcheck
    rw [exec_modifyTables_bind] at hexec
    obtain ⟨hdb, -⟩ := bumpCollectionRevision_run hexec
    rw [hdb]
    refine ⟨n, rfl, ?_, ?_, rfl, rfl, ⟨rfl, rfl⟩⟩
    · simpa [order] using hid
    · simpa [order] using hposition

/-- The threads of a deleted collection are counted, and nothing else. -/
theorem countThreads_ok {ids : List String} {now : String} {tx tx' : Transaction} {u : PUnit}
    (h : (ids.forM fun threadId => updateThread threadId fun r =>
      { r with revision := r.revision + 1, updatedAt := now } : StoreM PUnit).exec tx =
        (.ok u, tx')) :
    tx'.db.threads.rows.map (·.id) = tx.db.threads.rows.map (·.id) ∧
      tx'.db.collections = tx.db.collections ∧
      tx'.db.threadCollections = tx.db.threadCollections ∧
      tx'.db.collectionRevision = tx.db.collectionRevision := by
  induction ids generalizing tx with
  | nil =>
    obtain ⟨-, rfl⟩ := Prod.mk.inj h
    exact ⟨rfl, rfl, rfl, rfl⟩
  | cons id rest ih =>
    obtain ⟨_, tx₁, hfirst, hrest⟩ := exec_bind_ok.mp h
    obtain ⟨hthreads, hcollections, hfiled, hrevision⟩ := ih hrest
    rw [hthreads, hcollections, hfiled, hrevision, updateThread_ok hfirst]
    refine ⟨Rows.map_edit ?_ _, rfl, rfl, rfl⟩
    exact fun _ => rfl

theorem deleteCollection_ok {id now : String} {change : CollectionChange} {op : Edit}
    (h : deleteCollection env id now s = (.ok change, s')) : Shelving op s s' := by
  obtain ⟨tx', hexec, rfl⟩ := transaction_ok h
  rw [exec_tables_bind] at hexec
  dsimp only at hexec
  obtain ⟨_, _, hcheck, hexec⟩ := exec_bind_ok.mp hexec
  obtain ⟨-, rfl⟩ := exec_failIf_ok.mp hcheck
  rw [exec_modifyTables_bind, exec_tables_bind, exec_modifyTables_bind] at hexec
  obtain ⟨_, tx₁, hcount, hbump⟩ := exec_bind_ok.mp hexec
  obtain ⟨hthreads, hcollections, hfiled, hrevision⟩ := countThreads_ok hcount
  obtain ⟨hdb, -⟩ := bumpCollectionRevision_run hbump
  refine .removed id now
    { s with
      collections := s.collections.delete fun c => c.id = id
      threadCollections := s.threadCollections.delete fun c => c.collectionId = id }
    rfl ?_ ?_ ⟨?_, ?_⟩
  · rw [hdb]
    exact hcollections
  · rw [hdb]
    exact hfiled
  · rw [hdb]
    exact hthreads
  · rw [hdb]
    exact congrArg (· + 1) hrevision

theorem assignThreadCollection_ok {collectionId : Option String} {now : String}
    {change : CollectionChange} {op : Edit}
    (h : assignThreadCollection env t collectionId now s = (.ok change, s')) :
    Shelving op s s' := by
  obtain ⟨tx', hexec, rfl⟩ := transaction_ok h
  obtain ⟨_, _, hensure, hexec⟩ := exec_bind_ok.mp hexec
  obtain ⟨hthread, rfl⟩ := ensureThread_ok hensure
  have rest : ∀ tx₁ : Transaction,
      (do
        updateThread t fun r => { r with revision := r.revision + 1, updatedAt := now }
        bumpCollectionRevision collectionId : StoreM CollectionChange).exec tx₁ =
          (.ok change, tx') →
      tx'.db.threads.rows.map (·.id) = tx₁.db.threads.rows.map (·.id) ∧
        tx'.db.collections = tx₁.db.collections ∧
        tx'.db.threadCollections = tx₁.db.threadCollections ∧
        tx'.db.collectionRevision = tx₁.db.collectionRevision + 1 := by
    intro tx₁ h
    obtain ⟨_, tx₂, hcount, hbump⟩ := exec_bind_ok.mp h
    obtain ⟨hdb, -⟩ := bumpCollectionRevision_run hbump
    rw [hdb, updateThread_ok hcount]
    refine ⟨Rows.map_edit ?_ _, rfl, rfl, rfl⟩
    exact fun _ => rfl
  cases collectionId with
  | none =>
    dsimp only at hexec
    rw [exec_modifyTables_bind] at hexec
    obtain ⟨hthreads, hcollections, hfiled, hrevision⟩ := rest _ hexec
    exact .unassigned t hcollections hfiled ⟨hthreads, hrevision⟩
  | some collectionId =>
    dsimp only at hexec
    rw [exec_tables_bind] at hexec
    obtain ⟨_, _, hcheck, hexec⟩ := exec_bind_ok.mp hexec
    obtain ⟨hcollection, rfl⟩ := exec_failIf_ok.mp hcheck
    rw [exec_modifyTables_bind] at hexec
    obtain ⟨hthreads, hcollections, hfiled, hrevision⟩ := rest _ hexec
    refine .assigned { threadId := t, collectionId, assignedAt := now } hthread ?_ hcollections
      hfiled ⟨hthreads, hrevision⟩
    simpa [Rows.any] using hcollection

/-- **Every operation is one of the cases.** -/
theorem Edit.shelving (op : Edit) (s : Database) : Shelving op s (op.outcome env s).2 := by
  generalize h : op.outcome env s = r
  obtain ⟨error, s'⟩ := r
  cases error with
  | some e =>
    rw [Edit.outcome_failed h]
    exact .aside (.refl s)
  | none =>
    cases op with
    | createCollection name now =>
      obtain ⟨change, h⟩ := outcome_ok h
      exact createCollection_ok h
    | renameCollection id name now =>
      obtain ⟨change, h⟩ := outcome_ok h
      unfold Store.renameCollection at h
      split at h
      · cases (Prod.mk.inj h).1
      · refine updateCollection_ok ?_ h
        exact fun _ => ⟨rfl, rfl⟩
    | setCollectionCollapsed id collapsed now =>
      obtain ⟨change, h⟩ := outcome_ok h
      unfold Store.setCollectionCollapsed at h
      refine updateCollection_ok ?_ h
      exact fun _ => ⟨rfl, rfl⟩
    | moveCollection id position now =>
      obtain ⟨change, h⟩ := outcome_ok h
      obtain ⟨n, -, hid, hn, hcollections, hfiled, hcounted⟩ := moveCollection_run h
      exact .moved id n now hid hn hcollections hfiled hcounted
    | write op =>
      cases hop : op.shelves with
      | false =>
        have hrun : s' = op.run env s := by
          rw [← Write.outcome_run]
          exact (congrArg Prod.snd h).symm
        rw [hrun]
        exact .aside (Write.run_aside hop)
      | true =>
        cases op with
        | assignThreadCollection threadId collectionId now =>
          obtain ⟨change, h⟩ := outcome_ok h
          exact assignThreadCollection_ok h
        | deleteCollection id now =>
          obtain ⟨change, h⟩ := outcome_ok h
          exact deleteCollection_ok h
        | deleteSessions ids => exact .deleted ids rfl (Prod.mk.inj h).2.symm
        | _ => cases hop

/-! ## Positions and memberships -/

/-- The positions are dense, and the memberships are of threads and collections that exist. -/
structure Shelved (s : Database) : Prop where
  ranked : Ranked (·.position) s.collections.rows
  threads : ∀ r ∈ s.threadCollections.rows, r.threadId ∈ s.threads.rows.map (·.id)
  collections : ∀ r ∈ s.threadCollections.rows, r.collectionId ∈ s.collections.rows.map (·.id)

theorem collectionsInOrder_perm (s : Database) : s.collectionsInOrder.Perm s.collections.rows :=
  List.perm_insertionSort _ _

theorem order_perm (s : Database) : (order s).Perm (s.collections.rows.map (·.id)) :=
  (collectionsInOrder_perm s).map _

theorem order_nodup (s : Database) : (order s).Nodup :=
  (order_perm s).nodup_iff.mpr s.collections.unique

theorem positions_sorted (s : Database) :
    (s.collectionsInOrder.map (·.position)).Pairwise (· ≤ ·) := by
  rw [List.pairwise_map]
  refine List.Pairwise.imp ?_ (List.pairwise_insertionSort
    (fun a b : StoredCollection => toLex (a.position, a.id) ≤ toLex (b.position, b.id))
    s.collections.rows)
  intro a b hab
  obtain hlt | ⟨heq, -⟩ := Prod.Lex.le_iff.mp hab
  · exact Nat.le_of_lt hlt
  · exact Nat.le_of_eq heq

/-- The positions are `0, 1, ..` in the order of the collections. -/
theorem Shelved.positions (h : Shelved s) :
    s.collectionsInOrder.map (·.position) = List.range s.collectionsInOrder.length :=
  (h.ranked.perm (collectionsInOrder_perm s)).ranks_eq (positions_sorted s)

section Renumber

variable {ids : List String} {now : String}

/-- Renumbering keeps the collections and sets their positions. -/
theorem mem_renumber (hperm : ids.Perm (s.collections.rows.map (·.id))) {c : StoredCollection} :
    c ∈ (renumber ids now s).collections.rows ↔
      ∃ c₀ ∈ s.collections.rows, c = { c₀ with position := ids.idxOf c₀.id, updatedAt := now } := by
  refine List.mem_map.trans (exists_congr fun c₀ => and_congr_right fun hc₀ => ?_)
  have hin : ids.contains c₀.id = true := by
    rw [List.contains_iff_mem]
    exact hperm.mem_iff.mpr (List.mem_map_of_mem hc₀)
  rw [Rows.edit, if_pos hin]
  exact eq_comm

theorem renumber_ids :
    (renumber ids now s).collections.rows.map (·.id) = s.collections.rows.map (·.id) :=
  Rows.map_edit (fun c => Eq.refl c.id) _

theorem renumber_position (hperm : ids.Perm (s.collections.rows.map (·.id)))
    {c : StoredCollection} (hc : c ∈ (renumber ids now s).collections.rows) :
    c.position = ids.idxOf c.id := by
  obtain ⟨c₀, -, rfl⟩ := (mem_renumber hperm).mp hc
  rfl

theorem renumber_ranked (hids : ids.Nodup) (hperm : ids.Perm (s.collections.rows.map (·.id))) :
    Ranked (·.position) (renumber ids now s).collections.rows := by
  refine ranked_of_keys StoredCollection.id hids ?_ fun c hc => renumber_position hperm hc
  exact List.Perm.trans (List.Perm.of_eq renumber_ids) hperm.symm

/-- Renumbered collections stand in the order of the keys. -/
theorem renumber_order (hids : ids.Nodup) (hperm : ids.Perm (s.collections.rows.map (·.id)))
    (hs : s'.collections = (renumber ids now s).collections) : order s' = ids := by
  have hrows : s'.collectionsInOrder.Perm (renumber ids now s).collections.rows := by
    rw [← hs]
    exact collectionsInOrder_perm s'
  refine keys_eq_of_ranked StoredCollection.id hids ?_ ?_ (positions_sorted s')
  · exact (hrows.map _).trans ((List.Perm.of_eq renumber_ids).trans hperm.symm)
  · exact fun c hc => renumber_position hperm (hrows.mem_iff.mp hc)

end Renumber

/-! ## Deletion of threads -/

theorem deleteSessions_tables (ids : List String) (s : Database) :
    (deleteSessions ids s).2.collections = s.collections ∧
      (deleteSessions ids s).2.collectionRevision = s.collectionRevision ∧
      (deleteSessions ids s).2.threadCollections.rows =
        s.threadCollections.rows.filter (fun r => !ids.contains r.threadId) ∧
      (deleteSessions ids s).2.threads.rows =
        s.threads.rows.filter (fun r => !ids.contains r.id) := by
  induction ids generalizing s with
  | nil =>
    refine ⟨rfl, rfl, ?_, ?_⟩
    · exact (List.filter_eq_self.mpr fun _ _ => rfl).symm
    · exact (List.filter_eq_self.mpr fun _ _ => rfl).symm
  | cons id rest ih =>
    obtain ⟨hcollections, hrevision, hfiled, hthreads⟩ := ih (deleteThread id s)
    refine ⟨hcollections, hrevision, hfiled.trans ?_, hthreads.trans ?_⟩
    · show (s.threadCollections.rows.filter _).filter _ = _
      rw [List.filter_filter]
      refine List.filter_congr fun r _ => ?_
      by_cases hr : r.threadId = id <;> simp [hr]
    · show (s.threads.rows.filter _).filter _ = _
      rw [List.filter_filter]
      refine List.filter_congr fun r _ => ?_
      by_cases hr : r.id = id <;> simp [hr]

/-! ## The invariant -/

theorem mem_upsert {r r' : ThreadCollection}
    (h : r' ∈ (upsertThreadCollection r s).threadCollections.rows) :
    r' ∈ s.threadCollections.rows ∨
      r'.threadId = r.threadId ∧ r'.collectionId = r.collectionId := by
  unfold upsertThreadCollection at h
  dsimp only at h
  split at h
  · rename_i rows hrows
    obtain h | rfl := (Rows.mem_insert? hrows).mp h
    · exact .inl h
    · exact .inr ⟨rfl, rfl⟩
  · obtain ⟨r₀, hr₀, hedit⟩ := Rows.mem_update.mp h
    unfold Rows.edit at hedit
    split at hedit
    · rename_i hthread
      subst hedit
      exact .inr ⟨of_decide_eq_true hthread, rfl⟩
    · exact .inl (hedit ▸ hr₀)

/-- Every operation keeps the positions dense and the memberships of what exists. -/
theorem Shelving.shelved {op : Edit} (hs : Shelved s) (h : Shelving op s s') : Shelved s' := by
  cases h with
  | aside h =>
    refine ⟨h.collections ▸ hs.ranked, fun r hr => ?_, fun r hr => ?_⟩
    · exact h.threads (hs.threads r (h.filed ▸ hr))
    · rw [h.collections]
      exact hs.collections r (h.filed ▸ hr)
  | created c hposition hcollections hfiled h =>
    have hrows := (Rows.insert?_eq_some hcollections).1
    refine ⟨?_, fun r hr => ?_, fun r hr => ?_⟩
    · rw [hrows]
      exact hs.ranked.concat (hposition.trans hs.ranked.nextRank_eq)
    · rw [h.threads]
      exact hs.threads r (hfiled ▸ hr)
    · rw [hrows, List.map_append]
      exact List.mem_append_left _ (hs.collections r (hfiled ▸ hr))
  | updated p f hf hcollections hfiled h =>
    refine ⟨?_, fun r hr => ?_, fun r hr => ?_⟩
    · rw [hcollections]
      exact hs.ranked.map fun c _ => Rows.edit_keeps (fun c => (hf c).2) c
    · rw [h.threads]
      exact hs.threads r (hfiled ▸ hr)
    · rw [hcollections, Rows.map_edit fun c => (hf c).1]
      exact hs.collections r (hfiled ▸ hr)
  | moved id position now hid hposition hcollections hfiled h =>
    have hperm : (moveTo (order s) id position).Perm (s.collections.rows.map (·.id)) :=
      (moveTo_perm hid hposition).trans (order_perm s)
    refine ⟨?_, fun r hr => ?_, fun r hr => ?_⟩
    · rw [hcollections]
      refine renumber_ranked ?_ hperm
      exact ((moveTo_perm hid hposition).nodup_iff).mpr (order_nodup s)
    · rw [h.threads]
      exact hs.threads r (hfiled ▸ hr)
    · rw [hcollections, renumber_ids]
      exact hs.collections r (hfiled ▸ hr)
  | removed id now s₁ hcollections₁ hcollections hfiled h =>
    refine ⟨?_, fun r hr => ?_, fun r hr => ?_⟩
    · rw [hcollections]
      exact renumber_ranked (order_nodup s₁) (order_perm s₁)
    · rw [hfiled] at hr
      rw [h.threads]
      exact hs.threads r (Rows.mem_delete.mp hr).1
    · rw [hfiled] at hr
      obtain ⟨hr, hne⟩ := Rows.mem_delete.mp hr
      obtain ⟨c, hc, hid⟩ := List.mem_map.mp (hs.collections r hr)
      rw [hcollections, renumber_ids, hcollections₁]
      refine List.mem_map.mpr ⟨c, Rows.mem_delete.mpr ⟨hc, ?_⟩, hid⟩
      rw [hid]
      exact hne
  | assigned r hthread hcollection hcollections hfiled h =>
    refine ⟨hcollections ▸ hs.ranked, fun r' hr' => ?_, fun r' hr' => ?_⟩
    · rw [h.threads]
      obtain hr' | ⟨hthreads, -⟩ := mem_upsert (hfiled ▸ hr')
      · exact hs.threads r' hr'
      · rw [hthreads]
        exact List.mem_map.mpr (Database.hasThread_iff.mp hthread)
    · rw [hcollections]
      obtain hr' | ⟨-, hcollectionIds⟩ := mem_upsert (hfiled ▸ hr')
      · exact hs.collections r' hr'
      · rw [hcollectionIds]
        exact List.mem_map.mpr hcollection
  | unassigned t hcollections hfiled h =>
    refine ⟨hcollections ▸ hs.ranked, fun r hr => ?_, fun r hr => ?_⟩
    · rw [hfiled] at hr
      rw [h.threads]
      exact hs.threads r (Rows.mem_delete.mp hr).1
    · rw [hfiled] at hr
      rw [hcollections]
      exact hs.collections r (Rows.mem_delete.mp hr).1
  | deleted ids hop h =>
    obtain ⟨hcollections, -, hfiled, hthreads⟩ := deleteSessions_tables ids s
    rw [← h] at hcollections hfiled hthreads
    refine ⟨hcollections ▸ hs.ranked, fun r hr => ?_, fun r hr => ?_⟩
    · rw [hfiled] at hr
      obtain ⟨hr, hkept⟩ := List.mem_filter.mp hr
      obtain ⟨thread, hthread, hid⟩ := List.mem_map.mp (hs.threads r hr)
      rw [hthreads]
      refine List.mem_map.mpr ⟨thread, List.mem_filter.mpr ⟨hthread, ?_⟩, hid⟩
      rw [hid]
      exact hkept
    · rw [hfiled] at hr
      rw [hcollections]
      exact hs.collections r (List.mem_filter.mp hr).1

theorem library_shelved (ops : List (Environment × Edit)) : Shelved (library.run {} ops).1 :=
  library.run_invariant' (P := Shelved)
    (fun s op hs => (op.2.shelving s).shelved hs)
    ⟨ranked_nil, fun _ h => absurd h List.not_mem_nil, fun _ h => absurd h List.not_mem_nil⟩ ops

/-! ## The listing -/

/-- What `list_collections` returns beside the revision. -/
def listing (s : Database) : List Collection := s.collectionState.collections

theorem mem_threadsOf {id x : String} :
    x ∈ s.threadsOf id ↔ ∃ r ∈ s.threadCollections.rows, r.collectionId = id ∧ r.threadId = x := by
  unfold Database.threadsOf
  rw [List.mem_map]
  refine exists_congr fun r => ?_
  rw [List.mem_insertionSort, List.mem_filter, decide_eq_true_eq, and_assoc]

/-- The entry of the listing for a collection. -/
def entryOf (s : Database) (c : StoredCollection) : Collection :=
  { id := c.id
    name := c.name
    collapsed := c.collapsed
    position := c.position
    threadIds := s.threadsOf c.id
    createdAt := c.createdAt
    updatedAt := c.updatedAt }

theorem listing_eq (s : Database) : listing s = s.collectionsInOrder.map (entryOf s) := rfl

theorem mem_listing {e : Collection} :
    e ∈ listing s ↔ ∃ c ∈ s.collections.rows, entryOf s c = e := by
  rw [listing_eq, List.mem_map]
  exact exists_congr fun c => and_congr_left fun _ => (collectionsInOrder_perm s).mem_iff

theorem order_eq (s : Database) : order s = (listing s).map (·.id) := by
  rw [listing_eq, List.map_map]
  rfl

/-- The listing is read from the collections and their threads. -/
theorem listing_congr (hcollections : s'.collections = s.collections)
    (hfiled : s'.threadCollections.rows = s.threadCollections.rows) : listing s' = listing s := by
  unfold listing Database.collectionState Database.collectionsInOrder Database.threadsOf
  rw [hcollections, hfiled]

/-- The listing of collections is well formed. -/
structure WellListed (s : Database) : Prop where
  /-- The positions are `0, 1, ..` in the order of the list. -/
  positions : (listing s).map (·.position) = List.range (listing s).length
  /-- A thread is in one collection, and there once. -/
  single : ∀ c ∈ listing s, ∀ c' ∈ listing s, ∀ x ∈ c.threadIds, x ∈ c'.threadIds → c = c'
  once : ∀ c ∈ listing s, c.threadIds.Nodup
  /-- The threads exist. -/
  threads : ∀ c ∈ listing s, ∀ x ∈ c.threadIds, s.hasThread x = true
  /-- Every membership that is stored is of a collection that is listed. -/
  filed : ∀ r ∈ s.threadCollections.rows, ∃ c ∈ listing s, c.id = r.collectionId ∧
    r.threadId ∈ c.threadIds

theorem threadsOf_nodup (s : Database) (id : String) : (s.threadsOf id).Nodup := by
  unfold Database.threadsOf
  refine ((List.perm_insertionSort _ _).map _).nodup_iff.mpr ?_
  exact s.threadCollections.unique.sublist (List.filter_sublist.map _)

theorem Shelved.wellListed (h : Shelved s) : WellListed s := by
  refine ⟨?_, ?_, ?_, ?_, ?_⟩
  · rw [listing_eq, List.map_map, List.length_map]
    exact h.positions
  · intro e he e' he' x hx hx'
    obtain ⟨c, hc, rfl⟩ := mem_listing.mp he
    obtain ⟨c', hc', rfl⟩ := mem_listing.mp he'
    obtain ⟨r, hr, hid, hthread⟩ := mem_threadsOf.mp hx
    obtain ⟨r', hr', hid', hthread'⟩ := mem_threadsOf.mp hx'
    have hrr' := s.threadCollections.eq_of_key hr hr' (hthread.trans hthread'.symm)
    rw [s.collections.eq_of_key hc hc' (by rw [← hid, ← hid', hrr'])]
  · intro e he
    obtain ⟨c, -, rfl⟩ := mem_listing.mp he
    exact threadsOf_nodup s c.id
  · intro e he x hx
    obtain ⟨c, -, rfl⟩ := mem_listing.mp he
    obtain ⟨r, hr, -, rfl⟩ := mem_threadsOf.mp hx
    exact Database.hasThread_iff.mpr (List.mem_map.mp (h.threads r hr))
  · intro r hr
    obtain ⟨c, hc, hid⟩ := List.mem_map.mp (h.collections r hr)
    exact ⟨entryOf s c, mem_listing.mpr ⟨c, hc, rfl⟩, hid, mem_threadsOf.mpr ⟨r, hr, hid.symm, rfl⟩⟩

/-- What a move does to the list: the moved collection stands at its new rank, the others keep
their order, and nothing else about a collection changes but the time of its last change. -/
structure Reordered (id : String) (position : Nat) (s s' : Database) : Prop where
  rank : (order s')[position]? = some id
  others : (order s').erase id = (order s).erase id
  kept : ∀ c ∈ listing s, ∃ c' ∈ listing s',
    c' = { c with position := c'.position, updatedAt := c'.updatedAt }

theorem Edit.moved {id now : String} {position : Int}
    (h : (Edit.moveCollection id position now).outcome env s = (none, s')) :
    ∃ n : Nat, position = n ∧ n < (listing s).length ∧ Reordered id n s s' := by
  obtain ⟨change, h⟩ := outcome_ok h
  obtain ⟨n, hn, hid, hlt, hcollections, hfiled, -⟩ := moveCollection_run h
  have hperm := moveTo_perm hid hlt
  have horder : order s' = moveTo (order s) id n :=
    renumber_order (hperm.nodup_iff.mpr (order_nodup s)) (hperm.trans (order_perm s)) hcollections
  refine ⟨n, hn, ?_, ?_, ?_, ?_⟩
  · rwa [order_eq, List.length_map] at hlt
  · rw [horder]
    exact getElem?_moveTo hid hlt
  · rw [horder]
    exact erase_moveTo (order_nodup s) hid hlt
  · intro e he
    obtain ⟨c, hc, rfl⟩ := mem_listing.mp he
    have hc' : { c with position := (moveTo (order s) id n).idxOf c.id, updatedAt := now } ∈
        s'.collections.rows := by
      rw [hcollections]
      exact (mem_renumber (hperm.trans (order_perm s))).mpr ⟨c, hc, rfl⟩
    refine ⟨_, mem_listing.mpr ⟨_, hc', rfl⟩, ?_⟩
    have hthreads : s'.threadsOf c.id = s.threadsOf c.id := by
      unfold Database.threadsOf
      rw [hfiled]
    unfold entryOf
    dsimp only
    rw [hthreads]

/-! ## The revision -/

/-- Whenever the listing changes, the revision is larger than before. -/
def Versioned (s s' : Database) : Prop :=
  listing s' ≠ listing s → s.collectionRevision < s'.collectionRevision

/-- An operation deletes no thread that is in a collection. -/
def Edit.Spares (s : Database) : Edit → Prop
  | .write (.deleteSessions ids) => ∀ r ∈ s.threadCollections.rows, r.threadId ∉ ids
  | _ => True

/-- The revision of the collections does not fall. -/
theorem Shelving.revision_le {op : Edit} (h : Shelving op s s') :
    s.collectionRevision ≤ s'.collectionRevision := by
  cases h with
  | aside h => exact Nat.le_of_eq h.revision.symm
  | deleted ids hop h =>
    obtain ⟨-, hrevision, -⟩ := deleteSessions_tables ids s
    rw [h, hrevision]
  | created _ _ _ _ h | updated _ _ _ _ _ h | moved _ _ _ _ _ _ _ h | removed _ _ _ _ _ _ h
  | assigned _ _ _ _ _ h | unassigned _ _ _ h =>
    rw [h.revision]
    exact Nat.le_succ _

/-- Deleting threads that are in no collection leaves the listing. -/
theorem listing_deleteSessions {ids : List String}
    (h : ∀ r ∈ s.threadCollections.rows, r.threadId ∉ ids) :
    listing (deleteSessions ids s).2 = listing s := by
  obtain ⟨hcollections, -, hfiled, -⟩ := deleteSessions_tables ids s
  refine listing_congr hcollections (hfiled.trans (List.filter_eq_self.mpr fun r hr => ?_))
  simpa using h r hr

/-- Deleting a thread that is in a collection changes the listing. -/
theorem listing_deleteSessions_ne {ids : List String} (hs : Shelved s) {r : ThreadCollection}
    (hr : r ∈ s.threadCollections.rows) (hid : r.threadId ∈ ids) :
    listing (deleteSessions ids s).2 ≠ listing s := by
  intro heq
  obtain ⟨-, -, hfiled, -⟩ := deleteSessions_tables ids s
  obtain ⟨e, he, -, hthread⟩ := hs.wellListed.filed r hr
  rw [← heq] at he
  obtain ⟨c, -, rfl⟩ := mem_listing.mp he
  obtain ⟨r', hr', -, hthread'⟩ := mem_threadsOf.mp hthread
  rw [hfiled] at hr'
  have hkept := (List.mem_filter.mp hr').2
  rw [hthread'] at hkept
  simp [hid] at hkept

/-- The revision counts a change of the listing exactly if the operation spares the threads that
are in a collection. -/
theorem Shelving.versioned_iff {op : Edit} (hs : Shelved s) (h : Shelving op s s')
    (hrun : ∀ ids, op = .write (.deleteSessions ids) → s' = (deleteSessions ids s).2) :
    Versioned s s' ↔ op.Spares s := by
  by_cases hop : ∃ ids, op = .write (.deleteSessions ids)
  · obtain ⟨ids, rfl⟩ := hop
    obtain rfl := hrun ids rfl
    obtain ⟨-, hrevision, -⟩ := deleteSessions_tables ids s
    constructor
    · intro hversioned r hr hid
      have hlt := hversioned (listing_deleteSessions_ne hs hr hid)
      rw [hrevision] at hlt
      exact absurd hlt (lt_irrefl _)
    · exact fun hspares hne => absurd (listing_deleteSessions hspares) hne
  · have hspares : op.Spares s := by
      cases op with
      | write op =>
        cases op with
        | deleteSessions ids => exact absurd ⟨ids, rfl⟩ hop
        | _ => trivial
      | _ => trivial
    refine ⟨fun _ => hspares, fun _ hne => ?_⟩
    cases h with
    | aside h => exact absurd (listing_congr h.collections (congrArg (·.rows) h.filed)) hne
    | deleted ids hdeleted => exact absurd ⟨ids, hdeleted⟩ hop
    | created _ _ _ _ h | updated _ _ _ _ _ h | moved _ _ _ _ _ _ _ h | removed _ _ _ _ _ _ h
    | assigned _ _ _ _ _ h | unassigned _ _ _ h =>
      rw [h.revision]
      exact Nat.lt_succ_self _

theorem Edit.versioned_iff {op : Edit} (hs : Shelved s) :
    Versioned s (op.outcome env s).2 ↔ op.Spares s := by
  refine (op.shelving s).versioned_iff hs ?_
  rintro ids rfl
  rfl

/-- A run whose deletions spare the threads that are in a collection. -/
def Spares (ops : List (Environment × Edit)) (s : Database) : Prop :=
  library.Meets (fun s op => op.2.Spares s) s ops

theorem library_revision_le (ops : List (Environment × Edit)) (s : Database) :
    s.collectionRevision ≤ (library.run s ops).1.collectionRevision := by
  induction ops generalizing s with
  | nil => exact Nat.le_refl _
  | cons op rest ih => exact Nat.le_trans (op.2.shelving s).revision_le (ih _)

/-- Over a whole run that spares them, a change of the listing counts the revision. -/
theorem library_versioned {ops : List (Environment × Edit)} (hs : Shelved s)
    (hspares : Spares ops s) : Versioned s (library.run s ops).1 := by
  induction ops generalizing s with
  | nil => exact fun hne => absurd rfl hne
  | cons op rest ih =>
    intro hne
    have hstep : Shelving op.2 s (op.2.outcome op.1 s).2 := op.2.shelving s
    by_cases hsame : listing (op.2.outcome op.1 s).2 = listing s
    · refine Nat.lt_of_le_of_lt hstep.revision_le (ih (hstep.shelved hs) hspares.2 ?_)
      show listing (library.run (op.2.outcome op.1 s).2 rest).1 ≠ _
      rw [hsame]
      exact hne
    · exact Nat.lt_of_lt_of_le ((Edit.versioned_iff hs).mpr hspares.1 hsame)
        (library_revision_le rest _)

/-- What holds of the collections of a store in one of its states. -/
structure Lawful (s : Database) : Prop where
  /-- The listing is well formed. -/
  listed : WellListed s
  /-- An operation that fails changes nothing. -/
  failed : ∀ env op e s', Edit.outcome env op s = (some e, s') → s' = s
  /-- A move changes the rank of what it moves. -/
  moved : ∀ env id position now s',
    Edit.outcome env (.moveCollection id position now) s = (none, s') →
    ∃ n : Nat, position = n ∧ n < (listing s).length ∧ Reordered id n s s'
  /-- The revision counts a change of the listing exactly if the operation deletes no thread that is
  in a collection. -/
  versioned : ∀ env op, Versioned s (Edit.outcome env op s).2 ↔ op.Spares s
  /-- So it counts every change over a run without such a deletion. -/
  spared : ∀ ops, Spares ops s → Versioned s (library.run s ops).1

/-- **The collections are well formed and versioned** in every state of every run. -/
theorem library_lawful (ops : List (Environment × Edit)) : Lawful (library.run {} ops).1 :=
  have hshelved := library_shelved ops
  { listed := hshelved.wellListed
    failed := fun _ _ _ _ h => Edit.outcome_failed h
    moved := fun _ _ _ _ _ h => Edit.moved h
    versioned := fun _ _ => Edit.versioned_iff hshelved
    spared := fun _ hspares => library_versioned hshelved hspares }

namespace Sample

/-- A thread in a collection. -/
def filed : List (Environment × Edit) :=
  [(create.1, .write create.2), (Sample.env "folder", .createCollection "Work" time.rfc3339),
    (Sample.env "file", .write (.assignThreadCollection thread (some "folder.0") time.rfc3339))]

end Sample

/-- A deleted thread leaves its collection, and the revision is as before. -/
theorem deleted_thread_not_counted :
    ∃ s, s = (library.run {} Sample.filed).1 ∧
      listing (Edit.outcome (Sample.env "delete") (.write (.deleteSessions [Sample.thread])) s).2 ≠
        listing s ∧
      ¬ Versioned s
        (Edit.outcome (Sample.env "delete") (.write (.deleteSessions [Sample.thread])) s).2 := by
  have hlisting :
      listing (Edit.outcome (Sample.env "delete") (.write (.deleteSessions [Sample.thread]))
        (library.run {} Sample.filed).1).2 ≠ listing (library.run {} Sample.filed).1 := by
    decide +kernel
  have hrevision :
      (Edit.outcome (Sample.env "delete") (.write (.deleteSessions [Sample.thread]))
        (library.run {} Sample.filed).1).2.collectionRevision =
          (library.run {} Sample.filed).1.collectionRevision := by
    decide +kernel
  refine ⟨_, rfl, hlisting, fun hversioned => ?_⟩
  have hlt := hversioned hlisting
  rw [hrevision] at hlt
  exact absurd hlt (lt_irrefl _)

end AxiomDesktop.Store
