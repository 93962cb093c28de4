import AxiomDesktop.Session.Operations
import AxiomDesktop.Session.Reconcile

/-!
# What an operation writes

`Write.wrote`: an operation of the store either leaves the tables, or commits a batch, changes the
metadata of threads and counts their revisions, replaces one accounting record, settles records,
interrupts what the last process left running, or deletes threads. What the store keeps through
every operation is proved case by case.
-/

namespace AxiomDesktop.Store

open Fallible

variable {t : String} {s s' : Database}

/-- What a change of metadata leaves of a thread. -/
structure CountsThread (r r' : StoredThread) : Prop where
  id : r'.id = r.id
  revision : r'.revision = r.revision + 1
  nextTimelineSequence : r'.nextTimelineSequence = r.nextTimelineSequence
  lifecycle : r'.lifecycle = r.lifecycle
  cwd : r'.cwd = r.cwd
  profile : r'.profile = r.profile
  origin : r'.origin = r.origin

/-- A statement that changes the metadata of a thread and counts its revision, or one on tables no
thread is read from. -/
inductive Recounts (s : Database) : Database → Prop where
  | aside (s' : Database) (hthreads : s'.threads = s.threads) (hturns : s'.turns = s.turns)
      (hitems : s'.timelineItems = s.timelineItems) (husage : s'.requestUsage = s.requestUsage) :
      Recounts s s'
  | count (s' : Database) (t : String) (p : StoredThread → Bool) (hp : ∀ r, p r = true → r.id = t)
      (f : StoredThread → StoredThread) (hf : ∀ r, CountsThread r (f r))
      (hthreads : s'.threads = s.threads.update p f fun r => (hf r).id)
      (hturns : s'.turns = s.turns) (hitems : s'.timelineItems = s.timelineItems)
      (husage : s'.requestUsage = s.requestUsage) : Recounts s s'

/-- What an operation wrote. -/
inductive Wrote (op : Write) (s : Database) : Database → Prop where
  | same : Wrote op s s
  | batch (s' : Database) (t : String) (envelopes : List EventEnvelope)
      (clientItemId c : Option String) (preferences : Option (String × ThinkingLevel))
      (replacement : Option PromptRevision)
      (hop : op = .appendBatch envelopes clientItemId preferences replacement)
      (hne : envelopes ≠ []) (ht : ∀ e ∈ envelopes, e.sessionId.toString = t)
      (h : Batched t envelopes c replacement s s') : Wrote op s s'
  | metadata (s' : Database) (h : Relation.ReflTransGen Recounts s s') : Wrote op s s'
  | recorded (t : String) (usage : RequestUsage) (hop : op = .recordRequestUsage t usage)
      (hvalid : usage.validateCounters = true) (hthread : s.hasThread t = true) :
      Wrote op s ((s.putUsage t usage).setThread t (fun r => { r with revision := r.revision + 1 })
        fun _ => rfl)
  | reconciled (t : String) (snapshots : List RequestUsage)
      (hop : op = .reconcileRequestUsage t snapshots) (h : accepts t snapshots s = true) :
      Wrote op s (snapshots.foldl (settleStored t) s)
  | interrupted (now : String) (hop : op = .interruptIncompleteTurns now) :
      Wrote op s (interruptIncompleteTurns now s)
  | deleted (ids : List String) (hop : op = .deleteSessions ids) :
      Wrote op s (deleteSessions ids s).2

/-! ## Metadata -/

theorem recounts_update {p : StoredThread → Bool} (hp : ∀ r, p r = true → r.id = t)
    {f : StoredThread → StoredThread} (hf : ∀ r, CountsThread r (f r)) :
    Recounts s { s with threads := s.threads.update p f fun r => (hf r).id } :=
  .count _ t p hp f hf rfl rfl rfl rfl

/-- A change of the metadata of a thread fails exactly if there is no such thread. -/
theorem updateThreadMetadata_cases (t : String) (f : StoredThread → StoredThread)
    (hid : ∀ r, (f r).id = r.id) (s : Database) :
    s.hasThread t = false ∧ updateThreadMetadata t f hid s = (.error (.sessionNotFound t), s) ∨
      s.hasThread t = true ∧
        ∃ revision, updateThreadMetadata t f hid s = (.ok revision, s.setThread t f hid) := by
  unfold updateThreadMetadata
  cases hthread : s.hasThread t with
  | false =>
    refine .inl ⟨rfl, ?_⟩
    rw [if_neg (by simpa [Database.hasThread] using hthread)]
  | true =>
    refine .inr ⟨rfl, ?_⟩
    obtain ⟨r, hr, hid'⟩ := Database.hasThread_iff.mp hthread
    have hget : s.threads.get? t = some r := hid' ▸ Rows.get?_of_mem hr
    rw [if_pos (by simpa [Database.hasThread] using hthread)]
    dsimp only
    unfold Database.threadRevision
    rw [Rows.get?_update, hget]
    exact ⟨_, rfl⟩

theorem updateThreadMetadata_wrote {f : StoredThread → StoredThread} {hid : ∀ r, (f r).id = r.id}
    (hf : ∀ r, CountsThread r (f r)) :
    Relation.ReflTransGen Recounts s (updateThreadMetadata t f hid s).2 := by
  obtain ⟨-, h⟩ | ⟨-, revision, h⟩ := updateThreadMetadata_cases t f hid s
  · rw [h]
  · rw [h]
    exact .single (recounts_update (fun r hr => of_decide_eq_true hr) hf)

/-- The threads of a deleted collection, each counted. -/
theorem recounts_forM {ids : List String} {now : String} {tx tx' : Transaction} {u : PUnit}
    (h : (ids.forM fun threadId => updateThread threadId fun r =>
      { r with revision := r.revision + 1, updatedAt := now } : StoreM PUnit).exec tx =
        (.ok u, tx')) : Relation.ReflTransGen Recounts tx.db tx'.db := by
  induction ids generalizing tx with
  | nil =>
    obtain ⟨-, rfl⟩ := Prod.mk.inj h
    exact .refl
  | cons id rest ih =>
    obtain ⟨_, tx₁, hfirst, hrest⟩ := exec_bind_ok.mp h
    refine .head ?_ (ih hrest)
    rw [updateThread_ok hfirst]
    have counts : ∀ r : StoredThread, CountsThread r
        { r with revision := r.revision + 1, updatedAt := now } :=
      fun _ => ⟨rfl, rfl, rfl, rfl, rfl, rfl, rfl⟩
    exact recounts_update (fun r hr => of_decide_eq_true hr) counts

theorem bumpCollectionRevision_ok {id : Option String} {tx tx' : Transaction}
    {change : CollectionChange} (h : (bumpCollectionRevision id).exec tx = (.ok change, tx')) :
    Recounts tx.db tx'.db := by
  rw [bumpCollectionRevision, exec_modifyTables_bind, exec_tables_bind, exec_pure] at h
  obtain ⟨-, rfl⟩ := Prod.mk.inj h
  exact .aside _ rfl rfl rfl rfl

theorem deleteCollection_wrote (env : Environment) (id now : String) :
    Relation.ReflTransGen Recounts s (deleteCollection env id now s).2 := by
  unfold deleteCollection
  generalize h : transaction env _ s = r
  obtain ⟨result, s'⟩ := r
  cases result with
  | error e =>
    rw [transaction_error h]
  | ok change =>
    obtain ⟨tx', hexec, rfl⟩ := transaction_ok h
    rw [exec_tables_bind] at hexec
    obtain ⟨_, _, hcheck, hexec⟩ := exec_bind_ok.mp hexec
    obtain ⟨-, rfl⟩ := exec_failIf_ok.mp hcheck
    rw [exec_modifyTables_bind, exec_tables_bind, exec_modifyTables_bind] at hexec
    obtain ⟨_, tx₁, hcount, hbump⟩ := exec_bind_ok.mp hexec
    refine .head ?_ ((recounts_forM hcount).tail (bumpCollectionRevision_ok hbump))
    exact .aside _ rfl rfl rfl rfl

theorem assignThreadCollection_wrote (env : Environment) (collectionId : Option String)
    (now : String) :
    Relation.ReflTransGen Recounts s (assignThreadCollection env t collectionId now s).2 := by
  unfold assignThreadCollection
  generalize h : transaction env _ s = r
  obtain ⟨result, s'⟩ := r
  cases result with
  | error e =>
    rw [transaction_error h]
  | ok change =>
    obtain ⟨tx', hexec, rfl⟩ := transaction_ok h
    obtain ⟨_, _, hensure, hexec⟩ := exec_bind_ok.mp hexec
    obtain ⟨-, rfl⟩ := ensureThread_ok hensure
    have counts : ∀ r : StoredThread, CountsThread r
        { r with revision := r.revision + 1, updatedAt := now } :=
      fun _ => ⟨rfl, rfl, rfl, rfl, rfl, rfl, rfl⟩
    have rest : ∀ tx₁ : Transaction, Recounts s tx₁.db →
        (do
          updateThread t fun r => { r with revision := r.revision + 1, updatedAt := now }
          bumpCollectionRevision collectionId : StoreM CollectionChange).exec tx₁ =
            (.ok change, tx') →
        Relation.ReflTransGen Recounts s tx'.db := by
      intro tx₁ haside h
      obtain ⟨_, tx₂, hcount, hbump⟩ := exec_bind_ok.mp h
      refine .head haside (.head ?_ (.single (bumpCollectionRevision_ok hbump)))
      rw [updateThread_ok hcount]
      exact recounts_update (fun r hr => of_decide_eq_true hr) counts
    cases collectionId with
    | none =>
      dsimp only at hexec
      rw [exec_modifyTables_bind] at hexec
      exact rest _ (.aside _ rfl rfl rfl rfl) hexec
    | some collectionId =>
      dsimp only at hexec
      rw [exec_tables_bind] at hexec
      obtain ⟨_, _, hcheck, hexec⟩ := exec_bind_ok.mp hexec
      obtain ⟨-, rfl⟩ := exec_failIf_ok.mp hcheck
      rw [exec_modifyTables_bind] at hexec
      exact rest _ (.aside _ rfl rfl rfl rfl) hexec

/-! ## The operation -/

/-- A record that was not refused is stored, and its thread counted. -/
theorem recordRequestUsage_run (env : Environment) (t : String) (usage : RequestUsage)
    (s : Database) :
    (recordRequestUsage env t usage s).2 = s ∨
      usage.validateCounters = true ∧ s.hasThread t = true ∧
        (recordRequestUsage env t usage s).2 =
          (s.putUsage t usage).setThread t (fun r => { r with revision := r.revision + 1 })
            fun _ => rfl := by
  unfold recordRequestUsage
  split
  · exact .inl rfl
  · rename_i hvalid
    generalize h : transaction env _ s = r
    obtain ⟨result, s'⟩ := r
    cases result with
    | error e =>
      rw [transaction_error h]
      exact .inl rfl
    | ok u =>
      obtain ⟨tx', hexec, rfl⟩ := transaction_ok h
      obtain ⟨_, _, hensure, hexec⟩ := exec_bind_ok.mp hexec
      obtain ⟨hthread, rfl⟩ := ensureThread_ok hensure
      obtain ⟨_, tx₁, hput, hcount⟩ := exec_bind_ok.mp hexec
      obtain ⟨-, hdb⟩ := upsertUsage_ok hput
      refine .inr ⟨by simpa using hvalid, hthread, ?_⟩
      show tx'.db = _
      rw [updateThread_ok hcount, hdb]

theorem recordRequestUsage_wrote (env : Environment) (usage : RequestUsage) :
    Wrote (.recordRequestUsage t usage) s (recordRequestUsage env t usage s).2 := by
  obtain hsame | ⟨hvalid, hthread, hdb⟩ := recordRequestUsage_run env t usage s
  · rw [hsame]
    exact .same
  · rw [hdb]
    exact .recorded t usage rfl hvalid hthread

/-- **Every operation is one of the cases.** -/
theorem Write.wrote (env : Environment) (op : Write) (s : Database) : Wrote op s (op.run env s) := by
  cases op with
  | appendBatch envelopes clientItemId preferences replacement =>
    show Wrote _ s (Store.appendBatch env envelopes clientItemId preferences replacement s).2
    generalize h : Store.appendBatch env envelopes clientItemId preferences replacement s = r
    obtain ⟨result, s'⟩ := r
    cases result with
    | error e =>
      rw [appendBatch_error h]
      exact .same
    | ok out =>
      obtain ⟨first, hfirst, hsame, c, hbatch⟩ := appendBatch_ok h
      exact .batch _ _ envelopes clientItemId c preferences replacement rfl
        (List.ne_nil_of_mem hfirst) (fun e he => by rw [hsame e he]) hbatch
  | rename threadId title now =>
    refine .metadata _ ?_
    show Relation.ReflTransGen Recounts s (Store.rename threadId title now s).2
    unfold Store.rename
    split
    · exact .refl
    · exact updateThreadMetadata_wrote fun _ => ⟨rfl, rfl, rfl, rfl, rfl, rfl, rfl⟩
  | archive threadId archived now =>
    exact .metadata _ (updateThreadMetadata_wrote fun _ => ⟨rfl, rfl, rfl, rfl, rfl, rfl, rfl⟩)
  | setTitleIfAbsent threadId title now =>
    refine .metadata _ ?_
    show Relation.ReflTransGen Recounts s (Store.setTitleIfAbsent threadId title now s).2
    unfold Store.setTitleIfAbsent
    dsimp only
    split
    · exact .refl
    · split
      · refine .single (.count _ threadId _ ?_ _ ?_ rfl rfl rfl rfl)
        · exact fun r hr => of_decide_eq_true (Bool.and_eq_true_iff.mp hr).1
        · exact fun _ => ⟨rfl, rfl, rfl, rfl, rfl, rfl, rfl⟩
      · split <;> exact .refl
  | beginTitleGeneration threadId fallback generation now =>
    refine .metadata _ ?_
    show Relation.ReflTransGen Recounts s
      (Store.beginTitleGeneration threadId fallback generation now s).2
    unfold Store.beginTitleGeneration
    dsimp only
    split
    · exact .refl
    · refine .single (.count _ threadId _ ?_ _ ?_ rfl rfl rfl rfl)
      · exact fun r hr => of_decide_eq_true (Bool.and_eq_true_iff.mp hr).1
      · exact fun _ => ⟨rfl, rfl, rfl, rfl, rfl, rfl, rfl⟩
  | finishTitleGeneration threadId generation title now =>
    refine .metadata _ ?_
    show Relation.ReflTransGen Recounts s
      (Store.finishTitleGeneration threadId generation title now s).2
    unfold Store.finishTitleGeneration
    dsimp only
    split
    · exact .refl
    · refine .single (.count _ threadId _ ?_ _ ?_ rfl rfl rfl rfl)
      · exact fun r hr => of_decide_eq_true (Bool.and_eq_true_iff.mp hr).1
      · exact fun _ => ⟨rfl, rfl, rfl, rfl, rfl, rfl, rfl⟩
  | assignThreadCollection threadId collectionId now =>
    exact .metadata _ (assignThreadCollection_wrote env collectionId now)
  | deleteCollection id now => exact .metadata _ (deleteCollection_wrote env id now)
  | recordRequestUsage threadId usage => exact recordRequestUsage_wrote env usage
  | reconcileRequestUsage threadId snapshots =>
    show Wrote _ s (Store.reconcileRequestUsage env threadId snapshots s).2
    rw [reconcileRequestUsage_eq]
    split
    · rename_i haccepts
      exact .reconciled threadId snapshots rfl haccepts
    · exact .same
  | interruptIncompleteTurns now => exact .interrupted now rfl
  | deleteSessions ids => exact .deleted ids rfl

end AxiomDesktop.Store
