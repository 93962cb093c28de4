import AxiomDesktop.Session.Effects

/-!
# Titles

Who gives a thread its title: the user, who renames it, or a background job, which reserves one
with a fallback (`beginTitleGeneration`) and replaces the fallback when it is done
(`finishTitleGeneration`). `titles_kept` says that a title of the user stays until the next rename,
that at most one job is pending, and that a job that finishes was begun, did not finish before and
was not overtaken by a rename.
-/

namespace AxiomDesktop.Store

open Fallible

/-- An operation, and the tables it found. -/
structure Act where
  env : Environment
  op : Write
  before : Database

namespace Act

/-- The tables an operation left. -/
def after (d : Act) : Database := d.op.run d.env d.before

end Act

/-- The store, with the operations it ran. -/
def journal : Machine Database (Environment × Write) Act where
  step db op := (op.2.run op.1 db, [⟨op.1, op.2, db⟩])

/-- What an operation did to the title of a thread, as its caller sees it. -/
inductive Mark where
  | renamed (title : String)
  | set
  | begun (generation : String)
  | finished (generation : String)
  | deleted
  | other
  deriving DecidableEq, Repr

/-- What an operation did to the title of thread `t`. -/
def Act.mark (t : String) (d : Act) : Mark :=
  match d.op with
  | .rename threadId title now =>
    if threadId = t then
      match (rename threadId title now d.before).1, validateTitle title with
      | .ok _, .ok title => .renamed title
      | _, _ => .other
    else .other
  | .setTitleIfAbsent threadId title now =>
    if threadId = t then
      match (setTitleIfAbsent threadId title now d.before).1 with
      | .ok true => .set
      | _ => .other
    else .other
  | .beginTitleGeneration threadId fallback generation now =>
    if threadId = t then
      match (beginTitleGeneration threadId fallback generation now d.before).1 with
      | .ok (some generation) => .begun generation
      | _ => .other
    else .other
  | .finishTitleGeneration threadId generation title now =>
    if threadId = t then
      match (finishTitleGeneration threadId generation title now d.before).1 with
      | .ok true => .finished generation
      | _ => .other
    else .other
  | .deleteSessions ids => if t ∈ ids then .deleted else .other
  | _ => .other

/-- The title of a thread. -/
def titleOf (s : Database) (t : String) : Option String := (s.threads.get? t).bind (·.title)

/-- `SessionStore::title_generation_pending`. -/
def titleGenerationPending (s : Database) (t generation : String) : Bool :=
  s.threads.any fun r => r.id = t && r.titleGenerationId = some generation

/-- The columns of a thread that its title is decided by. -/
def labelOf (s : Database) (t : String) : Option (Option String × Option String) :=
  (s.threads.get? t).map fun r => (r.title, r.titleGenerationId)

variable {t : String} {s s' : Database} {env : Environment}

/-! ## Operations that give no title -/

/-- The title of a thread is as it was, or the thread is new and has none. -/
def KeepsLabel (t : String) (s s' : Database) : Prop :=
  labelOf s' t = labelOf s t ∨ labelOf s t = none ∧ labelOf s' t = some (none, none)

namespace KeepsLabel

theorem refl (s : Database) : KeepsLabel t s s := .inl rfl

theorem trans {s'' : Database} (h : KeepsLabel t s s') (h' : KeepsLabel t s' s'') :
    KeepsLabel t s s'' := by
  obtain h | ⟨hnone, hnew⟩ := h
  · obtain h' | ⟨hnone', hnew'⟩ := h'
    · exact .inl (h'.trans h)
    · exact .inr ⟨h ▸ hnone', hnew'⟩
  · obtain h' | ⟨hnone', -⟩ := h'
    · exact .inr ⟨hnone, h'.trans hnew⟩
    · rw [hnew] at hnone'
      cases hnone'

theorem of_get? (h : s'.threads.get? t = s.threads.get? t) : KeepsLabel t s s' :=
  .inl (congrArg (Option.map _) h)

/-- Columns of threads changed, but not the title. -/
theorem of_update {p : StoredThread → Bool} {f : StoredThread → StoredThread}
    (hthreads : s'.threads.rows = s.threads.rows.map (Rows.edit p f))
    (hf : ∀ r, (f r).id = r.id)
    (htitle : ∀ r, (f r).title = r.title ∧ (f r).titleGenerationId = r.titleGenerationId) :
    KeepsLabel t s s' := by
  refine .inl ?_
  unfold labelOf
  rw [Rows.eq_update hf hthreads, Rows.get?_update, Option.map_map]
  refine congrArg (fun g => (s.threads.get? t).map g) (funext fun r => Prod.ext ?_ ?_)
  · exact Rows.edit_keeps (g := (·.title)) (fun r => (htitle r).1) r
  · exact Rows.edit_keeps (g := (·.titleGenerationId)) (fun r => (htitle r).2) r

end KeepsLabel

theorem keepsLabel_setThread {t' : String} {f : StoredThread → StoredThread}
    {hf : ∀ r, (f r).id = r.id}
    (htitle : ∀ r, (f r).title = r.title ∧ (f r).titleGenerationId = r.titleGenerationId) :
    KeepsLabel t s (s.setThread t' f hf) := .of_update rfl hf htitle

theorem Inserted.keepsLabel {t' : String} {w : TimelineItemWrite} {i : TimelineItem}
    (h : Inserted t' w s i s') : KeepsLabel t s s' := by
  cases h
  exact .of_update rfl (fun _ => rfl) fun _ => ⟨rfl, rfl⟩

theorem Annotations.keepsLabel {t' : String} {N A : String → Prop}
    (h : Annotations t' N A s s') : KeepsLabel t s s' := by
  induction h with
  | refl => exact .refl s
  | tail _ hstep ih =>
    refine ih.trans ?_
    cases hstep with
    | thread f hf => exact keepsLabel_setThread fun r => ⟨(hf r).title, (hf r).titleGenerationId⟩
    | newRow _ w i hi => exact hi.keepsLabel
    | row | counts => exact .of_get? rfl

theorem keepsLabel_reportUsage {t' : String} (usage : RequestUsage) (now : String) :
    KeepsLabel t s (s.reportUsage t' usage now) := by
  unfold Database.reportUsage
  dsimp only
  split <;> split <;> exact .of_get? rfl

theorem Persisted.keepsLabel {t' : String} {e : AppEvent} {c : Option String} {now : String}
    (h : Persisted e t' c now s s') : KeepsLabel t s s' := by
  have lifecycle : ∀ (s : Database) (l : ThreadLifecycle), KeepsLabel t s (s.setLifecycle t' l) :=
    fun _ _ => keepsLabel_setThread fun _ => ⟨rfl, rfl⟩
  cases h with
  | notes _ he h => exact h.keepsLabel
  | interaction s' l he h hthread => exact h.keepsLabel.trans (lifecycle s' l)
  | created cwd origin profile he threads h =>
    by_cases ht : t = t'
    · subst ht
      obtain ⟨hnone, hnew⟩ := get?_insert?_self h
      refine .inr ⟨?_, ?_⟩
      · show (s.threads.get? t).map _ = none
        rw [show s.threads.get? t = none from hnone]
        rfl
      · show (threads.get? t).map _ = _
        rw [show threads.get? t = _ from hnew]
        rfl
    · exact .of_get? (get?_insert?_other h ht)
  | resumed | configured | profiled => exact keepsLabel_setThread fun _ => ⟨rfl, rfl⟩
  | closed => exact lifecycle s .closed
  | prompt s₁ s₂ s₃ turnId text attachments he i j hi hattached hj turns hturns =>
    have hbeside : KeepsLabel t s₁ s₂ := by
      cases hattached with
      | none => exact .refl s₁
      | some => exact .of_get? rfl
    have hturn : KeepsLabel t s₃ ({ s₃ with turns } : Database) := .of_get? rfl
    exact hi.keepsLabel.trans (hbeside.trans (hj.keepsLabel.trans
      (hturn.trans (lifecycle _ .running))))
  | started turnId =>
    have hturn : KeepsLabel t s (s.startTurn t' turnId.toString now) := .of_get? rfl
    exact hturn.trans (lifecycle _ .running)
  | delta s' T kind text he i h =>
    have happend : KeepsLabel t s' (s'.setItem i.id (appendDelta (redactText text) now)
        fun _ => rfl) := .of_get? rfl
    cases h with
    | found => exact happend
    | made _ _ hi => exact hi.keepsLabel.trans happend
  | reported usage => exact keepsLabel_reportUsage usage now
  | passed => exact .refl s
  | verified => exact .of_get? rfl
  | finished _ T status error he hrunning hthread finished h =>
    have hfinish : KeepsLabel t s (s.finishTurn t' T status error now finished) := by
      refine KeepsLabel.trans ?_ (lifecycle _ .ready)
      exact .of_get? rfl
    exact hfinish.trans h.keepsLabel

theorem Appended.keepsLabel {t' : String} {c : Option String} {envelopes : List EventEnvelope}
    (h : Appended t' c envelopes s s') : KeepsLabel t s s' := by
  induction h with
  | nil c s => exact .refl s
  | cons c e rest s s₁ s₂ s' hevent htimes _ ih =>
    exact hevent.keepsLabel.trans (htimes.keepsLabel.trans ih)

theorem Batched.keepsLabel {t' : String} {envelopes : List EventEnvelope} {c : Option String}
    {replacement : Option PromptRevision} (h : Batched t' envelopes c replacement s s') :
    KeepsLabel t s s' := by
  cases h with
  | intro s₁ s₂ now preferences htruncate happend hthread =>
    have hcut : KeepsLabel t s s₁ := by
      obtain ⟨-, rfl⟩ | ⟨r, -, -, hr⟩ := htruncate
      · exact .refl _
      · cases hr
        exact .of_update rfl (fun _ => rfl) fun _ => ⟨rfl, rfl⟩
    exact hcut.trans (happend.keepsLabel.trans
      (.of_update rfl (fun _ => rfl) fun _ => ⟨rfl, rfl⟩))

theorem keepsLabel_countThreads {ids : List String} {now : String} {tx tx' : Transaction} {u : PUnit}
    (h : (ids.forM fun threadId => updateThread threadId fun r =>
      { r with revision := r.revision + 1, updatedAt := now } : StoreM PUnit).exec tx =
        (.ok u, tx')) : KeepsLabel t tx.db tx'.db := by
  induction ids generalizing tx with
  | nil =>
    obtain ⟨-, rfl⟩ := Prod.mk.inj h
    exact .refl _
  | cons id rest ih =>
    obtain ⟨_, tx₁, hfirst, hrest⟩ := exec_bind_ok.mp h
    refine KeepsLabel.trans ?_ (ih hrest)
    rw [updateThread_ok hfirst]
    exact keepsLabel_setThread fun _ => ⟨rfl, rfl⟩

theorem keepsLabel_bump {id : Option String} {tx tx' : Transaction} {change : CollectionChange}
    (h : (bumpCollectionRevision id).exec tx = (.ok change, tx')) : KeepsLabel t tx.db tx'.db := by
  rw [bumpCollectionRevision, exec_modifyTables_bind, exec_tables_bind, exec_pure] at h
  obtain ⟨-, rfl⟩ := Prod.mk.inj h
  exact .of_get? rfl

theorem keepsLabel_deleteCollection (id now : String) :
    KeepsLabel t s (deleteCollection env id now s).2 := by
  unfold deleteCollection
  generalize h : transaction env _ s = r
  obtain ⟨result, s'⟩ := r
  cases result with
  | error e =>
    rw [transaction_error h]
    exact .refl s
  | ok change =>
    obtain ⟨tx', hexec, rfl⟩ := transaction_ok h
    rw [exec_tables_bind] at hexec
    obtain ⟨_, _, hcheck, hexec⟩ := exec_bind_ok.mp hexec
    obtain ⟨-, rfl⟩ := exec_failIf_ok.mp hcheck
    rw [exec_modifyTables_bind, exec_tables_bind, exec_modifyTables_bind] at hexec
    obtain ⟨_, tx₁, hcount, hbump⟩ := exec_bind_ok.mp hexec
    refine KeepsLabel.trans ?_ ((keepsLabel_countThreads hcount).trans (keepsLabel_bump hbump))
    exact .of_get? rfl

theorem keepsLabel_assign (threadId : String) (collectionId : Option String) (now : String) :
    KeepsLabel t s (assignThreadCollection env threadId collectionId now s).2 := by
  unfold assignThreadCollection
  generalize h : transaction env _ s = r
  obtain ⟨result, s'⟩ := r
  cases result with
  | error e =>
    rw [transaction_error h]
    exact .refl s
  | ok change =>
    obtain ⟨tx', hexec, rfl⟩ := transaction_ok h
    obtain ⟨_, _, hensure, hexec⟩ := exec_bind_ok.mp hexec
    obtain ⟨-, rfl⟩ := ensureThread_ok hensure
    have rest : ∀ tx₁ : Transaction, KeepsLabel t s tx₁.db →
        (do
          updateThread threadId fun r => { r with revision := r.revision + 1, updatedAt := now }
          bumpCollectionRevision collectionId : StoreM CollectionChange).exec tx₁ =
            (.ok change, tx') →
        KeepsLabel t s tx'.db := by
      intro tx₁ hkeeps h
      obtain ⟨_, tx₂, hcount, hbump⟩ := exec_bind_ok.mp h
      refine hkeeps.trans (KeepsLabel.trans ?_ (keepsLabel_bump hbump))
      rw [updateThread_ok hcount]
      exact keepsLabel_setThread fun _ => ⟨rfl, rfl⟩
    cases collectionId with
    | none =>
      dsimp only at hexec
      rw [exec_modifyTables_bind] at hexec
      exact rest _ (.of_get? rfl) hexec
    | some collectionId =>
      dsimp only at hexec
      rw [exec_tables_bind] at hexec
      obtain ⟨_, _, hcheck, hexec⟩ := exec_bind_ok.mp hexec
      obtain ⟨-, rfl⟩ := exec_failIf_ok.mp hcheck
      rw [exec_modifyTables_bind] at hexec
      exact rest _ (.of_get? rfl) hexec

theorem keepsLabel_record (threadId : String) (usage : RequestUsage) :
    KeepsLabel t s (recordRequestUsage env threadId usage s).2 := by
  obtain hsame | ⟨-, -, hdb⟩ := recordRequestUsage_run env threadId usage s
  · rw [hsame]
    exact .refl s
  · rw [hdb]
    refine KeepsLabel.trans ?_ (keepsLabel_setThread fun _ => ⟨rfl, rfl⟩)
    exact .of_get? rfl

theorem keepsLabel_reconcile (threadId : String) (snapshots : List RequestUsage) :
    KeepsLabel t s (reconcileRequestUsage env threadId snapshots s).2 := by
  rw [reconcileRequestUsage_eq]
  split
  · obtain ⟨hthreads, -⟩ := settleAll_tables (t := threadId) (s := s) snapshots
    exact .of_get? (congrArg (·.get? t) hthreads)
  · exact .refl s

theorem keepsLabel_interrupt (now : String) :
    KeepsLabel t s (interruptIncompleteTurns now s) := by
  unfold interruptIncompleteTurns
  dsimp only
  split
  · exact .of_get? rfl
  · exact .of_update rfl (fun _ => rfl) fun _ => ⟨rfl, rfl⟩

theorem keepsLabel_batch (envelopes : List EventEnvelope) (c : Option String)
    (preferences : Option (String × ThinkingLevel)) (replacement : Option PromptRevision) :
    KeepsLabel t s (appendBatch env envelopes c preferences replacement s).2 := by
  generalize h : appendBatch env envelopes c preferences replacement s = r
  obtain ⟨result, s'⟩ := r
  cases result with
  | error e =>
    rw [appendBatch_error h]
    exact .refl s
  | ok out =>
    obtain ⟨first, -, -, c', hbatch⟩ := appendBatch_ok h
    exact hbatch.keepsLabel

/-! ## Operations on titles -/

/-- What an operation with a mark did to the label of its thread. -/
inductive Labelled (t : String) (s s' : Database) : Mark → Prop where
  | other (h : KeepsLabel t s s') : Labelled t s s' .other
  | renamed (title : String) (h : labelOf s' t = some (some title, none)) :
      Labelled t s s' (.renamed title)
  | set (title : String) (generation : Option String) (h : labelOf s t = some (none, generation))
      (h' : labelOf s' t = some (some title, generation)) : Labelled t s s' .set
  | begun (fallback generation : String) (g : Option String) (h : labelOf s t = some (none, g))
      (h' : labelOf s' t = some (some fallback, some generation)) :
      Labelled t s s' (.begun generation)
  | finished (generation : String) (title old : Option String)
      (h : labelOf s t = some (old, some generation))
      (h' : labelOf s' t = some (title.or old, none)) : Labelled t s s' (.finished generation)
  | deleted (h : labelOf s' t = none) : Labelled t s s' .deleted

/-- The label of a thread after the columns of a thread changed. -/
theorem labelOf_update {p : StoredThread → Bool} {f : StoredThread → StoredThread}
    (hf : ∀ r, (f r).id = r.id) (hthreads : s'.threads.rows = s.threads.rows.map (Rows.edit p f)) :
    labelOf s' t = (s.threads.get? t).map fun r =>
      if p r then ((f r).title, (f r).titleGenerationId) else (r.title, r.titleGenerationId) := by
  unfold labelOf
  rw [Rows.eq_update hf hthreads, Rows.get?_update, Option.map_map]
  refine congrArg (fun g => (s.threads.get? t).map g) (funext fun r => ?_)
  unfold Rows.edit
  dsimp only [Function.comp_apply]
  split <;> rfl

/-- A statement on rows that are not the thread's leaves its label. -/
theorem keepsLabel_other {p : StoredThread → Bool} {f : StoredThread → StoredThread}
    (hf : ∀ r, (f r).id = r.id) (hthreads : s'.threads.rows = s.threads.rows.map (Rows.edit p f))
    (hp : ∀ r ∈ s.threads.rows, r.id = t → p r = false) : KeepsLabel t s s' := by
  refine .inl ?_
  rw [labelOf_update hf hthreads]
  unfold labelOf
  cases hget : s.threads.get? t with
  | none => rfl
  | some r =>
    obtain ⟨hr, hid⟩ := Rows.get?_mem hget
    rw [Option.map_some, Option.map_some, hp r hr hid]
    rfl

/-- A statement on a row of the thread sets its label. -/
theorem labelOf_updated {p : StoredThread → Bool} {f : StoredThread → StoredThread}
    {r : StoredThread} (hf : ∀ r, (f r).id = r.id)
    (hthreads : s'.threads.rows = s.threads.rows.map (Rows.edit p f))
    (hr : r ∈ s.threads.rows) (hid : r.id = t) (hp : p r = true) :
    labelOf s t = some (r.title, r.titleGenerationId) ∧
      labelOf s' t = some ((f r).title, (f r).titleGenerationId) := by
  have hget : s.threads.get? t = some r := hid ▸ Rows.get?_of_mem hr
  refine ⟨?_, ?_⟩
  · unfold labelOf
    rw [hget]
    rfl
  · rw [labelOf_update hf hthreads, hget, Option.map_some, if_pos hp]

/-- A statement on the rows of one thread, and what its caller sees of it. -/
theorem labelled_update {threadId : String} {p : StoredThread → Bool}
    {f : StoredThread → StoredThread} {m : Mark}
    (hthreads : s'.threads.rows = s.threads.rows.map (Rows.edit p f)) (hf : ∀ r, (f r).id = r.id)
    (hp : ∀ r, p r = true → r.id = threadId) (hnone : s.threads.any p = false → m = .other)
    (hrow : s.threads.any p = true → ∀ r, p r = true →
      labelOf s t = some (r.title, r.titleGenerationId) →
      labelOf s' t = some ((f r).title, (f r).titleGenerationId) → Labelled t s s' m) :
    Labelled t s s' (if threadId = t then m else .other) := by
  have unchanged : (∀ r ∈ s.threads.rows, r.id = t → p r = false) →
      Labelled t s s' .other := fun h => .other (keepsLabel_other hf hthreads h)
  by_cases ht : threadId = t
  · rw [if_pos ht]
    cases hany : s.threads.any p with
    | false =>
      rw [hnone hany]
      refine unchanged fun r hr _ => ?_
      rw [Bool.eq_false_iff]
      intro h
      have hsome : s.threads.any p = true := List.any_eq_true.mpr ⟨r, hr, h⟩
      rw [hany] at hsome
      cases hsome
    | true =>
      obtain ⟨r, hr, hpr⟩ := List.any_eq_true.mp hany
      obtain ⟨hbefore, hafter⟩ := labelOf_updated hf hthreads hr ((hp r hpr).trans ht) hpr
      exact hrow hany r hpr hbefore hafter
  · rw [if_neg ht]
    refine unchanged fun r _ hr => ?_
    exact Bool.eq_false_iff.mpr fun h => ht ((hp r h).symm.trans hr)

theorem Act.after_eq {d : Act} {op : Write} (hop : d.op = op) : d.after = op.run d.env d.before := by
  unfold Act.after
  rw [hop]

theorem rename_labelled {threadId title now : String} {d : Act}
    (hop : d.op = .rename threadId title now) : Labelled t d.before d.after (d.mark t) := by
  rw [Act.after_eq hop]
  unfold Act.mark
  rw [hop]
  show Labelled t d.before (rename threadId title now d.before).2 _
  dsimp only
  unfold rename
  cases validateTitle title with
  | error e =>
    dsimp only
    split <;> exact .other (.refl _)
  | ok valid =>
    dsimp only
    obtain ⟨-, hcase⟩ | ⟨hthread, revision, hcase⟩ :=
      updateThreadMetadata_cases threadId
        (fun r =>
          { r with
            title := some valid
            titleGenerationId := none
            revision := r.revision + 1
            updatedAt := now }) (fun _ => rfl) d.before
    · rw [hcase]
      split <;> exact .other (.refl _)
    · rw [hcase]
      refine labelled_update rfl ?_ (fun r hr => of_decide_eq_true hr) ?_ ?_
      · exact fun _ => rfl
      · intro hnone
        unfold Database.hasThread at hthread
        rw [hthread] at hnone
        cases hnone
      · exact fun _ r _ _ hafter => .renamed valid hafter

theorem setTitleIfAbsent_labelled {threadId title now : String} {d : Act}
    (hop : d.op = .setTitleIfAbsent threadId title now) :
    Labelled t d.before d.after (d.mark t) := by
  rw [Act.after_eq hop]
  unfold Act.mark
  rw [hop]
  show Labelled t d.before (setTitleIfAbsent threadId title now d.before).2 _
  dsimp only
  unfold setTitleIfAbsent
  cases validateTitle title with
  | error e =>
    dsimp only
    split <;> exact .other (.refl _)
  | ok valid =>
    dsimp only
    by_cases habsent : (d.before.threads.any fun r => r.id = threadId && r.title.isNone) = true
    · rw [if_pos habsent]
      refine labelled_update rfl ?_
        (fun r hr => of_decide_eq_true (Bool.and_eq_true_iff.mp hr).1) ?_ ?_
      · exact fun _ => rfl
      · intro hnone
        rw [habsent] at hnone
        cases hnone
      · intro _ r hr hbefore hafter
        rw [Option.isNone_iff_eq_none.mp (Bool.and_eq_true_iff.mp hr).2] at hbefore
        exact .set valid r.titleGenerationId hbefore hafter
    · rw [if_neg habsent]
      split <;> split <;> exact .other (.refl _)

theorem beginTitleGeneration_labelled {threadId fallback generation now : String} {d : Act}
    (hop : d.op = .beginTitleGeneration threadId fallback generation now) :
    Labelled t d.before d.after (d.mark t) := by
  rw [Act.after_eq hop]
  unfold Act.mark
  rw [hop]
  show Labelled t d.before (beginTitleGeneration threadId fallback generation now d.before).2 _
  dsimp only
  unfold beginTitleGeneration
  cases validateTitle fallback with
  | error e =>
    dsimp only
    split <;> exact .other (.refl _)
  | ok valid =>
    dsimp only
    refine labelled_update rfl ?_
      (fun r hr => of_decide_eq_true (Bool.and_eq_true_iff.mp hr).1) ?_ ?_
    · exact fun _ => rfl
    · intro hnone
      rw [hnone]
      rfl
    · intro habsent r hr hbefore hafter
      rw [Option.isNone_iff_eq_none.mp (Bool.and_eq_true_iff.mp hr).2] at hbefore
      rw [habsent]
      exact .begun valid generation r.titleGenerationId hbefore hafter

theorem finishTitleGeneration_labelled {threadId generation now : String} {title : Option String}
    {d : Act} (hop : d.op = .finishTitleGeneration threadId generation title now) :
    Labelled t d.before d.after (d.mark t) := by
  rw [Act.after_eq hop]
  unfold Act.mark
  rw [hop]
  show Labelled t d.before (finishTitleGeneration threadId generation title now d.before).2 _
  dsimp only
  unfold finishTitleGeneration
  cases title.mapM validateTitle with
  | error e =>
    dsimp only
    split <;> exact .other (.refl _)
  | ok valid =>
    dsimp only
    refine labelled_update rfl ?_
      (fun r hr => of_decide_eq_true (Bool.and_eq_true_iff.mp hr).1) ?_ ?_
    · exact fun _ => rfl
    · intro hnone
      rw [hnone]
    · intro hpending r hr hbefore hafter
      rw [of_decide_eq_true (Bool.and_eq_true_iff.mp hr).2] at hbefore
      rw [hpending]
      exact .finished generation valid r.title hbefore hafter

theorem deleteSessions_get? (ids : List String) (s : Database) :
    (deleteSessions ids s).2.threads.get? t = if t ∈ ids then none else s.threads.get? t := by
  induction ids generalizing s with
  | nil => rfl
  | cons id rest ih =>
    refine (ih (deleteThread id s)).trans ?_
    have hget : (deleteThread id s).threads.get? t =
        if t = id then none else s.threads.get? t := by
      show (s.threads.rows.filter _).find? _ = _
      rw [List.find?_filter]
      by_cases ht : t = id
      · rw [if_pos ht, List.find?_eq_none]
        intro r _ hr
        simp [ht] at hr
      · rw [if_neg ht]
        refine congrArg (fun p => s.threads.rows.find? p) (funext fun r => ?_)
        by_cases hr : r.id = t
        · simp [hr, ht]
        · simp [hr]
    rw [hget]
    by_cases ht : t = id
    · simp [ht]
    · simp [ht]

/-- **What every operation did to the title of a thread.** -/
theorem Act.labelled (d : Act) (t : String) : Labelled t d.before d.after (d.mark t) := by
  have other : ∀ op, d.op = op → d.mark t = .other →
      KeepsLabel t d.before (op.run d.env d.before) → Labelled t d.before d.after (d.mark t) := by
    intro op hop hmark hkeeps
    rw [Act.after_eq hop, hmark]
    exact .other hkeeps
  have mark : ∀ op, d.op = op → d.mark t = Act.mark t ⟨d.env, op, d.before⟩ := by
    intro op hop
    subst hop
    rfl
  cases hop : d.op with
  | appendBatch envelopes c preferences replacement =>
    exact other _ hop (mark _ hop) (keepsLabel_batch envelopes c preferences replacement)
  | rename threadId title now => exact rename_labelled hop
  | archive threadId archived now =>
    refine other _ hop (mark _ hop) ?_
    show KeepsLabel t d.before (updateThreadMetadata threadId _ _ d.before).2
    obtain ⟨-, hcase⟩ | ⟨-, revision, hcase⟩ := updateThreadMetadata_cases threadId
      (fun r => { r with archived, revision := r.revision + 1, updatedAt := now }) (fun _ => rfl)
      d.before
    · rw [hcase]
      exact .refl _
    · rw [hcase]
      exact keepsLabel_setThread fun _ => ⟨rfl, rfl⟩
  | setTitleIfAbsent threadId title now => exact setTitleIfAbsent_labelled hop
  | beginTitleGeneration threadId fallback generation now =>
    exact beginTitleGeneration_labelled hop
  | finishTitleGeneration threadId generation title now => exact finishTitleGeneration_labelled hop
  | assignThreadCollection threadId collectionId now =>
    exact other _ hop (mark _ hop) (keepsLabel_assign threadId collectionId now)
  | deleteCollection id now =>
    exact other _ hop (mark _ hop) (keepsLabel_deleteCollection id now)
  | recordRequestUsage threadId usage =>
    exact other _ hop (mark _ hop) (keepsLabel_record threadId usage)
  | reconcileRequestUsage threadId snapshots =>
    exact other _ hop (mark _ hop) (keepsLabel_reconcile threadId snapshots)
  | interruptIncompleteTurns now => exact other _ hop (mark _ hop) (keepsLabel_interrupt now)
  | deleteSessions ids =>
    rw [mark _ hop, Act.after_eq hop]
    show Labelled t d.before (deleteSessions ids d.before).2 (if t ∈ ids then .deleted else .other)
    have hget := deleteSessions_get? (t := t) ids d.before
    by_cases ht : t ∈ ids
    · rw [if_pos ht] at hget ⊢
      refine .deleted ?_
      unfold labelOf
      rw [hget]
      rfl
    · rw [if_neg ht] at hget ⊢
      exact .other (.of_get? hget)

/-! ## Runs -/

/-- The user renamed the thread. -/
def Act.Renames (t : String) (d : Act) : Prop := ∃ title, d.mark t = .renamed title

/-- What takes a pending title from its job: it is finished, the user renames the thread, or the
thread is deleted. -/
def Act.Ends (t generation : String) (d : Act) : Prop :=
  d.mark t = .finished generation ∨ d.Renames t ∨ d.mark t = .deleted

/-- What the operations so far say about the label of a thread. -/
structure Labels (t : String) (ds : List Act) (s : Database) : Prop where
  /-- A pending title was begun, and nothing took it since. -/
  pending : ∀ title generation, labelOf s t = some (title, some generation) →
    title ≠ none ∧ Since (fun d => d.mark t = .begun generation) (Act.Ends t generation) ds
  /-- A title of the user stays, and nothing is pending behind it. -/
  renamed : ∀ title,
    Since (fun d => d.mark t = .renamed title) (fun d => d.Renames t ∨ d.mark t = .deleted) ds →
    labelOf s t = some (some title, none)
  /-- Nothing is pending behind a job that finished. -/
  finished : ∀ generation,
    Since (fun d => d.mark t = .finished generation) (fun d => d.mark t = .deleted) ds →
    ∃ title, labelOf s t = some (some title, none)

theorem labels_start : Labels t [] {} where
  pending _ _ h := by cases h
  renamed _ h := absurd h not_since_nil
  finished _ h := absurd h not_since_nil

theorem Labels.step {ds : List Act} {d : Act} (h : Labels t ds d.before) :
    Labels t (ds ++ [d]) d.after := by
  obtain ⟨hpending, hrenamed, hfinished⟩ := h
  have hlabelled := d.labelled t
  cases hmark : d.mark t with
  | other =>
    rw [hmark] at hlabelled
    obtain ⟨hkeeps⟩ := hlabelled
    have hends : ∀ g, ¬ d.Ends t g := by
      rintro g (h | ⟨title, h⟩ | h) <;> rw [hmark] at h <;> cases h
    have hquiet : ¬ (d.Renames t ∨ d.mark t = .deleted) := by
      rintro (⟨title, h⟩ | h) <;> rw [hmark] at h <;> cases h
    refine ⟨fun title generation hlabel => ?_, fun title hsince => ?_, fun generation hsince => ?_⟩
    · obtain hsame | ⟨-, hnew⟩ := hkeeps
      · obtain ⟨htitle, hsince⟩ := hpending title generation (hsame.symm.trans hlabel)
        exact ⟨htitle, since_snoc.mpr (.inr ⟨hsince, hends generation⟩)⟩
      · rw [hnew] at hlabel
        cases hlabel
    · obtain h | ⟨hsince, -⟩ := since_snoc.mp hsince
      · rw [hmark] at h
        cases h
      · have hlabel := hrenamed title hsince
        obtain hsame | ⟨hnone, -⟩ := hkeeps
        · exact hsame.trans hlabel
        · rw [hlabel] at hnone
          cases hnone
    · obtain h | ⟨hsince, -⟩ := since_snoc.mp hsince
      · rw [hmark] at h
        cases h
      · obtain ⟨title, hlabel⟩ := hfinished generation hsince
        obtain hsame | ⟨hnone, -⟩ := hkeeps
        · exact ⟨title, hsame.trans hlabel⟩
        · rw [hlabel] at hnone
          cases hnone
  | renamed title =>
    rw [hmark] at hlabelled
    cases hlabelled with
    | renamed _ hlabel =>
      refine ⟨fun title' generation h => ?_, fun title' hsince => ?_, fun generation hsince => ?_⟩
      · rw [hlabel] at h
        cases h
      · obtain h | ⟨-, hno⟩ := since_snoc.mp hsince
        · rw [hmark] at h
          cases h
          exact hlabel
        · exact absurd (.inl ⟨title, hmark⟩) hno
      · exact ⟨title, hlabel⟩
  | set =>
    rw [hmark] at hlabelled
    cases hlabelled with
    | set title g hbefore hafter =>
      refine ⟨fun title' generation h => ?_, fun title' hsince => ?_, fun generation hsince => ?_⟩
      · rw [hafter] at h
        obtain ⟨-, rfl⟩ := Prod.mk.inj (Option.some.inj h)
        exact absurd rfl (hpending none generation hbefore).1
      · obtain h | ⟨hsince, -⟩ := since_snoc.mp hsince
        · rw [hmark] at h
          cases h
        · rw [hrenamed title' hsince] at hbefore
          cases hbefore
      · obtain h | ⟨hsince, -⟩ := since_snoc.mp hsince
        · rw [hmark] at h
          cases h
        · obtain ⟨title', hlabel⟩ := hfinished generation hsince
          rw [hlabel] at hbefore
          cases hbefore
  | begun generation =>
    rw [hmark] at hlabelled
    cases hlabelled with
    | begun fallback _ g hbefore hafter =>
      refine ⟨fun title generation' h => ?_, fun title hsince => ?_, fun generation' hsince => ?_⟩
      · rw [hafter] at h
        obtain ⟨rfl, hg⟩ := Prod.mk.inj (Option.some.inj h)
        rw [Option.some.inj hg] at hmark
        exact ⟨nofun, since_snoc.mpr (.inl hmark)⟩
      · obtain h | ⟨hsince, -⟩ := since_snoc.mp hsince
        · rw [hmark] at h
          cases h
        · rw [hrenamed title hsince] at hbefore
          cases hbefore
      · obtain h | ⟨hsince, -⟩ := since_snoc.mp hsince
        · rw [hmark] at h
          cases h
        · obtain ⟨title', hlabel⟩ := hfinished generation' hsince
          rw [hlabel] at hbefore
          cases hbefore
  | finished generation =>
    rw [hmark] at hlabelled
    cases hlabelled with
    | finished _ title old hbefore hafter =>
      have htitle : ∃ title', title.or old = some title' := by
        obtain ⟨hold, -⟩ := hpending old generation hbefore
        cases title with
        | some title => exact ⟨title, rfl⟩
        | none => exact Option.ne_none_iff_exists'.mp hold
      obtain ⟨title', htitle'⟩ := htitle
      rw [htitle'] at hafter
      refine ⟨fun title generation' h => ?_, fun title hsince => ?_, fun generation' hsince => ?_⟩
      · rw [hafter] at h
        cases h
      · obtain h | ⟨hsince, -⟩ := since_snoc.mp hsince
        · rw [hmark] at h
          cases h
        · rw [hrenamed title hsince] at hbefore
          cases hbefore
      · exact ⟨title', hafter⟩
  | deleted =>
    rw [hmark] at hlabelled
    cases hlabelled with
    | deleted hafter =>
      refine ⟨fun title generation h => ?_, fun title hsince => ?_, fun generation hsince => ?_⟩
      · rw [hafter] at h
        cases h
      · obtain h | ⟨-, hno⟩ := since_snoc.mp hsince
        · rw [hmark] at h
          cases h
        · exact absurd (.inr hmark) hno
      · obtain h | ⟨-, hno⟩ := since_snoc.mp hsince
        · rw [hmark] at h
          cases h
        · exact absurd hmark hno

theorem titleOf_eq (s : Database) (t : String) : titleOf s t = (labelOf s t).bind (·.1) := by
  unfold titleOf labelOf
  cases s.threads.get? t <;> rfl

theorem titleGenerationPending_iff {g : String} :
    titleGenerationPending s t g = true ↔ ∃ title, labelOf s t = some (title, some g) := by
  unfold titleGenerationPending labelOf
  constructor
  · intro h
    obtain ⟨r, hr, hp⟩ := List.any_eq_true.mp h
    obtain ⟨hid, hg⟩ := Bool.and_eq_true_iff.mp hp
    have hget : s.threads.get? t = some r := of_decide_eq_true hid ▸ Rows.get?_of_mem hr
    rw [hget, Option.map_some, of_decide_eq_true hg]
    exact ⟨r.title, rfl⟩
  · rintro ⟨title, hlabel⟩
    obtain ⟨r, hget, hr⟩ := Option.map_eq_some_iff.mp hlabel
    obtain ⟨hmem, hid⟩ := Rows.get?_mem hget
    refine List.any_eq_true.mpr ⟨r, hmem, Bool.and_eq_true_iff.mpr ⟨decide_eq_true hid, ?_⟩⟩
    exact decide_eq_true (Prod.mk.inj hr).2

/-- What a job that finishes is to its caller: its own thread's, or nothing. -/
theorem mark_finish {threadId generation now : String} {title : Option String} {d : Act}
    (hop : d.op = .finishTitleGeneration threadId generation title now) (t : String) :
    d.mark t = .other ∨ threadId = t ∧ d.mark t = .finished generation := by
  unfold Act.mark
  rw [hop]
  dsimp only
  split
  · rename_i ht
    split
    · exact .inr ⟨ht, rfl⟩
    · exact .inl rfl
  · exact .inl rfl

/-- What the operation `d` may do to titles behind the operations before it. -/
structure Respects (before : List Act) (d : Act) : Prop where
  /-- A job is begun only where none is pending. -/
  begun : ∀ t g, d.mark t = .begun g → ∀ g', titleGenerationPending d.before t g' = false
  /-- A job that finishes changes the title of a thread only if it was begun on this thread, nothing
  took the title from it since, and no job finished on the thread before. -/
  finished : ∀ t g title now, d.op = .finishTitleGeneration t g title now →
    ∀ t', titleOf d.after t' ≠ titleOf d.before t' →
      t' = t ∧ Since (fun d => d.mark t = .begun g) (Act.Ends t g) before ∧
        ∀ g', ¬ Since (fun d => d.mark t = .finished g') (fun d => d.mark t = .deleted) before

theorem Labels.respects {ds : List Act} {d : Act} (h : ∀ t, Labels t ds d.before) :
    Respects ds d := by
  constructor
  · intro t g hmark g'
    have hlabelled := d.labelled t
    rw [hmark] at hlabelled
    cases hlabelled with
    | begun fallback _ g₀ hbefore hafter =>
      rw [Bool.eq_false_iff]
      intro hpending
      obtain ⟨title, hlabel⟩ := titleGenerationPending_iff.mp hpending
      rw [hbefore] at hlabel
      obtain ⟨htitle, -⟩ := Prod.mk.inj (Option.some.inj hlabel)
      have hlabel : labelOf d.before t = some (title, some g') := by
        rw [hbefore, ← (Prod.mk.inj (Option.some.inj hlabel)).2, htitle]
      exact ((h t).pending title g' hlabel).1 htitle.symm
  · intro t g title now hop t' hne
    have hlabelled := d.labelled t'
    obtain hmark | ⟨rfl, hmark⟩ := mark_finish hop t'
    · rw [hmark] at hlabelled
      obtain ⟨hsame | ⟨hnone, hnew⟩⟩ := hlabelled
      · rw [titleOf_eq, titleOf_eq, hsame] at hne
        exact absurd rfl hne
      · rw [titleOf_eq, titleOf_eq, hnone, hnew] at hne
        exact absurd rfl hne
    · rw [hmark] at hlabelled
      cases hlabelled with
      | finished _ title' old hbefore hafter =>
        refine ⟨rfl, ((h t).pending old g hbefore).2, fun g' hsince => ?_⟩
        obtain ⟨title'', hlabel⟩ := (h t).finished g' hsince
        rw [hlabel] at hbefore
        cases hbefore

/-- **Automatic titles never overwrite the user's.** In every run, a title the user gave stays until
the next rename; one job at most is pending, and it was begun on its thread and nothing took the
title from it since; and every operation respects the titles. -/
theorem titles_kept (ops : List (Environment × Write)) :
    (∀ t title,
      Since (fun d => d.mark t = .renamed title) (fun d => d.Renames t ∨ d.mark t = .deleted)
        (journal.run {} ops).2 →
      titleOf (journal.run {} ops).1 t = some title) ∧
    (∀ t g, titleGenerationPending (journal.run {} ops).1 t g = true →
      Since (fun d => d.mark t = .begun g) (Act.Ends t g) (journal.run {} ops).2 ∧
      ∀ g', titleGenerationPending (journal.run {} ops).1 t g' = true → g' = g) ∧
    Always Respects (journal.run {} ops).2 := by
  obtain ⟨hlabels, hrespects⟩ := journal.run_always (I := fun ds s => ∀ t, Labels t ds s)
    (P := Respects) (fun _ => labels_start) (fun ds s op h =>
      ⟨fun t => (h t).step (d := ⟨op.1, op.2, s⟩), always_cons.mpr
        ⟨by rw [List.append_nil]; exact Labels.respects h, always_nil⟩⟩) ops
  refine ⟨fun t title hsince => ?_, fun t g hpending => ?_, hrespects⟩
  · rw [titleOf_eq, (hlabels t).renamed title hsince]
    rfl
  · obtain ⟨title, hlabel⟩ := titleGenerationPending_iff.mp hpending
    refine ⟨((hlabels t).pending title g hlabel).2, fun g' hpending' => ?_⟩
    obtain ⟨title', hlabel'⟩ := titleGenerationPending_iff.mp hpending'
    rw [hlabel] at hlabel'
    exact (Option.some.inj (Prod.mk.inj (Option.some.inj hlabel')).2).symm

end AxiomDesktop.Store
