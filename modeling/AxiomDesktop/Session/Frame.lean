import AxiomDesktop.Session.Batch

/-!
# What a batch leaves alone

The events of a thread leave every other thread as it is: its row, its turns, its timeline and its
accounting records (`SameThread`, `Batched.sameThread`). Of the thread's own row they leave the
revision, which the batch as a whole counts (`Batched.revision_lt`).
-/

namespace AxiomDesktop.Store

/-- A thread is the same in two states of the tables. -/
structure SameThread (t : String) (s s' : Database) : Prop where
  thread : s'.threads.get? t = s.threads.get? t
  turns : s'.turnsOf t = s.turnsOf t
  items : s'.itemsOf t = s.itemsOf t
  usage : s'.usageOf t = s.usageOf t

namespace SameThread

variable {t : String} {s s' s'' : Database}

theorem refl (t : String) (s : Database) : SameThread t s s := ⟨rfl, rfl, rfl, rfl⟩

theorem trans (h : SameThread t s s') (h' : SameThread t s' s'') : SameThread t s s'' :=
  ⟨h'.thread.trans h.thread, h'.turns.trans h.turns, h'.items.trans h.items,
    h'.usage.trans h.usage⟩

end SameThread

/-! ## Statements -/

section Statements

variable {t t' : String} {s s' : Database}

/-- A change of the rows of one thread leaves the row of another. -/
theorem get?_update_other {threads : Rows StoredThread.id} {f : StoredThread → StoredThread}
    (hf : ∀ r, (f r).id = r.id) (hne : t' ≠ t) :
    (threads.update (fun r => r.id = t) f hf).get? t' = threads.get? t' := by
  rw [Rows.get?_update]
  cases hr : threads.get? t' with
  | none => rfl
  | some r =>
    obtain ⟨-, hid⟩ := Rows.get?_mem hr
    exact congrArg some (Rows.edit_neg (by simpa [hid] using hne))

/-- The row of a thread after a change of it. -/
theorem get?_update_self {threads : Rows StoredThread.id} {f : StoredThread → StoredThread}
    (hf : ∀ r, (f r).id = r.id) :
    (threads.update (fun r => r.id = t) f hf).get? t = (threads.get? t).map f := by
  rw [Rows.get?_update]
  cases hr : threads.get? t with
  | none => rfl
  | some r =>
    obtain ⟨-, hid⟩ := Rows.get?_mem hr
    exact congrArg some (Rows.edit_pos (by simpa using hid))

theorem get?_insert?_other {threads threads' : Rows StoredThread.id} {r : StoredThread}
    (h : threads.insert? r = some threads') (hne : t' ≠ r.id) :
    threads'.get? t' = threads.get? t' := by
  unfold Rows.get?
  rw [(Rows.insert?_eq_some h).1, List.find?_append]
  have : [r].find? (fun a => decide (a.id = t')) = none := by
    simpa using fun h => hne h.symm
  rw [this, Option.or_none]

theorem get?_insert?_self {threads threads' : Rows StoredThread.id} {r : StoredThread}
    (h : threads.insert? r = some threads') :
    threads.get? r.id = none ∧ threads'.get? r.id = some r := by
  have hfresh := (Rows.insert?_eq_some h).2
  refine ⟨?_, Rows.get?_of_mem ((Rows.mem_insert? h).mpr (.inr rfl))⟩
  cases hr : threads.get? r.id with
  | none => rfl
  | some r' =>
    obtain ⟨hmem, hid⟩ := Rows.get?_mem hr
    exact absurd (hid ▸ List.mem_map_of_mem hmem) hfresh

theorem sameThread_setThread {f : StoredThread → StoredThread} {hf : ∀ r, (f r).id = r.id}
    (hne : t' ≠ t) : SameThread t' s (s.setThread t f hf) :=
  ⟨get?_update_other hf hne, rfl, rfl, rfl⟩

/-- A change of rows of one thread's timeline leaves the timeline of another. -/
theorem sameThread_items {p : TimelineItem → Bool} {f : TimelineItem → TimelineItem}
    {hf : ∀ i, (f i).id = i.id} (hne : t' ≠ t)
    (hp : ∀ i ∈ s.timelineItems.rows, p i = true → i.threadId = t)
    (hthread : ∀ i, (f i).threadId = i.threadId) :
    SameThread t' s { s with timelineItems := s.timelineItems.update p f hf } := by
  refine ⟨rfl, rfl, Rows.filter_update_of_disjoint hf ?_, rfl⟩
  intro i hi hpi
  have hi' : i.threadId ≠ t' := (hp i hi hpi).symm ▸ hne.symm
  simpa [hthread i] using hi'

theorem sameThread_turns {p : TurnRecord → Bool} {f : TurnRecord → TurnRecord}
    {hf : ∀ r, (f r).key = r.key} (hne : t' ≠ t)
    (hp : ∀ r, p r = true → r.threadId = t) :
    SameThread t' s { s with turns := s.turns.update p f hf } := by
  refine ⟨rfl, Rows.filter_update_of_disjoint hf ?_, rfl, rfl⟩
  intro r _ hpr
  have hr : r.threadId ≠ t' := (hp r hpr).symm ▸ hne.symm
  have hkey : (f r).threadId = r.threadId := congrArg Prod.fst (hf r)
  simpa [hkey] using hr

theorem sameThread_usage {p : StoredUsage → Bool} {f : StoredUsage → StoredUsage}
    {hf : ∀ u, (f u).requestId = u.requestId} (hne : t' ≠ t)
    (hp : ∀ u, p u = true → u.threadId = t) (hthread : ∀ u, (f u).threadId = u.threadId) :
    SameThread t' s { s with requestUsage := s.requestUsage.update p f hf } := by
  refine ⟨rfl, rfl, rfl, Rows.filter_update_of_disjoint hf ?_⟩
  intro u _ hpu
  have hu : u.threadId ≠ t' := (hp u hpu).symm ▸ hne.symm
  simpa [hthread u] using hu

theorem sameThread_insertTurn {r : TurnRecord} {turns : Rows TurnRecord.key}
    (h : s.turns.insert? r = some turns) (hne : t' ≠ r.threadId) :
    SameThread t' s { s with turns } := by
  refine ⟨rfl, ?_, rfl, rfl⟩
  show turns.rows.filter _ = s.turns.rows.filter _
  rw [Rows.filter_insert? h, if_neg (by simpa using hne.symm), List.append_nil]

theorem sameThread_insertUsage {u : StoredUsage} {requestUsage : Rows StoredUsage.requestId}
    (h : s.requestUsage.insert? u = some requestUsage) (hne : t' ≠ u.threadId) :
    SameThread t' s { s with requestUsage } := by
  refine ⟨rfl, rfl, rfl, ?_⟩
  show requestUsage.rows.filter _ = s.requestUsage.rows.filter _
  rw [Rows.filter_insert? h, if_neg (by simpa using hne.symm), List.append_nil]

theorem Inserted.sameThread {w : TimelineItemWrite} {i : TimelineItem} (h : Inserted t w s i s')
    (hne : t' ≠ t) : SameThread t' s s' := by
  have hthread := h.fields.1
  cases h with
  | intro thread items hget hitems hrow hclient =>
    have hnext : SameThread t' s (s.setThread t
        (fun r => { r with nextTimelineSequence := r.nextTimelineSequence + 1 }) fun _ => rfl) :=
      sameThread_setThread hne
    refine ⟨hnext.thread, rfl, ?_, rfl⟩
    show items.rows.filter _ = s.timelineItems.rows.filter _
    rw [Rows.filter_insert? hitems, if_neg (by simpa [hthread] using hne.symm), List.append_nil]

theorem sameThread_putUsage (usage : RequestUsage) (hne : t' ≠ t) :
    SameThread t' s (s.putUsage t usage) := by
  unfold Database.putUsage
  split
  · rename_i requestUsage hinsert
    exact sameThread_insertUsage hinsert hne
  · refine sameThread_usage hne ?_ fun _ => rfl
    intro u hu
    simpa using (Bool.and_eq_true_iff.mp hu).2

theorem sameThread_finishTurn (T : String) (status : TurnStatus) (error : Option String)
    (now finished : String) (hne : t' ≠ t) :
    SameThread t' s (s.finishTurn t T status error now finished) := by
  have hturns : SameThread t' s
      { s with
        turns := s.turns.update (fun r => r.key = (t, T))
          (fun r => { r with status, error, completedAt := some now }) fun _ => rfl } := by
    refine sameThread_turns hne ?_
    intro r hr
    exact congrArg Prod.fst (of_decide_eq_true hr)
  have hitems : ∀ s : Database, SameThread t' s
      { s with
        timelineItems := s.timelineItems.update
          (fun i => i.threadId = t && i.turnId = some T && i.status.isOpen)
          (fun i => { i with status := itemStatusOf status, updatedAt := now }) fun _ => rfl } := by
    refine fun s => sameThread_items hne ?_ fun _ => rfl
    intro i _ hi
    simp only [Bool.and_eq_true, decide_eq_true_eq] at hi
    exact hi.1.1
  have husage : ∀ s : Database, SameThread t' s
      { s with
        requestUsage := s.requestUsage.update
          (fun u => u.threadId = t && u.record.turnId = some T && u.record.state = .running)
          (fun u => { u with record := endRequest status finished u.record }) fun _ => rfl } := by
    refine fun s => sameThread_usage hne ?_ fun _ => rfl
    intro u hu
    simp only [Bool.and_eq_true, decide_eq_true_eq] at hu
    exact hu.1.1
  refine SameThread.trans ?_ (sameThread_setThread hne)
  split
  · exact hturns.trans ((husage _).trans (hitems _))
  · exact hturns.trans (hitems _)

end Statements

/-! ## Events and batches -/

section Batches

variable {t t' : String} {s s' : Database} {N A : String → Prop}

theorem Annotates.sameThread (h : Annotates t N A s s') (hne : t' ≠ t) : SameThread t' s s' := by
  cases h with
  | thread f hf => exact sameThread_setThread hne
  | newRow _ w i h => exact h.sameThread hne
  | row id f hf hrow =>
    refine sameThread_items hne ?_ fun i => (hf i).threadId
    intro i hi hid
    exact (hrow i hi (of_decide_eq_true hid)).1
  | counts T input output =>
    refine sameThread_turns hne ?_
    intro r hr
    exact congrArg Prod.fst (of_decide_eq_true hr)

theorem Annotations.sameThread (h : Annotations t N A s s') (hne : t' ≠ t) :
    SameThread t' s s' := by
  induction h with
  | refl => exact .refl _ _
  | tail _ hstep ih => exact ih.trans (hstep.sameThread hne)

theorem Segment.sameThread {T now : String} {kind : TimelineItemKind} {i : TimelineItem}
    (h : Segment t T kind now s i s') (hne : t' ≠ t) :
    SameThread t' s s' ∧ i ∈ s'.timelineItems.rows ∧ i.threadId = t := by
  cases h with
  | found h =>
    have hmem := mem_of_lastItem h
    obtain ⟨hmem, -⟩ := List.mem_filter.mp hmem
    obtain ⟨hmem, hthread⟩ := mem_itemsOf.mp hmem
    exact ⟨.refl _ _, hmem, hthread⟩
  | made _ h hi => exact ⟨hi.sameThread hne, mem_inserted hi, hi.fields.1⟩

theorem sameThread_reportUsage (usage : RequestUsage) (now : String) (hne : t' ≠ t) :
    SameThread t' s (s.reportUsage t usage now) := by
  have hbind : ∀ s : Database, SameThread t' s (s.bindRequest t usage) := by
    refine fun s => sameThread_items hne ?_ fun _ => rfl
    intro i _ hi
    obtain ⟨T, -, hi⟩ := (Option.any_eq_true _ _).mp hi
    simp only [bindsRequest, Bool.and_eq_true, decide_eq_true_eq] at hi
    exact hi.1.1.1.1.1.1.1
  have hverify : ∀ s : Database, SameThread t' s (s.verifyRequest t usage now) := by
    refine fun s => sameThread_items hne ?_ fun _ => rfl
    intro i _ hi
    simp only [isRequestText, Bool.and_eq_true, decide_eq_true_eq] at hi
    exact hi.1.1
  have hput := sameThread_putUsage (s := s) usage hne
  unfold Database.reportUsage
  dsimp only
  split <;> split
  · exact hput.trans ((hbind _).trans (hverify _))
  · exact hput.trans (hverify _)
  · exact hput.trans (hbind _)
  · exact hput

theorem sameThread_startTurn (T now : String) (hne : t' ≠ t) :
    SameThread t' s (s.startTurn t T now) := by
  unfold Database.startTurn
  split
  · rename_i turns hinsert
    exact sameThread_insertTurn hinsert hne
  · refine sameThread_turns hne ?_
    intro r hr
    exact congrArg Prod.fst (of_decide_eq_true hr)

/-- **An event leaves the other threads.** -/
theorem Persisted.sameThread {e : AppEvent} {c : Option String} {now : String}
    (h : Persisted e t c now s s') (hne : t' ≠ t) : SameThread t' s s' := by
  cases h with
  | notes _ he h => exact h.sameThread hne
  | interaction _ l he h => exact (h.sameThread hne).trans (sameThread_setThread hne)
  | created cwd origin profile he threads h =>
    exact ⟨get?_insert?_other h hne, rfl, rfl, rfl⟩
  | resumed | configured | profiled | closed => exact sameThread_setThread hne
  | prompt s₁ s₂ s₃ turnId text attachments he i j hi hattached hj turns hturns =>
    have hs₂ : SameThread t' s₁ s₂ := by
      cases hattached with
      | none => exact .refl _ _
      | some => exact ⟨rfl, rfl, rfl, rfl⟩
    exact (hi.sameThread hne).trans (hs₂.trans ((hj.sameThread hne).trans
      ((sameThread_insertTurn hturns hne).trans (sameThread_setThread hne))))
  | started turnId => exact (sameThread_startTurn _ _ hne).trans (sameThread_setThread hne)
  | delta s₁ T kind text he i h =>
    obtain ⟨hs, hmem, hthread⟩ := h.sameThread hne
    refine hs.trans (sameThread_items hne ?_ fun _ => rfl)
    intro j hj hid
    rw [found_unique hmem hj (of_decide_eq_true hid), hthread]
  | reported usage => exact sameThread_reportUsage usage now hne
  | passed => exact .refl _ _
  | verified turnId =>
    refine sameThread_items hne ?_ fun _ => rfl
    intro i _ hi
    simp only [isTurnText, Bool.and_eq_true, decide_eq_true_eq] at hi
    exact hi.1.1
  | finished _ T status error he hrunning hthread finished h =>
    exact (sameThread_finishTurn T status error now finished hne).trans (h.sameThread hne)

theorem Appended.sameThread {c : Option String} {envelopes : List EventEnvelope}
    (h : Appended t c envelopes s s') (hne : t' ≠ t) : SameThread t' s s' := by
  induction h with
  | nil => exact .refl _ _
  | cons c e rest s s₁ s₂ s' hevent htimes _ ih =>
    exact (hevent.sameThread hne).trans ((htimes.sameThread hne).trans ih)

theorem Truncated.sameThread {revision : PromptRevision} (h : Truncated t revision s s')
    (hne : t' ≠ t) : SameThread t' s s' := by
  cases h with
  | intro r i now =>
    refine SameThread.trans ?_ (sameThread_setThread hne)
    refine ⟨rfl, Rows.filter_delete_of_disjoint ?_, Rows.filter_delete_of_disjoint ?_, rfl⟩
    · intro r _ hr
      simp only [Bool.and_eq_true, decide_eq_true_eq] at hr
      simpa [hr.1] using hne.symm
    · intro j _ hj
      simp only [Bool.and_eq_true, decide_eq_true_eq] at hj
      simpa [hj.1] using hne.symm

/-- **A batch leaves the other threads.** -/
theorem Batched.sameThread {envelopes : List EventEnvelope} {c : Option String}
    {replacement : Option PromptRevision} (h : Batched t envelopes c replacement s s')
    (hne : t' ≠ t) : SameThread t' s s' := by
  cases h with
  | intro s₁ s₂ now preferences htruncate happend hthread =>
    have hcut : SameThread t' s s₁ := by
      obtain ⟨-, rfl⟩ | ⟨r, -, -, hr⟩ := htruncate
      · exact .refl _ _
      · exact hr.sameThread hne
    have hbump : SameThread t' s₂ (s₂.setThread t
        (fun r => { r with revision := r.revision + 1, updatedAt := now }) fun _ => rfl) :=
      sameThread_setThread hne
    exact hcut.trans ((happend.sameThread hne).trans
      ⟨hbump.thread, hbump.turns, hbump.items, hbump.usage⟩)

end Batches

/-! ## Revisions -/

section Revisions

variable {t : String} {s s' : Database} {N A : String → Prop}

/-- The revision of a thread. -/
def Database.revision? (s : Database) (t : String) : Option Nat :=
  (s.threads.get? t).map (·.revision)

theorem revision_setThread {f : StoredThread → StoredThread} {hf : ∀ r, (f r).id = r.id}
    (hrevision : ∀ r, (f r).revision = r.revision) :
    (s.setThread t f hf).revision? t = s.revision? t := by
  show ((s.threads.update _ f hf).get? t).map (·.revision) = _
  rw [get?_update_self, Option.map_map]
  exact congrArg (fun g => (s.threads.get? t).map g) (funext hrevision)

/-- A change that counts the revision. -/
theorem revision_bump {f : StoredThread → StoredThread} {hf : ∀ r, (f r).id = r.id}
    (hrevision : ∀ r, (f r).revision = r.revision + 1) :
    (s.setThread t f hf).revision? t = (s.revision? t).map (· + 1) := by
  show ((s.threads.update _ f hf).get? t).map (·.revision) = _
  rw [get?_update_self, Option.map_map, Database.revision?, Option.map_map]
  exact congrArg (fun g => (s.threads.get? t).map g) (funext hrevision)

theorem revision_setLifecycle (l : ThreadLifecycle) :
    (s.setLifecycle t l).revision? t = s.revision? t :=
  revision_setThread fun _ => rfl

theorem Inserted.revision {w : TimelineItemWrite} {i : TimelineItem} (h : Inserted t w s i s') :
    s'.revision? t = s.revision? t := by
  cases h with
  | intro thread items hget hitems hrow hclient =>
    show (s.setThread t (fun r => { r with nextTimelineSequence := r.nextTimelineSequence + 1 })
      fun _ => rfl).revision? t = s.revision? t
    exact revision_setThread fun _ => rfl

theorem Annotations.revision (h : Annotations t N A s s') : s'.revision? t = s.revision? t := by
  induction h with
  | refl => rfl
  | tail _ hstep ih =>
    rw [← ih]
    cases hstep with
    | thread f hf => exact revision_setThread fun r => (hf r).revision
    | newRow _ w i h => exact h.revision
    | row | counts => rfl

/-- An event leaves the revision of its thread, unless it creates the thread. -/
theorem Persisted.revision {e : AppEvent} {c : Option String} {now : String}
    (h : Persisted e t c now s s') : s'.revision? t = s.revision? t ∨ s.revision? t = none := by
  cases h with
  | notes _ he h => exact .inl h.revision
  | interaction _ l he h =>
    exact .inl ((revision_setLifecycle l).trans h.revision)
  | created cwd origin profile he threads h =>
    exact .inr (by rw [Database.revision?, (get?_insert?_self h).1, Option.map_none])
  | resumed | configured | profiled | closed => exact .inl (revision_setThread fun _ => rfl)
  | prompt s₁ s₂ s₃ turnId text attachments he i j hi hattached hj turns hturns =>
    have hs₂ : s₂.revision? t = s₁.revision? t := by
      cases hattached with
      | none | some => rfl
    have hs₃ : s₃.revision? t = s.revision? t := hj.revision.trans (hs₂.trans hi.revision)
    exact .inl ((revision_setLifecycle _).trans hs₃)
  | started turnId =>
    refine .inl ((revision_setLifecycle _).trans ?_)
    unfold Database.startTurn
    split <;> rfl
  | delta s₁ T kind text he i h =>
    cases h with
    | found => exact .inl rfl
    | made _ h hi => exact .inl hi.revision
  | reported usage =>
    refine .inl ?_
    have hput : (s.putUsage t usage).revision? t = s.revision? t := by
      unfold Database.putUsage
      split <;> rfl
    unfold Database.reportUsage
    dsimp only
    split <;> split <;> exact hput
  | passed | verified => exact .inl rfl
  | finished _ T status error he hrunning hthread finished h =>
    exact .inl (h.revision.trans (revision_setLifecycle _))

theorem Appended.revision {c : Option String} {envelopes : List EventEnvelope}
    (h : Appended t c envelopes s s') : s'.revision? t = s.revision? t ∨ s.revision? t = none := by
  induction h with
  | nil => exact .inl rfl
  | cons c e rest s s₁ s₂ s' hevent htimes _ ih =>
    obtain heq | hnone := hevent.revision
    · rw [htimes.revision, heq] at ih
      exact ih
    · exact .inr hnone

/-- **A batch counts the revision of its thread.** -/
theorem Batched.revision_lt {envelopes : List EventEnvelope} {c : Option String}
    {replacement : Option PromptRevision} (h : Batched t envelopes c replacement s s')
    {n n' : Nat} (hn : s.revision? t = some n) (hn' : s'.revision? t = some n') : n < n' := by
  cases h with
  | intro s₁ s₂ now preferences htruncate happend hthread =>
    have hcut : ∃ n₁, s₁.revision? t = some n₁ ∧ n ≤ n₁ := by
      obtain ⟨-, rfl⟩ | ⟨r, -, -, hr⟩ := htruncate
      · exact ⟨n, hn, le_rfl⟩
      · cases hr with
        | intro r i now hget =>
          have hcount : (s.truncate t i.sequence now).revision? t = (s.revision? t).map (· + 1) :=
            revision_bump (s := deleteFrom t i.sequence s) fun _ => rfl
          exact ⟨n + 1, by rw [hcount, hn, Option.map_some], by omega⟩
    obtain ⟨n₁, hn₁, hle⟩ := hcut
    have hs₂ : s₂.revision? t = some n₁ := by
      obtain heq | hnone := happend.revision
      · rw [heq, hn₁]
      · rw [hnone] at hn₁
        cases hn₁
    have hbump : (s₂.setThread t
        (fun r => { r with revision := r.revision + 1, updatedAt := now }) fun _ => rfl).revision? t =
          (s₂.revision? t).map (· + 1) :=
      revision_bump fun _ => rfl
    rw [hs₂, Option.map_some] at hbump
    have : n₁ + 1 = n' := Option.some.inj (hbump.symm.trans hn')
    omega

end Revisions

end AxiomDesktop.Store
