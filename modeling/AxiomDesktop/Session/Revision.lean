import AxiomDesktop.Session.Accounts

/-!
# Revisions and what a page shows

`shown?` is everything the pages of a thread can return. An operation tracks a thread if it never
takes its revision back, and counts it wherever it changes what is shown (`Tracks`).
`revision_tracks_iff`: every operation tracks every thread, but for two. A reconciliation that
settles a record shows it under the revision the thread had, and a restart interrupts the requests
of a thread in which no turn runs, and rows of its interrupted turns, without counting either.
-/

namespace AxiomDesktop.Store

variable {t : String} {s s' : Database}

/-! ## What is shown -/

/-- The part of a view the pages return: the records and the rows behind no cursor are on none. -/
def ThreadView.shown (v : ThreadView) : ThreadView :=
  { v with
    usage := v.usage.filter fun u => "" < u.requestId
    items := v.items.filter fun i => 0 < i.sequence }

/-- Everything the pages of a thread can return. -/
def Database.shown? (s : Database) (t : String) : Option ThreadView := (s.view? t).map (·.shown)

theorem view?_of_same (h : SameThread t s s') : s'.view? t = s.view? t := by
  unfold Database.view? Database.usageById Database.runningTurns Database.itemsBySequence
  rw [h.thread, h.turns, h.items, h.usage]

/-! ## Counting -/

/-- An operation counts the revision of a thread wherever it changes what is shown of it, and never
takes it back. -/
def Tracks (t : String) (s s' : Database) : Prop :=
  ∀ v v', s.shown? t = some v → s'.shown? t = some v' →
    v.thread.revision ≤ v'.thread.revision ∧ (v ≠ v' → v.thread.revision < v'.thread.revision)

theorem revision?_of_shown {v : ThreadView} (h : s.shown? t = some v) :
    s.revision? t = some v.thread.revision := by
  obtain ⟨w, hw, rfl⟩ := Option.map_eq_some_iff.mp h
  obtain ⟨r, hr, rfl⟩ := Option.map_eq_some_iff.mp hw
  rw [Database.revision?, hr]
  rfl

/-- One statement after the other: a thread is left as it is, or its revision is counted. -/
def Counts (t : String) (s s' : Database) : Prop :=
  s.revision? t = none ∨ SameThread t s s' ∨
    ∃ n n', s.revision? t = some n ∧ s'.revision? t = some n' ∧ n < n'

theorem Counts.refl (s : Database) : Counts t s s := .inr (.inl (.refl t s))

theorem SameThread.revision (h : SameThread t s s') : s'.revision? t = s.revision? t := by
  rw [Database.revision?, h.thread]
  rfl

theorem Counts.trans {s'' : Database} (h : Counts t s s') (h' : Counts t s' s'') :
    Counts t s s'' := by
  obtain hnone | hsame | ⟨n, n', hn, hn', hlt⟩ := h
  · exact .inl hnone
  · obtain hnone' | hsame' | ⟨m, m', hm, hm', hlt'⟩ := h'
    · exact .inl (hsame.revision ▸ hnone')
    · exact .inr (.inl (hsame.trans hsame'))
    · exact .inr (.inr ⟨m, m', hsame.revision ▸ hm, hm', hlt'⟩)
  · obtain hnone' | hsame' | ⟨m, m', hm, hm', hlt'⟩ := h'
    · rw [hn'] at hnone'
      cases hnone'
    · exact .inr (.inr ⟨n, n', hn, hsame'.revision.trans hn', hlt⟩)
    · have : n' = m := Option.some.inj (hn'.symm.trans hm)
      exact .inr (.inr ⟨n, m', hn, hm', by omega⟩)

theorem Counts.tracks (h : Counts t s s') : Tracks t s s' := by
  intro v v' hv hv'
  have hn := revision?_of_shown hv
  have hn' := revision?_of_shown hv'
  obtain hnone | hsame | ⟨n, n', hm, hm', hlt⟩ := h
  · rw [hnone] at hn
    cases hn
  · have hvv' : v' = v := by
      rw [Database.shown?, view?_of_same hsame] at hv'
      exact Option.some.inj (hv'.symm.trans hv)
    rw [hvv']
    exact ⟨le_rfl, fun hne => absurd rfl hne⟩
  · have h₁ : v.thread.revision = n := Option.some.inj (hn.symm.trans hm)
    have h₂ : v'.thread.revision = n' := Option.some.inj (hn'.symm.trans hm')
    exact ⟨by omega, fun _ => by omega⟩

/-- A statement that counts the revision of some threads and leaves the others. -/
theorem Recounts.counts (h : Recounts s s') : Counts t s s' := by
  cases h with
  | aside hthreads hturns hitems husage =>
    refine .inr (.inl ⟨by rw [hthreads], ?_, ?_, ?_⟩)
    · rw [Database.turnsOf, hturns]; rfl
    · rw [Database.itemsOf, hitems]; rfl
    · rw [Database.usageOf, husage]; rfl
  | count t' p hp f hf hthreads hturns hitems husage =>
    have hget : s'.threads.get? t = (s.threads.get? t).map (Rows.edit p f) := by
      rw [hthreads, Rows.get?_update]
    cases hr : s.threads.get? t with
    | none => exact .inl (by rw [Database.revision?, hr]; rfl)
    | some r =>
      rw [hr, Option.map_some] at hget
      by_cases hpr : p r = true
      · rw [Rows.edit_pos hpr] at hget
        refine .inr (.inr ⟨r.revision, r.revision + 1, ?_, ?_, by omega⟩)
        · rw [Database.revision?, hr]; rfl
        · rw [Database.revision?, hget]
          exact congrArg some (hf r).revision
      · rw [Rows.edit_neg (by simpa using hpr)] at hget
        refine .inr (.inl ⟨by rw [hget, hr], ?_, ?_, ?_⟩)
        · rw [Database.turnsOf, hturns]; rfl
        · rw [Database.itemsOf, hitems]; rfl
        · rw [Database.usageOf, husage]; rfl

theorem counts_metadata (h : Relation.ReflTransGen Recounts s s') : Counts t s s' := by
  induction h with
  | refl => exact .refl s
  | tail _ hstep ih => exact ih.trans hstep.counts

theorem tracks_of_eq (h : s'.shown? t = s.shown? t) : Tracks t s s' := by
  intro v v' hv hv'
  have : v' = v := Option.some.inj (hv'.symm.trans (h.trans hv))
  rw [this]
  exact ⟨le_rfl, fun hne => absurd rfl hne⟩

/-- Where nothing counted the revision, a tracked thread shows the same. -/
theorem Tracks.eq (h : Tracks t s s') (hrevision : s'.revision? t = s.revision? t) {v v' : ThreadView}
    (hv : s.shown? t = some v) (hv' : s'.shown? t = some v') : v' = v := by
  by_contra hne
  have hlt := (h v v' hv hv').2 fun heq => hne heq.symm
  rw [revision?_of_shown hv, revision?_of_shown hv'] at hrevision
  have := Option.some.inj hrevision
  omega

theorem shown?_isSome (h : s.hasThread t = true) : ∃ v, s.shown? t = some v := by
  obtain ⟨r, hmem, rfl⟩ := Database.hasThread_iff.mp h
  unfold Database.shown? Database.view?
  rw [Rows.get?_of_mem hmem]
  exact ⟨_, rfl⟩

/-! ## Rows that are shown -/

/-- A query whose rows a change leaves. -/
theorem filter_map_of_eq {α : Type} {q : α → Bool} {g : α → α} {l : List α}
    (hq : ∀ a ∈ l, q (g a) = q a) (hg : ∀ a ∈ l, q a = true → g a = a) :
    (l.map g).filter q = l.filter q := by
  induction l with
  | nil => rfl
  | cons a l ih =>
    have ih := ih (fun b hb => hq b (List.mem_cons_of_mem a hb))
      fun b hb => hg b (List.mem_cons_of_mem a hb)
    have hqa := hq a List.mem_cons_self
    cases hqv : q a with
    | true =>
      rw [List.map_cons, List.filter_cons_of_pos (hqa.trans hqv), List.filter_cons_of_pos hqv, ih,
        hg a List.mem_cons_self hqv]
    | false =>
      rw [List.map_cons, List.filter_cons_of_neg (by simp [hqa, hqv]),
        List.filter_cons_of_neg (by simp [hqv]), ih]

/-- The records of a thread that its pages return. -/
def shownUsage (s : Database) (t : String) : List StoredUsage :=
  (s.usageById t).filter fun u => "" < u.requestId

/-- The rows of a thread that its pages return. -/
def shownItems (s : Database) (t : String) : List TimelineItem :=
  (s.itemsBySequence t).filter fun i => 0 < i.sequence

theorem mem_shownUsage {u : StoredUsage} :
    u ∈ shownUsage s t ↔ u ∈ s.requestUsage.rows ∧ u.threadId = t ∧ "" < u.requestId := by
  simp [shownUsage, Database.usageById, Database.usageOf, and_assoc]

theorem mem_shownItems {i : TimelineItem} :
    i ∈ shownItems s t ↔ i ∈ s.timelineItems.rows ∧ i.threadId = t ∧ 0 < i.sequence := by
  simp [shownItems, Database.itemsBySequence, Database.itemsOf, and_assoc]

theorem shownUsage_update {p : StoredUsage → Bool} {f : StoredUsage → StoredUsage}
    (hf : ∀ u, (f u).requestId = u.requestId) (hthread : ∀ u, (f u).threadId = u.threadId)
    (hhidden : ∀ u ∈ s.requestUsage.rows, p u = true → u.threadId = t → ¬ "" < u.requestId) :
    shownUsage { s with requestUsage := s.requestUsage.update p f hf } t = shownUsage s t := by
  have hkey : ∀ u, (Rows.edit p f u).requestId = u.requestId := Rows.edit_keeps hf
  have hrows : ({ s with requestUsage := s.requestUsage.update p f hf } : Database).usageOf t =
      (s.usageOf t).map (Rows.edit p f) :=
    Rows.filter_update hf fun u => by rw [hthread]
  rw [shownUsage, Database.usageById, hrows,
    ← List.map_insertionSort (r := fun a b : StoredUsage => a.requestId ≤ b.requestId)
      (s := fun a b : StoredUsage => a.requestId ≤ b.requestId) _ _
      fun a _ b _ => by rw [hkey, hkey]]
  refine filter_map_of_eq (fun u _ => by rw [hkey]) ?_
  intro u hu hshown
  have hu' : u ∈ s.usageOf t := (List.mem_insertionSort _).mp hu
  obtain ⟨hmem, hthread'⟩ := List.mem_filter.mp hu'
  refine Rows.edit_neg ?_
  rw [Bool.eq_false_iff]
  exact fun hp => hhidden u hmem hp (by simpa using hthread') (by simpa using hshown)

theorem shownItems_update {p : TimelineItem → Bool} {f : TimelineItem → TimelineItem}
    (hf : ∀ i, (f i).id = i.id) (hthread : ∀ i, (f i).threadId = i.threadId)
    (hsequence : ∀ i, (f i).sequence = i.sequence)
    (hhidden : ∀ i ∈ s.timelineItems.rows, p i = true → i.threadId = t → ¬ 0 < i.sequence) :
    shownItems { s with timelineItems := s.timelineItems.update p f hf } t = shownItems s t := by
  have hkey : ∀ i, (Rows.edit p f i).sequence = i.sequence := Rows.edit_keeps hsequence
  have hrows : ({ s with timelineItems := s.timelineItems.update p f hf } : Database).itemsOf t =
      (s.itemsOf t).map (Rows.edit p f) :=
    Rows.filter_update hf fun i => by rw [hthread]
  rw [shownItems, Database.itemsBySequence, hrows,
    ← List.map_insertionSort (r := fun a b : TimelineItem => a.sequence ≤ b.sequence)
      (s := fun a b : TimelineItem => a.sequence ≤ b.sequence) _ _
      fun a _ b _ => by rw [hkey, hkey]]
  refine filter_map_of_eq (fun i _ => by rw [hkey]) ?_
  intro i hi hshown
  have hi' : i ∈ s.itemsOf t := (List.mem_insertionSort _).mp hi
  obtain ⟨hmem, hthread'⟩ := mem_itemsOf.mp hi'
  refine Rows.edit_neg ?_
  rw [Bool.eq_false_iff]
  exact fun hp => hhidden i hmem hp hthread' (by simpa using hshown)

/-- What is shown of a thread, by its parts. -/
theorem shown?_congr (hthread : s'.threads.get? t = s.threads.get? t)
    (hturns : s'.runningTurns t = s.runningTurns t) (husage : shownUsage s' t = shownUsage s t)
    (hitems : shownItems s' t = shownItems s t) : s'.shown? t = s.shown? t := by
  have hview : ∀ s : Database, s.shown? t = (s.threads.get? t).map fun r =>
      { thread := r.decode, contextUsage := r.lastReportedUsage, usage := shownUsage s t
        turns := (Database.inStartOrder (s.runningTurns t)).take 1, items := shownItems s t } := by
    intro s
    unfold Database.shown? Database.view?
    rw [Option.map_map]
    rfl
  rw [hview, hview, hthread, hturns, husage, hitems]

theorem shown_parts {v : ThreadView} (h : s.shown? t = some v) :
    v.usage = shownUsage s t ∧ v.items = shownItems s t := by
  obtain ⟨w, hw, rfl⟩ := Option.map_eq_some_iff.mp h
  obtain ⟨r, -, rfl⟩ := Option.map_eq_some_iff.mp hw
  exact ⟨rfl, rfl⟩

/-! ## Reconciliations -/

/-- A reconciliation that is accepted and settles a record the pages return. -/
def Write.SettlesQuietly (t : String) (op : Write) (s : Database) : Prop :=
  ∃ snapshots, op = .reconcileRequestUsage t snapshots ∧ accepts t snapshots s = true ∧
    ∃ snapshot ∈ snapshots, "" < snapshot.requestId ∧ settlesRecord t s snapshot = true

theorem settleAll_others {t' : String} (hne : t' ≠ t) (snapshots : List RequestUsage) :
    SameThread t' s (snapshots.foldl (settleStored t) s) := by
  induction snapshots generalizing s with
  | nil => exact .refl _ _
  | cons snapshot rest ih => exact (settleStored_others snapshot hne).trans ih

theorem shownUsage_settleStored (hkeyed : s.Keyed) {snapshot : RequestUsage}
    (h : settlesRecord t s snapshot = true → ¬ "" < snapshot.requestId) :
    shownUsage (settleStored t s snapshot) t = shownUsage s t := by
  cases hsettles : settlesRecord t s snapshot with
  | false => rw [settleStored_eq_self hsettles]
  | true =>
    unfold settleStored
    split
    · rfl
    · rename_i stored hstored
      split
      · rfl
      · refine shownUsage_update _ (fun _ => rfl) ?_
        intro u _ hp _
        simp only [Bool.and_eq_true, decide_eq_true_eq] at hp
        rw [hp.1, record?_requestId hkeyed hstored]
        exact h hsettles

theorem shownUsage_settleAll (hkeyed : s.Keyed) {snapshots : List RequestUsage}
    (h : ∀ snapshot ∈ snapshots, settlesRecord t s snapshot = true → ¬ "" < snapshot.requestId) :
    shownUsage (snapshots.foldl (settleStored t) s) t = shownUsage s t := by
  induction snapshots generalizing s with
  | nil => rfl
  | cons snapshot rest ih =>
    rw [List.foldl_cons, ih (settleStored_keyed hkeyed snapshot) ?_,
      shownUsage_settleStored hkeyed (h snapshot List.mem_cons_self)]
    intro snapshot' hmem hsettles
    refine h snapshot' (List.mem_cons_of_mem snapshot hmem) ?_
    by_contra hnot
    rw [settlesRecord_mono hkeyed (by simpa using hnot)] at hsettles
    cases hsettles

theorem reconciled_tracks_iff (hkeyed : s.Keyed) {t' : String} {snapshots : List RequestUsage}
    (haccepts : accepts t' snapshots s = true) :
    Tracks t s (snapshots.foldl (settleStored t') s) ↔
      ¬ (Write.reconcileRequestUsage t' snapshots).SettlesQuietly t s := by
  by_cases hne : t = t'
  · subst hne
    obtain ⟨hthreads, hturns, hitems⟩ := settleAll_tables (t := t) (s := s) snapshots
    have hthread := (Bool.and_eq_true_iff.mp haccepts).1
    constructor
    · rintro htracks ⟨_, hop, -, snapshot, hmem, hshown, hsettles⟩
      cases hop
      obtain ⟨v, hv⟩ := shown?_isSome hthread
      obtain ⟨v', hv'⟩ := shown?_isSome (s := snapshots.foldl (settleStored t) s) (t := t) (by
        rw [Database.hasThread, hthreads]
        exact hthread)
      have heq := htracks.eq (by rw [Database.revision?, hthreads]; rfl) hv hv'
      simp only [settlesRecord, Bool.and_eq_true, Option.any_eq_true, Bool.not_eq_true'] at hsettles
      obtain ⟨hsettled, r, hr, hunsettled⟩ := hsettles
      obtain ⟨u, hu, hid, huthread, rfl⟩ := record?_eq_some.mp hr
      -- The record is shown as it was, but the batch settled it.
      have hmem' : u ∈ shownUsage (snapshots.foldl (settleStored t) s) t := by
        rw [← (shown_parts hv').1, heq, (shown_parts hv).1]
        exact mem_shownUsage.mpr ⟨hu, huthread, hid ▸ hshown⟩
      have hget := record?_eq_some.mpr ⟨u, (mem_shownUsage.mp hmem').1, hid, huthread, rfl⟩
      have hdone := settleAll_settled (t := t) hkeyed snapshots snapshot hmem
      rw [settlesRecord, hget, Option.any_some, hsettled, hunsettled] at hdone
      cases hdone
    · intro hquiet
      refine tracks_of_eq (shown?_congr (by rw [hthreads]) ?_ ?_ ?_)
      · rw [Database.runningTurns, Database.turnsOf, hturns]
        rfl
      · refine shownUsage_settleAll hkeyed fun snapshot hmem hsettles hshown => ?_
        exact hquiet ⟨snapshots, rfl, haccepts, snapshot, hmem, hshown, hsettles⟩
      · rw [shownItems, Database.itemsBySequence, Database.itemsOf, hitems]
        rfl
  · have hnot : ¬ (Write.reconcileRequestUsage t' snapshots).SettlesQuietly t s := by
      rintro ⟨_, hop, -⟩
      cases hop
      exact hne rfl
    exact iff_of_true (Counts.tracks (.inr (.inl (settleAll_others hne snapshots)))) hnot

/-! ## Restarts -/

/-- A restart that changes a thread in which no turn runs: a request of it runs, or, where a turn of
some thread runs, one of its interrupted turns has a row that is open. -/
def Write.InterruptsQuietly (t : String) (op : Write) (s : Database) : Prop :=
  (∃ now, op = .interruptIncompleteTurns now) ∧ s.hasThread t = true ∧
    s.hasRunningTurn t = false ∧
    ((∃ u ∈ s.usageOf t, "" < u.requestId ∧ u.record.state = .running) ∨
      (∃ r ∈ s.turns.rows, r.status = .running) ∧
        ∃ i ∈ s.itemsOf t, 0 < i.sequence ∧ i.status.isOpen = true ∧
          ∃ r ∈ s.turnsOf t, i.turnId = some r.id ∧ r.status = .interrupted)

theorem hasRunningTurn_false (h : s.hasRunningTurn t = false) {r : TurnRecord}
    (hr : r ∈ s.turns.rows) (hthread : r.threadId = t) : r.status ≠ .running := by
  intro hrunning
  have hany : s.hasRunningTurn t = true := by
    simp only [Database.hasRunningTurn, Rows.any, List.any_eq_true, Bool.and_eq_true,
      decide_eq_true_eq]
    exact ⟨r, hr, hthread, hrunning⟩
  rw [h] at hany
  cases hany

theorem key_interruptTurn (now : String) (r : TurnRecord) :
    (interruptTurn now r).key = r.key := rfl

/-- A row is open in an interrupted turn once the running turns are interrupted. -/
def opensInterrupted (s : Database) (now : String) (i : TimelineItem) : Bool :=
  i.status.isOpen &&
    (s.turns.update (fun r => r.status = .running) (interruptTurn now)
      (key_interruptTurn now)).any fun r =>
        r.threadId = i.threadId && some r.id = i.turnId && r.status = .interrupted

theorem opensInterrupted_iff (hidle : s.hasRunningTurn t = false) {now : String} {i : TimelineItem}
    (hthread : i.threadId = t) :
    opensInterrupted s now i = true ↔ i.status.isOpen = true ∧
      ∃ r ∈ s.turnsOf t, i.turnId = some r.id ∧ r.status = .interrupted := by
  simp only [opensInterrupted, Bool.and_eq_true, Rows.any, List.any_eq_true, decide_eq_true_eq]
  refine and_congr_right fun _ => ?_
  constructor
  · rintro ⟨r, hr, ⟨hrt, hrid⟩, hstatus⟩
    obtain ⟨r₀, hr₀, rfl⟩ := Rows.mem_update.mp hr
    have hkey : (Rows.edit (fun r : TurnRecord => decide (r.status = .running))
        (interruptTurn now) r₀).key = r₀.key := Rows.edit_keeps (key_interruptTurn now) r₀
    have hr₀t : r₀.threadId = t := (congrArg Prod.fst hkey).symm.trans (hrt.trans hthread)
    have hnot := hasRunningTurn_false hidle hr₀ hr₀t
    rw [Rows.edit_neg (by simpa using hnot)] at hrid hstatus
    exact ⟨r₀, List.mem_filter.mpr ⟨hr₀, by simpa using hr₀t⟩, hrid.symm, hstatus⟩
  · rintro ⟨r, hr, hrid, hstatus⟩
    obtain ⟨hmem, hrt⟩ := List.mem_filter.mp hr
    refine ⟨r, ?_, ⟨(of_decide_eq_true hrt).trans hthread.symm, hrid.symm⟩, hstatus⟩
    refine Rows.mem_update.mpr ⟨r, hmem, Rows.edit_neg ?_⟩
    simpa using hasRunningTurn_false hidle hmem (of_decide_eq_true hrt)

section Interrupt

variable (now : String)

theorem interrupt_requests :
    (interruptIncompleteTurns now s).requestUsage =
      s.requestUsage.update (fun u => u.record.state = .running)
        (fun u => { u with record := interruptRequest u.record }) fun _ => rfl := by
  unfold interruptIncompleteTurns
  dsimp only
  split <;> rfl

theorem interrupt_items :
    (¬ (∃ r ∈ s.turns.rows, r.status = .running) ∧
      (interruptIncompleteTurns now s).timelineItems = s.timelineItems) ∨
    (∃ r ∈ s.turns.rows, r.status = .running) ∧
      (interruptIncompleteTurns now s).timelineItems =
        s.timelineItems.update (opensInterrupted s now)
          (fun i => { i with status := .interrupted, updatedAt := now }) fun _ => rfl := by
  unfold interruptIncompleteTurns
  dsimp only
  split
  · rename_i hnone
    refine .inl ⟨?_, rfl⟩
    simpa [Rows.any] using hnone
  · rename_i hsome
    refine .inr ⟨?_, rfl⟩
    simpa [Rows.any] using hsome

/-- A thread in which no turn runs keeps its row and its turns. -/
theorem interrupt_idle (hidle : s.hasRunningTurn t = false) :
    (interruptIncompleteTurns now s).threads.get? t = s.threads.get? t ∧
      (interruptIncompleteTurns now s).turnsOf t = s.turnsOf t := by
  unfold interruptIncompleteTurns
  dsimp only
  split
  · exact ⟨rfl, rfl⟩
  · constructor
    · rw [Rows.get?_update]
      cases hr : s.threads.get? t with
      | none => rfl
      | some r =>
        obtain ⟨-, rfl⟩ := Rows.get?_mem hr
        exact congrArg some (Rows.edit_neg hidle)
    · have hkeeps : ∀ r : TurnRecord, (interruptTurn now r).key = r.key := fun _ => rfl
      refine Rows.filter_update_of_disjoint hkeeps ?_
      intro r hr hrunning
      have hne : r.threadId ≠ t := fun h =>
        hasRunningTurn_false hidle hr h (of_decide_eq_true hrunning)
      exact ⟨by simpa using hne, by simpa [interruptTurn] using hne⟩

/-- A thread in which a turn runs is counted. -/
theorem interrupt_running (hrunning : s.hasRunningTurn t = true) :
    Counts t s (interruptIncompleteTurns now s) := by
  cases hr : s.threads.get? t with
  | none => exact .inl (by rw [Database.revision?, hr]; rfl)
  | some r =>
    refine .inr (.inr ⟨r.revision, r.revision + 1, by rw [Database.revision?, hr]; rfl, ?_, by omega⟩)
    have hany : (s.turns.any fun r => r.status = .running) = true := by
      obtain ⟨r, hmem, h⟩ := List.any_eq_true.mp hrunning
      exact List.any_eq_true.mpr ⟨r, hmem, (Bool.and_eq_true_iff.mp h).2⟩
    unfold interruptIncompleteTurns Database.revision?
    dsimp only
    rw [if_neg (by simp [hany]), Rows.get?_update, hr]
    obtain ⟨-, rfl⟩ := Rows.get?_mem hr
    rw [Option.map_some, Rows.edit_pos (p := fun r : StoredThread => s.hasRunningTurn r.id) hrunning]
    rfl

theorem interrupted_tracks_iff :
    Tracks t s (interruptIncompleteTurns now s) ↔
      ¬ (Write.interruptIncompleteTurns now).InterruptsQuietly t s := by
  cases hidle : s.hasRunningTurn t with
  | true =>
    refine iff_of_true (interrupt_running now hidle).tracks ?_
    rintro ⟨-, -, hnot, -⟩
    rw [hidle] at hnot
    cases hnot
  | false =>
    obtain ⟨hget, hturns⟩ := interrupt_idle now hidle
    constructor
    · rintro htracks ⟨-, hthread, -, hchange⟩
      obtain ⟨v, hv⟩ := shown?_isSome hthread
      obtain ⟨v', hv'⟩ := shown?_isSome (s := interruptIncompleteTurns now s) (t := t) (by
        obtain ⟨r, hmem, rfl⟩ := Database.hasThread_iff.mp hthread
        rw [Rows.get?_of_mem hmem] at hget
        exact Database.hasThread_iff.mpr ⟨r, (Rows.get?_mem hget).1, rfl⟩)
      have heq := htracks.eq (by rw [Database.revision?, hget]; rfl) hv hv'
      obtain ⟨u, hu, hshown, hstate⟩ | ⟨hsome, i, hi, hsequence, hopen, hinterrupted⟩ := hchange
      · -- No request of the store runs any more.
        obtain ⟨hmem, hut⟩ := List.mem_filter.mp hu
        have hmem' : u ∈ shownUsage (interruptIncompleteTurns now s) t := by
          rw [← (shown_parts hv').1, heq, (shown_parts hv).1]
          exact mem_shownUsage.mpr ⟨hmem, by simpa using hut, hshown⟩
        have hrow := (mem_shownUsage.mp hmem').1
        rw [interrupt_requests] at hrow
        obtain ⟨u₀, -, rfl⟩ := Rows.mem_update.mp hrow
        unfold Rows.edit at hstate
        split at hstate
        · cases hstate
        · rename_i hnot
          exact hnot (decide_eq_true hstate)
      · -- No row of an interrupted turn is open any more.
        obtain ⟨hmem, hit⟩ := mem_itemsOf.mp hi
        have hmem' : i ∈ shownItems (interruptIncompleteTurns now s) t := by
          rw [← (shown_parts hv').2, heq, (shown_parts hv).2]
          exact mem_shownItems.mpr ⟨hmem, hit, hsequence⟩
        have hrow := (mem_shownItems.mp hmem').1
        obtain ⟨hnone, -⟩ | ⟨-, hitems⟩ := interrupt_items (s := s) now
        · exact hnone hsome
        · rw [hitems] at hrow
          obtain ⟨i₀, hi₀, hi₀i⟩ := Rows.mem_update.mp hrow
          have hid : ∀ j : TimelineItem,
              ({ j with status := .interrupted, updatedAt := now } : TimelineItem).id = j.id :=
            fun _ => rfl
          have hii₀ : i = i₀ := s.timelineItems.eq_of_key hmem hi₀ (by
            rw [← hi₀i]
            exact Rows.edit_keeps hid i₀)
          subst hii₀
          rw [Rows.edit_pos ((opensInterrupted_iff hidle hit).mpr ⟨hopen, hinterrupted⟩)] at hi₀i
          rw [← hi₀i] at hopen
          cases hopen
    · intro hquiet
      cases hthread : s.hasThread t with
      | false =>
        have hnone : s.threads.get? t = none := by
          cases hr : s.threads.get? t with
          | none => rfl
          | some r =>
            obtain ⟨hmem, hid⟩ := Rows.get?_mem hr
            rw [Database.hasThread_iff.mpr ⟨r, hmem, hid⟩] at hthread
            cases hthread
        exact Counts.tracks (.inl (by rw [Database.revision?, hnone]; rfl))
      | true =>
        have hchange := fun h => hquiet ⟨⟨now, rfl⟩, hthread, hidle, h⟩
        refine tracks_of_eq (shown?_congr hget ?_ ?_ ?_)
        · rw [Database.runningTurns, hturns]
          rfl
        · have husage : shownUsage (interruptIncompleteTurns now s) t =
              shownUsage { s with
                requestUsage := s.requestUsage.update (fun u => u.record.state = .running)
                  (fun u => { u with record := interruptRequest u.record }) fun _ => rfl } t := by
            rw [shownUsage, Database.usageById, Database.usageOf, interrupt_requests]
            rfl
          rw [husage]
          refine shownUsage_update _ (fun _ => rfl) ?_
          intro u hu hrunning hut hshown
          exact hchange (.inl ⟨u, List.mem_filter.mpr ⟨hu, by simpa using hut⟩, hshown,
            of_decide_eq_true hrunning⟩)
        · obtain ⟨-, hitems⟩ | ⟨hsome, hitems⟩ := interrupt_items (s := s) now
          · rw [shownItems, Database.itemsBySequence, Database.itemsOf, hitems]
            rfl
          · have hshown : shownItems (interruptIncompleteTurns now s) t =
                shownItems { s with
                  timelineItems := s.timelineItems.update (opensInterrupted s now)
                    (fun i => { i with status := .interrupted, updatedAt := now }) fun _ => rfl } t := by
              rw [shownItems, Database.itemsBySequence, Database.itemsOf, hitems]
              rfl
            rw [hshown]
            refine shownItems_update _ (fun _ => rfl) (fun _ => rfl) ?_
            intro i hi hopens hit hsequence
            obtain ⟨hopen, hinterrupted⟩ := (opensInterrupted_iff hidle hit).mp hopens
            exact hchange (.inr ⟨hsome, i, mem_itemsOf.mpr ⟨hi, hit⟩, hsequence, hopen,
              hinterrupted⟩)

end Interrupt

/-! ## Deletions -/

theorem deleteThread_same {id : String} (hne : t ≠ id) : SameThread t s (deleteThread id s) := by
  have hget : (deleteThread id s).threads.get? t = s.threads.get? t := by
    show (s.threads.rows.filter fun r => !decide (r.id = id)).find? _ = s.threads.rows.find? _
    rw [List.find?_filter]
    refine congrArg (fun q => List.find? q s.threads.rows) (funext fun r => ?_)
    by_cases hr : r.id = t <;> simp [hr, hne]
  refine ⟨hget, Rows.filter_delete_of_disjoint ?_, Rows.filter_delete_of_disjoint ?_,
    Rows.filter_delete_of_disjoint ?_⟩
  · intro r _ hr
    rw [of_decide_eq_true hr]
    exact decide_eq_false hne.symm
  · intro i _ hi
    rw [of_decide_eq_true hi]
    exact decide_eq_false hne.symm
  · intro u _ hu
    rw [of_decide_eq_true hu]
    exact decide_eq_false hne.symm

/-- A deletion leaves a thread, or the thread is gone. -/
theorem deleteSessions_same (ids : List String) (h : SameThread t s s' ∨ s'.threads.get? t = none) :
    SameThread t s (deleteSessions ids s').2 ∨ (deleteSessions ids s').2.threads.get? t = none := by
  induction ids generalizing s' with
  | nil => exact h
  | cons id rest ih =>
    show SameThread t s (deleteSessions rest (deleteThread id s')).2 ∨ _
    refine ih ?_
    by_cases hid : t = id
    · refine .inr ?_
      show (s'.threads.rows.filter fun r => !decide (r.id = id)).find? _ = none
      rw [List.find?_eq_none]
      intro r hr
      have := (List.mem_filter.mp hr).2
      simpa [hid] using this
    · have hsame := deleteThread_same (s := s') hid
      exact h.imp (fun h => h.trans hsame) fun h => hsame.thread.trans h

/-! ## The operations -/

/-- An operation that is neither a reconciliation nor a restart counts what it changes. -/
theorem Wrote.tracks {op : Write} (h : Wrote op s s')
    (hop : ∀ t snapshots, op ≠ .reconcileRequestUsage t snapshots)
    (hop' : ∀ now, op ≠ .interruptIncompleteTurns now) : Tracks t s s' := by
  cases h with
  | same => exact (Counts.refl s).tracks
  | batch _ t' envelopes clientItemId c preferences replacement _ _ _ h =>
    by_cases hne : t = t'
    · subst hne
      intro v v' hv hv'
      have hlt := h.revision_lt (revision?_of_shown hv) (revision?_of_shown hv')
      exact ⟨le_of_lt hlt, fun _ => hlt⟩
    · exact Counts.tracks (.inr (.inl (h.sameThread hne)))
  | metadata _ h => exact (counts_metadata h).tracks
  | recorded t' usage _ _ hthread =>
    by_cases hne : t = t'
    · subst hne
      intro v v' hv hv'
      have hput : (s.putUsage t usage).revision? t = s.revision? t := by
        unfold Database.putUsage
        split <;> rfl
      have hcount : ((s.putUsage t usage).setThread t
          (fun r => { r with revision := r.revision + 1 }) fun _ => rfl).revision? t =
            ((s.putUsage t usage).revision? t).map (· + 1) := revision_bump fun _ => rfl
      rw [hput, revision?_of_shown hv, Option.map_some, revision?_of_shown hv'] at hcount
      have := Option.some.inj hcount
      exact ⟨by omega, fun _ => by omega⟩
    · exact Counts.tracks (.inr (.inl
        ((sameThread_putUsage usage hne).trans (sameThread_setThread hne))))
  | reconciled t' snapshots h => exact absurd h (hop t' snapshots)
  | interrupted now h => exact absurd h (hop' now)
  | deleted ids =>
    obtain hsame | hgone := deleteSessions_same ids (.inl (.refl t s))
    · exact Counts.tracks (.inr (.inl hsame))
    · intro v v' hv hv'
      have := revision?_of_shown hv'
      rw [Database.revision?, hgone] at this
      cases this

/-- **Revisions track what is shown**, in every state of the store and for every operation, exactly
where the operation neither settles a record of the thread through a reconciliation nor is a
restart that changes the thread while no turn of it runs. -/
theorem revision_tracks_iff (env : Environment) (op : Write) (t : String) (s : Database)
    (hkeyed : s.Keyed) :
    Tracks t s (op.run env s) ↔ ¬ op.SettlesQuietly t s ∧ ¬ op.InterruptsQuietly t s := by
  by_cases hreconcile : ∃ t' snapshots, op = .reconcileRequestUsage t' snapshots
  · obtain ⟨t', snapshots, rfl⟩ := hreconcile
    have hnot : ¬ (Write.reconcileRequestUsage t' snapshots).InterruptsQuietly t s :=
      fun ⟨⟨_, hop⟩, _⟩ => nomatch hop
    show Tracks t s (reconcileRequestUsage env t' snapshots s).2 ↔ _
    rw [reconcileRequestUsage_eq, and_iff_left hnot]
    by_cases haccepts : accepts t' snapshots s = true
    · rw [if_pos haccepts]
      exact reconciled_tracks_iff hkeyed haccepts
    · rw [if_neg haccepts]
      refine iff_of_true (Counts.refl s).tracks ?_
      rintro ⟨_, hop, haccepts', -⟩
      cases hop
      exact haccepts haccepts'
  · have hsettles : ¬ op.SettlesQuietly t s :=
      fun ⟨snapshots, hop, _⟩ => hreconcile ⟨t, snapshots, hop⟩
    rw [and_iff_right hsettles]
    by_cases hinterrupt : ∃ now, op = .interruptIncompleteTurns now
    · obtain ⟨now, rfl⟩ := hinterrupt
      exact interrupted_tracks_iff now
    · refine iff_of_true ((op.wrote env s).tracks ?_ ?_) fun h => hinterrupt h.1
      · exact fun t' snapshots hop => hreconcile ⟨t', snapshots, hop⟩
      · exact fun now hop => hinterrupt ⟨now, hop⟩

/-- A request of the sample session whose charge is still open. -/
def Sample.openUsage : RequestUsage :=
  { requestId := "request", modelId := "model", providerId := "provider", state := .completed }

/-- `revision_tracks_iff` of a rename in the sample session. -/
theorem revision_tracks_iff_rename :
    Tracks Sample.thread (store.run {} [Sample.create]).1
      ((Write.rename Sample.thread "Title" "now").run (Sample.env "rename")
        (store.run {} [Sample.create]).1) :=
  (revision_tracks_iff (Sample.env "rename") (.rename Sample.thread "Title" "now") Sample.thread _
    (store_keyed [Sample.create])).mpr
    ⟨fun ⟨_, hop, _⟩ => (nomatch hop), fun ⟨⟨_, hop⟩, _⟩ => (nomatch hop)⟩

/-- The settlement of a request that was recorded open: the page of the thread changes, and its
revision does not. -/
theorem settlement_not_counted :
    ((threadPage ⟨fun _ => 0, fun _ => 0⟩ (store.run {} [Sample.create,
        (Sample.env "report", .recordRequestUsage Sample.thread Sample.openUsage)]).1
        Sample.thread none none 10).toOption.map fun page =>
          (page.thread.revision, page.requestUsage)) = some (2, [Sample.openUsage]) ∧
    ((threadPage ⟨fun _ => 0, fun _ => 0⟩ (store.run {} [Sample.create,
        (Sample.env "report", .recordRequestUsage Sample.thread Sample.openUsage),
        (Sample.env "reconcile", .reconcileRequestUsage Sample.thread
          [{ Sample.openUsage with settled := true, costMicrousd := some "70" }])]).1
        Sample.thread none none 10).toOption.map fun page =>
          (page.thread.revision, page.requestUsage)) =
      some (2, [{ Sample.openUsage with settled := true, costMicrousd := some "70" }]) := by
  decide +kernel

end AxiomDesktop.Store
