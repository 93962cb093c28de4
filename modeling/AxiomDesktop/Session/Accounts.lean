import AxiomDesktop.Session.Effects

/-!
# Accounting records through every operation

The records of a store change in few ways: a complete report replaces the record of its request,
the end of a turn ends the requests that run in it, a reconciliation settles records, and a restart
interrupts the requests that run. `Write.keeps` says what every operation but a report leaves of a
record: it stays, its verification is as it was, and a settled one keeps its provider, its counts
and its cost. `settled_is_final` is the same over every run of the store.
-/

namespace AxiomDesktop.Store

open Fallible

variable {t : String} {s s' : Database}

/-! ## Events -/

/-- The records of a store change by a report or by the end of a turn, and by no other event. -/
inductive Reported (e : AppEvent) (t : String) (s : Database) : Database → Prop where
  | kept (s' : Database) (h : s'.requestUsage = s.requestUsage) : Reported e t s s'
  | report (s' : Database) (usage : RequestUsage) (he : e = .requestUsageUpdated usage)
      (h : s'.requestUsage = (s.putUsage t usage).requestUsage) : Reported e t s s'
  | ended (s' : Database) (T : String) (status : TurnStatus) (error : Option String)
      (now finished : String)
      (h : s'.requestUsage = (s.finishTurn t T status error now finished).requestUsage) :
      Reported e t s s'

theorem Inserted.requestUsage {w : TimelineItemWrite} {i : TimelineItem}
    (h : Inserted t w s i s') : s'.requestUsage = s.requestUsage := by
  cases h
  rfl

theorem Annotations.requestUsage {N A : String → Prop} (h : Annotations t N A s s') :
    s'.requestUsage = s.requestUsage := by
  induction h with
  | refl => rfl
  | tail _ hstep ih =>
    rw [← ih]
    cases hstep with
    | newRow _ w i h => exact h.requestUsage
    | thread | row | counts => rfl

theorem Persisted.records {e : AppEvent} {c : Option String} {now : String}
    (h : Persisted e t c now s s') : Reported e t s s' := by
  cases h with
  | notes _ he h => exact .kept _ h.requestUsage
  | interaction _ l he h => exact .kept _ h.requestUsage
  | prompt s₁ s₂ s₃ turnId text attachments he i j hi hattached hj =>
    have hs₂ : s₂.requestUsage = s₁.requestUsage := by
      cases hattached <;> rfl
    exact .kept _ (hj.requestUsage.trans (hs₂.trans hi.requestUsage))
  | created | resumed | configured | profiled | closed | started | passed | verified =>
    exact .kept _ rfl
  | delta _ T kind text he i h =>
    cases h with
    | found => exact .kept _ rfl
    | made _ h hi => exact .kept _ hi.requestUsage
  | reported usage he =>
    refine .report _ usage he ?_
    unfold Database.reportUsage
    dsimp only
    split <;> split <;> rfl
  | finished _ T status error he hrunning hthread finished h =>
    exact .ended _ T status error now finished h.requestUsage

/-! ## Keys -/

theorem putUsage_keyed (hkeyed : s.Keyed) (usage : RequestUsage) : (s.putUsage t usage).Keyed := by
  intro u hu
  unfold Database.putUsage at hu
  dsimp only at hu
  split at hu
  · rename_i requestUsage hinsert
    obtain hu | rfl := (Rows.mem_insert? hinsert).mp hu
    · exact hkeyed u hu
    · rfl
  · obtain ⟨v, hv, rfl⟩ := Rows.mem_update.mp hu
    unfold Rows.edit
    split
    · rename_i hp
      simp only [Bool.and_eq_true, decide_eq_true_eq] at hp
      exact hp.1.symm
    · exact hkeyed v hv

/-- A change of records that keeps their requests keeps them in the rows of their keys. -/
theorem keyed_update (hkeyed : s.Keyed) {p : StoredUsage → Bool} {f : RequestUsage → RequestUsage}
    (hf : ∀ r, (f r).requestId = r.requestId) :
    ({ s with
      requestUsage := s.requestUsage.update p (fun u => { u with record := f u.record })
        fun _ => rfl } : Database).Keyed := by
  intro u hu
  obtain ⟨v, hv, rfl⟩ := List.mem_map.mp hu
  unfold Rows.edit
  split
  · exact (hf v.record).trans (hkeyed v hv)
  · exact hkeyed v hv

theorem finishTurn_keyed (hkeyed : s.Keyed) (T : String) (status : TurnStatus)
    (error : Option String) (now finished : String) :
    (s.finishTurn t T status error now finished).Keyed := by
  intro u hu
  unfold Database.finishTurn at hu
  dsimp only [Database.setLifecycle, Database.setThread] at hu
  split at hu
  · exact keyed_update hkeyed (f := endRequest status finished) (fun _ => rfl) u hu
  · exact hkeyed u hu

theorem Reported.keyed {e : AppEvent} (h : Reported e t s s') (hkeyed : s.Keyed) : s'.Keyed := by
  cases h with
  | kept h => exact fun u hu => hkeyed u (h ▸ hu)
  | report usage he h => exact fun u hu => putUsage_keyed hkeyed usage u (h ▸ hu)
  | ended T status error now finished h =>
    exact fun u hu => finishTurn_keyed hkeyed T status error now finished u (h ▸ hu)

theorem Appended.keyed {c : Option String} {envelopes : List EventEnvelope}
    (h : Appended t c envelopes s s') (hkeyed : s.Keyed) : s'.Keyed := by
  induction h with
  | nil => exact hkeyed
  | cons c e rest s s₁ s₂ s' hevent htimes _ ih =>
    refine ih fun u hu => ?_
    rw [htimes.requestUsage] at hu
    exact hevent.records.keyed hkeyed u hu

theorem Truncated.requestUsage {revision : PromptRevision} (h : Truncated t revision s s') :
    s'.requestUsage = s.requestUsage := by
  cases h
  rfl

/-- The records a batch leaves are those its events leave. -/
theorem Batched.appended {envelopes : List EventEnvelope} {c : Option String}
    {replacement : Option PromptRevision} (h : Batched t envelopes c replacement s s') :
    ∃ s₁ s₂, s₁.requestUsage = s.requestUsage ∧ Appended t c envelopes s₁ s₂ ∧
      s'.requestUsage = s₂.requestUsage := by
  cases h with
  | intro s₁ s₂ now preferences htruncate happend hthread =>
    refine ⟨s₁, s₂, ?_, happend, rfl⟩
    obtain ⟨-, rfl⟩ | ⟨r, -, -, hr⟩ := htruncate
    · rfl
    · exact hr.requestUsage

theorem Recounts.requestUsage (h : Relation.ReflTransGen Recounts s s') :
    s'.requestUsage = s.requestUsage := by
  induction h with
  | refl => rfl
  | tail _ hstep ih =>
    rw [← ih]
    cases hstep with
    | aside hthreads hturns hitems husage => exact husage
    | count t p hp f hf hthreads hturns hitems husage => exact husage

theorem settleAll_keyed (hkeyed : s.Keyed) (snapshots : List RequestUsage) :
    (snapshots.foldl (settleStored t) s).Keyed := by
  induction snapshots generalizing s with
  | nil => exact hkeyed
  | cons snapshot rest ih => exact ih (settleStored_keyed hkeyed snapshot)

theorem interruptIncompleteTurns_keyed (hkeyed : s.Keyed) (now : String) :
    (interruptIncompleteTurns now s).Keyed := by
  have hupdate := keyed_update hkeyed (p := fun u => u.record.state = .running)
    (f := interruptRequest) fun _ => rfl
  intro u hu
  refine hupdate u ?_
  unfold interruptIncompleteTurns at hu
  dsimp only at hu
  split at hu <;> exact hu

theorem deleteSessions_keyed (hkeyed : s.Keyed) (ids : List String) :
    (deleteSessions ids s).2.Keyed := by
  induction ids generalizing s with
  | nil => exact hkeyed
  | cons id rest ih =>
    refine ih (s := deleteThread id s) ?_
    exact fun u hu => hkeyed u (List.mem_filter.mp hu).1

/-- Every operation keeps the records in the rows of their requests. -/
theorem Write.run_keyed (env : Environment) (op : Write) (hkeyed : s.Keyed) :
    (op.run env s).Keyed := by
  obtain hs' := op.wrote env s
  generalize op.run env s = s' at hs'
  cases hs' with
  | same => exact hkeyed
  | batch _ t envelopes clientItemId c preferences replacement hop hne ht h =>
    obtain ⟨s₁, s₂, hs₁, happend, hs₂⟩ := h.appended
    have hkeyed₁ : s₁.Keyed := fun u hu => hkeyed u (hs₁ ▸ hu)
    exact fun u hu => happend.keyed hkeyed₁ u (hs₂ ▸ hu)
  | metadata _ h => exact fun u hu => hkeyed u (Recounts.requestUsage h ▸ hu)
  | recorded t usage => exact putUsage_keyed hkeyed usage
  | reconciled t snapshots => exact settleAll_keyed hkeyed snapshots
  | interrupted now => exact interruptIncompleteTurns_keyed hkeyed now
  | deleted ids => exact deleteSessions_keyed hkeyed ids

/-- The records of a store are in the rows of their requests. -/
theorem store_keyed (ops : List (Environment × Write)) : (store.run {} ops).1.Keyed :=
  store.run_invariant' (P := Database.Keyed) (fun _ op h => op.2.run_keyed op.1 h)
    (fun _ hu => absurd hu List.not_mem_nil) ops

/-! ## What an operation leaves of a record -/

/-- What a request was charged, and by whom. -/
def charge (r : RequestUsage) : String × List (Option String) :=
  (r.providerId,
    [r.inputTokens, r.cachedInputTokens, r.outputTokens, r.reasoningTokens, r.imagePixels,
      r.imageSteps, r.inputImagePixels, r.costMicrousd])

/-- The record of a request stays as verified as it was, and one that was settled stays settled
with its charge. -/
structure KeepsRecord (t R : String) (s s' : Database) : Prop where
  verified : (s'.record? t R).map (·.responseVerified) = (s.record? t R).map (·.responseVerified)
  settled : ∀ r, s.record? t R = some r → r.settled = true →
    ∃ r', s'.record? t R = some r' ∧ r'.settled = true ∧ charge r' = charge r

section Keeps

variable {R : String}

theorem KeepsRecord.of_eq (h : s'.requestUsage = s.requestUsage) : KeepsRecord t R s s' := by
  have hr : s'.record? t R = s.record? t R := by rw [Database.record?, h]; rfl
  refine ⟨by rw [hr], ?_⟩
  intro r hget hsettled
  exact ⟨r, hr.trans hget, hsettled, rfl⟩

theorem KeepsRecord.trans {s'' : Database} (h : KeepsRecord t R s s')
    (h' : KeepsRecord t R s' s'') : KeepsRecord t R s s'' := by
  refine ⟨h'.verified.trans h.verified, ?_⟩
  intro r hr hsettled
  obtain ⟨r', hr', hsettled', hcharge'⟩ := h.settled r hr hsettled
  obtain ⟨r'', hr'', hsettled'', hcharge''⟩ := h'.settled r' hr' hsettled'
  exact ⟨r'', hr'', hsettled'', hcharge''.trans hcharge'⟩

/-- The record of a request after a change of the rows. -/
theorem record?_update {p : StoredUsage → Bool} {f : StoredUsage → StoredUsage}
    (hf : ∀ u, (f u).requestId = u.requestId) (hthread : ∀ u, (f u).threadId = u.threadId) :
    ({ s with requestUsage := s.requestUsage.update p f hf } : Database).record? t R =
      ((s.requestUsage.get? R).filter fun u => u.threadId = t).map fun u =>
        (Rows.edit p f u).record := by
  show (((s.requestUsage.update p f hf).get? R).filter fun u => u.threadId = t).map (·.record) = _
  rw [Rows.get?_update]
  cases s.requestUsage.get? R with
  | none => rfl
  | some u =>
    have : (Rows.edit p f u).threadId = u.threadId := Rows.edit_keeps hthread u
    by_cases hu : u.threadId = t
    · simp [Option.filter_some, this, hu]
    · simp [Option.filter_some, this, hu]

theorem keepsRecord_update {p : StoredUsage → Bool} {f : StoredUsage → StoredUsage}
    (hf : ∀ u, (f u).requestId = u.requestId) (hthread : ∀ u, (f u).threadId = u.threadId)
    (hverified : ∀ u ∈ s.requestUsage.rows, p u = true → u.requestId = R → u.threadId = t →
      (f u).record.responseVerified = u.record.responseVerified)
    (hsettled : ∀ u ∈ s.requestUsage.rows, p u = true → u.requestId = R → u.threadId = t →
      u.record.settled = true →
      (f u).record.settled = true ∧ charge (f u).record = charge u.record) :
    KeepsRecord t R s { s with requestUsage := s.requestUsage.update p f hf } := by
  constructor
  · rw [record?_update hf hthread, Database.record?]
    cases hget : s.requestUsage.get? R with
    | none => rfl
    | some u =>
      obtain ⟨hmem, hid⟩ := Rows.get?_mem hget
      by_cases hu : u.threadId = t
      · simp only [Option.filter_some, hu, decide_true, if_true, Option.map_some]
        unfold Rows.edit
        split
        · rename_i hp
          rw [hverified u hmem hp hid hu]
        · rfl
      · simp [Option.filter_some, hu]
  · intro r hr hrs
    obtain ⟨u, hmem, hid, hu, rfl⟩ := record?_eq_some.mp hr
    refine ⟨(Rows.edit p f u).record, ?_, ?_⟩
    · rw [record?_update hf hthread, ← hid, Rows.get?_of_mem hmem]
      simp [Option.filter_some, hu]
    · unfold Rows.edit
      split
      · rename_i hp
        exact hsettled u hmem hp hid hu hrs
      · exact ⟨hrs, rfl⟩

/-- A report leaves the records of the other requests and of the other threads. -/
theorem keepsRecord_putUsage {t' : String} {usage : RequestUsage}
    (hne : t' ≠ t ∨ usage.requestId ≠ R) : KeepsRecord t R s (s.putUsage t' usage) := by
  unfold Database.putUsage
  split
  · rename_i rows hinsert
    have hr : ({ s with requestUsage := rows } : Database).record? t R = s.record? t R := by
      refine Option.ext fun r => ?_
      show Database.record? _ t R = some r ↔ s.record? t R = some r
      rw [record?_eq_some, record?_eq_some]
      constructor
      · rintro ⟨u, hu, hid, hthread, hrecord⟩
        obtain hu | rfl := (Rows.mem_insert? hinsert).mp hu
        · exact ⟨u, hu, hid, hthread, hrecord⟩
        · exact absurd hid (hne.resolve_left (not_not.mpr hthread))
      · rintro ⟨u, hu, hid, hthread, hrecord⟩
        exact ⟨u, (Rows.mem_insert? hinsert).mpr (.inl hu), hid, hthread, hrecord⟩
    refine ⟨by rw [hr], ?_⟩
    intro r hget hsettled
    exact ⟨r, hr.trans hget, hsettled, rfl⟩
  · have absurd_row : ∀ u : StoredUsage,
        (u.requestId = usage.requestId && u.threadId = t' : Bool) = true → u.requestId = R →
        u.threadId = t → False := by
      intro u hp hid hthread
      simp only [Bool.and_eq_true, decide_eq_true_eq] at hp
      obtain hne | hne := hne
      · exact hne (hp.2.symm.trans hthread)
      · exact hne (hp.1.symm.trans hid)
    refine keepsRecord_update _ (fun _ => rfl) ?_ ?_
    · exact fun u _ hp hid hthread => (absurd_row u hp hid hthread).elim
    · exact fun u _ hp hid hthread => (absurd_row u hp hid hthread).elim

theorem keepsRecord_finishTurn (t' T : String) (status : TurnStatus) (error : Option String)
    (now finished : String) :
    KeepsRecord t R s (s.finishTurn t' T status error now finished) := by
  unfold Database.finishTurn
  dsimp only
  split
  · have h := keepsRecord_update (s := s) (t := t) (R := R)
      (p := fun u => u.threadId = t' && u.record.turnId = some T && u.record.state = .running)
      (f := fun u => { u with record := endRequest status finished u.record })
      (fun _ => rfl) (fun _ => rfl) (fun _ _ _ _ _ => rfl) (fun _ _ _ _ _ hs => ⟨hs, rfl⟩)
    exact ⟨h.verified, h.settled⟩
  · exact .of_eq rfl

theorem keepsRecord_settleStored (hkeyed : s.Keyed) (t' : String) (snapshot : RequestUsage) :
    KeepsRecord t R s (settleStored t' s snapshot) := by
  unfold settleStored
  split
  · exact .of_eq rfl
  · rename_i stored hstored
    split
    · exact .of_eq rfl
    · rename_i hskip
      simp only [Bool.or_eq_true, Bool.not_eq_true', not_or, Bool.not_eq_true,
        Bool.not_eq_false] at hskip
      obtain ⟨w, hw, hwid, hwthread, hwrecord⟩ := record?_eq_some.mp hstored
      have found : ∀ u ∈ s.requestUsage.rows,
          (u.requestId = stored.requestId && u.threadId = t' : Bool) = true → u.record = stored := by
        intro u hu hp
        simp only [Bool.and_eq_true, decide_eq_true_eq] at hp
        have hid : u.requestId = w.requestId := by
          rw [hp.1, record?_requestId hkeyed hstored, hwid]
        rw [s.requestUsage.eq_of_key hu hw hid, hwrecord]
      refine keepsRecord_update _ (fun _ => rfl) ?_ ?_
      · intro u hu hp _ _
        rw [found u hu hp]
        rfl
      · intro u hu hp _ _ hs
        rw [found u hu hp, hskip.1] at hs
        cases hs

theorem keepsRecord_settleAll (hkeyed : s.Keyed) (t' : String) (snapshots : List RequestUsage) :
    KeepsRecord t R s (snapshots.foldl (settleStored t') s) := by
  induction snapshots generalizing s with
  | nil => exact .of_eq rfl
  | cons snapshot rest ih =>
    exact (keepsRecord_settleStored hkeyed t' snapshot).trans
      (ih (settleStored_keyed hkeyed snapshot))

/-- A report of a request in a thread. -/
def ReportsRequest (R : String) (e : AppEvent) : Prop :=
  ∃ usage, e = .requestUsageUpdated usage ∧ usage.requestId = R

theorem Appended.keepsRecord {t' : String} {c : Option String} {envelopes : List EventEnvelope}
    (h : Appended t' c envelopes s s')
    (hreports : t' ≠ t ∨ ∀ e ∈ envelopes, ¬ ReportsRequest R e.event) :
    KeepsRecord t R s s' := by
  induction h with
  | nil => exact .of_eq rfl
  | cons c e rest s s₁ s₂ s' hevent htimes _ ih =>
    have hfirst : KeepsRecord t R s s₁ := by
      cases hevent.records with
      | kept h => exact .of_eq h
      | report usage he h =>
        have hne : t' ≠ t ∨ usage.requestId ≠ R := by
          obtain hne | hnone := hreports
          · exact .inl hne
          · exact .inr fun hR => hnone e List.mem_cons_self ⟨usage, he, hR⟩
        exact (keepsRecord_putUsage hne).trans (.of_eq h)
      | ended T status error now finished h =>
        exact (keepsRecord_finishTurn t' T status error now finished).trans (.of_eq h)
    refine (hfirst.trans (.of_eq htimes.requestUsage)).trans (ih ?_)
    exact hreports.imp_right fun h e' he' => h e' (List.mem_cons_of_mem e he')

/-- The operations that report a request of a thread as a whole. -/
def Write.Reports (t R : String) : Write → Prop
  | .appendBatch envelopes _ _ _ =>
    ∃ e ∈ envelopes, e.sessionId.toString = t ∧ ReportsRequest R e.event
  | .recordRequestUsage threadId usage => threadId = t ∧ usage.requestId = R
  | _ => False

/-- The operations on the whole store: a restart, which ends what the last process left running,
and the deletion of threads. -/
def Write.OnStore : Write → Prop
  | .interruptIncompleteTurns _ | .deleteSessions _ => True
  | _ => False

/-- **What every operation but a report leaves of a record.** -/
theorem Write.keepsRecord (env : Environment) {op : Write} (hkeyed : s.Keyed)
    (hreports : ¬ op.Reports t R) (hstore : ¬ op.OnStore) :
    KeepsRecord t R s (op.run env s) := by
  have hs' := op.wrote env s
  generalize op.run env s = s' at hs'
  cases hs' with
  | same => exact .of_eq rfl
  | batch _ t' envelopes clientItemId c preferences replacement hop hne ht h =>
    obtain ⟨s₁, s₂, hs₁, happend, hs₂⟩ := h.appended
    subst hop
    have hnone : t' ≠ t ∨ ∀ e ∈ envelopes, ¬ ReportsRequest R e.event := by
      by_cases htt : t' = t
      · exact .inr fun e he hR => hreports ⟨e, he, (ht e he).trans htt, hR⟩
      · exact .inl htt
    exact ((KeepsRecord.of_eq hs₁).trans (happend.keepsRecord hnone)).trans (.of_eq hs₂)
  | metadata _ h => exact .of_eq (Recounts.requestUsage h)
  | recorded t' usage hop =>
    subst hop
    have hne : t' ≠ t ∨ usage.requestId ≠ R := by
      by_cases htt : t' = t
      · exact .inr fun hR => hreports ⟨htt, hR⟩
      · exact .inl htt
    exact (keepsRecord_putUsage hne).trans (.of_eq rfl)
  | reconciled t' snapshots => exact keepsRecord_settleAll hkeyed t' snapshots
  | interrupted now hop | deleted ids hop =>
    subst hop
    exact absurd trivial hstore

end Keeps

/-! ## Batches of snapshots -/

/-- A snapshot that does not match at first does not match later in its batch. -/
theorem matchesStored_of_settled (hkeyed : s.Keyed) {snapshot snapshot' : RequestUsage}
    (hmatch : matchesStored t s snapshot = true)
    (h : matchesStored t (settleStored t s snapshot) snapshot' = true) :
    matchesStored t s snapshot' = true := by
  unfold matchesStored at h ⊢
  rw [Bool.and_eq_true] at h ⊢
  refine ⟨h.1, ?_⟩
  cases hr : s.record? t snapshot'.requestId with
  | none => rfl
  | some r =>
    obtain ⟨u, hu, hid, hthread, rfl⟩ := record?_eq_some.mp hr
    have hmem : (if u.requestId = snapshot.requestId ∧ u.threadId = t ∧
        u.record.settled = false ∧ snapshot.settled = true then
        { u with record := settle snapshot u.record } else u) ∈
        (settleStored t s snapshot).requestUsage.rows := (mem_settleStored hkeyed).mpr ⟨u, hu, rfl⟩
    obtain ⟨-, hall⟩ := h
    split at hmem
    · rename_i hsettles
      have hget : (settleStored t s snapshot).record? t snapshot'.requestId =
          some (settle snapshot u.record) := record?_eq_some.mpr ⟨_, hmem, hid, hthread, rfl⟩
      have hstored : s.record? t snapshot.requestId = some u.record :=
        record?_eq_some.mpr ⟨u, hu, hsettles.1, hthread, rfl⟩
      rw [hget] at hall
      simp only [matchesStored, hstored, Option.all_some, Bool.and_eq_true, Bool.or_eq_true,
        decide_eq_true_eq] at hmatch
      simp only [settle, Option.all_some, Bool.and_eq_true, Bool.or_eq_true,
        decide_eq_true_eq] at hall ⊢
      refine ⟨hall.1, ?_⟩
      obtain hempty | hsame := hmatch.2.2
      · exact .inl hempty
      · rw [hsame]
        exact hall.2
    · have hget : (settleStored t s snapshot).record? t snapshot'.requestId = some u.record :=
        record?_eq_some.mpr ⟨u, hmem, hid, hthread, rfl⟩
      rw [hget] at hall
      exact hall

theorem matchesAll_forall (hkeyed : s.Keyed) {snapshots : List RequestUsage}
    (h : matchesAll t snapshots s = true) : ∀ snapshot ∈ snapshots, matchesStored t s snapshot = true := by
  induction snapshots generalizing s with
  | nil => exact fun _ h => nomatch h
  | cons snapshot rest ih =>
    obtain ⟨hfirst, hrest⟩ := Bool.and_eq_true_iff.mp h
    rintro snapshot' (_ | ⟨_, hmem⟩)
    · exact hfirst
    · exact matchesStored_of_settled hkeyed hfirst (ih (settleStored_keyed hkeyed snapshot) hrest _ hmem)

/-- What a snapshot did not settle before, it does not settle after others were settled. -/
theorem settlesRecord_mono (hkeyed : s.Keyed) {snapshot snapshot' : RequestUsage}
    (h : settlesRecord t s snapshot' = false) :
    settlesRecord t (settleStored t s snapshot) snapshot' = false := by
  rw [Bool.eq_false_iff] at h ⊢
  intro hsettles
  refine h ?_
  simp only [settlesRecord, Bool.and_eq_true, Option.any_eq_true, Bool.not_eq_true'] at hsettles ⊢
  obtain ⟨hsettled, r, hr, hunsettled⟩ := hsettles
  obtain ⟨u, hu, hid, hthread, rfl⟩ := record?_eq_some.mp hr
  obtain ⟨v, hv, rfl⟩ := (mem_settleStored hkeyed).mp hu
  split at hunsettled
  · rename_i hdone
    rw [show (settle snapshot v.record).settled = snapshot.settled from rfl, hdone.2.2.2] at hunsettled
    cases hunsettled
  · rename_i hdone
    rw [if_neg hdone] at hid hthread
    exact ⟨hsettled, v.record, record?_eq_some.mpr ⟨v, hv, hid, hthread, rfl⟩, hunsettled⟩

theorem settlesRecord_self (hkeyed : s.Keyed) (snapshot : RequestUsage) :
    settlesRecord t (settleStored t s snapshot) snapshot = false := by
  rw [Bool.eq_false_iff]
  intro hsettles
  simp only [settlesRecord, Bool.and_eq_true, Option.any_eq_true, Bool.not_eq_true'] at hsettles
  obtain ⟨hsettled, r, hr, hunsettled⟩ := hsettles
  obtain ⟨u, hu, hid, hthread, rfl⟩ := record?_eq_some.mp hr
  obtain ⟨v, hv, rfl⟩ := (mem_settleStored hkeyed).mp hu
  split at hunsettled
  · rw [show (settle snapshot v.record).settled = snapshot.settled from rfl, hsettled] at hunsettled
    cases hunsettled
  · rename_i hdone
    rw [if_neg hdone] at hid hthread
    exact hdone ⟨hid, hthread, hunsettled, hsettled⟩

/-- After a batch none of its snapshots settles anything. -/
theorem settleAll_settled (hkeyed : s.Keyed) (snapshots : List RequestUsage) :
    ∀ snapshot ∈ snapshots,
      settlesRecord t (snapshots.foldl (settleStored t) s) snapshot = false := by
  have later : ∀ (rest : List RequestUsage) (s : Database) (snapshot : RequestUsage), s.Keyed →
      settlesRecord t s snapshot = false →
      settlesRecord t (rest.foldl (settleStored t) s) snapshot = false := by
    intro rest
    induction rest with
    | nil => exact fun _ _ _ h => h
    | cons next rest ih =>
      intro s snapshot hkeyed h
      exact ih _ _ (settleStored_keyed hkeyed next) (settlesRecord_mono hkeyed h)
  induction snapshots generalizing s with
  | nil => exact fun _ h => nomatch h
  | cons snapshot rest ih =>
    rintro snapshot' (_ | ⟨_, hmem⟩)
    · exact later rest _ _ (settleStored_keyed hkeyed snapshot) (settlesRecord_self hkeyed snapshot)
    · exact ih (settleStored_keyed hkeyed snapshot) snapshot' hmem

theorem settleAll_eq_self {snapshots : List RequestUsage}
    (h : ∀ snapshot ∈ snapshots, settlesRecord t s snapshot = false) :
    snapshots.foldl (settleStored t) s = s := by
  induction snapshots with
  | nil => rfl
  | cons snapshot rest ih =>
    rw [List.foldl_cons, settleStored_eq_self (h snapshot List.mem_cons_self)]
    exact ih fun snapshot' hmem => h snapshot' (List.mem_cons_of_mem snapshot hmem)

/-! ## The store -/

/-- **Settled accounting is final.** In every run of the store, as long as a request is not reported
again as a whole, its record stays as verified as it was, and once it is settled it stays settled
with its provider, its counts and its cost. A reconciliation with a snapshot that is invalid or
does not match changes nothing, and the same reconciliation twice is the same as once. -/
theorem settled_is_final (t : String) (before : List (Environment × Write)) :
    (∀ R after, (∀ op ∈ after, ¬ op.2.Reports t R ∧ ¬ op.2.OnStore) →
      KeepsRecord t R (store.run {} before).1 (store.run {} (before ++ after)).1) ∧
    (∀ env snapshots, (∃ snapshot ∈ snapshots,
        matchesStored t (store.run {} before).1 snapshot = false) →
      (reconcileRequestUsage env t snapshots (store.run {} before).1).2 =
        (store.run {} before).1) ∧
    ∀ env env' snapshots,
      (reconcileRequestUsage env' t snapshots
        (reconcileRequestUsage env t snapshots (store.run {} before).1).2).2 =
      (reconcileRequestUsage env t snapshots (store.run {} before).1).2 := by
  have hkeyed := store_keyed before
  generalize hs : (store.run {} before).1 = s at hkeyed ⊢
  refine ⟨?_, ?_, ?_⟩
  · intro R after hafter
    rw [store.run_append, hs]
    refine (store.run_invariant (P := fun s' => s'.Keyed ∧ KeepsRecord t R s s')
      (C := fun _ op => ¬ op.2.Reports t R ∧ ¬ op.2.OnStore) ?_ ⟨hkeyed, .of_eq rfl⟩
      (store.meets_of_forall (fun op hop _ => hafter op hop) s)).2
    rintro s' op ⟨hkeyed', hkeeps⟩ ⟨hreports, hstore⟩
    exact ⟨op.2.run_keyed op.1 hkeyed',
      hkeeps.trans (op.2.keepsRecord op.1 hkeyed' hreports hstore)⟩
  · rintro env snapshots ⟨snapshot, hmem, hmismatch⟩
    rw [reconcileRequestUsage_eq, if_neg]
    intro haccepts
    have hall := matchesAll_forall hkeyed (Bool.and_eq_true_iff.mp haccepts).2 snapshot hmem
    rw [hmismatch] at hall
    cases hall
  · intro env env' snapshots
    rw [reconcileRequestUsage_eq env' snapshots, reconcileRequestUsage_eq env snapshots]
    by_cases haccepts : accepts t snapshots s = true
    · rw [if_pos haccepts, settleAll_eq_self (settleAll_settled hkeyed snapshots), ite_self]
    · rw [if_neg haccepts, if_neg haccepts]

/-- A settled record of the sample session. -/
def Sample.settledUsage : RequestUsage :=
  { requestId := "request", modelId := "model", providerId := "provider", inputTokens := some "7"
    costMicrousd := some "70", state := .completed, settled := true, responseVerified := true }

/-- `settled_is_final` of a reconciliation that brings other counts. -/
theorem settled_is_final_reconciled :
    KeepsRecord Sample.thread "request"
      (store.run {} [Sample.create,
        (Sample.env "report", .recordRequestUsage Sample.thread Sample.settledUsage)]).1
      (store.run {} [Sample.create,
        (Sample.env "report", .recordRequestUsage Sample.thread Sample.settledUsage),
        (Sample.env "reconcile", .reconcileRequestUsage Sample.thread
          [{ Sample.settledUsage with inputTokens := some "9", responseVerified := false }])]).1 :=
  (settled_is_final Sample.thread [Sample.create,
    (Sample.env "report", .recordRequestUsage Sample.thread Sample.settledUsage)]).1 "request"
    [(Sample.env "reconcile", .reconcileRequestUsage Sample.thread
      [{ Sample.settledUsage with inputTokens := some "9", responseVerified := false }])]
    (by simp [Write.Reports, Write.OnStore])

/-- A complete report replaces a settled and verified record as a whole: an event of the request
that comes after the settlement takes both back and brings another charge. -/
theorem settled_record_replaced :
    ∃ r r', (store.run {} [Sample.create,
        (Sample.env "report", .recordRequestUsage Sample.thread Sample.settledUsage)]).1.record?
          Sample.thread "request" = some r ∧
      (store.run {} [Sample.create,
        (Sample.env "report", .recordRequestUsage Sample.thread Sample.settledUsage),
        (Sample.env "event", Sample.append [.requestUsageUpdated
          { Sample.settledUsage with
            inputTokens := some "9", settled := false, responseVerified := false }])]).1.record?
          Sample.thread "request" = some r' ∧
      r.settled = true ∧ r'.settled = false ∧ r.responseVerified = true ∧
      r'.responseVerified = false ∧ charge r' ≠ charge r :=
  ⟨Sample.settledUsage,
    { Sample.settledUsage with inputTokens := some "9", settled := false, responseVerified := false },
    by decide +kernel⟩

end AxiomDesktop.Store
