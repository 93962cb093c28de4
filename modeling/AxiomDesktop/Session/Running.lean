import AxiomDesktop.Session.History
import AxiomDesktop.Session.Projection
import AxiomDesktop.Session.Sequences

/-!
# The turns that run

A turn runs from the event that starts it to the one that ends it (`Runs`). `Persisted.runs` tells
what one event does to the running turns of its thread, `Appended.runs` what a batch does, and
`Write.runs` that an operation which is not about a thread (`Write.spares`) leaves them.
-/

namespace AxiomDesktop.Store

variable {t T : String} {s s' : Database} {now : String}

/-- A turn of a thread runs. -/
def Runs (s : Database) (t T : String) : Prop :=
  ∃ r ∈ s.turns.rows, r.key = (t, T) ∧ r.status = .running

/-- The turn an event starts. -/
def startedTurn : AppEvent → Option String
  | .promptAccepted turnId _ _ | .turnStarted turnId => some turnId.toString
  | _ => none

/-- The turn an event ends. -/
def endedTurn (e : AppEvent) : Option String := (finishOf e).map (·.1)

theorem runningTurns_eq_nil : s.runningTurns t = [] ↔ ∀ T, ¬Runs s t T := by
  rw [List.eq_nil_iff_forall_not_mem]
  constructor
  · rintro h T ⟨r, hr, hkey, hstatus⟩
    exact h r (mem_runningTurns.mpr ⟨hr, congrArg Prod.fst hkey, hstatus⟩)
  · intro h r hr
    obtain ⟨hmem, hthread, hstatus⟩ := mem_runningTurns.mp hr
    exact h r.id ⟨r, hmem, Prod.ext hthread rfl, hstatus⟩

theorem Runs.of_turns (h : s'.turns = s.turns) : Runs s' t T ↔ Runs s t T := by
  unfold Runs
  rw [h]

theorem Runs.of_turnsOf (h : s'.turnsOf t = s.turnsOf t) : Runs s' t T ↔ Runs s t T := by
  have runs : ∀ s : Database, Runs s t T ↔
      ∃ r ∈ s.turnsOf t, r.id = T ∧ r.status = .running := by
    intro s
    constructor
    · rintro ⟨r, hr, hkey, hstatus⟩
      exact ⟨r, List.mem_filter.mpr ⟨hr, decide_eq_true (congrArg Prod.fst hkey)⟩,
        congrArg Prod.snd hkey, hstatus⟩
    · rintro ⟨r, hr, hid, hstatus⟩
      obtain ⟨hmem, hthread⟩ := List.mem_filter.mp hr
      exact ⟨r, hmem, Prod.ext (of_decide_eq_true hthread) hid, hstatus⟩
  rw [runs, runs, h]

/-! ## Statements -/

theorem Inserted.turns {w : TimelineItemWrite} {i : TimelineItem} (h : Inserted t w s i s') :
    s'.turns = s.turns := by
  cases h with
  | intro thread items hthread hitems hrow hclient => rfl

theorem Attached.tables {text userItemId : String} {attachments : List PromptAttachment}
    (h : Attached text attachments userItemId s s') :
    s'.timelineItems = s.timelineItems ∧ s'.turns = s.turns := by
  cases h with
  | none => exact ⟨rfl, rfl⟩
  | some => exact ⟨rfl, rfl⟩

/-- Whether a truncation deletes a row. -/
def isCut (t : String) (sequence : Nat) (i : TimelineItem) : Bool :=
  i.threadId = t && sequence ≤ i.sequence

theorem mem_deleteFrom_turns {n : Nat} {r : TurnRecord} :
    r ∈ (deleteFrom t n s).turns.rows ↔ r ∈ s.turns.rows ∧
      (r.threadId = t → ∀ i ∈ s.timelineItems.rows, isCut t n i = true →
        r.userItemId ≠ some i.id) := by
  refine Rows.mem_delete.trans (and_congr_right fun _ => ?_)
  simp only [Rows.any, isCut, Bool.and_eq_false_imp, decide_eq_true_eq, List.any_eq_false,
    Bool.and_eq_true, not_and, and_imp, ne_eq]

section Update

variable {p : TurnRecord → Bool} {f : TurnRecord → TurnRecord}

theorem runs_update_iff (h : s'.turns.rows = s.turns.rows.map (Rows.edit p f))
    (hf : ∀ r, (f r).key = r.key) :
    Runs s' t T ↔
      ∃ r ∈ s.turns.rows, r.key = (t, T) ∧ (Rows.edit p f r).status = .running := by
  constructor
  · rintro ⟨r, hr, hkey, hrunning⟩
    rw [h] at hr
    obtain ⟨a, ha, rfl⟩ := List.mem_map.mp hr
    rw [Rows.edit_keeps hf] at hkey
    exact ⟨a, ha, hkey, hrunning⟩
  · rintro ⟨a, ha, hkey, hrunning⟩
    have hmem : Rows.edit p f a ∈ s'.turns.rows := by
      rw [h]
      exact List.mem_map_of_mem ha
    exact ⟨Rows.edit p f a, hmem, by rw [Rows.edit_keeps hf, hkey], hrunning⟩

/-- A change of turns that leaves their status. -/
theorem runs_update (h : s'.turns.rows = s.turns.rows.map (Rows.edit p f))
    (hf : ∀ r, (f r).key = r.key) (hstatus : ∀ r, (f r).status = r.status) : Runs s' t T ↔ Runs s t T := by
  rw [runs_update_iff h hf]
  unfold Runs
  simp only [Rows.edit_keeps hstatus]

/-- A turn whose row is written with a status. -/
theorem runs_setStatus (status : TurnStatus) {T' : String}
    (h : s'.turns.rows = s.turns.rows.map (Rows.edit (fun r => r.key = (t, T')) f))
    (hf : ∀ r, (f r).key = r.key) (hstatus : ∀ r, (f r).status = status) :
    Runs s' t T ↔
      if T = T' then status = .running ∧ ∃ r ∈ s.turns.rows, r.key = (t, T') else Runs s t T := by
  rw [runs_update_iff h hf]
  by_cases hT : T = T'
  · subst hT
    rw [if_pos rfl]
    have written : ∀ r : TurnRecord, r.key = (t, T) →
        (Rows.edit (fun r => decide (r.key = (t, T))) f r).status = status := by
      intro r hkey
      have hedit : Rows.edit (fun r => decide (r.key = (t, T))) f r = f r :=
        Rows.edit_pos (decide_eq_true hkey)
      rw [hedit, hstatus]
    constructor
    · rintro ⟨r, hr, hkey, hrunning⟩
      exact ⟨(written r hkey).symm.trans hrunning, r, hr, hkey⟩
    · rintro ⟨hrunning, r, hr, hkey⟩
      exact ⟨r, hr, hkey, (written r hkey).trans hrunning⟩
  · rw [if_neg hT]
    refine exists_congr fun r => and_congr_right fun _ => and_congr_right fun hkey => ?_
    have hedit : Rows.edit (fun r => decide (r.key = (t, T'))) f r = r := by
      refine Rows.edit_neg (decide_eq_false ?_)
      rw [hkey]
      exact fun h => hT (congrArg Prod.snd h)
    rw [hedit]

end Update

theorem runs_insert {r : TurnRecord} {turns : Rows TurnRecord.key}
    (h : s.turns.insert? r = some turns) (hr : r.status = .running) :
    Runs { s with turns } t T ↔ r.key = (t, T) ∨ Runs s t T := by
  constructor
  · rintro ⟨a, ha, hkey, hrunning⟩
    obtain ha | rfl := (Rows.mem_insert? h).mp ha
    · exact .inr ⟨a, ha, hkey, hrunning⟩
    · exact .inl hkey
  · rintro (hkey | ⟨a, ha, hkey, hrunning⟩)
    · exact ⟨r, (Rows.mem_insert? h).mpr (.inr rfl), hkey, hr⟩
    · exact ⟨a, (Rows.mem_insert? h).mpr (.inl ha), hkey, hrunning⟩

theorem runs_startTurn (T' : String) :
    Runs (s.startTurn t T' now) t T ↔ T = T' ∨ Runs s t T := by
  unfold Database.startTurn
  split
  · rename_i turns hinsert
    refine (runs_insert hinsert rfl).trans (or_congr ?_ Iff.rfl)
    exact ⟨fun h => (congrArg Prod.snd h).symm, fun h => h ▸ rfl⟩
  · rename_i hnone
    have hturn : ∀ {s' : Database}, s'.turns.rows = s.turns.rows.map
        (Rows.edit (fun r => r.key = (t, T')) fun r => { r with status := .running }) →
        (Runs s' t T ↔
          if T = T' then TurnStatus.running = .running ∧ ∃ r ∈ s.turns.rows, r.key = (t, T')
          else Runs s t T) :=
      fun h => runs_setStatus .running h (fun _ => rfl) fun _ => rfl
    rw [hturn rfl]
    have hthere : ∃ r ∈ s.turns.rows, r.key = (t, T') := by
      by_contra hnot
      have hfresh : TurnRecord.key { threadId := t, id := T', status := .running, startedAt := now } ∉
          s.turns.rows.map TurnRecord.key := by
        intro hmem
        obtain ⟨r, hr, hkey⟩ := List.mem_map.mp hmem
        exact hnot ⟨r, hr, hkey⟩
      have := Rows.insert?_isSome hfresh
      rw [hnone] at this
      cases this
    by_cases hT : T = T'
    · simp [hT, hthere]
    · simp [hT]

theorem runs_finishTurn {T' : String} {status : TurnStatus} {error : Option String}
    {finished : String} (hstatus : status ≠ .running) :
    Runs (s.finishTurn t T' status error now finished) t T ↔ Runs s t T ∧ T' ≠ T := by
  have hturn : Runs (s.finishTurn t T' status error now finished) t T ↔
      if T = T' then status = .running ∧ ∃ r ∈ s.turns.rows, r.key = (t, T') else Runs s t T :=
    runs_setStatus status rfl (fun _ => rfl) fun _ => rfl
  rw [hturn]
  by_cases hT : T = T'
  · simp [hT, hstatus]
  · simp [hT, Ne.symm hT]

theorem Annotates.runs {N A : String → Prop} (h : Annotates t N A s s') :
    Runs s' t T ↔ Runs s t T := by
  cases h with
  | thread | row => exact Iff.rfl
  | newRow _ w i h => exact Runs.of_turns h.turns
  | counts T' input output => exact runs_update rfl (fun _ => rfl) fun _ => rfl

theorem Annotations.runs {N A : String → Prop} (h : Annotations t N A s s') :
    Runs s' t T ↔ Runs s t T := by
  induction h with
  | refl => exact Iff.rfl
  | tail _ hstep ih => exact hstep.runs.trans ih

/-! ## Events and batches -/

section Batches

variable {e : AppEvent} {c : Option String}

/-- An event that is a note starts no turn and ends none. -/
theorem passes_note (h : isNote e = true) : startedTurn e = none ∧ endedTurn e = none := by
  cases e with
  | errorRaised turnId message =>
    cases turnId with
    | none => exact ⟨rfl, rfl⟩
    | some turnId => cases h
  | promptAccepted | turnStarted | turnCompleted | turnCancelled => cases h
  | _ => exact ⟨rfl, rfl⟩

theorem passes_interaction {l : ThreadLifecycle} (h : interactionLifecycle e = some l) :
    startedTurn e = none ∧ endedTurn e = none := by
  cases e with
  | promptAccepted | turnStarted | turnCompleted | turnCancelled | errorRaised => cases h
  | _ => exact ⟨rfl, rfl⟩

theorem passes_delta {d : String × TimelineItemKind × String} (h : deltaOf e = some d) :
    startedTurn e = none ∧ endedTurn e = none := by
  cases e with
  | promptAccepted | turnStarted | turnCompleted | turnCancelled | errorRaised => cases h
  | _ => exact ⟨rfl, rfl⟩

theorem finishOf_status {status : TurnStatus} {error : Option String} {T' : String}
    (h : finishOf e = some (T', status, error)) :
    status ≠ .running ∧ startedTurn e = none ∧ endedTurn e = some T' := by
  have hend : endedTurn e = some T' := by
    unfold endedTurn
    rw [h]
    rfl
  refine ⟨?_, ?_, hend⟩ <;> cases e
  case refine_1.turnCompleted | refine_1.turnCancelled =>
    simp only [finishOf, Option.some.injEq, Prod.mk.injEq] at h
    rw [← h.2.1]
    nofun
  case refine_1.errorRaised turnId message =>
    cases turnId with
    | none => cases h
    | some turnId =>
      simp only [finishOf, Option.some.injEq, Prod.mk.injEq] at h
      rw [← h.2.1]
      nofun
  case refine_2.promptAccepted | refine_2.turnStarted => cases h
  all_goals first | rfl | cases h

/-- An event that starts no turn and ends none leaves the turns that run. -/
theorem runs_of_passes (h : startedTurn e = none ∧ endedTurn e = none)
    (hruns : Runs s' t T ↔ Runs s t T) :
    Runs s' t T ↔ startedTurn e = some T ∨ Runs s t T ∧ endedTurn e ≠ some T := by
  rw [hruns, h.1, h.2]
  simp

theorem runs_reportUsage (usage : RequestUsage) :
    Runs (s.reportUsage t usage now) t T ↔ Runs s t T := by
  refine Runs.of_turns ?_
  unfold Database.reportUsage
  dsimp only
  split <;> split <;> rfl

/-- **What an event does to the turns that run.** -/
theorem Persisted.runs (h : Persisted e t c now s s') :
    Runs s' t T ↔ startedTurn e = some T ∨ Runs s t T ∧ endedTurn e ≠ some T := by
  cases h with
  | notes _ he h => exact runs_of_passes (passes_note he) h.runs
  | interaction s₁ l he h => exact runs_of_passes (passes_interaction he) h.runs
  | created cwd origin profile he | resumed cwd origin profile he | configured settings he
  | profiled profile he | closed he | passed turnId he | verified turnId he =>
    subst he
    exact runs_of_passes ⟨rfl, rfl⟩ Iff.rfl
  | prompt s₁ s₂ s₃ turnId text attachments he i j hi hattached hj turns hturns =>
    subst he
    have hsame : Runs s₃ t T ↔ Runs s t T :=
      (Runs.of_turns hj.turns).trans
        ((Runs.of_turns hattached.tables.2).trans (Runs.of_turns hi.turns))
    have hinsert : Runs { s₃ with turns } t T ↔ (t, turnId.toString) = (t, T) ∨ Runs s₃ t T :=
      runs_insert hturns rfl
    refine hinsert.trans ?_
    rw [hsame]
    simp [startedTurn, endedTurn, finishOf]
  | started turnId he =>
    subst he
    have hstart : Runs ((s.startTurn t turnId.toString now).setLifecycle t .running) t T ↔
        T = turnId.toString ∨ Runs s t T := runs_startTurn turnId.toString
    refine hstart.trans ?_
    simp [startedTurn, endedTurn, finishOf, eq_comm]
  | delta s₁ T' kind text he i h =>
    refine runs_of_passes (passes_delta he) ?_
    cases h with
    | found => exact Iff.rfl
    | made _ _ hi => exact Runs.of_turns hi.turns
  | reported usage he =>
    subst he
    exact runs_of_passes ⟨rfl, rfl⟩ (runs_reportUsage usage)
  | finished _ T' status error he hrunning hthread finished h =>
    obtain ⟨hstatus, hstart, hend⟩ := finishOf_status he
    refine h.runs.trans ((runs_finishTurn hstatus).trans ?_)
    rw [hstart, hend]
    simp

/-- Whether a turn runs behind the events of a batch, where it ran before them or not. -/
def RunsAfter (T : String) : List AppEvent → Prop → Prop
  | [], R => R
  | e :: rest, R => RunsAfter T rest (startedTurn e = some T ∨ R ∧ endedTurn e ≠ some T)

theorem RunsAfter.congr {events : List AppEvent} {R R' : Prop} (h : R ↔ R') :
    RunsAfter T events R ↔ RunsAfter T events R' := by rw [propext h]

theorem Appended.runs {envelopes : List EventEnvelope} (h : Appended t c envelopes s s') :
    Runs s' t T ↔ RunsAfter T (envelopes.map (·.event)) (Runs s t T) := by
  induction h with
  | nil => exact Iff.rfl
  | cons c e rest s s₁ s₂ s' hevent htimes _ ih =>
    exact ih.trans (RunsAfter.congr (htimes.runs.trans hevent.runs))

/-- A thread is truncated where no turn of it runs, and none does afterwards. -/
theorem Truncated.runs {revision : PromptRevision} (h : Truncated t revision s s') :
    Runs s' t T ↔ Runs s t T := by
  cases h with
  | intro r i now hthread hrevision hrunning hstart =>
    have hnone := runningTurns_eq_nil.mp hrunning T
    refine iff_of_false ?_ hnone
    rintro ⟨r, hr, hkey, hstatus⟩
    exact hnone ⟨r, (mem_deleteFrom_turns.mp hr).1, hkey, hstatus⟩

/-- **What a batch does to the turns that run.** -/
theorem Batched.runs {envelopes : List EventEnvelope} {replacement : Option PromptRevision}
    (h : Batched t envelopes c replacement s s') :
    Runs s' t T ↔ RunsAfter T (envelopes.map (·.event)) (Runs s t T) := by
  cases h with
  | intro s₁ s₂ now preferences htruncate happend =>
    refine happend.runs.trans (RunsAfter.congr ?_)
    obtain ⟨-, rfl⟩ | ⟨r, -, -, hcut⟩ := htruncate
    · exact Iff.rfl
    · exact hcut.runs

theorem appendBatch_runs {env : Environment} {envelopes : List EventEnvelope}
    {clientItemId : Option String} {preferences : Option (String × ThinkingLevel)}
    {replacement : Option PromptRevision} {out : ThreadRevision × Option ProfilePreferences}
    (ht : ∀ e ∈ envelopes, e.sessionId.toString = t)
    (h : appendBatch env envelopes clientItemId preferences replacement s = (.ok out, s')) :
    Runs s' t T ↔ RunsAfter T (envelopes.map (·.event)) (Runs s t T) := by
  obtain ⟨first, hfirst, -, c, hbatch⟩ := appendBatch_ok h
  rw [ht first hfirst] at hbatch
  exact hbatch.runs

end Batches

/-! ## Operations beside a thread -/

/-- The operation neither starts nor ends a turn of the thread: it is on other threads, or it
writes no turns. -/
def Write.spares (t : String) : Write → Bool
  | .appendBatch envelopes _ _ _ => envelopes.all fun e => e.sessionId.toString ≠ t
  | .interruptIncompleteTurns _ => false
  | .deleteSessions ids => ids.all fun id => id ≠ t
  | _ => true

theorem Recounts.runs (h : Recounts s s') : Runs s' t T ↔ Runs s t T := by
  cases h with
  | aside hthreads hturns => exact Runs.of_turns hturns
  | count t p hp f hf hthreads hturns => exact Runs.of_turns hturns

theorem runs_settleStored (t' : String) (usage : RequestUsage) :
    Runs (settleStored t' s usage) t T ↔ Runs s t T := by
  refine Runs.of_turns ?_
  unfold settleStored
  split
  · rfl
  · split <;> rfl

theorem runs_settleAll (t' : String) (snapshots : List RequestUsage) :
    Runs (snapshots.foldl (settleStored t') s) t T ↔ Runs s t T := by
  induction snapshots generalizing s with
  | nil => exact Iff.rfl
  | cons usage rest ih => exact ih.trans (runs_settleStored t' usage)

theorem runs_deleteSessions {ids : List String} (h : ∀ id ∈ ids, id ≠ t) :
    Runs (deleteSessions ids s).2 t T ↔ Runs s t T := by
  induction ids generalizing s with
  | nil => exact Iff.rfl
  | cons id rest ih =>
    obtain ⟨hid, hrest⟩ := List.forall_mem_cons.mp h
    refine (ih hrest).trans ?_
    constructor
    · rintro ⟨r, hr, hkey, hstatus⟩
      exact ⟨r, (Rows.mem_delete.mp hr).1, hkey, hstatus⟩
    · rintro ⟨r, hr, hkey, hstatus⟩
      have hthread : r.threadId = t := congrArg Prod.fst hkey
      exact ⟨r, Rows.mem_delete.mpr ⟨hr, decide_eq_false (hthread ▸ hid.symm)⟩, hkey, hstatus⟩

/-- **An operation beside a thread** leaves the turns that run in it. -/
theorem Write.runs (env : Environment) {op : Write} (h : op.spares t = true) :
    Runs (op.run env s) t T ↔ Runs s t T := by
  have hwrote := op.wrote env s
  generalize op.run env s = s' at hwrote ⊢
  cases hwrote with
  | same => exact Iff.rfl
  | batch _ t' envelopes clientItemId c preferences replacement hop hne ht hbatch =>
    subst hop
    obtain ⟨e, he⟩ := List.exists_mem_of_ne_nil envelopes hne
    have hother : t' ≠ t := by
      rw [← ht e he]
      exact of_decide_eq_true (List.all_eq_true.mp h e he)
    exact Runs.of_turnsOf (hbatch.sameThread hother.symm).turns
  | metadata _ hrecounts =>
    induction hrecounts with
    | refl => exact Iff.rfl
    | tail _ hstep ih => exact hstep.runs.trans ih
  | recorded => exact Iff.rfl
  | reconciled t' snapshots => exact runs_settleAll t' snapshots
  | interrupted now hop =>
    subst hop
    cases h
  | deleted ids hop =>
    subst hop
    exact runs_deleteSessions fun id hid => of_decide_eq_true (List.all_eq_true.mp h id hid)

end AxiomDesktop.Store
