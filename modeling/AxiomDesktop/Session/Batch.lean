import AxiomDesktop.Session.Cases

/-!
# A committed batch

`appendBatch_ok`: a batch that was committed truncated its thread if it revises a prompt, persisted
its events one after the other (`Appended`), and counted one more revision of the thread. A batch
that fails leaves the tables (`appendBatch_error`).
-/

namespace AxiomDesktop.Store

open Fallible

variable {t : String} {tx tx' : Transaction}

/-! ## Truncation -/

/-- The tables after a truncation, its clock reading given. -/
def Database.truncate (s : Database) (t : String) (sequence : Nat) (now : String) : Database :=
  (deleteFrom t sequence s).setThread t
    (fun r => { r with revision := r.revision + 1, lastReportedUsage := none, updatedAt := now })
    fun _ => rfl

/-- A thread was cut before the message that started a turn. -/
inductive Truncated (t : String) (revision : PromptRevision) (s : Database) : Database → Prop where
  | intro (r : StoredThread) (i : TimelineItem) (now : String) (hthread : s.threads.get? t = some r)
      (hrevision : r.revision = revision.expectedRevision) (hrunning : s.runningTurns t = [])
      (hstart : turnStart? s t revision.userItemId = some i) :
      Truncated t revision s (s.truncate t i.sequence now)

theorem threadRevision_ok {s : Database} {r : ThreadRevision} (h : s.threadRevision t = .ok r) :
    ∃ thread, s.threads.get? t = some thread ∧ r.revision = thread.revision ∧
      r.lastTimelineSequence = thread.nextTimelineSequence := by
  unfold Database.threadRevision at h
  split at h
  · rename_i thread hthread
    cases h
    exact ⟨thread, hthread, rfl, rfl⟩
  · cases h

theorem truncateForRevision_ok {revision : PromptRevision} {u : PUnit}
    (h : (truncateForRevision t revision).exec tx = (.ok u, tx')) :
    Truncated t revision tx.db tx'.db := by
  rw [truncateForRevision, exec_tables_bind, exec_bind_ok] at h
  obtain ⟨current, _, hread, h⟩ := h
  obtain ⟨hcurrent, rfl⟩ := exec_ofResult_ok.mp hread
  obtain ⟨thread, hthread, hrevision, -⟩ := threadRevision_ok hcurrent
  obtain ⟨_, _, hcheck, h⟩ := exec_bind_ok.mp h
  obtain ⟨hexpected, rfl⟩ := exec_failIf_ok.mp hcheck
  obtain ⟨_, _, hcheck, h⟩ := exec_bind_ok.mp h
  obtain ⟨hrunning, rfl⟩ := exec_failIf_ok.mp hcheck
  obtain ⟨i, _, hget, h⟩ := exec_bind_ok.mp h
  obtain ⟨hstart, rfl⟩ := exec_okOr_ok.mp hget
  rw [exec_modifyTables_bind, exec_utcNow_bind] at h
  rw [updateThread_ok h]
  refine .intro thread i _ hthread ?_ (by simpa using hrunning) hstart
  rw [← hrevision]
  simpa using hexpected

/-! ## The loop -/

/-- The events of a batch were persisted one after the other, each followed by the times of the
last messages. -/
inductive Appended (t : String) :
    Option String → List EventEnvelope → Database → Database → Prop where
  | nil (c : Option String) (s : Database) : Appended t c [] s s
  | cons (c : Option String) (e : EventEnvelope) (rest : List EventEnvelope)
      (s s₁ s₂ s' : Database)
      (hevent : Persisted e.event t c e.occurredAt.rfc3339 s s₁)
      (htimes : Annotations t (fun _ => False) (fun _ => False) s₁ s₂)
      (hrest : Appended t (if isPrompt e.event then none else c) rest s₂ s') :
      Appended t c (e :: rest) s s'

/-- One round of the loop persists its event, and then writes the times of the last messages, which
are columns of the thread. -/
theorem persistEnvelope_run {e : EventEnvelope} {c c' : Option String}
    (h : (persistEnvelope t c e).exec tx = (.ok c', tx')) :
    c' = (if isPrompt e.event then none else c) ∧
    ∃ tx₁ : Transaction, (persistEvent e c).exec tx = (.ok ⟨⟩, tx₁) ∧
      tx'.db.timelineItems = tx₁.db.timelineItems ∧ tx'.db.requestUsage = tx₁.db.requestUsage ∧
      Annotations t (fun _ => False) (fun _ => False) tx₁.db tx'.db := by
  unfold persistEnvelope at h
  obtain ⟨_, tx₁, hevent, hrest⟩ := exec_bind_ok.mp h
  have user : ∀ tx₂ : Transaction,
      (do
        if hasUserMessage e.event then
          updateThread t fun r =>
            { r with lastUserMessageAt := laterTime r.lastUserMessageAt e.occurredAt.rfc3339Millis }
        pure (if isPrompt e.event then none else c) : StoreM (Option String)).exec tx₂ =
          (.ok c', tx') →
      c' = (if isPrompt e.event then none else c) ∧
        tx'.db.timelineItems = tx₂.db.timelineItems ∧ tx'.db.requestUsage = tx₂.db.requestUsage ∧
        Annotations t (fun _ => False) (fun _ => False) tx₂.db tx'.db := by
    intro tx₂ h
    by_cases huser : hasUserMessage e.event = true
    · rw [if_pos huser] at h
      unfold updateThread at h
      rw [exec_modifyTables_bind, exec_pure] at h
      obtain ⟨hc, rfl⟩ := Prod.mk.inj h
      refine ⟨(Except.ok.inj hc).symm, rfl, rfl, (Annotates.thread _ _ ?_).single⟩
      exact fun _ => ⟨rfl, rfl, rfl, rfl, rfl, rfl, rfl, rfl, rfl⟩
    · rw [if_neg huser, exec_pure] at h
      obtain ⟨hc, rfl⟩ := Prod.mk.inj h
      exact ⟨(Except.ok.inj hc).symm, rfl, rfl, .refl _⟩
  by_cases hmessage : hasMessage e.event = true
  · rw [if_pos hmessage] at hrest
    unfold updateThread at hrest
    rw [exec_modifyTables_bind] at hrest
    obtain ⟨hc, hitems, husage, hnotes⟩ := user _ hrest
    refine ⟨hc, tx₁, hevent, hitems, husage,
      Annotations.trans (Annotates.thread _ _ ?_).single hnotes⟩
    exact fun _ => ⟨rfl, rfl, rfl, rfl, rfl, rfl, rfl, rfl, rfl⟩
  · rw [if_neg hmessage] at hrest
    obtain ⟨hc, hitems, husage, hnotes⟩ := user _ hrest
    exact ⟨hc, tx₁, hevent, hitems, husage, hnotes⟩

theorem persistEnvelope_ok {e : EventEnvelope} {c c' : Option String}
    (he : e.sessionId.toString = t) (h : (persistEnvelope t c e).exec tx = (.ok c', tx')) :
    c' = (if isPrompt e.event then none else c) ∧
    ∃ s₁, Persisted e.event t c e.occurredAt.rfc3339 tx.db s₁ ∧
      Annotations t (fun _ => False) (fun _ => False) s₁ tx'.db := by
  subst he
  obtain ⟨hc, tx₁, hevent, -, -, hnotes⟩ := persistEnvelope_run h
  exact ⟨hc, tx₁.db, persistEvent_ok hevent, hnotes⟩

theorem persistEnvelopes_ok {envelopes : List EventEnvelope} {c : Option String} {u : PUnit}
    (he : ∀ e ∈ envelopes, e.sessionId.toString = t)
    (h : (persistEnvelopes t c envelopes).exec tx = (.ok u, tx')) :
    Appended t c envelopes tx.db tx'.db := by
  induction envelopes generalizing c tx with
  | nil =>
    rw [persistEnvelopes, exec_pure] at h
    obtain ⟨-, rfl⟩ := Prod.mk.inj h
    exact .nil c _
  | cons e rest ih =>
    rw [persistEnvelopes, exec_bind_ok] at h
    obtain ⟨c', tx₁, hfirst, hrest⟩ := h
    obtain ⟨rfl, s₁, hevent, htimes⟩ := persistEnvelope_ok (he e List.mem_cons_self) hfirst
    exact .cons c e rest _ s₁ tx₁.db _ hevent htimes
      (ih (fun e' he' => he e' (List.mem_cons_of_mem e he')) hrest)

/-! ## The batch -/

/-- What a committed batch of a thread did. -/
inductive Batched (t : String) (envelopes : List EventEnvelope) (c : Option String)
    (replacement : Option PromptRevision) (s : Database) : Database → Prop where
  | intro (s₁ s₂ : Database) (now : String) (preferences : ProfilePreferences)
      (htruncate : replacement = none ∧ s₁ = s ∨
        ∃ r, replacement = some r ∧ (∃ e ∈ envelopes, isPrompt e.event = true) ∧ Truncated t r s s₁)
      (happend : Appended t c envelopes s₁ s₂) (hthread : s₂.hasThread t = true) :
      Batched t envelopes c replacement s
        { s₂.setThread t (fun r => { r with revision := r.revision + 1, updatedAt := now })
            fun _ => rfl with
          preferences }

theorem checkBatch_ok {envelopes : List EventEnvelope} {c c' : Option String}
    {preferences preferences' : Option (String × ThinkingLevel)} {first : EventEnvelope}
    (h : checkBatch envelopes c preferences = .ok (first, c', preferences')) :
    first ∈ envelopes ∧ ∀ e ∈ envelopes, e.sessionId = first.sessionId := by
  unfold checkBatch at h
  cases envelopes with
  | nil => cases h
  | cons e rest =>
    dsimp only at h
    split at h
    · cases h
    · rename_i hsame
      obtain ⟨c₁, -, h⟩ := result_bind_ok h
      obtain ⟨p₁, -, h⟩ := result_bind_ok h
      split at h
      · cases h
      · cases h
        simp only [List.any_eq_true, decide_eq_true_eq, not_exists, not_and, not_not] at hsame
        exact ⟨List.mem_cons_self, List.forall_mem_cons.mpr ⟨rfl, hsame⟩⟩

/-- The truncation a batch starts with. -/
def cut (threadId : String) : Option PromptRevision → StoreM PUnit
  | some replacement => truncateForRevision threadId replacement
  | none => pure ⟨⟩

/-- A batch without a truncation that succeeded ran its loop, and counted the revision. -/
theorem batch_none_run {first : EventEnvelope} {envelopes : List EventEnvelope} {c : Option String}
    {preferences : Option (String × ThinkingLevel)}
    {out : ThreadRevision × Option ProfilePreferences}
    (h : (batch first envelopes c preferences none).exec tx = (.ok out, tx')) :
    ∃ tx₂, (persistEnvelopes first.sessionId.toString c envelopes).exec tx = (.ok ⟨⟩, tx₂) ∧
      tx₂.db.hasThread first.sessionId.toString = true ∧
      ∃ (now : String) (preferences : ProfilePreferences),
        tx'.db =
          { tx₂.db.setThread first.sessionId.toString
              (fun r => { r with revision := r.revision + 1, updatedAt := now }) fun _ => rfl with
            preferences } := by
  unfold batch at h
  obtain ⟨_, tx₂, happend, hensure⟩ := exec_bind_ok.mp h
  obtain ⟨_, tx₃, hensure, hbump⟩ := exec_bind_ok.mp hensure
  obtain ⟨hthread, rfl⟩ := ensureThread_ok hensure
  unfold updateThread at hbump
  rw [exec_modifyTables_bind] at hbump
  cases preferences with
  | none =>
    dsimp only at hbump
    rw [exec_tables_bind, exec_bind_ok] at hbump
    obtain ⟨revision, _, hread, hpure⟩ := hbump
    obtain ⟨-, rfl⟩ := exec_ofResult_ok.mp hread
    rw [exec_pure] at hpure
    obtain ⟨-, rfl⟩ := Prod.mk.inj hpure
    exact ⟨_, happend, hthread, _, _, rfl⟩
  | some p =>
    obtain ⟨model, thinking⟩ := p
    dsimp only at hbump
    rw [exec_modifyTables_bind, exec_tables_bind, exec_bind_ok] at hbump
    obtain ⟨revision, _, hread, hpure⟩ := hbump
    obtain ⟨-, rfl⟩ := exec_ofResult_ok.mp hread
    rw [exec_pure] at hpure
    obtain ⟨-, rfl⟩ := Prod.mk.inj hpure
    exact ⟨_, happend, hthread, _, _, rfl⟩

/-- A batch that succeeded ran its truncation and its loop, and counted the revision. -/
theorem batch_run {first : EventEnvelope} {envelopes : List EventEnvelope} {c : Option String}
    {preferences : Option (String × ThinkingLevel)} {replacement : Option PromptRevision}
    {out : ThreadRevision × Option ProfilePreferences}
    (h : (batch first envelopes c preferences replacement).exec tx = (.ok out, tx')) :
    (replacement ≠ none → ∃ e ∈ envelopes, isPrompt e.event = true) ∧
    ∃ tx₁ tx₂, (cut first.sessionId.toString replacement).exec tx = (.ok ⟨⟩, tx₁) ∧
      (persistEnvelopes first.sessionId.toString c envelopes).exec tx₁ = (.ok ⟨⟩, tx₂) ∧
      tx₂.db.hasThread first.sessionId.toString = true ∧
      ∃ (now : String) (preferences : ProfilePreferences),
        tx'.db =
          { tx₂.db.setThread first.sessionId.toString
              (fun r => { r with revision := r.revision + 1, updatedAt := now }) fun _ => rfl with
            preferences } := by
  unfold batch at h
  cases replacement with
  | none =>
    refine ⟨fun hne => absurd rfl hne, tx, ?_⟩
    obtain ⟨tx₂, happend, hthread, hdb⟩ := batch_none_run h
    exact ⟨tx₂, rfl, happend, hthread, hdb⟩
  | some r =>
    dsimp only at h
    obtain ⟨_, _, hcheck, hcut⟩ := exec_bind_ok.mp h
    obtain ⟨hprompt, rfl⟩ := exec_failIf_ok.mp hcheck
    obtain ⟨_, tx₁, htruncate, hrest⟩ := exec_bind_ok.mp hcut
    obtain ⟨tx₂, happend, hthread, hdb⟩ := batch_none_run hrest
    exact ⟨fun _ => by simpa using hprompt, tx₁, tx₂, htruncate, happend, hthread, hdb⟩

theorem cut_ok {replacement : Option PromptRevision} {u : PUnit}
    (h : (cut t replacement).exec tx = (.ok u, tx')) :
    replacement = none ∧ tx' = tx ∨
      ∃ r, replacement = some r ∧ Truncated t r tx.db tx'.db := by
  cases replacement with
  | none =>
    obtain ⟨-, rfl⟩ := Prod.mk.inj h
    exact .inl ⟨rfl, rfl⟩
  | some r => exact .inr ⟨r, rfl, truncateForRevision_ok h⟩

theorem batch_ok {first : EventEnvelope} {envelopes : List EventEnvelope} {c : Option String}
    {preferences : Option (String × ThinkingLevel)} {replacement : Option PromptRevision}
    {out : ThreadRevision × Option ProfilePreferences}
    (he : ∀ e ∈ envelopes, e.sessionId = first.sessionId)
    (h : (batch first envelopes c preferences replacement).exec tx = (.ok out, tx')) :
    Batched first.sessionId.toString envelopes c replacement tx.db tx'.db := by
  obtain ⟨hprompt, tx₁, tx₂, hcut, happend, hthread, now, preferences', hdb⟩ := batch_run h
  rw [hdb]
  refine .intro tx₁.db tx₂.db now preferences' ?_ ?_ hthread
  · obtain ⟨hnone, rfl⟩ | ⟨r, hr, htruncated⟩ := cut_ok hcut
    · exact .inl ⟨hnone, rfl⟩
    · exact .inr ⟨r, hr, hprompt (by rw [hr]; nofun), htruncated⟩
  · exact persistEnvelopes_ok (fun e hmem => by rw [he e hmem]) happend

/-- **A committed batch** of events is of one thread, and did what `Batched` says. -/
theorem appendBatch_ok {env : Environment} {envelopes : List EventEnvelope} {c : Option String}
    {preferences : Option (String × ThinkingLevel)} {replacement : Option PromptRevision}
    {s s' : Database} {out : ThreadRevision × Option ProfilePreferences}
    (h : appendBatch env envelopes c preferences replacement s = (.ok out, s')) :
    ∃ first ∈ envelopes, (∀ e ∈ envelopes, e.sessionId = first.sessionId) ∧
      ∃ c', Batched first.sessionId.toString envelopes c' replacement s s' := by
  unfold appendBatch at h
  split at h
  · cases (Prod.mk.inj h).1
  · rename_i first c' preferences' hcheck
    obtain ⟨hfirst, hsame⟩ := checkBatch_ok hcheck
    obtain ⟨tx', hbatch, rfl⟩ := transaction_ok h
    exact ⟨first, hfirst, hsame, c', batch_ok hsame hbatch⟩

/-- A batch that fails leaves the tables. -/
theorem appendBatch_error {env : Environment} {envelopes : List EventEnvelope} {c : Option String}
    {preferences : Option (String × ThinkingLevel)} {replacement : Option PromptRevision}
    {s s' : Database} {e : AxiomError}
    (h : appendBatch env envelopes c preferences replacement s = (.error e, s')) : s' = s := by
  unfold appendBatch at h
  split at h
  · exact (Prod.mk.inj h).2.symm
  · exact transaction_error h

end AxiomDesktop.Store
