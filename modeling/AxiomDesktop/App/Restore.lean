import AxiomDesktop.App.SessionStep

/-!
# The kernel and restoration agree

`apply` and `record` on one side and `replay_event` on the other are two transition functions
over the same events. `SessionStep.replays` says that replaying the events of a step takes the
state before it to the state after it; `Kernel.restore_agrees` is the result for whole runs: the
journal of a session that the run opened is restored to the session's state, with the fields of
its turn reset. A journal holds only what the kernel emitted, so the result asks that the recorded
events of the session are interaction events or events that replay passes over
(`KernelCall.Journaled`).
-/

namespace AxiomDesktop

open Fallible

/-- Replay of a list of events. -/
def replayEvents (state : Option SessionState) (id : SessionId) (events : List AppEvent) :
    Except AxiomError (Option SessionState) :=
  events.foldlM (fun state e => replayEvent state id e) state

@[simp] theorem replayEvents_nil (state : Option SessionState) (id : SessionId) :
    replayEvents state id [] = .ok state := rfl

theorem replayEvents_cons (state : Option SessionState) (id : SessionId) (e : AppEvent)
    (events : List AppEvent) :
    replayEvents state id (e :: events) =
      (replayEvent state id e).bind fun state => replayEvents state id events := rfl

/-- Events that replay passes over change nothing. -/
theorem replayEvents_silent {events : List AppEvent} (h : ∀ e ∈ events, e.Silent)
    (state : Option SessionState) (id : SessionId) (rest : List AppEvent) :
    replayEvents state id (events ++ rest) = replayEvents state id rest := by
  induction events with
  | nil => rfl
  | cons e events ih =>
    rw [List.forall_mem_cons] at h
    rw [List.cons_append, replayEvents_cons, h.1 state id]
    exact ih h.2

/-- **One step.** Replaying the events of a step of the session gives its next state. -/
theorem SessionStep.replays {id : SessionId} {before : Option SessionState}
    {events : List AppEvent} {s' : SessionState} (h : SessionStep id before events s') :
    replayEvents before id events = .ok (some s') := by
  cases h with
  | created | resumed | configured | reprofiled | closed | permission | permitted => rfl
  | started s turnId events hready hfresh hsilent =>
    rw [replayEvents_silent hsilent]
    rfl
  | finished s turnId e hactive hflight hends => cases hends <;> rfl
  | asked s questionId e hrunning hasks => cases hasks <;> rfl
  | answered s e hwaiting hanswers => cases hanswers <;> rfl
  | reported s events hsilent =>
    rw [← List.append_nil events, replayEvents_silent hsilent]
    rfl

/-! ## The projection of a journal -/

namespace RestoreProjection

/-- The largest sequence number of a journal, or a number it starts from. -/
def maxFrom (n : UInt64) (events : List EventEnvelope) : UInt64 :=
  events.foldl (fun n e => max n e.sequence) n

/-- Replaying envelopes of one session replays their events. -/
theorem foldlM_replay {p : RestoreProjection} {envelopes : List EventEnvelope}
    {state : Option SessionState} (howner : ∀ e ∈ envelopes, e.sessionId = p.id)
    (h : replayEvents p.state p.id (envelopes.map (·.event)) = .ok state) :
    envelopes.foldlM replay p =
      .ok { p with state, maxSequence := maxFrom p.maxSequence envelopes } := by
  induction envelopes generalizing p with
  | nil =>
    cases h
    rfl
  | cons e envelopes ih =>
    rw [List.forall_mem_cons] at howner
    rw [List.map_cons, replayEvents_cons] at h
    rcases hfirst : replayEvent p.state p.id e.event with error | next
    · rw [hfirst] at h
      contradiction
    · rw [hfirst] at h
      have hreplay : p.replay e =
          .ok { p with state := next, maxSequence := max p.maxSequence e.sequence } := by
        simp only [replay, howner.1, ne_eq, not_true_eq_false, if_false, hfirst]
        rfl
      rw [List.foldlM_cons, hreplay]
      exact ih (p := { p with state := next, maxSequence := max p.maxSequence e.sequence })
        howner.2 h

theorem replay_id {p p' : RestoreProjection} {e : EventEnvelope} (h : p.replay e = .ok p') :
    p'.id = p.id := by
  unfold replay at h
  split at h
  · contradiction
  · rcases hreplay : replayEvent p.state p.id e.event with error | next <;> rw [hreplay] at h
    · contradiction
    · cases h
      rfl

theorem foldlM_replay_id {p p' : RestoreProjection} {envelopes : List EventEnvelope}
    (h : envelopes.foldlM replay p = .ok p') : p'.id = p.id := by
  induction envelopes generalizing p with
  | nil =>
    cases h
    rfl
  | cons e envelopes ih =>
    rw [List.foldlM_cons] at h
    rcases hreplay : p.replay e with error | q <;> rw [hreplay] at h
    · contradiction
    · exact (ih h).trans (replay_id hreplay)

/-- A restoration is of the session that the journal's first envelope names. -/
theorem project_id {events : List EventEnvelope} {restored : CompletedRestore}
    (h : project events = .ok restored) : ∃ e ∈ events.head?, e.sessionId = restored.id := by
  cases events with
  | nil => contradiction
  | cons first rest =>
    change ((first :: rest).foldlM replay _ >>= finish) = _ at h
    rcases hfold : (first :: rest).foldlM replay ⟨first.sessionId, none, 0⟩ with error | p <;>
      rw [hfold] at h
    · contradiction
    · have hid := foldlM_replay_id hfold
      change p.finish = _ at h
      unfold finish at h
      split at h
      · contradiction
      · cases h
        exact ⟨first, rfl, hid.symm⟩

end RestoreProjection

/-! ## Runs -/

/-- The call writes to the journal of the session only what the kernel emits for a command, an
interaction or an event that replay passes over, and does not restore the session. -/
def KernelCall.Journaled (id : SessionId) : KernelCall → Prop
  | .apply _ => True
  | .record sessionId _ _ e => sessionId = id → e.isInteraction = true ∨ e.Silent
  | .restoreFromEvents events => ∀ e ∈ events.head?, e.sessionId ≠ id

/-- The envelopes of one session. -/
def journal (id : SessionId) (envelopes : List EventEnvelope) : List EventEnvelope :=
  envelopes.filter fun e => e.sessionId = id

theorem journal_append (id : SessionId) (es fs : List EventEnvelope) :
    journal id (es ++ fs) = journal id es ++ journal id fs :=
  List.filter_append es fs

theorem journal_own {id : SessionId} {envelopes : List EventEnvelope}
    (h : ∀ e ∈ envelopes, e.sessionId = id) : journal id envelopes = envelopes :=
  List.filter_eq_self.mpr fun e he => decide_eq_true (h e he)

theorem journal_other {id other : SessionId} (hne : other ≠ id) {envelopes : List EventEnvelope}
    (h : ∀ e ∈ envelopes, e.sessionId = other) : journal id envelopes = [] :=
  List.filter_eq_nil_iff.mpr fun e he heq => hne ((h e he).symm.trans (of_decide_eq_true heq))

namespace Kernel

/-- What one call does to the session with an id: one step, whose events are what the call adds
to the session's journal, or nothing. -/
theorem step_session {id : SessionId} {k : Kernel} {call : KernelCall}
    (hcall : call.Journaled id) :
    (∃ s' events, SessionStep id (k.sessions id) events s' ∧
        (machine.step k call).1.sessions id = some s' ∧
        (journal id (machine.step k call).2).map (·.event) = events) ∨
      (machine.step k call).1.sessions id = k.sessions id ∧
        journal id (machine.step k call).2 = [] := by
  rcases step_cases k call with h | ⟨request, rfl, h⟩ | ⟨sid, _, _, e, recorded, rfl, h, hout⟩ |
    ⟨events, s, rfl, h, hout⟩
  · rw [h]
    exact .inr ⟨rfl, rfl⟩
  · obtain ⟨s', events, hstep, hemit⟩ := apply_ok h
    by_cases hid : request.command.sessionId = id
    · subst hid
      refine .inl ⟨s', events, hstep, ?_, ?_⟩
      · rw [hemit.sessions]
        exact Function.update_self ..
      · rw [journal_own hemit.owner, hemit.events]
    · refine .inr ⟨?_, journal_other hid hemit.owner⟩
      rw [hemit.sessions]
      exact Function.update_of_ne (Ne.symm hid) ..
  · obtain ⟨s, s', hs, hstep, hemit⟩ := record_ok h
    rw [hout]
    by_cases hid : sid = id
    · subst hid
      have hstep : SessionStep sid (k.sessions sid) [e] s' := by
        rw [hs]
        rcases hstep with hstep | ⟨hother, rfl⟩
        · exact hstep
        · rcases hcall rfl with hinter | hsilent
          · rw [hother] at hinter
            contradiction
          · exact .reported _ _ (by simpa using hsilent)
      refine .inl ⟨s', [e], hstep, ?_, ?_⟩
      · rw [hemit.sessions]
        exact Function.update_self ..
      · rw [journal_own hemit.owner, hemit.events]
    · refine .inr ⟨?_, journal_other hid hemit.owner⟩
      rw [hemit.sessions]
      exact Function.update_of_ne (Ne.symm hid) ..
  · obtain ⟨restored, hproject, _, hk'⟩ := restoreFromEvents_ok h
    obtain ⟨first, hfirst, howner⟩ := RestoreProjection.project_id hproject
    refine .inr ⟨?_, by rw [hout]; rfl⟩
    rw [hk']
    exact Function.update_of_ne (fun heq => hcall first hfirst (howner.trans heq.symm)) ..

/-- The journal that a run wrote for a session it opened replays to the session's state. -/
def Replays (id : SessionId) (envelopes : List EventEnvelope) (state : Option SessionState) :
    Prop :=
  replayEvents none id ((journal id envelopes).map (·.event)) = .ok state

theorem replayEvents_append {state mid : Option SessionState} {id : SessionId}
    {es fs : List AppEvent} (h : replayEvents state id es = .ok mid) :
    replayEvents state id (es ++ fs) = replayEvents mid id fs := by
  unfold replayEvents at h ⊢
  rw [List.foldlM_append, h]
  rfl

theorem run_replays {k : Kernel} {id : SessionId} (hnew : k.sessions id = none)
    {calls : List KernelCall} (hcalls : ∀ call ∈ calls, call.Journaled id) :
    Replays id (machine.run k calls).2 ((machine.run k calls).1.sessions id) := by
  refine machine.run_induction (C := fun _ call => call.Journaled id)
    (motive := fun _ emitted k' => Replays id emitted (k'.sessions id)) (by rw [hnew]; rfl) ?_ calls
    (machine.meets_of_forall (fun call hcall _ => hcalls call hcall) k)
  intro _ emitted k' call ih hcall
  unfold Replays at ih ⊢
  rw [journal_append, List.map_append, replayEvents_append ih]
  rcases step_session hcall with ⟨s', events, hstep, hs', hevents⟩ | ⟨hsame, hnone⟩
  · rw [hs', hevents]
    exact hstep.replays
  · rw [hsame, hnone]
    rfl

/-- **Kernel and restore agree.** For every run of calls that keep the journal of a session which
was not loaded before, the journal the run emitted for it is restored to the session's live
state, with only the fields of its turn reset. -/
theorem restore_agrees (k : Kernel) (id : SessionId) (hnew : k.sessions id = none)
    (calls : List KernelCall) (hcalls : ∀ call ∈ calls, call.Journaled id) (s : SessionState)
    (hs : (machine.run k calls).1.sessions id = some s) :
    RestoreProjection.project (journal id (machine.run k calls).2) =
      .ok
        { id
          state :=
            { s with
              lifecycle := .ready
              activeTurn := none
              pendingPermission := none
              pendingQuestion := none }
          maxSequence := RestoreProjection.maxFrom 0 (journal id (machine.run k calls).2) } := by
  have hreplays := run_replays hnew hcalls
  rw [hs] at hreplays
  unfold Replays at hreplays
  have howner : ∀ e ∈ journal id (machine.run k calls).2, e.sessionId = id :=
    fun e he => of_decide_eq_true (List.mem_filter.mp he).2
  generalize journal id (machine.run k calls).2 = events at hreplays howner ⊢
  cases events with
  | nil => cases hreplays
  | cons first rest =>
    have hfirst : first.sessionId = id := howner first (List.mem_cons_self ..)
    have hfold := RestoreProjection.foldlM_replay (p := ⟨id, none, 0⟩) howner hreplays
    show ((first :: rest).foldlM RestoreProjection.replay ⟨first.sessionId, none, 0⟩ >>=
      RestoreProjection.finish) = _
    rw [hfirst, hfold]
    rfl

/-- The journal of a session that was created, configured and asked a question. -/
theorem restore_agrees_question :
    RestoreProjection.project (journal ⟨1⟩ (machine.run (withServices fun _ => ⟨"", "", ""⟩)
      [.apply ⟨⟨0⟩, .test, false, .createSession ⟨1⟩ "/w" .test .confirm⟩,
       .apply ⟨⟨0⟩, .test, false, .changePermissionProfile ⟨1⟩ .observe⟩,
       .apply ⟨⟨0⟩, .test, false, .submitPrompt ⟨1⟩ ⟨2⟩ "hi" []⟩,
       .record ⟨1⟩ ⟨0⟩ .test (.questionAsked "q" "why" [])]).2) =
      .ok ⟨⟨1⟩, ⟨⟨1⟩, "/w", .test, .observe, .ready, none, ∅, none, none⟩, 6⟩ :=
  restore_agrees (withServices fun _ => ⟨"", "", ""⟩) ⟨1⟩ rfl _
    (by simp [KernelCall.Journaled, AppEvent.isInteraction])
    ⟨⟨1⟩, "/w", .test, .observe, .waitingForAnswer, some ⟨2⟩, ∅, none, some "q"⟩ (by decide)

end Kernel

end AxiomDesktop
