import AxiomDesktop.App.Kernel
import AxiomDesktop.Lib.Machine

/-!
# What one kernel call does to one session

`SessionStep` lists the steps a session takes, each with the events that report it. The two
inversion theorems `Kernel.apply_ok` and `Kernel.record_ok` reduce a successful call to one of
these steps and to `Emitted`, which says what the call did to the rest of the kernel. Every
result about runs of the kernel is derived from them.

`Kernel.machine` is the kernel as a machine: its inputs are the calls, its outputs the envelopes
they emit.
-/

namespace AxiomDesktop

open Fallible

/-- The session after its active turn has ended. -/
def SessionState.finished (s : SessionState) (turnId : TurnId) : SessionState :=
  { s.resumed with terminalTurns := insert turnId s.terminalTurns }

/-- An event that replay passes over. -/
def AppEvent.Silent (e : AppEvent) : Prop :=
  ∀ (state : Option SessionState) (id : SessionId), replayEvent state id e = .ok state

/-- An interaction event: the kinds whose acceptance `Kernel::record` checks. -/
def AppEvent.isInteraction : AppEvent → Bool
  | .steeringApplied .. | .permissionRequired .. | .permissionResolved .. | .questionAsked ..
  | .questionsAsked .. | .questionAnswered .. | .questionsAnswered .. | .questionsFailed .. => true
  | _ => false

/-- The events that end a turn. -/
inductive AppEvent.Ends (turnId : TurnId) : AppEvent → Prop where
  | completed : Ends turnId (.turnCompleted turnId)
  | cancelled : Ends turnId (.turnCancelled turnId)
  | failed (message : String) : Ends turnId (.errorRaised (some turnId) message)

/-- The events that ask the user. -/
inductive AppEvent.Asks (questionId : String) : AppEvent → Prop where
  | one (prompt : String) (options : List String) :
    Asks questionId (.questionAsked questionId prompt options)
  | several (questions : List QuestionSpec) :
    Asks questionId (.questionsAsked ⟨questionId, questions⟩)

/-- The events that end a question. -/
inductive AppEvent.Answers : AppEvent → Prop where
  | one (questionId : String) (answers : List String) : Answers (.questionAnswered questionId answers)
  | several (requestId : String) (answers : List (String × List String)) :
    Answers (.questionsAnswered requestId answers)
  | failed (requestId reason : String) : Answers (.questionsFailed requestId reason)

/-- A step of the session with an id, from the state it is in (`none` before it is loaded), with
the events that report it, to its next state. -/
inductive SessionStep (id : SessionId) :
    Option SessionState → List AppEvent → SessionState → Prop where
  | created (cwd : PathBuf) (origin : Origin) (profile : PermissionProfile) :
    SessionStep id none [.sessionCreated cwd origin profile, .securityStatusChanged .unverified]
      (.opened id cwd origin profile)
  | resumed (cwd : PathBuf) (origin : Origin) (profile : PermissionProfile) :
    SessionStep id none [.sessionResumed cwd origin profile] (.opened id cwd origin profile)
  | started (s : SessionState) (turnId : TurnId) (events : List AppEvent) :
    s.lifecycle = .ready → turnId ∉ s.terminalTurns → (∀ e ∈ events, e.Silent) →
    SessionStep id (some s) (events ++ [.turnStarted turnId])
      { s with lifecycle := .running, activeTurn := some turnId }
  | finished (s : SessionState) (turnId : TurnId) (e : AppEvent) :
    s.activeTurn = some turnId → s.lifecycle.inFlight → e.Ends turnId →
    SessionStep id (some s) [e] (s.finished turnId)
  | configured (s : SessionState) (settings : DesktopAgentSettings) :
    s.lifecycle = .ready →
    SessionStep id (some s) [.desktopAgentConfigured settings]
      { s with cwd := settings.workingDirectory, profile := .forDesktopAgent settings }
  | reprofiled (s : SessionState) (profile : PermissionProfile) :
    s.lifecycle = .ready →
    SessionStep id (some s) [.permissionProfileChanged profile] { s with profile }
  | closed (s : SessionState) :
    s.lifecycle = .ready →
    SessionStep id (some s) [.sessionClosed] { s with lifecycle := .closed }
  | permission (s : SessionState) (requestId explanation : String) (effect : Json)
      (choices : List String) :
    s.lifecycle = .running →
    SessionStep id (some s) [.permissionRequired requestId explanation effect choices]
      { s with lifecycle := .waitingForApproval, pendingPermission := some requestId }
  | permitted (s : SessionState) (requestId : String) (allowed : Bool) (choice : Option String) :
    s.lifecycle = .waitingForApproval →
    SessionStep id (some s) [.permissionResolved requestId allowed choice]
      { s with lifecycle := .running, pendingPermission := none }
  | asked (s : SessionState) (questionId : String) (e : AppEvent) :
    s.lifecycle = .running → e.Asks questionId →
    SessionStep id (some s) [e]
      { s with lifecycle := .waitingForAnswer, pendingQuestion := some questionId }
  | answered (s : SessionState) (e : AppEvent) :
    s.lifecycle = .waitingForAnswer → e.Answers →
    SessionStep id (some s) [e] { s with lifecycle := .running, pendingQuestion := none }
  | reported (s : SessionState) (events : List AppEvent) :
    (∀ e ∈ events, e.Silent) → SessionStep id (some s) events s

namespace Kernel

/-- The numbers follow a counter one by one and leave it at the last of them. -/
def Follows : UInt64 → List UInt64 → UInt64 → Prop
  | n, [], m => m = n
  | n, x :: xs, m => x = n + 1 ∧ Follows (n + 1) xs m

/-- The kernel emitted the events for the session with an id and changed no session. -/
structure Emitted (k k' : Kernel) (id : SessionId) (events : List AppEvent)
    (envelopes : List EventEnvelope) : Prop where
  sessions : k'.sessions = k.sessions
  events : envelopes.map (·.event) = events
  owner : ∀ e ∈ envelopes, e.sessionId = id
  numbered : Follows k.nextSequence (envelopes.map (·.sequence)) k'.nextSequence

/-! ## Inversion of the methods -/

theorem exec_insert (id : SessionId) (session : SessionState) (k : Kernel) :
    (insert id session).exec k = (.ok ⟨⟩, k.withSession id session) := rfl

@[simp] theorem exec_insert_ok {id : SessionId} {session : SessionState} {k k' : Kernel}
    {u : PUnit} :
    (insert id session).exec k = (.ok u, k') ↔ k.withSession id session = k' := by
  simp [exec_insert]

@[simp] theorem sessionMut_ok {id : SessionId} {k k' : Kernel} {s : SessionState} :
    (sessionMut id).exec k = (.ok s, k') ↔ k.sessions id = some s ∧ k = k' := by
  simp [sessionMut, exec_bind]

@[simp] theorem invalidIf_ok {c : Prop} [Decidable c] {message : String} {k k' : Kernel}
    {u : PUnit} : (invalidIf c message).exec k = (.ok u, k') ↔ ¬c ∧ k = k' := by
  simp [invalidIf]

theorem finishActive_ok {id : SessionId} {turnId : TurnId} {k k' : Kernel} {u : PUnit}
    (h : (finishActive id turnId).exec k = (.ok u, k')) :
    ∃ s, k.sessions id = some s ∧ s.activeTurn = some turnId ∧ s.lifecycle.inFlight ∧
      k' = k.withSession id (s.finished turnId) := by
  simp only [finishActive, exec_bind_ok, sessionMut_ok, invalidIf_ok, exec_insert_ok, not_or,
    not_not, Bool.not_eq_false] at h
  obtain ⟨s, _, ⟨hs, rfl⟩, _, _, ⟨⟨hactive, hflight⟩, rfl⟩, rfl⟩ := h
  exact ⟨s, hs, hactive, hflight, rfl⟩

/-- A kernel that only lost sequence numbers is the kernel with the session it had. -/
theorem withSession_self {k : Kernel} {id : SessionId} {s : SessionState}
    (h : k.sessions id = some s) : k.withSession id s = k := by
  unfold withSession
  rw [← h, Function.update_eq_self]

/-- A command that succeeds takes its session one step. -/
theorem transition_ok {command : AppCommand} {k k' : Kernel} {events : List AppEvent}
    (h : (transition command).exec k = (.ok events, k')) :
    ∃ s', SessionStep command.sessionId (k.sessions command.sessionId) events s' ∧
      k' = k.withSession command.sessionId s' := by
  cases command <;>
    simp only [transition, exec_bind_ok, exec_get, exec_pure, sessionMut_ok, invalidIf_ok,
      exec_insert_ok, exec_ofResult_ok, not_or, not_not, Prod.mk.injEq, Except.ok.injEq,
      AppCommand.sessionId] at h ⊢
  case createSession id cwd origin profile =>
    obtain ⟨_, _, ⟨rfl, rfl⟩, _, _, ⟨hnew, rfl⟩, _, _, rfl, rfl, rfl⟩ := h
    rw [Option.not_isSome_iff_eq_none.mp hnew]
    exact ⟨_, .created cwd origin profile, rfl⟩
  case resumeSession id cwd origin profile =>
    obtain ⟨_, _, ⟨rfl, rfl⟩, _, _, ⟨hnew, rfl⟩, _, _, rfl, rfl, rfl⟩ := h
    rw [Option.not_isSome_iff_eq_none.mp hnew]
    exact ⟨_, .resumed cwd origin profile, rfl⟩
  case submitPrompt id turnId text attachments =>
    obtain ⟨_, _, ⟨_, rfl⟩, s, _, ⟨hs, rfl⟩, _, _, ⟨hready, rfl⟩, _, _, ⟨hfresh, rfl⟩, _, _, rfl,
      rfl, rfl⟩ := h
    rw [hs]
    exact ⟨_, .started s turnId [_] hready hfresh (by simp [AppEvent.Silent, replayEvent]), rfl⟩
  case startImageGeneration id turnId =>
    obtain ⟨s, _, ⟨hs, rfl⟩, _, _, ⟨⟨hready, hfresh⟩, rfl⟩, _, _, rfl, rfl, rfl⟩ := h
    rw [hs]
    exact ⟨_, .started s turnId [] hready hfresh (by simp), rfl⟩
  case cancelTurn id turnId =>
    obtain ⟨_, _, h, rfl, rfl⟩ := h
    obtain ⟨s, hs, hactive, hflight, rfl⟩ := finishActive_ok h
    rw [hs]
    exact ⟨_, .finished s turnId _ hactive hflight .cancelled, rfl⟩
  case finishTurn id turnId =>
    obtain ⟨_, _, h, rfl, rfl⟩ := h
    obtain ⟨s, hs, hactive, hflight, rfl⟩ := finishActive_ok h
    rw [hs]
    exact ⟨_, .finished s turnId _ hactive hflight .completed, rfl⟩
  case failTurn id turnId message =>
    obtain ⟨_, _, h, rfl, rfl⟩ := h
    obtain ⟨s, hs, hactive, hflight, rfl⟩ := finishActive_ok h
    rw [hs]
    exact ⟨_, .finished s turnId _ hactive hflight (.failed message), rfl⟩
  case configureDesktopAgent id settings =>
    obtain ⟨s, _, ⟨hs, rfl⟩, _, _, ⟨hready, rfl⟩, _, _, rfl, rfl, rfl⟩ := h
    rw [hs]
    exact ⟨_, .configured s settings hready, rfl⟩
  case changePermissionProfile id profile =>
    obtain ⟨s, _, ⟨hs, rfl⟩, _, _, ⟨hready, rfl⟩, _, _, rfl, rfl, rfl⟩ := h
    rw [hs]
    exact ⟨_, .reprofiled s profile hready, rfl⟩
  case changeModel id model =>
    obtain ⟨_, _, ⟨_, rfl⟩, s, _, ⟨hs, rfl⟩, _, _, ⟨_, rfl⟩, rfl, rfl⟩ := h
    rw [hs]
    exact ⟨s, .reported s _ (by simp [AppEvent.Silent, replayEvent]), (withSession_self hs).symm⟩
  case changeModelSettings id model thinking resetSecurity =>
    obtain ⟨_, _, ⟨_, rfl⟩, s, _, ⟨hs, rfl⟩, _, _, ⟨_, rfl⟩, rfl, rfl⟩ := h
    rw [hs]
    refine ⟨s, .reported s _ ?_, (withSession_self hs).symm⟩
    cases resetSecurity <;> simp [AppEvent.Silent, replayEvent]
  case changeThinkingLevel id level =>
    obtain ⟨s, _, ⟨hs, rfl⟩, _, _, ⟨_, rfl⟩, rfl, rfl⟩ := h
    rw [hs]
    exact ⟨s, .reported s _ (by simp [AppEvent.Silent, replayEvent]), (withSession_self hs).symm⟩
  case recordContextCompaction id summary messagesBefore =>
    obtain ⟨_, _, ⟨_, rfl⟩, s, _, ⟨hs, rfl⟩, _, _, ⟨_, rfl⟩, rfl, rfl⟩ := h
    rw [hs]
    exact ⟨s, .reported s _ (by simp [AppEvent.Silent, replayEvent]), (withSession_self hs).symm⟩
  case closeSession id =>
    obtain ⟨s, _, ⟨hs, rfl⟩, _, _, ⟨hready, rfl⟩, _, _, rfl, rfl, rfl⟩ := h
    rw [hs]
    exact ⟨_, .closed s hready, rfl⟩

/-- An observation that is accepted leaves the session alone or, if it is an interaction event,
takes it one step. -/
theorem observe_ok {id : SessionId} {s : SessionState} {e : AppEvent} {k k' : Kernel} {u : PUnit}
    (hs : k.sessions id = some s) (h : (observe id s e).exec k = (.ok u, k')) :
    ∃ s', (SessionStep id (some s) [e] s' ∨ e.isInteraction = false ∧ s' = s) ∧
      k' = k.withSession id s' := by
  cases e
  case steeringApplied turnId clientItemId text =>
    simp only [observe, invalidIf_ok] at h
    obtain ⟨_, rfl⟩ := h
    exact ⟨s, .inl (.reported s _ (by simp [AppEvent.Silent, replayEvent])),
      (withSession_self hs).symm⟩
  case permissionRequired requestId explanation effect choices =>
    simp only [observe, exec_bind_ok, invalidIf_ok, exec_insert_ok, not_not] at h
    obtain ⟨_, _, ⟨hrunning, rfl⟩, rfl⟩ := h
    exact ⟨_, .inl (.permission s requestId explanation effect choices hrunning), rfl⟩
  case permissionResolved requestId allowed choice =>
    simp only [observe, exec_bind_ok, invalidIf_ok, exec_insert_ok, not_or, not_not] at h
    obtain ⟨_, _, ⟨⟨hwaiting, _⟩, rfl⟩, rfl⟩ := h
    exact ⟨_, .inl (.permitted s requestId allowed choice hwaiting), rfl⟩
  case questionAsked questionId prompt options =>
    simp only [observe, exec_bind_ok, invalidIf_ok, exec_insert_ok, not_not] at h
    obtain ⟨_, _, ⟨hrunning, rfl⟩, rfl⟩ := h
    exact ⟨_, .inl (.asked s questionId _ hrunning (.one prompt options)), rfl⟩
  case questionsAsked request =>
    simp only [observe, exec_bind_ok, invalidIf_ok, exec_insert_ok, not_or, not_not] at h
    obtain ⟨_, _, ⟨⟨hrunning, _⟩, rfl⟩, rfl⟩ := h
    exact ⟨_, .inl (.asked s request.requestId _ hrunning (.several request.questions)), rfl⟩
  case questionAnswered questionId answers =>
    simp only [observe, exec_bind_ok, invalidIf_ok, exec_insert_ok, not_or, not_not] at h
    obtain ⟨_, _, ⟨⟨_, hwaiting, _⟩, rfl⟩, rfl⟩ := h
    exact ⟨_, .inl (.answered s _ hwaiting (.one questionId answers)), rfl⟩
  case questionsAnswered requestId answers =>
    simp only [observe, exec_bind_ok, invalidIf_ok, exec_insert_ok, not_or, not_not] at h
    obtain ⟨_, _, ⟨⟨hwaiting, _⟩, rfl⟩, rfl⟩ := h
    exact ⟨_, .inl (.answered s _ hwaiting (.several requestId answers)), rfl⟩
  case questionsFailed requestId reason =>
    simp only [observe, exec_bind_ok, invalidIf_ok, exec_insert_ok, not_or, not_not] at h
    obtain ⟨_, _, ⟨⟨hwaiting, _⟩, rfl⟩, rfl⟩ := h
    exact ⟨_, .inl (.answered s _ hwaiting (.failed requestId reason)), rfl⟩
  all_goals
    cases h
    exact ⟨s, .inr ⟨rfl, rfl⟩, (withSession_self hs).symm⟩

/-! ## Emitting envelopes -/

theorem exec_envelope (id : SessionId) (correlationId : CorrelationId) (origin : Origin)
    (e : AppEvent) (k : Kernel) :
    (envelope id correlationId origin e).exec k =
      (.ok
        { schemaVersion := 1
          sequence := k.nextSequence + 1
          occurredAt := k.now k.ticks
          correlationId, origin, sessionId := id, event := e },
       { k with nextSequence := k.nextSequence + 1, ticks := k.ticks + 1 }) := rfl

theorem mapM_envelope_ok {id : SessionId} {correlationId : CorrelationId} {origin : Origin}
    {events : List AppEvent} {k k' : Kernel} {envelopes : List EventEnvelope}
    (h : (events.mapM (envelope id correlationId origin)).exec k = (.ok envelopes, k')) :
    Emitted k k' id events envelopes := by
  induction events generalizing k envelopes with
  | nil =>
    rw [List.mapM_nil, exec_pure] at h
    cases h
    exact ⟨rfl, rfl, by simp, rfl⟩
  | cons e events ih =>
    simp only [List.mapM_cons, exec_bind_ok, exec_pure, exec_envelope, Prod.mk.injEq,
      Except.ok.injEq] at h
    obtain ⟨_, _, ⟨rfl, rfl⟩, rest, _, h, rfl, rfl⟩ := h
    obtain ⟨hsessions, hevents, howner, hnumbered⟩ := ih h
    exact ⟨hsessions, by simp [hevents], by simpa using howner, rfl, hnumbered⟩

/-- **Inversion of `apply`.** A command that succeeds takes its session one step and emits the
events of the step. -/
theorem apply_ok {request : CommandEnvelope} {k k' : Kernel} {envelopes : List EventEnvelope}
    (h : (apply request).exec k = (.ok envelopes, k')) :
    ∃ s' events,
      SessionStep request.command.sessionId (k.sessions request.command.sessionId) events s' ∧
      Emitted (k.withSession request.command.sessionId s') k' request.command.sessionId events
        envelopes := by
  simp only [apply, exec_bind_ok, exec_failIf_ok] at h
  obtain ⟨_, _, ⟨_, rfl⟩, events, _, h, hemit⟩ := h
  obtain ⟨s', hstep, rfl⟩ := transition_ok h
  exact ⟨s', events, hstep, mapM_envelope_ok hemit⟩

/-- **Inversion of `record`.** An observation that is accepted is of a loaded session, which it
leaves alone or, if it is an interaction event, takes one step; and it is emitted. -/
theorem record_ok {id : SessionId} {correlationId : CorrelationId} {origin : Origin}
    {e : AppEvent} {k k' : Kernel} {recorded : EventEnvelope}
    (h : (record id correlationId origin e).exec k = (.ok recorded, k')) :
    ∃ s s', k.sessions id = some s ∧
      (SessionStep id (some s) [e] s' ∨ e.isInteraction = false ∧ s' = s) ∧
      Emitted (k.withSession id s') k' id [e] [recorded] := by
  simp only [record, exec_bind_ok, sessionMut_ok, exec_envelope] at h
  obtain ⟨s, _, ⟨hs, rfl⟩, _, _, h, hemit⟩ := h
  obtain ⟨s', hstep, rfl⟩ := observe_ok hs h
  cases hemit
  exact ⟨s, s', hs, hstep, rfl, rfl, by simp, rfl, rfl⟩

/-- **Inversion of `restore_from_events`.** -/
theorem restoreFromEvents_ok {events : List EventEnvelope} {k k' : Kernel} {s : SessionState}
    (h : (restoreFromEvents events).exec k = (.ok s, k')) :
    ∃ restored, RestoreProjection.project events = .ok restored ∧ s = restored.state ∧
      k' = { k.withSession restored.id restored.state with
        nextSequence := max k.nextSequence restored.maxSequence } := by
  simp only [restoreFromEvents, installRestore, exec_bind_ok, exec_ofResult_ok, exec_modify,
    exec_pure, Prod.mk.injEq, Except.ok.injEq] at h
  obtain ⟨restored, _, ⟨hproject, rfl⟩, _, _, ⟨_, rfl⟩, rfl, rfl⟩ := h
  exact ⟨restored, hproject, rfl, rfl⟩

/-! ## Calls that fail -/

theorem clean_insert_then {α : Type} (id : SessionId) (session : SessionState) (a : α) :
    (do insert id session; pure a : KernelM α).Clean :=
  ((total_modify _).bind fun _ => total_pure a).clean

theorem readOnly_sessionMut (id : SessionId) : (sessionMut id).ReadOnly :=
  readOnly_get.bind fun _ => readOnly_okOr _ _

theorem clean_finishActive (id : SessionId) (turnId : TurnId) : (finishActive id turnId).Clean :=
  .of_readOnly_bind (readOnly_sessionMut id) fun _ =>
    .of_readOnly_bind (readOnly_failIf _ _) fun _ => (total_modify _).clean

theorem clean_transition (command : AppCommand) : (transition command).Clean := by
  cases command <;>
    simp only [transition, invalidIf]
  case createSession | resumeSession =>
    exact .of_readOnly_bind readOnly_get fun _ =>
      .of_readOnly_bind (readOnly_failIf _ _) fun _ => clean_insert_then _ _ _
  case submitPrompt =>
    exact .of_readOnly_bind (readOnly_ofResult _) fun _ =>
      .of_readOnly_bind (readOnly_sessionMut _) fun _ =>
        .of_readOnly_bind (readOnly_failIf _ _) fun _ =>
          .of_readOnly_bind (readOnly_failIf _ _) fun _ => clean_insert_then _ _ _
  case cancelTurn | finishTurn | failTurn =>
    exact (clean_finishActive _ _).bind_total fun _ => total_pure _
  case startImageGeneration | configureDesktopAgent | changePermissionProfile | closeSession =>
    exact .of_readOnly_bind (readOnly_sessionMut _) fun _ =>
      .of_readOnly_bind (readOnly_failIf _ _) fun _ => clean_insert_then _ _ _
  case changeModel | changeModelSettings | recordContextCompaction =>
    exact .of_readOnly_bind (readOnly_failIf _ _) fun _ =>
      .of_readOnly_bind (readOnly_sessionMut _) fun _ =>
        .of_readOnly_bind (readOnly_failIf _ _) fun _ => (total_pure _).clean
  case changeThinkingLevel =>
    exact .of_readOnly_bind (readOnly_sessionMut _) fun _ =>
      .of_readOnly_bind (readOnly_failIf _ _) fun _ => (total_pure _).clean

theorem total_envelope (id : SessionId) (correlationId : CorrelationId) (origin : Origin)
    (e : AppEvent) : (envelope id correlationId origin e).Total :=
  fun k => ⟨_, _, exec_envelope id correlationId origin e k⟩

theorem clean_apply (request : CommandEnvelope) : (apply request).Clean :=
  .of_readOnly_bind (readOnly_failIf _ _) fun _ =>
    (clean_transition _).bind_total fun events => Total.mapM (total_envelope _ _ _) events

theorem clean_observe (id : SessionId) (s : SessionState) (e : AppEvent) :
    (observe id s e).Clean := by
  cases e
  case steeringApplied => exact (readOnly_failIf _ _).clean
  case permissionRequired | permissionResolved | questionAsked | questionsAsked
      | questionAnswered | questionsAnswered | questionsFailed =>
    exact .of_readOnly_bind (readOnly_failIf _ _) fun _ => (total_modify _).clean
  all_goals exact (total_pure _).clean

theorem clean_record (id : SessionId) (correlationId : CorrelationId) (origin : Origin)
    (e : AppEvent) : (record id correlationId origin e).Clean :=
  .of_readOnly_bind (readOnly_sessionMut id) fun _ =>
    (clean_observe _ _ _).bind_total fun _ => total_envelope _ _ _ _

theorem clean_restoreFromEvents (events : List EventEnvelope) :
    (restoreFromEvents events).Clean :=
  .of_readOnly_bind (readOnly_ofResult _) fun _ =>
    ((total_modify _).bind fun _ => total_pure _).clean

end Kernel

/-! ## The kernel as a machine -/

/-- A call of one of the kernel's three methods. -/
inductive KernelCall where
  | apply (request : CommandEnvelope)
  | record (sessionId : SessionId) (correlationId : CorrelationId) (origin : Origin)
      (event : AppEvent)
  | restoreFromEvents (events : List EventEnvelope)

/-- The call, with the envelopes it emits. -/
def KernelCall.run : KernelCall → Kernel.KernelM (List EventEnvelope)
  | .apply request => Kernel.apply request
  | .record sessionId correlationId origin event => do
    let recorded ← Kernel.record sessionId correlationId origin event
    pure [recorded]
  | .restoreFromEvents events => do
    let _ ← Kernel.restoreFromEvents events
    pure []

/-- A call that is rejected leaves the whole kernel as it was. -/
theorem KernelCall.clean_run (call : KernelCall) : call.run.Clean := by
  cases call with
  | apply request => exact Kernel.clean_apply request
  | record id correlationId origin e =>
    exact (Kernel.clean_record id correlationId origin e).bind_total fun _ => total_pure _
  | restoreFromEvents events =>
    exact (Kernel.clean_restoreFromEvents events).bind_total fun _ => total_pure _

/-- The kernel as a machine: a rejected call emits nothing. -/
def Kernel.machine : Machine Kernel KernelCall EventEnvelope where
  step k call :=
    match call.run.exec k with
    | (.ok envelopes, k') => (k', envelopes)
    | (.error _, k') => (k', [])

namespace Kernel

/-- What one call does: nothing, or what the method it calls does where it succeeds. -/
theorem step_cases (k : Kernel) (call : KernelCall) :
    machine.step k call = (k, []) ∨
    (∃ request, call = .apply request ∧
      (apply request).exec k = (.ok (machine.step k call).2, (machine.step k call).1)) ∨
    (∃ id correlationId origin e recorded, call = .record id correlationId origin e ∧
      (record id correlationId origin e).exec k = (.ok recorded, (machine.step k call).1) ∧
      (machine.step k call).2 = [recorded]) ∨
    (∃ events s, call = .restoreFromEvents events ∧
      (restoreFromEvents events).exec k = (.ok s, (machine.step k call).1) ∧
      (machine.step k call).2 = []) := by
  rcases hrun : call.run.exec k with ⟨e | envelopes, k'⟩
  · have hclean : k' = k := call.clean_run k e k' hrun
    left
    simp only [machine, hrun, hclean]
  · have hstep : machine.step k call = (k', envelopes) := by simp only [machine, hrun]
    rw [hstep]
    cases call with
    | apply request => exact .inr (.inl ⟨request, rfl, hrun⟩)
    | record id correlationId origin e =>
      simp only [KernelCall.run, exec_bind_ok, exec_pure, Prod.mk.injEq, Except.ok.injEq] at hrun
      obtain ⟨recorded, _, hrun, rfl, rfl⟩ := hrun
      exact .inr (.inr (.inl ⟨id, correlationId, origin, e, recorded, rfl, hrun, rfl⟩))
    | restoreFromEvents events =>
      simp only [KernelCall.run, exec_bind_ok, exec_pure, Prod.mk.injEq, Except.ok.injEq] at hrun
      obtain ⟨s, _, hrun, rfl, rfl⟩ := hrun
      exact .inr (.inr (.inr ⟨events, s, rfl, hrun, rfl⟩))

end Kernel

end AxiomDesktop
