import Mathlib.Data.List.Chain
import AxiomDesktop.App.Restore

/-!
# The turn protocol of a journal

`Talk.hear` is the strict reader of a session's events that `replay_event` is not: it refuses an
event that the protocol of turns, approvals and questions does not allow where the talk stands. A
run of the kernel never writes such an event (`Kernel.run_heard`), and the talk its journal ends
in is that of the live session. What an accepted journal says of its turns and requests
(`turns_of_listen`, `answers_of_listen`) then holds of every run (`Kernel.turns_end_once`,
`Kernel.requests_answered`).
-/

namespace AxiomDesktop

open Fallible

/-- Where the talk of a session stands. -/
inductive TalkPhase where
  | absent
  | idle
  | working (turnId : TurnId)
  | approval (turnId : TurnId) (requestId : String)
  | question (turnId : TurnId) (questionId : String)
  | closed
  deriving DecidableEq, Repr

namespace TalkPhase

/-- The turn in flight. -/
def turn : TalkPhase → Option TurnId
  | working t | approval t _ | question t _ => some t
  | absent | idle | closed => none

/-- The approval that is awaited. -/
def permission : TalkPhase → Option String
  | approval _ r => some r
  | _ => none

/-- The answer that is awaited. -/
def asked : TalkPhase → Option String
  | question _ q => some q
  | _ => none

def lifecycle : TalkPhase → Option SessionLifecycle
  | absent => none
  | idle => some .ready
  | working _ => some .running
  | approval .. => some .waitingForApproval
  | question .. => some .waitingForAnswer
  | closed => some .closed

end TalkPhase

/-- A talk, with the turns that have ended. -/
structure Talk where
  phase : TalkPhase
  ended : Finset TurnId

namespace Talk

/-- The talk before the first event. -/
def silence : Talk := ⟨.absent, ∅⟩

/-- The talk in another phase, where the condition holds. -/
def moveIf (talk : Talk) (c : Prop) [Decidable c] (phase : TalkPhase) : Option Talk :=
  if c then some { talk with phase } else none

/-- The talk after one more event, or nothing where the protocol does not allow the event. -/
def hear (talk : Talk) : AppEvent → Option Talk
  | .sessionCreated .. | .sessionResumed .. => talk.moveIf (talk.phase = .absent) .idle
  | .turnStarted t => talk.moveIf (talk.phase = .idle ∧ t ∉ talk.ended) (.working t)
  | .turnCompleted t | .turnCancelled t | .errorRaised (some t) _ =>
    if talk.phase.turn = some t then some ⟨.idle, insert t talk.ended⟩ else none
  | .steeringApplied t _ _ => talk.moveIf (talk.phase = .working t) talk.phase
  | .permissionRequired r _ _ _ =>
    match talk.phase with
    | .working t => some { talk with phase := .approval t r }
    | _ => none
  | .permissionResolved r _ _ =>
    match talk.phase with
    | .approval t r' => talk.moveIf (r' = r) (.working t)
    | _ => none
  | .questionAsked q _ _ =>
    match talk.phase with
    | .working t => some { talk with phase := .question t q }
    | _ => none
  | .questionsAsked request =>
    match talk.phase with
    | .working t => talk.moveIf (request.questions ≠ []) (.question t request.requestId)
    | _ => none
  | .questionAnswered q answers =>
    match talk.phase with
    | .question t q' => talk.moveIf (q' = q ∧ answers ≠ []) (.working t)
    | _ => none
  | .questionsAnswered q _ | .questionsFailed q _ =>
    match talk.phase with
    | .question t q' => talk.moveIf (q' = q) (.working t)
    | _ => none
  | .desktopAgentConfigured _ | .permissionProfileChanged _ =>
    talk.moveIf (talk.phase = .idle) .idle
  | .sessionClosed => talk.moveIf (talk.phase = .idle) .closed
  | _ => talk.moveIf (talk.phase ≠ .absent) talk.phase

/-- The talk after a list of events that the protocol allows. -/
def listen (talk : Talk) (events : List AppEvent) : Option Talk := events.foldlM hear talk

/-- The talk is that of the session: its phase gives the lifecycle, the active turn and the
pending requests. -/
def Of (talk : Talk) : Option SessionState → Prop
  | none => talk = silence
  | some s =>
    talk.phase.lifecycle = some s.lifecycle ∧ talk.phase.turn = s.activeTurn ∧
      talk.phase.permission = s.pendingPermission ∧ talk.phase.asked = s.pendingQuestion ∧
      talk.ended = s.terminalTurns

@[simp] theorem listen_nil (talk : Talk) : talk.listen [] = some talk := rfl

theorem listen_cons (talk : Talk) (e : AppEvent) (events : List AppEvent) :
    talk.listen (e :: events) = (talk.hear e).bind fun talk => talk.listen events := rfl

theorem listen_singleton (talk : Talk) (e : AppEvent) : talk.listen [e] = talk.hear e := by
  rw [listen_cons]
  cases talk.hear e <;> rfl

theorem listen_append {talk talk' : Talk} {es : List AppEvent} (h : talk.listen es = some talk')
    (fs : List AppEvent) : talk.listen (es ++ fs) = talk'.listen fs := by
  unfold listen at h ⊢
  rw [List.foldlM_append, h]
  rfl

theorem listen_append_eq {talk talk' : Talk} {es fs : List AppEvent}
    (h : talk.listen (es ++ fs) = some talk') :
    ∃ mid, talk.listen es = some mid ∧ mid.listen fs = some talk' := by
  unfold listen at h
  rw [List.foldlM_append] at h
  exact Option.bind_eq_some_iff.mp h

theorem moveIf_eq {talk talk' : Talk} {c : Prop} [Decidable c] {phase : TalkPhase}
    (h : talk.moveIf c phase = some talk') : c ∧ talk' = { talk with phase } := by
  unfold moveIf at h
  split at h
  · exact ⟨‹c›, (Option.some.inj h).symm⟩
  · contradiction

theorem moveIf_pos {talk : Talk} {c : Prop} [Decidable c] {phase : TalkPhase} (h : c) :
    talk.moveIf c phase = some { talk with phase } := if_pos h

/-! ## The talk of a session -/

variable {talk : Talk} {s : SessionState}

theorem Of.idle (h : talk.Of (some s)) (hready : s.lifecycle = .ready) :
    talk = ⟨.idle, s.terminalTurns⟩ := by
  obtain ⟨phase, ended⟩ := talk
  obtain ⟨hlife, -, -, -, rfl⟩ := h
  rw [hready] at hlife
  cases phase <;> cases hlife
  rfl

theorem Of.working (h : talk.Of (some s)) (hrunning : s.lifecycle = .running) :
    ∃ t, talk = ⟨.working t, s.terminalTurns⟩ ∧ s.activeTurn = some t := by
  obtain ⟨phase, ended⟩ := talk
  obtain ⟨hlife, hturn, -, -, rfl⟩ := h
  rw [hrunning] at hlife
  cases phase <;> cases hlife
  exact ⟨_, rfl, hturn.symm⟩

theorem Of.approval (h : talk.Of (some s)) (hwaiting : s.lifecycle = .waitingForApproval) :
    ∃ t r, talk = ⟨.approval t r, s.terminalTurns⟩ ∧ s.activeTurn = some t ∧
      s.pendingPermission = some r := by
  obtain ⟨phase, ended⟩ := talk
  obtain ⟨hlife, hturn, hperm, -, rfl⟩ := h
  rw [hwaiting] at hlife
  cases phase <;> cases hlife
  exact ⟨_, _, rfl, hturn.symm, hperm.symm⟩

theorem Of.question (h : talk.Of (some s)) (hwaiting : s.lifecycle = .waitingForAnswer) :
    ∃ t q, talk = ⟨.question t q, s.terminalTurns⟩ ∧ s.activeTurn = some t ∧
      s.pendingQuestion = some q := by
  obtain ⟨phase, ended⟩ := talk
  obtain ⟨hlife, hturn, -, hasked, rfl⟩ := h
  rw [hwaiting] at hlife
  cases phase <;> cases hlife
  exact ⟨_, _, rfl, hturn.symm, hasked.symm⟩

theorem Of.pending (h : talk.Of (some s)) :
    talk.phase.permission = s.pendingPermission ∧ talk.phase.asked = s.pendingQuestion :=
  ⟨h.2.2.1, h.2.2.2.1⟩

theorem Of.turn_eq {before : Option SessionState} (h : talk.Of before) :
    talk.phase.turn = before.bind (·.activeTurn) := by
  cases before with
  | none => rw [show talk = silence from h]; rfl
  | some s => exact h.2.1

theorem Of.loaded (h : talk.Of (some s)) : talk.phase ≠ .absent := by
  intro habsent
  rw [Of, habsent] at h
  cases h.1

/-- An event that replay passes over is allowed wherever the session is loaded, unless it steers
a turn. -/
theorem hear_silent {e : AppEvent} (hplain : e.isInteraction = false) (hsilent : e.Silent)
    (hloaded : talk.phase ≠ .absent) : talk.hear e = some talk := by
  have hsome := fun s => hsilent (some s) ⟨0⟩
  cases e
  case sessionCreated | sessionResumed | turnStarted => cases hsilent none ⟨0⟩
  case desktopAgentConfigured settings =>
    have := hsome (.opened ⟨0⟩ "" .test .observe)
    simp only [replayEvent, Option.map_some, SessionState.opened, PermissionProfile.forDesktopAgent,
      Except.ok.injEq, Option.some.injEq, SessionState.mk.injEq] at this
    cases henabled : settings.enabled <;> cases hpermission : settings.permission <;>
      simp [henabled, hpermission] at this
  case permissionProfileChanged profile =>
    have := hsome (.opened ⟨0⟩ "" .test (if profile = .web then .none else .web))
    cases profile <;> simp [replayEvent, SessionState.opened] at this
  case sessionClosed =>
    have := hsome (.opened ⟨0⟩ "" .test .confirm)
    simp [replayEvent, SessionState.opened] at this
  case turnCompleted | turnCancelled =>
    have := hsome { SessionState.opened ⟨0⟩ "" .test .confirm with lifecycle := .closed }
    simp [replayEvent] at this
  case errorRaised turnId message =>
    cases turnId with
    | none => exact moveIf_pos hloaded
    | some turnId =>
      have := hsome { SessionState.opened ⟨0⟩ "" .test .confirm with lifecycle := .closed }
      simp [replayEvent] at this
  all_goals first
    | exact moveIf_pos hloaded
    | cases hplain

theorem listen_silent {events : List AppEvent} (hloaded : talk.phase ≠ .absent)
    (hplain : ∀ e ∈ events, e.isInteraction = false) (hsilent : ∀ e ∈ events, e.Silent) :
    talk.listen events = some talk := by
  induction events with
  | nil => rfl
  | cons e events ih =>
    rw [List.forall_mem_cons] at hplain hsilent
    rw [listen_cons, hear_silent hplain.1 hsilent.1 hloaded]
    exact ih hplain.2 hsilent.2

/-- What a command does to a session is allowed, and leaves the talk of the session. -/
theorem listen_step {id : SessionId} {before : Option SessionState} {events : List AppEvent}
    {s' : SessionState} (hstep : SessionStep id before events s') (hof : talk.Of before)
    (hplain : ∀ e ∈ events, e.isInteraction = false) :
    ∃ talk', talk.listen events = some talk' ∧ talk'.Of (some s') := by
  cases hstep with
  | created | resumed =>
    cases hof
    exact ⟨⟨.idle, ∅⟩, rfl, rfl, rfl, rfl, rfl, rfl⟩
  | started s turnId events hready hfresh hsilent =>
    have hevents := listen_silent hof.loaded
      (fun e he => hplain e (List.mem_append_left _ he)) hsilent
    have hpending := hof.pending
    obtain rfl := hof.idle hready
    refine ⟨⟨.working turnId, s.terminalTurns⟩, ?_, rfl, rfl, hpending.1, hpending.2, rfl⟩
    rw [listen_append hevents, listen_singleton]
    exact moveIf_pos ⟨rfl, hfresh⟩
  | finished s turnId e hactive hflight hends =>
    have hturn : talk.phase.turn = some turnId := hof.2.1.trans hactive
    refine ⟨⟨.idle, insert turnId talk.ended⟩, ?_, rfl, rfl, rfl, rfl, ?_⟩
    · rw [listen_singleton]
      cases hends <;> exact if_pos hturn
    · rw [hof.2.2.2.2]
      rfl
  | configured s _ hready | reprofiled s _ hready =>
    refine ⟨talk, ?_, hof⟩
    obtain rfl := hof.idle hready
    rfl
  | closed s hready =>
    have hpending := hof.pending
    have hturn := hof.2.1
    obtain rfl := hof.idle hready
    exact ⟨⟨.closed, s.terminalTurns⟩, rfl, rfl, hturn, hpending.1, hpending.2, rfl⟩
  | permission | permitted => cases hplain _ (List.mem_singleton_self _)
  | asked s questionId e hrunning hasks =>
    have := hplain _ (List.mem_singleton_self _)
    cases hasks <;> cases this
  | answered s e hwaiting hanswers =>
    have := hplain _ (List.mem_singleton_self _)
    cases hanswers <;> cases this
  | reported s events hsilent => exact ⟨talk, listen_silent hof.loaded hplain hsilent, hof⟩

end Talk

namespace Kernel

/-- No command emits an interaction event, and the one that accepts a prompt starts its turn. -/
theorem transition_plain {command : AppCommand} {k k' : Kernel} {events : List AppEvent}
    (h : (transition command).exec k = (.ok events, k')) :
    (∀ e ∈ events, e.isInteraction = false) ∧
      ∀ turnId text attachments, .promptAccepted turnId text attachments ∈ events →
        events = [.promptAccepted turnId text attachments, .turnStarted turnId] := by
  cases command <;>
    simp only [transition, exec_bind_ok, exec_pure, Prod.mk.injEq, Except.ok.injEq] at h
  case createSession | resumeSession | startImageGeneration | configureDesktopAgent
      | changePermissionProfile | closeSession | changeModel | recordContextCompaction =>
    obtain ⟨_, _, _, _, _, _, _, _, _, rfl, _⟩ := h
    simp [AppEvent.isInteraction]
  case submitPrompt =>
    obtain ⟨_, _, _, _, _, _, _, _, _, _, _, _, _, _, _, rfl, _⟩ := h
    simp +contextual [AppEvent.isInteraction]
  case cancelTurn | finishTurn | failTurn =>
    obtain ⟨_, _, _, rfl, _⟩ := h
    simp [AppEvent.isInteraction]
  case changeModelSettings id model thinking resetSecurity =>
    obtain ⟨_, _, _, _, _, _, _, _, _, rfl, _⟩ := h
    cases resetSecurity <;> simp [AppEvent.isInteraction]
  case changeThinkingLevel =>
    obtain ⟨_, _, _, _, _, _, rfl, _⟩ := h
    simp [AppEvent.isInteraction]

/-- An observation that the kernel does not check changes nothing. -/
theorem observe_plain {id : SessionId} {s : SessionState} {e : AppEvent}
    (hplain : e.isInteraction = false) : observe id s e = pure ⟨⟩ := by
  cases e <;> first
    | rfl
    | cases hplain

/-- What an accepted observation does to a session is allowed, and leaves its talk; an observation
that the kernel does not check is one that replay passes over. -/
theorem observe_heard {id : SessionId} {s : SessionState} {e : AppEvent} {k k' : Kernel}
    {u : PUnit} {talk : Talk} (hs : k.sessions id = some s) (hof : talk.Of (some s))
    (hchecked : e.isInteraction = true ∨ e.Silent) (h : (observe id s e).exec k = (.ok u, k')) :
    ∃ talk' s', k' = k.withSession id s' ∧ talk.hear e = some talk' ∧ talk'.Of (some s') := by
  by_cases hplain : e.isInteraction = false
  · have hsilent := hchecked.resolve_left (by simp [hplain])
    rw [observe_plain hplain] at h
    cases h
    exact ⟨talk, s, (withSession_self hs).symm, Talk.hear_silent hplain hsilent hof.loaded, hof⟩
  have hpending := hof.pending
  cases e
  case steeringApplied turnId clientItemId text =>
    simp only [observe, invalidIf_ok, not_or, not_not] at h
    obtain ⟨⟨hactive, hrunning⟩, rfl⟩ := h
    refine ⟨talk, s, (withSession_self hs).symm, ?_, hof⟩
    obtain ⟨t, rfl, hturn⟩ := hof.working hrunning
    obtain rfl := Option.some.inj (hturn.symm.trans hactive)
    exact Talk.moveIf_pos rfl
  case permissionRequired | questionAsked =>
    simp only [observe, exec_bind_ok, invalidIf_ok, exec_insert_ok, not_not] at h
    obtain ⟨_, _, ⟨hrunning, rfl⟩, rfl⟩ := h
    obtain ⟨t, rfl, hturn⟩ := hof.working hrunning
    exact ⟨_, _, rfl, rfl, rfl, hturn.symm, by first | rfl | exact hpending.1,
      by first | rfl | exact hpending.2, rfl⟩
  case permissionResolved requestId allowed choice =>
    simp only [observe, exec_bind_ok, invalidIf_ok, exec_insert_ok, not_or, not_not] at h
    obtain ⟨_, _, ⟨⟨hwaiting, hopen⟩, rfl⟩, rfl⟩ := h
    obtain ⟨t, r, rfl, hturn, hperm⟩ := hof.approval hwaiting
    obtain rfl := Option.some.inj (hperm.symm.trans hopen)
    exact ⟨⟨.working t, s.terminalTurns⟩, _, rfl, Talk.moveIf_pos rfl,
      ⟨rfl, hturn.symm, rfl, hpending.2, rfl⟩⟩
  case questionsAsked request =>
    simp only [observe, exec_bind_ok, invalidIf_ok, exec_insert_ok, not_or, not_not] at h
    obtain ⟨_, _, ⟨⟨hrunning, hquestions⟩, rfl⟩, rfl⟩ := h
    obtain ⟨t, rfl, hturn⟩ := hof.working hrunning
    exact ⟨⟨.question t request.requestId, s.terminalTurns⟩, _, rfl, Talk.moveIf_pos hquestions,
      ⟨rfl, hturn.symm, hpending.1, rfl, rfl⟩⟩
  case questionAnswered | questionsAnswered | questionsFailed =>
    simp only [observe, exec_bind_ok, invalidIf_ok, exec_insert_ok, not_or, not_not] at h
    obtain ⟨_, _, ⟨hchecks, rfl⟩, rfl⟩ := h
    obtain ⟨hwaiting, hopen⟩ : s.lifecycle = .waitingForAnswer ∧ s.pendingQuestion = some _ := by
      first
        | exact hchecks
        | exact hchecks.2
    obtain ⟨t, q, rfl, hturn, hasked⟩ := hof.question hwaiting
    obtain rfl := Option.some.inj (hasked.symm.trans hopen)
    refine ⟨⟨.working t, s.terminalTurns⟩, _, rfl, Talk.moveIf_pos ?_,
      ⟨rfl, hturn.symm, hpending.1, rfl, rfl⟩⟩
    first
      | rfl
      | exact ⟨rfl, hchecks.1⟩
  all_goals exact absurd rfl hplain

/-- What is written for another session is not heard. -/
theorem heard_other {id other : SessionId} {k k' : Kernel} {s : SessionState} {talk : Talk}
    {envelopes : List EventEnvelope} (hne : other ≠ id)
    (howner : ∀ e ∈ envelopes, e.sessionId = other)
    (hsessions : k'.sessions = (k.withSession other s).sessions) (hof : talk.Of (k.sessions id)) :
    ∃ talk', talk.listen ((journal id envelopes).map (·.event)) = some talk' ∧
      talk'.Of (k'.sessions id) := by
  refine ⟨talk, ?_, ?_⟩
  · rw [journal_other hne howner]
    rfl
  · rw [hsessions]
    simpa [withSession, Function.update_of_ne hne.symm] using hof

/-- One call adds to the journal of a session what the protocol allows, and leaves the talk of the
session. -/
theorem step_heard {id : SessionId} {k : Kernel} {call : KernelCall} {talk : Talk}
    (hcall : call.Journaled id) (hof : talk.Of (k.sessions id)) :
    ∃ talk', talk.listen ((journal id (machine.step k call).2).map (·.event)) = some talk' ∧
      talk'.Of ((machine.step k call).1.sessions id) := by
  rcases step_cases k call with h | ⟨request, rfl, h⟩ | ⟨sid, _, _, e, recorded, rfl, h, hout⟩ |
    ⟨events, s, rfl, h, hout⟩
  · rw [h]
    exact ⟨talk, rfl, hof⟩
  · by_cases hid : request.command.sessionId = id
    · subst hid
      simp only [apply, exec_bind_ok, exec_failIf_ok] at h
      obtain ⟨_, _, ⟨_, rfl⟩, events, _, h, hemit⟩ := h
      have hplain := (transition_plain h).1
      obtain ⟨s', hstep, rfl⟩ := transition_ok h
      have hemit := mapM_envelope_ok hemit
      obtain ⟨talk', hlisten, hof'⟩ := Talk.listen_step hstep hof hplain
      refine ⟨talk', ?_, ?_⟩
      · rw [journal_own hemit.owner, hemit.events]
        exact hlisten
      · rw [hemit.sessions]
        simpa [withSession] using hof'
    · obtain ⟨s', events, _, hemit⟩ := apply_ok h
      exact heard_other hid hemit.owner hemit.sessions hof
  · simp only [record, exec_bind_ok, sessionMut_ok] at h
    obtain ⟨s, _, ⟨hs, rfl⟩, _, k', h, hemit⟩ := h
    rw [exec_envelope] at hemit
    obtain ⟨hrecorded, hk'⟩ := Prod.mk.inj hemit
    obtain rfl := Except.ok.inj hrecorded
    rw [hout, ← hk']
    by_cases hid : sid = id
    · subst hid
      rw [hs] at hof
      obtain ⟨talk', s', rfl, hhear, hof'⟩ := observe_heard hs hof (hcall rfl) h
      refine ⟨talk', ?_, ?_⟩
      · rw [journal_own (by simp)]
        exact (Talk.listen_singleton talk e).trans hhear
      · simpa [withSession] using hof'
    · obtain ⟨s', _, rfl⟩ := observe_ok hs h
      exact heard_other hid (by simp) rfl hof
  · obtain ⟨restored, hproject, _, hk'⟩ := restoreFromEvents_ok h
    obtain ⟨first, hfirst, howner⟩ := RestoreProjection.project_id hproject
    have hne : restored.id ≠ id := fun heq => hcall first hfirst (howner.trans heq)
    rw [hout, hk']
    exact heard_other hne (by simp) rfl hof

/-- A run adds to the journal of a session what the protocol allows from the talk the session is
in, and leaves its talk. -/
theorem run_listens {k : Kernel} {id : SessionId} {talk : Talk} (hof : talk.Of (k.sessions id))
    {calls : List KernelCall} (hcalls : ∀ call ∈ calls, call.Journaled id) :
    ∃ talk', talk.listen ((journal id (machine.run k calls).2).map (·.event)) = some talk' ∧
      talk'.Of ((machine.run k calls).1.sessions id) := by
  refine machine.run_induction (C := fun _ call => call.Journaled id)
    (motive := fun _ emitted k' =>
      ∃ talk', talk.listen ((journal id emitted).map (·.event)) = some talk' ∧
        talk'.Of (k'.sessions id)) ⟨talk, rfl, hof⟩ ?_ calls
    (machine.meets_of_forall (fun call hcall _ => hcalls call hcall) k)
  rintro _ emitted k' call ⟨mid, hlisten, hmid⟩ hcall
  obtain ⟨talk', hlisten', hof'⟩ := step_heard hcall hmid
  refine ⟨talk', ?_, hof'⟩
  rw [journal_append, List.map_append, Talk.listen_append hlisten]
  exact hlisten'

/-- A session that is not loaded has not talked. -/
theorem of_silence {k : Kernel} {id : SessionId} (hnew : k.sessions id = none) :
    Talk.silence.Of (k.sessions id) := by
  rw [hnew]
  rfl

/-- **The kernel keeps the protocol.** The journal that a run of the kernel writes for a session
which was not loaded before is accepted by the strict reader, and the talk it ends in is that of
the live session. -/
theorem run_heard (k : Kernel) (id : SessionId) (hnew : k.sessions id = none)
    (calls : List KernelCall) (hcalls : ∀ call ∈ calls, call.Journaled id) :
    ∃ talk, Talk.silence.listen ((journal id (machine.run k calls).2).map (·.event)) = some talk ∧
      talk.Of ((machine.run k calls).1.sessions id) :=
  run_listens (of_silence hnew) hcalls

end Kernel

/-! ## What an accepted journal says -/

/-- A request to the user. -/
inductive Request where
  | approval (requestId : String)
  | question (questionId : String)

namespace AppEvent

/-- The turn an event starts. -/
def started? : AppEvent → Option TurnId
  | turnStarted t => some t
  | _ => none

/-- The turn an event ends. -/
def ended? : AppEvent → Option TurnId
  | turnCompleted t | turnCancelled t | errorRaised (some t) _ => some t
  | _ => none

/-- The request an event opens. -/
def opens? : AppEvent → Option Request
  | permissionRequired r _ _ _ => some (.approval r)
  | questionAsked q _ _ => some (.question q)
  | questionsAsked request => some (.question request.requestId)
  | _ => none

/-- The request an event answers. -/
def answers? : AppEvent → Option Request
  | permissionResolved r _ _ => some (.approval r)
  | questionAnswered q _ | questionsAnswered q _ | questionsFailed q _ => some (.question q)
  | _ => none

/-- The event opens a request, answers one, or ends a turn. -/
def marks (e : AppEvent) : Bool := e.opens?.isSome || e.answers?.isSome || e.ended?.isSome

/-- What an event may be where a request is awaited, or none is: only the request's answer or the
end of the turn follows a request, and nothing else is an answer. -/
def Meets (awaited : Option Request) (e : AppEvent) : Prop :=
  match awaited with
  | some r => e.answers? = some r ∨ e.ended?.isSome
  | none => e.answers? = none

end AppEvent

/-- The request that is awaited. -/
def TalkPhase.awaits : TalkPhase → Option Request
  | .approval _ r => some (.approval r)
  | .question _ q => some (.question q)
  | _ => none

namespace Talk

/-- The end of a turn may come at any time. -/
theorem meets_of_ended {e : AppEvent} {t : TurnId} {awaited : Option Request}
    (h : e.ended? = some t) : e.Meets awaited := by
  cases awaited with
  | some r => exact .inr (by rw [h]; rfl)
  | none =>
    cases e <;> first
      | rfl
      | cases h

/-- What ends a turn ends the one in flight. -/
theorem end_eq {talk talk' : Talk} {t : TurnId}
    (h : (if talk.phase.turn = some t then some ⟨.idle, insert t talk.ended⟩ else none) =
      some talk') :
    talk.phase.turn = some t ∧ talk' = ⟨.idle, insert t talk.ended⟩ := by
  split at h
  · exact ⟨‹_›, (Option.some.inj h).symm⟩
  · contradiction

theorem turns_of_end {talk : Talk} {t : TurnId} {e : AppEvent} (hturn : talk.phase.turn = some t)
    (hended : e.ended? = some t) (hstarted : e.started? = none) :
    talk.phase.turn.toList ++ e.started?.toList = e.ended?.toList ++ TalkPhase.idle.turn.toList ∧
      (∀ t', t' ∈ insert t talk.ended ↔ e.ended? = some t' ∨ t' ∈ talk.ended) ∧
      ∀ t ∈ e.started?, talk.phase.turn = none ∧ t ∉ talk.ended := by
  rw [hturn, hended, hstarted]
  exact ⟨rfl, by simp [eq_comm], nofun⟩

/-- What an event that the protocol allows does to the turns, and to the request that is awaited. -/
theorem hear_ok {talk talk' : Talk} {e : AppEvent} (h : talk.hear e = some talk') :
    (talk.phase.turn.toList ++ e.started?.toList = e.ended?.toList ++ talk'.phase.turn.toList ∧
      (∀ t, t ∈ talk'.ended ↔ e.ended? = some t ∨ t ∈ talk.ended) ∧
      ∀ t ∈ e.started?, talk.phase.turn = none ∧ t ∉ talk.ended) ∧
    (e.marks = false → talk'.phase.awaits = talk.phase.awaits) ∧
    (e.marks → talk'.phase.awaits = e.opens? ∧ e.Meets talk.phase.awaits) := by
  cases e <;> simp only [hear] at h
  case turnCompleted t | turnCancelled t =>
    obtain ⟨hturn, rfl⟩ := end_eq h
    exact ⟨turns_of_end hturn rfl rfl, nofun, fun _ => ⟨rfl, meets_of_ended rfl⟩⟩
  case errorRaised turnId message =>
    cases turnId with
    | none =>
      obtain ⟨-, rfl⟩ := moveIf_eq h
      exact ⟨by simp [AppEvent.started?, AppEvent.ended?], fun _ => rfl, nofun⟩
    | some t =>
      obtain ⟨hturn, rfl⟩ := end_eq h
      exact ⟨turns_of_end hturn rfl rfl, nofun, fun _ => ⟨rfl, meets_of_ended rfl⟩⟩
  case permissionRequired | permissionResolved | questionAsked | questionsAsked | questionAnswered
      | questionsAnswered | questionsFailed =>
    split at h <;> first
      | contradiction
      | (rename_i hphase
         first
           | obtain ⟨hc, rfl⟩ := moveIf_eq h
           | obtain rfl := Option.some.inj h
         simp_all [AppEvent.started?, AppEvent.ended?, AppEvent.marks, AppEvent.opens?,
           AppEvent.answers?, AppEvent.Meets, TalkPhase.awaits, TalkPhase.turn])
  all_goals
    obtain ⟨hphase, rfl⟩ := moveIf_eq h
    simp [AppEvent.started?, AppEvent.ended?, AppEvent.marks, AppEvent.opens?, AppEvent.answers?,
      TalkPhase.awaits, TalkPhase.turn, hphase]

/-- The turns an accepted journal starts are those it ends, in order, and the one in flight. -/
theorem turns_of_listen {events : List AppEvent} {talk : Talk}
    (h : silence.listen events = some talk) :
    events.filterMap (·.started?) = events.filterMap (·.ended?) ++ talk.phase.turn.toList ∧
      (∀ t, t ∈ talk.ended ↔ t ∈ events.filterMap (·.ended?)) ∧
      (events.filterMap (·.started?)).Nodup := by
  induction events using List.reverseRecOn generalizing talk with
  | nil =>
    cases h
    simp [silence, TalkPhase.turn]
  | append_singleton events e ih =>
    obtain ⟨mid, hmid, h⟩ := listen_append_eq h
    rw [listen_singleton] at h
    obtain ⟨hsame, hended, hnodup⟩ := ih hmid
    obtain ⟨hturn, hends, hfresh⟩ := (hear_ok h).1
    have hone : ∀ f : AppEvent → Option TurnId, [e].filterMap f = (f e).toList := by
      intro f
      cases hf : f e <;> simp [hf]
    simp only [List.filterMap_append, hone]
    refine ⟨?_, fun t => ?_, ?_⟩
    · rw [hsame, List.append_assoc, hturn, List.append_assoc]
    · rw [hends, hended]
      simp [or_comm]
    · cases hstart : e.started? with
      | none => simpa using hnodup
      | some t =>
        obtain ⟨hidle, hold⟩ := hfresh t hstart
        have hnew : t ∉ events.filterMap (·.started?) := by
          rw [hsame, hidle, Option.toList_none, List.append_nil, ← hended]
          exact hold
        exact List.concat_eq_append ▸ hnodup.concat hnew

/-- In an accepted journal, reduced to the events that open a request, answer one or end a turn,
each follows the one before it as the protocol asks, and the request that is awaited at the end is
the one that the last of them opened. -/
theorem answers_of_listen {events : List AppEvent} {talk : Talk}
    (h : silence.listen events = some talk) :
    (events.filter (·.marks)).IsChain (fun m e => e.Meets m.opens?) ∧
      (∀ e ∈ (events.filter (·.marks)).head?, e.Meets none) ∧
      talk.phase.awaits = (events.filter (·.marks)).getLast?.bind (·.opens?) := by
  induction events using List.reverseRecOn generalizing talk with
  | nil =>
    cases h
    simp [silence, TalkPhase.awaits]
  | append_singleton events e ih =>
    obtain ⟨mid, hmid, h⟩ := listen_append_eq h
    rw [listen_singleton] at h
    obtain ⟨hchain, hhead, hawaits⟩ := ih hmid
    obtain ⟨-, hpass, hmark⟩ := hear_ok h
    rw [List.filter_append]
    rcases Bool.eq_false_or_eq_true e.marks with hmarks | hmarks
    · obtain ⟨hopens, hmeets⟩ := hmark hmarks
      simp only [List.filter_cons_of_pos hmarks, List.filter_nil]
      rw [hawaits] at hmeets
      generalize events.filter (·.marks) = marks at hchain hhead hmeets
      refine ⟨?_, ?_, by simpa using hopens⟩
      · refine List.IsChain.append hchain (List.isChain_singleton _) ?_
        intro m hm x hx
        obtain rfl : e = x := by simpa using hx
        rwa [Option.mem_def.mp hm] at hmeets
      · cases marks with
        | nil => simpa using hmeets
        | cons m marks => simpa using hhead
    · have hnone : [e].filter (·.marks) = [] := by simp [hmarks]
      rw [hnone, List.append_nil]
      exact ⟨hchain, hhead, (hpass hmarks).trans hawaits⟩

end Talk

namespace Kernel

/-- **Turns end once.** In every run, the turns that the journal of a session starts are, in order,
those it ends and the one that is active; no turn is started twice. -/
theorem turns_end_once (k : Kernel) (id : SessionId) (hnew : k.sessions id = none)
    (calls : List KernelCall) (hcalls : ∀ call ∈ calls, call.Journaled id) :
    let events := (journal id (machine.run k calls).2).map (·.event)
    let session := (machine.run k calls).1.sessions id
    events.filterMap (·.started?) =
        events.filterMap (·.ended?) ++ (session.bind (·.activeTurn)).toList ∧
      (events.filterMap (·.started?)).Nodup ∧
      ∀ s, session = some s → ∀ t, t ∈ s.terminalTurns ↔ t ∈ events.filterMap (·.ended?) := by
  intro events session
  obtain ⟨talk, hlisten, hof⟩ := run_listens (of_silence hnew) hcalls
  obtain ⟨hsame, hended, hnodup⟩ := Talk.turns_of_listen hlisten
  refine ⟨hof.turn_eq ▸ hsame, hnodup, fun s hs t => ?_⟩
  rw [show (machine.run k calls).1.sessions id = some s from hs] at hof
  rw [← hof.2.2.2.2]
  exact hended t

/-- **Requests are answered in their turn.** In every run, the journal of a session, reduced to the
events that open a request, answer one or end a turn, answers nothing but the request opened right
before, and opens nothing while a request awaits its answer; the request it opened last and left
open is the one the session awaits. -/
theorem requests_answered (k : Kernel) (id : SessionId) (hnew : k.sessions id = none)
    (calls : List KernelCall) (hcalls : ∀ call ∈ calls, call.Journaled id) :
    let marked := ((journal id (machine.run k calls).2).map (·.event)).filter (·.marks)
    marked.IsChain (fun m e => e.Meets m.opens?) ∧ (∀ e ∈ marked.head?, e.Meets none) ∧
      ∀ s, (machine.run k calls).1.sessions id = some s →
        marked.getLast?.bind (·.opens?) =
          ((s.pendingPermission.map .approval).or (s.pendingQuestion.map .question)) := by
  intro marked
  obtain ⟨talk, hlisten, hof⟩ := run_listens (of_silence hnew) hcalls
  obtain ⟨hchain, hhead, hawaits⟩ := Talk.answers_of_listen hlisten
  refine ⟨hchain, hhead, fun s hs => hawaits.symm.trans ?_⟩
  rw [hs] at hof
  rw [← hof.pending.1, ← hof.pending.2]
  cases talk.phase <;> rfl

/-- A session that answers two questions, and ends its turn while it waits for an approval. -/
def interruptedCalls : List KernelCall :=
  let send command := KernelCall.apply ⟨⟨0⟩, .test, false, command⟩
  [ send (.createSession ⟨1⟩ "/w" .test .confirm),
    send (.submitPrompt ⟨1⟩ ⟨2⟩ "hi" []),
    .record ⟨1⟩ ⟨0⟩ .test (.questionAsked "q" "why" []),
    .record ⟨1⟩ ⟨0⟩ .test (.questionAnswered "q" ["so"]),
    .record ⟨1⟩ ⟨0⟩ .test (.permissionRequired "p" "run" .null []),
    send (.cancelTurn ⟨1⟩ ⟨2⟩),
    .record ⟨1⟩ ⟨0⟩ .test (.permissionResolved "p" true none),
    send (.submitPrompt ⟨1⟩ ⟨3⟩ "again" []) ]

theorem journaled_interruptedCalls : ∀ call ∈ interruptedCalls, call.Journaled ⟨1⟩ := by
  simp [interruptedCalls, KernelCall.Journaled, AppEvent.isInteraction]

/-- Their run. -/
def interrupted : Kernel × List EventEnvelope :=
  machine.run (withServices fun _ => ⟨"", "", ""⟩) interruptedCalls

theorem run_heard_interrupted :
    ∃ talk, Talk.silence.listen ((journal ⟨1⟩ interrupted.2).map (·.event)) = some talk ∧
      talk.Of (interrupted.1.sessions ⟨1⟩) :=
  run_heard _ ⟨1⟩ rfl interruptedCalls journaled_interruptedCalls

theorem turns_end_once_interrupted :
    (((journal ⟨1⟩ interrupted.2).map (·.event)).filterMap (·.started?)).Nodup :=
  (turns_end_once _ ⟨1⟩ rfl interruptedCalls journaled_interruptedCalls).2.1

theorem requests_answered_interrupted :
    (((journal ⟨1⟩ interrupted.2).map (·.event)).filter (·.marks)).IsChain
      (fun m e => e.Meets m.opens?) :=
  (requests_answered _ ⟨1⟩ rfl interruptedCalls journaled_interruptedCalls).1

end Kernel

end AxiomDesktop
