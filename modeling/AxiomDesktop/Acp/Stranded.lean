import AxiomDesktop.Acp.Prompting
import AxiomDesktop.App.Restore

/-!
# Which failed write strands a turn

Where the handler of a prompt has released the session's work, the kernel's session is ready.
`prompt_settles_iff` tells when the store runs no turn of the thread either: in the runs where no
append of the events that end the turn failed, or the prompt itself was not appended. `Stands` says
where the kernel, the store and the handler are at each stage, and `stands_step` that every move
keeps it.
-/

namespace AxiomDesktop

open Fallible

/-! ## The kernel -/

namespace Kernel

variable {k k' : Kernel} {id : SessionId} {turnId : TurnId}

/-- The session is ready for a command. -/
def Ready (session : Option SessionState) : Prop := ∃ s ∈ session, s.lifecycle = .ready

/-- The session runs the turn. -/
def Active (turnId : TurnId) (session : Option SessionState) : Prop :=
  ∃ s ∈ session, s.activeTurn = some turnId ∧ s.lifecycle.inFlight = true

theorem withSession_sessions (session : SessionState) :
    (k.withSession id session).sessions id = some session := Function.update_self ..

theorem withSession_other {other : SessionId} (hne : other ≠ id) (session : SessionState) :
    (k.withSession other session).sessions id = k.sessions id :=
  Function.update_of_ne hne.symm ..

/-- A call about other sessions leaves the session. -/
theorem step_spares {call : KernelCall} (h : call.spares id = true) :
    (machine.step k call).1.sessions id = k.sessions id := by
  obtain hsame | ⟨request, rfl, happly⟩ | ⟨other, _, _, _, _, rfl, hrecord, -⟩ |
    ⟨events, _, rfl, hrestore, -⟩ := step_cases k call
  · rw [hsame]
  · obtain ⟨s', _, -, hemitted⟩ := apply_ok happly
    rw [hemitted.sessions, withSession_other (of_decide_eq_true h)]
  · obtain ⟨_, s', _, _, hemitted⟩ := record_ok hrecord
    rw [hemitted.sessions, withSession_other (of_decide_eq_true h)]
  · obtain ⟨restored, hproject, -, hkernel⟩ := restoreFromEvents_ok hrestore
    obtain ⟨e, he, hid⟩ := RestoreProjection.project_id hproject
    have hne : restored.id ≠ id := by
      rw [← hid]
      exact of_decide_eq_true (List.all_eq_true.mp h e (List.mem_of_mem_head? he))
    rw [hkernel]
    exact withSession_other hne _

/-- What a submission that is accepted does. -/
theorem submitted {c : CorrelationId} {origin : Origin} {text : String}
    {attachments : List PromptAttachment} {events : List EventEnvelope}
    (h : (apply ⟨c, origin, false, .submitPrompt id turnId text attachments⟩).exec k =
      (.ok events, k')) :
    Active turnId (k'.sessions id) ∧ (∀ e ∈ events, e.sessionId = id) ∧
      events.map (·.event) = [.promptAccepted turnId text attachments, .turnStarted turnId] := by
  simp only [apply, transition, exec_bind_ok, exec_failIf_ok, exec_ofResult_ok, sessionMut_ok,
    invalidIf_ok, exec_insert_ok, exec_pure, Prod.mk.injEq, Except.ok.injEq] at h
  obtain ⟨_, _, ⟨-, rfl⟩, _, _, ⟨_, _, ⟨-, rfl⟩, s, _, ⟨-, rfl⟩, _, _, ⟨-, rfl⟩, _, _, ⟨-, rfl⟩, _, _,
    rfl, rfl, rfl⟩, hemit⟩ := h
  have hemitted := mapM_envelope_ok hemit
  refine ⟨⟨{ s with lifecycle := .running, activeTurn := some turnId }, ?_, rfl, rfl⟩,
    hemitted.owner, hemitted.events⟩
  rw [hemitted.sessions]
  exact withSession_sessions _

/-- The commands that end a turn, with the events that they cause. -/
inductive EndsWith (id : SessionId) (turnId : TurnId) : AppCommand → AppEvent → Prop where
  | finish : EndsWith id turnId (.finishTurn id turnId) (.turnCompleted turnId)
  | cancel : EndsWith id turnId (.cancelTurn id turnId) (.turnCancelled turnId)
  | fail (message : String) :
    EndsWith id turnId (.failTurn id turnId message) (.errorRaised (some turnId) message)

/-- A command that ends the active turn succeeds. -/
theorem ended (c : CorrelationId) (origin : Origin) {command : AppCommand} {event : AppEvent}
    (hends : EndsWith id turnId command event) (hactive : Active turnId (k.sessions id)) :
    ∃ envelope k', (apply ⟨c, origin, false, command⟩).exec k = (.ok [envelope], k') ∧
      envelope.event = event ∧ envelope.sessionId = id ∧ Ready (k'.sessions id) := by
  obtain ⟨session, hs, hturn, hflight⟩ := hactive
  have hfinish : (finishActive id turnId).exec k =
      (.ok ⟨⟩, k.withSession id (session.finished turnId)) := by
    simp [finishActive, exec_bind_ok, Option.mem_def.mp hs, hturn, hflight, SessionState.finished,
      SessionState.resumed]
  have htransition : (transition command).exec k =
      (.ok [event], k.withSession id (session.finished turnId)) := by
    cases hends <;> exact exec_bind_ok.mpr ⟨⟨⟩, _, hfinish, rfl⟩
  have hid : command.sessionId = id := by cases hends <;> rfl
  have hemit : ([event].mapM (envelope command.sessionId c origin)).exec
      (k.withSession id (session.finished turnId)) =
        (.ok [{ schemaVersion := 1
                sequence := k.nextSequence + 1
                occurredAt := k.now k.ticks
                correlationId := c, origin, sessionId := id, event }],
          { k.withSession id (session.finished turnId) with
            nextSequence := k.nextSequence + 1, ticks := k.ticks + 1 }) := by
    rw [hid]
    rfl
  refine ⟨_, _, exec_bind_ok.mpr ⟨⟨⟩, k, rfl, exec_bind_ok.mpr ⟨_, _, htransition, hemit⟩⟩, rfl, rfl,
    session.finished turnId, withSession_sessions _, rfl⟩

/-- A step that an observation reports leaves the active turn in flight. -/
theorem active_step {s s' : SessionState} {e : AppEvent} (hstep : SessionStep id (some s) [e] s')
    (he : e.isObservation = true) (hturn : s.activeTurn = some turnId)
    (hflight : s.lifecycle.inFlight = true) :
    s'.activeTurn = some turnId ∧ s'.lifecycle.inFlight = true := by
  generalize hevents : [e] = events at hstep
  generalize hbefore : some s = before at hstep
  have observed : ∀ event : AppEvent, [e] = [event] → event.isObservation = true := by
    intro event heq
    rwa [← (List.cons.inj heq).1]
  cases hstep with
  | created | resumed => cases hbefore
  | started s₁ T more =>
    have hlast : e = .turnStarted T := by
      have := congrArg List.getLast? hevents
      simpa using this
    rw [hlast] at he
    cases he
  | finished s₁ T event hactive hflight hends =>
    cases hends <;> cases observed _ hevents
  | configured | reprofiled | closed => cases observed _ hevents
  | permission | permitted | asked | answered =>
    cases hbefore
    exact ⟨hturn, rfl⟩
  | reported =>
    cases hbefore
    exact ⟨hturn, hflight⟩

/-- An observation that is recorded leaves the turn active. -/
theorem recorded {c : CorrelationId} {origin : Origin} {e : AppEvent} {envelope : EventEnvelope}
    (h : (record id c origin e).exec k = (.ok envelope, k')) (he : e.isObservation = true)
    (hactive : Active turnId (k.sessions id)) :
    Active turnId (k'.sessions id) ∧ envelope.event = e ∧ envelope.sessionId = id := by
  obtain ⟨session, hsession, hturn, hflight⟩ := hactive
  obtain ⟨s, s', hs, hstep, hemitted⟩ := record_ok h
  obtain rfl : session = s := Option.some.inj ((Option.mem_def.mp hsession).symm.trans hs)
  have hkept : s'.activeTurn = some turnId ∧ s'.lifecycle.inFlight = true := by
    obtain hstep | ⟨-, rfl⟩ := hstep
    · exact active_step hstep he hturn hflight
    · exact ⟨hturn, hflight⟩
  refine ⟨⟨s', ?_, hkept⟩, by simpa using hemitted.events, hemitted.owner envelope (by simp)⟩
  rw [hemitted.sessions]
  exact withSession_sessions _

end Kernel

namespace Prompting

open Store (Environment Database Runs RunsAfter startedTurn endedTurn appendBatch appendBatch_runs
  runningTurns_eq_nil)

variable {p : Prompt} {s s' : Prompting} {log entries : List Entry}

/-! ## The store -/

theorem observation_passes {e : AppEvent} (h : e.isObservation = true) :
    startedTurn e = none ∧ endedTurn e = none := by
  cases e with
  | promptAccepted | turnStarted | turnCompleted | turnCancelled | errorRaised => cases h
  | _ => exact ⟨rfl, rfl⟩

/-- A call of the store fails and leaves the tables, or does what its events say. -/
theorem persist_cases (fault : Option AxiomError) (env : Environment)
    {envelopes : List EventEnvelope} (c : Option String) (r : Option Store.PromptRevision)
    (db : Database) {t : String} (ht : ∀ e ∈ envelopes, e.sessionId.toString = t) :
    (∃ error, persist fault env envelopes c r db = (.error error, db)) ∨
      ∃ db', persist fault env envelopes c r db = (.ok (), db') ∧
        ∀ T, Runs db' t T ↔ RunsAfter T (envelopes.map (·.event)) (Runs db t T) := by
  unfold persist
  cases fault with
  | some error => exact .inl ⟨error, rfl⟩
  | none =>
    rcases hbatch : appendBatch env envelopes c none r db with ⟨error | out, db'⟩
    · obtain rfl := Store.appendBatch_error hbatch
      exact .inl ⟨error, rfl⟩
    · exact .inr ⟨db', rfl, fun T => appendBatch_runs ht hbatch⟩

/-- The turns of the thread that run. -/
def running (p : Prompt) (db : Database) : Set String := {T | Runs db p.threadId T}

theorem mem_running {db : Database} {T : String} : T ∈ running p db ↔ Runs db p.threadId T := Iff.rfl

theorem running_eq_empty {db : Database} :
    running p db = ∅ ↔ db.runningTurns p.threadId = [] := by
  rw [runningTurns_eq_nil, Set.eq_empty_iff_forall_notMem]
  rfl

/-- The turn of the prompt. -/
def turn (p : Prompt) : String := p.turnId.toString

/-- The events of the accepted prompt. -/
structure Submits (p : Prompt) (events : List EventEnvelope) : Prop where
  owner : ∀ e ∈ events, e.sessionId.toString = p.threadId
  events : events.map (·.event) =
    [.promptAccepted p.turnId p.text p.attachments, .turnStarted p.turnId]

/-- The event that ends the turn. -/
structure Ends (p : Prompt) (events : List EventEnvelope) : Prop where
  owner : ∀ e ∈ events, e.sessionId.toString = p.threadId
  events : ∃ event, events.map (·.event) = [event] ∧ startedTurn event = none ∧
    endedTurn event = some (turn p)

theorem Submits.runs {events : List EventEnvelope} (h : Submits p events) {db db' : Database}
    (hruns : ∀ T, Runs db' p.threadId T ↔
      RunsAfter T (events.map (·.event)) (Runs db p.threadId T)) (hidle : running p db = ∅) :
    running p db' = {turn p} := by
  ext T
  have hnone : ¬Runs db p.threadId T := by
    rw [← mem_running, hidle]
    exact Set.notMem_empty T
  rw [mem_running, hruns, h.events, Set.mem_singleton_iff]
  simp [RunsAfter, startedTurn, endedTurn, Store.finishOf, hnone, turn, eq_comm]

theorem Ends.runs {events : List EventEnvelope} (h : Ends p events) {db db' : Database}
    (hruns : ∀ T, Runs db' p.threadId T ↔
      RunsAfter T (events.map (·.event)) (Runs db p.threadId T)) :
    running p db' = running p db \ {turn p} := by
  obtain ⟨event, hevent, hstart, hend⟩ := h.events
  ext T
  rw [mem_running, hruns, hevent, Set.mem_sdiff, Set.mem_singleton_iff, mem_running]
  simp [RunsAfter, hstart, hend, eq_comm]

/-! ## The stages -/

/-- An append failed. -/
def Refused (log : List Entry) (appending : Appending) : Prop := ⟨appending, false⟩ ∈ log

/-- Neither the prompt nor the end of the turn was refused. -/
def Clean (log : List Entry) : Prop := ¬Refused log .prompt ∧ ¬Refused log .terminal

/-- The turn runs in the store unless the prompt was refused, and its end was not. -/
def Kept (p : Prompt) (log : List Entry) (running : Set String) : Prop :=
  ¬Refused log .terminal ∧
    (Refused log .prompt ∧ running = ∅ ∨ ¬Refused log .prompt ∧ running = {turn p})

/-- Where the task stands. -/
def TaskStands (p : Prompt) (log : List Entry) (session : Option SessionState)
    (running : Set String) (terminalized : Bool) : Listener.Phase Unit → Prop
  | .listening | .draining _ | .finishing _ =>
    Kernel.Active p.turnId session ∧ running = {turn p} ∧ terminalized = false ∧ Clean log
  | .received event _ =>
    (Kernel.Active p.turnId session ∧ running = {turn p} ∧ terminalized = false ∧ Clean log) ∧
      event.isObservation = true
  | .emitted envelope _ =>
    (Kernel.Active p.turnId session ∧ running = {turn p} ∧ terminalized = false ∧ Clean log) ∧
      envelope.event.isObservation = true ∧ envelope.sessionId = p.sessionId
  | .dispatched events _ =>
    Kernel.Ready session ∧ running = {turn p} ∧ terminalized = true ∧ Clean log ∧ Ends p events
  | .ended _ => Kernel.Ready session ∧ running = ∅ ∧ Clean log
  | .failed _ =>
    if terminalized then
      Kernel.Ready session ∧ running = {turn p} ∧ ¬Refused log .prompt ∧ Refused log .terminal
    else Kernel.Active p.turnId session ∧ running = {turn p} ∧ Clean log

/-- Where the kernel and the store stand at a stage of the handler. -/
def StageStands (p : Prompt) (log : List Entry) (phase : Listener.Phase Unit)
    (session : Option SessionState) (running : Set String) (terminalized : Bool) : Stage → Prop
  | .checked =>
    phase = .listening ∧ Kernel.Ready session ∧ running = ∅ ∧ terminalized = false ∧ Clean log
  | .submitted events =>
    phase = .listening ∧ Kernel.Active p.turnId session ∧ running = ∅ ∧ terminalized = false ∧
      Clean log ∧ Submits p events
  | .appended | .prepared =>
    phase = .listening ∧ Kernel.Active p.turnId session ∧ running = {turn p} ∧
      terminalized = false ∧ Clean log
  | .task => TaskStands p log session running terminalized phase
  | .failing _ => Kernel.Active p.turnId session ∧ Kept p log running
  | .failed events => Kernel.Ready session ∧ Kept p log running ∧ Ends p events
  | .released =>
    Kernel.Ready session ∧ (running = ∅ ↔ Refused log .prompt ∨ ¬Refused log .terminal)

/-- **The invariant.** The channel holds observations alone, and the kernel and the store are where
the stage puts them. -/
structure Stands (p : Prompt) (log : List Entry) (s : Prompting) : Prop where
  queue : ∀ e ∈ s.listener.queue, e.isObservation = true
  stage : StageStands p log s.listener.phase (s.listener.kernel.sessions p.sessionId)
    (running p s.store) s.terminalized s.stage

@[simp] theorem refused_stored {a b : Appending} :
    Refused (log ++ [⟨a, true⟩]) b ↔ Refused log b := by simp [Refused]

@[simp] theorem refused_refused {a b : Appending} :
    Refused (log ++ [⟨a, false⟩]) b ↔ Refused log b ∨ b = a := by simp [Refused]

/-- The log of a step that calls no store. -/
theorem Stands.quiet (h : Stands p log s') : Stands p (log ++ []) s' := by
  rwa [List.append_nil]

/-! ## The submission -/

theorem stands_submit (h : Stands p log s) (c : CorrelationId) (origin : Origin) :
    Stands p (log ++ (step p s (.submit c origin)).2) (step p s (.submit c origin)).1 := by
  simp only [step]
  split
  · next hstage =>
    have hs := h.stage
    rw [hstage] at hs
    obtain ⟨hphase, hready, hidle, hterminalized, hclean⟩ := hs
    split
    · next events kernel hdispatch =>
      obtain ⟨hactive, howner, hevents⟩ := Kernel.submitted hdispatch
      have hsubmits : Submits p events := ⟨fun e he => congrArg _ (howner e he), hevents⟩
      exact .quiet ⟨h.queue, hphase, hactive, hidle, hterminalized, hclean, hsubmits⟩
    · next error kernel hdispatch =>
      obtain rfl : kernel = s.listener.kernel := Kernel.clean_apply _ _ _ _ hdispatch
      exact .quiet ⟨h.queue, hready, iff_of_true hidle (.inr hclean.2)⟩
  · exact h.quiet

theorem stands_appendPrompt (h : Stands p log s) (env : Environment)
    (fault : Option AxiomError) :
    Stands p (log ++ (step p s (.appendPrompt env fault)).2)
      (step p s (.appendPrompt env fault)).1 := by
  simp only [step]
  split
  · next events hstage =>
    have hs := h.stage
    rw [hstage] at hs
    obtain ⟨hphase, hactive, hidle, hterminalized, hclean, hsubmits⟩ := hs
    obtain ⟨error, hpersist⟩ | ⟨db, hpersist, hruns⟩ :=
      persist_cases fault env p.clientItemId p.messageRevision s.store hsubmits.owner
    · rw [hpersist]
      have hkept : Kept p (log ++ [⟨.prompt, false⟩]) (running p s.store) :=
        ⟨by simpa using hclean.2, .inl ⟨by simp, hidle⟩⟩
      exact ⟨h.queue, hactive, hkept⟩
    · rw [hpersist]
      have hclean' : Clean (log ++ [⟨.prompt, true⟩]) := by simpa [Clean] using hclean
      exact ⟨h.queue, hphase, hactive, hsubmits.runs hruns hidle, hterminalized, hclean'⟩
  · exact h.quiet

theorem stands_prepare (h : Stands p log s) (preferences : Store.ProfilePreferences)
    (outcome : Except AxiomError Unit) :
    Stands p (log ++ (step p s (.prepare preferences outcome)).2)
      (step p s (.prepare preferences outcome)).1 := by
  simp only [step]
  split
  · next hstage =>
    have hs := h.stage
    rw [hstage] at hs
    cases outcome with
    | ok _ => exact .quiet ⟨h.queue, hs⟩
    | error error =>
      obtain ⟨-, hactive, hholds, -, hclean⟩ := hs
      exact .quiet ⟨h.queue, hactive, hclean.2, .inr ⟨hclean.1, hholds⟩⟩
  · exact h.quiet

theorem stands_start (h : Stands p log s) (mcp : Except AxiomError Unit) :
    Stands p (log ++ (step p s (.start mcp)).2) (step p s (.start mcp)).1 := by
  simp only [step]
  split
  · next hstage =>
    have hs := h.stage
    rw [hstage] at hs
    obtain ⟨hphase, hactive, hholds, hterminalized, hclean⟩ := hs
    cases mcp with
    | ok _ =>
      refine .quiet ⟨h.queue, ?_⟩
      show TaskStands p log _ _ _ s.listener.phase
      rw [hphase]
      exact ⟨hactive, hholds, hterminalized, hclean⟩
    | error error => exact .quiet ⟨h.queue, hactive, hclean.2, .inr ⟨hclean.1, hholds⟩⟩
  · exact h.quiet

/-! ## The task -/

section Task

variable {l l' : Listener Unit}

/-- The part of the invariant that is about the task. -/
structure Tasked (p : Prompt) (log : List Entry) (l : Listener Unit) (running : Set String)
    (terminalized : Bool) : Prop where
  queue : ∀ e ∈ l.queue, e.isObservation = true
  stands : TaskStands p log (l.kernel.sessions p.sessionId) running terminalized l.phase

variable {running : Set String} {terminalized : Bool}

theorem Tasked.sending (h : Tasked p log l running terminalized) {event : AppEvent}
    (he : event.isObservation = true) : Tasked p log (l.sending event) running terminalized := by
  unfold Listener.sending
  split
  · refine ⟨?_, h.stands⟩
    intro e hmem
    obtain hmem | hmem := List.mem_append.mp hmem
    · exact h.queue e hmem
    · rwa [List.mem_singleton.mp hmem]
  · exact h

/-- The loop ends. -/
theorem Tasked.broken (h : Tasked p log l running terminalized) (hphase : l.phase = .listening)
    (result : Except AxiomError Unit) :
    Tasked p log (l.broken p.operation result) running terminalized := by
  have hstands := h.stands
  rw [hphase] at hstands
  exact ⟨h.queue, hstands⟩

/-- An event is taken from the channel. -/
theorem Tasked.took (h : Tasked p log l running terminalized) {event : AppEvent}
    {queue : List AppEvent} (hqueue : l.queue = event :: queue)
    {behind : Option (Except AxiomError Unit)} (hphase : l.phase = .resumed behind) :
    Tasked p log { l with queue, phase := .received event behind } running terminalized := by
  obtain ⟨hqueued, hstands⟩ := h
  rw [hqueue, List.forall_mem_cons] at hqueued
  refine ⟨hqueued.2, ?_⟩
  rw [hphase] at hstands
  cases behind with
  | none => exact ⟨hstands, hqueued.1⟩
  | some result => exact ⟨hstands, hqueued.1⟩

/-- A move that neither the kernel nor the store sees keeps the task where it stands. -/
theorem Tasked.listen (h : Tasked p log l running terminalized) {move : Listener.Move Unit}
    (hmove : listens move = true) :
    Tasked p log (l.step p.operation move).1 running terminalized := by
  cases move with
  | send event => exact h.sending hmove
  | cancelRequest | cancelWork => exact ⟨h.queue, h.stands⟩
  | returns result =>
    simp only [Listener.step]
    split
    · next hphase => exact h.broken hphase result
    · exact h
  | receive =>
    simp only [Listener.step]
    split
    · next event queue hphase hqueue => exact h.took hqueue (hphase : l.phase = .resumed none)
    · exact h
  | observeCancelled request =>
    simp only [Listener.step]
    split
    · next hphase =>
      split
      · have hcancelled : Tasked p log { l with workCancelled := true } running terminalized :=
          ⟨h.queue, h.stands⟩
        exact hcancelled.broken hphase _
      · exact h
    · exact h
  | drain =>
    simp only [Listener.step]
    split
    · next result event queue hphase hqueue =>
      exact h.took hqueue (hphase : l.phase = .resumed (some result))
    · next result hphase hqueue =>
      have hstands := h.stands
      rw [hphase] at hstands
      exact ⟨h.queue, hstands⟩
    · exact h
  | others | emit | append | dispatch | appendAll => cases hmove

/-- A step whose fault fails the task before the turn has ended in the kernel. -/
theorem taskStands_failed {session : Option SessionState} {error : AxiomError}
    (hactive : Kernel.Active p.turnId session) (hholds : running = {turn p})
    (hterminalized : terminalized = false) (hclean : Clean log) :
    TaskStands p log session running terminalized (.failed error) := by
  show if terminalized = true then _ else _
  rw [if_neg (by simp [hterminalized])]
  exact ⟨hactive, hholds, hclean⟩

/-- An event is emitted, or the kernel refuses it. -/
theorem Tasked.emit (h : Tasked p log l running terminalized) (c : CorrelationId)
    (origin : Origin) : Tasked p log (l.step p.operation (.emit c origin)).1 running terminalized := by
  simp only [Listener.step]
  split
  · next event behind hphase =>
    obtain ⟨hqueued, hstands⟩ := h
    rw [hphase] at hstands
    obtain ⟨⟨hactive, hholds, hterminalized, hclean⟩, hevent⟩ := hstands
    split
    · next envelope kernel hrecord =>
      obtain ⟨hactive', heq, howner⟩ := Kernel.recorded hrecord hevent hactive
      exact ⟨hqueued, ⟨hactive', hholds, hterminalized, hclean⟩, heq ▸ hevent, howner⟩
    · next error kernel hrecord =>
      obtain rfl : kernel = l.kernel := Kernel.clean_record _ _ _ _ _ _ _ hrecord
      exact ⟨hqueued, taskStands_failed hactive hholds hterminalized hclean⟩
  · exact h

theorem noting_kernel (l : Listener Unit) (event : AppEvent) :
    (l.noting event).kernel = l.kernel ∧ (l.noting event).queue = l.queue := by
  cases event <;> exact ⟨rfl, rfl⟩

/-- The envelope that was emitted is of an observation of the session. -/
theorem Tasked.observation (h : Tasked p log l running terminalized) {envelope : EventEnvelope}
    {behind : Option (Except AxiomError Unit)} (hphase : l.phase = .emitted envelope behind) :
    envelope.event.isObservation = true ∧ envelope.sessionId = p.sessionId := by
  have hstands := h.stands
  rw [hphase] at hstands
  exact hstands.2

/-- The envelope is appended and shown, or the task fails. -/
theorem Tasked.append (h : Tasked p log l running terminalized) {envelope : EventEnvelope}
    {behind : Option (Except AxiomError Unit)} (hphase : l.phase = .emitted envelope behind)
    (stored shown : Except AxiomError Unit) :
    Tasked p log (l.step p.operation (.append stored shown)).1 running terminalized := by
  obtain ⟨hqueue, hstands⟩ := h
  rw [hphase] at hstands
  obtain ⟨⟨hactive, hholds, hterminalized, hclean⟩, -⟩ := hstands
  obtain ⟨hkernel, hqueue'⟩ := noting_kernel l envelope.event
  simp only [Listener.step, hphase]
  cases stored with
  | error error => exact ⟨hqueue, taskStands_failed hactive hholds hterminalized hclean⟩
  | ok _ =>
    have hactive' : Kernel.Active p.turnId ((l.noting envelope.event).kernel.sessions p.sessionId) := by
      rwa [hkernel]
    refine ⟨?_, ?_⟩
    · show ∀ e ∈ (l.noting envelope.event).queue, _
      rwa [hqueue']
    · cases shown with
      | error error => exact taskStands_failed hactive' hholds hterminalized hclean
      | ok _ => cases behind <;> exact ⟨hactive', hholds, hterminalized, hclean⟩

/-- Whether an event of the runner was stored does not count. -/
theorem Tasked.logged (h : Tasked p log l running terminalized) (stored : Bool) :
    Tasked p (log ++ [⟨.streamed, stored⟩]) l running terminalized := by
  have hrefused : ∀ a : Appending, a ≠ .streamed →
      (Refused (log ++ [⟨.streamed, stored⟩]) a ↔ Refused log a) := by
    intro a ha
    cases stored <;> simp [ha]
  have hprompt := hrefused .prompt nofun
  have hterminal := hrefused .terminal nofun
  have hlog : TaskStands p (log ++ [⟨.streamed, stored⟩]) = TaskStands p log := by
    funext session running terminalized phase
    cases phase <;> simp only [TaskStands, Clean, hprompt, hterminal]
  exact ⟨h.queue, hlog ▸ h.stands⟩

end Task

theorem Stands.tasked (h : Stands p log s) (hstage : s.stage = .task) :
    Tasked p log s.listener (running p s.store) s.terminalized := by
  have hs := h.stage
  rw [hstage] at hs
  exact ⟨h.queue, hs⟩

theorem Stands.of_tasked {l : Listener Unit} (hstage : s.stage = .task)
    (h : Tasked p log l (running p s.store) s.terminalized) :
    Stands p log { s with listener := l } := by
  refine ⟨h.queue, ?_⟩
  show StageStands p log _ _ _ _ s.stage
  rw [hstage]
  exact h.stands

theorem stands_listen (h : Stands p log s) (move : Listener.Move Unit) :
    Stands p (log ++ (step p s (.listen move)).2) (step p s (.listen move)).1 := by
  simp only [step]
  split
  · next hstage =>
    split
    · next hmove => exact (Stands.of_tasked hstage ((h.tasked hstage).listen hmove)).quiet
    · exact h.quiet
  · exact h.quiet

theorem stands_emit (h : Stands p log s) (c : CorrelationId) (origin : Origin) :
    Stands p (log ++ (step p s (.emit c origin)).2) (step p s (.emit c origin)).1 := by
  simp only [step]
  split
  · next hstage => exact (Stands.of_tasked hstage ((h.tasked hstage).emit c origin)).quiet
  · exact h.quiet

/-- An observation that is stored leaves the turns that run. -/
theorem running_observed {e : AppEvent} (he : e.isObservation = true) {db db' : Database}
    (hruns : ∀ T, Runs db' p.threadId T ↔ RunsAfter T [e] (Runs db p.threadId T)) :
    running p db' = running p db := by
  obtain ⟨hstart, hend⟩ := observation_passes he
  ext T
  rw [mem_running, hruns, mem_running]
  simp [RunsAfter, hstart, hend]

theorem stands_append (h : Stands p log s) (env : Environment) (fault : Option AxiomError)
    (shown : Except AxiomError Unit) :
    Stands p (log ++ (step p s (.append env fault shown)).2)
      (step p s (.append env fault shown)).1 := by
  simp only [step]
  split
  · next envelope behind hstage hphase =>
    have htasked := h.tasked hstage
    obtain ⟨hevent, howner⟩ := htasked.observation hphase
    have hthread : ∀ e ∈ [envelope], e.sessionId.toString = p.threadId := by
      intro e he
      rw [List.mem_singleton.mp he, howner]
      rfl
    obtain ⟨error, hpersist⟩ | ⟨db, hpersist, hruns⟩ :=
      persist_cases fault env none none s.store hthread
    · rw [hpersist]
      have hlistener := (htasked.append hphase (.error error) shown).logged false
      exact .of_tasked (s := { s with store := s.store }) hstage hlistener
    · rw [hpersist]
      have hlistener := (htasked.append hphase (.ok ()) shown).logged true
      rw [← running_observed hevent hruns] at hlistener
      exact .of_tasked (s := { s with store := db }) hstage hlistener
  · exact h.quiet

/-! ## The end of the turn -/

/-- The command that follows the loop ends the turn. -/
theorem terminal_ends (p : Prompt) (result : Except AxiomError Unit) (cancelled : Bool) :
    ∃ command event, p.operation.terminal result cancelled = some command ∧
      Kernel.EndsWith p.sessionId p.turnId command event := by
  cases result with
  | ok _ => exact ⟨_, _, rfl, .finish⟩
  | error error =>
    cases error with
    | cancelled => exact ⟨_, _, rfl, .cancel⟩
    | _ => exact ⟨_, _, rfl, .fail _⟩

/-- The events of a command that ends the turn. -/
theorem ends_of_endsWith {command : AppCommand} {envelope : EventEnvelope}
    (hends : Kernel.EndsWith p.sessionId p.turnId command envelope.event)
    (howner : envelope.sessionId = p.sessionId) : Ends p [envelope] := by
  refine ⟨?_, envelope.event, rfl, ?_⟩
  · intro e he
    rw [List.mem_singleton.mp he, howner]
    rfl
  · generalize envelope.event = event at hends
    cases hends <;> exact ⟨rfl, rfl⟩

theorem stands_dispatch (h : Stands p log s) (c : CorrelationId) (origin : Origin) :
    Stands p (log ++ (step p s (.dispatch c origin)).2) (step p s (.dispatch c origin)).1 := by
  simp only [step]
  split
  · next hstage =>
    cases hphase : s.listener.phase with
    | finishing result =>
      obtain ⟨hqueue, hstands⟩ := h.tasked hstage
      rw [hphase] at hstands
      obtain ⟨hactive, hholds, hterminalized, hclean⟩ := hstands
      obtain ⟨command, event, hcommand, hends⟩ := terminal_ends p result
        (s.listener.workCancelled || s.listener.requestCancelled)
      obtain ⟨envelope, kernel, happly, rfl, howner, hready⟩ :=
        Kernel.ended c origin hends hactive
      simp only [Listener.step, hphase, hcommand, happly]
      refine .quiet ⟨hqueue, ?_⟩
      simp only [hstage]
      exact ⟨hready, hholds, rfl, hclean, ends_of_endsWith hends howner⟩
    | dispatched events result =>
      obtain ⟨hqueue, hstands⟩ := h.tasked hstage
      rw [hphase] at hstands
      obtain ⟨hready, hholds, -, hclean, hends⟩ := hstands
      simp only [Listener.step, hphase]
      refine .quiet ⟨hqueue, ?_⟩
      simp only [hstage, hphase]
      exact ⟨hready, hholds, rfl, hclean, hends⟩
    | _ =>
      simp only [Listener.step, hphase]
      exact h.quiet
  · exact h.quiet

theorem Kept.ended {running : Set String} (h : Kept p log running) {db db' : Database}
    (hrunning : running = Prompting.running p db) {events : List EventEnvelope} (hends : Ends p events)
    (hruns : ∀ T, Runs db' p.threadId T ↔
      RunsAfter T (events.map (·.event)) (Runs db p.threadId T)) :
    Prompting.running p db' = ∅ := by
  rw [hends.runs hruns, ← hrunning]
  obtain ⟨-, rfl⟩ | ⟨-, rfl⟩ := h.2
  · exact Set.empty_sdiff _
  · exact Set.sdiff_self

theorem running_ne_empty {running : Set String} (h : running = {turn p}) : ¬running = ∅ := by
  rw [h]
  exact Set.singleton_ne_empty _

theorem stands_appendAll (h : Stands p log s) (env : Environment) (fault : Option AxiomError) :
    Stands p (log ++ (step p s (.appendAll env fault)).2) (step p s (.appendAll env fault)).1 := by
  simp only [step]
  split
  · next events result hstage hphase =>
    obtain ⟨hqueue, hstands⟩ := h.tasked hstage
    rw [hphase] at hstands
    obtain ⟨hready, hholds, hterminalized, hclean, hends⟩ := hstands
    obtain ⟨error, hpersist⟩ | ⟨db, hpersist, hruns⟩ :=
      persist_cases fault env none none s.store hends.owner
    · rw [hpersist]
      simp only [Listener.step, hphase]
      refine ⟨hqueue, ?_⟩
      simp only [hstage]
      show if s.terminalized = true then _ else _
      rw [if_pos hterminalized]
      exact ⟨hready, hholds, by simpa [Except.toBool] using hclean.1, by simp [Except.toBool]⟩
    · rw [hpersist]
      simp only [Listener.step, hphase]
      refine ⟨hqueue, ?_⟩
      simp only [hstage]
      have hkept : Kept p log (running p s.store) := ⟨hclean.2, .inr ⟨hclean.1, hholds⟩⟩
      exact ⟨hready, hkept.ended rfl hends hruns, by simpa [Except.toBool, Clean] using hclean⟩
  · exact h.quiet

theorem stands_finish (h : Stands p log s) :
    Stands p (log ++ (step p s .finish).2) (step p s .finish).1 := by
  simp only [step]
  split
  · next result hstage hphase =>
    obtain ⟨hqueue, hstands⟩ := h.tasked hstage
    rw [hphase] at hstands
    obtain ⟨hready, hidle, hclean⟩ := hstands
    exact .quiet ⟨hqueue, hready, iff_of_true hidle (.inr hclean.2)⟩
  · next error hstage hphase =>
    obtain ⟨hqueue, hstands⟩ := h.tasked hstage
    rw [hphase] at hstands
    cases hterminalized : s.terminalized with
    | true =>
      rw [hterminalized] at hstands
      obtain ⟨hready, hholds, hprompt, hterminal⟩ := hstands
      refine .quiet ⟨hqueue, hready, iff_of_false (running_ne_empty hholds) ?_⟩
      rintro (hrefused | hrefused)
      · exact hprompt hrefused
      · exact hrefused hterminal
    | false =>
      rw [hterminalized] at hstands
      obtain ⟨hactive, hholds, hclean⟩ := hstands
      exact .quiet ⟨hqueue, hactive, hclean.2, .inr ⟨hclean.1, hholds⟩⟩
  · exact h.quiet

theorem stands_fail (h : Stands p log s) (c : CorrelationId) (origin : Origin) :
    Stands p (log ++ (step p s (.fail c origin)).2) (step p s (.fail c origin)).1 := by
  simp only [step]
  split
  · next error hstage =>
    have hs := h.stage
    rw [hstage] at hs
    obtain ⟨hactive, hkept⟩ := hs
    obtain ⟨envelope, kernel, happly, hevent, howner, hready⟩ :=
      Kernel.ended c origin (.fail error.message) hactive
    have hdispatch : dispatching s.listener.kernel c origin (p.fail error) =
        (.ok [envelope], kernel) := happly
    rw [hdispatch]
    have hends : Kernel.EndsWith p.sessionId p.turnId (p.fail error) envelope.event := by
      rw [hevent]
      exact .fail error.message
    exact .quiet ⟨h.queue, hready, hkept, ends_of_endsWith hends howner⟩
  · exact h.quiet

theorem stands_appendFailed (h : Stands p log s) (env : Environment) (fault : Option AxiomError) :
    Stands p (log ++ (step p s (.appendFailed env fault)).2)
      (step p s (.appendFailed env fault)).1 := by
  simp only [step]
  split
  · next events hstage =>
    have hs := h.stage
    rw [hstage] at hs
    obtain ⟨hready, hkept, hends⟩ := hs
    obtain ⟨error, hpersist⟩ | ⟨db, hpersist, hruns⟩ :=
      persist_cases fault env none none s.store hends.owner
    · rw [hpersist]
      refine ⟨h.queue, hready, ?_⟩
      obtain ⟨-, ⟨hprompt, hidle⟩ | ⟨hprompt, hholds⟩⟩ := hkept
      · exact iff_of_true hidle (.inl (by simp [Except.toBool, hprompt]))
      · exact iff_of_false (running_ne_empty hholds) (by simp [Except.toBool, hprompt])
    · rw [hpersist]
      refine ⟨h.queue, hready, iff_of_true (hkept.ended rfl hends hruns) (.inr ?_)⟩
      simpa [Except.toBool] using hkept.1
  · exact h.quiet

/-! ## Others -/

theorem stands_elsewhere (h : Stands p log s) (call : KernelCall) :
    Stands p (log ++ (step p s (.elsewhere call)).2) (step p s (.elsewhere call)).1 := by
  simp only [step]
  split
  · next hspares =>
    refine .quiet ⟨h.queue, ?_⟩
    show StageStands p log _ ((Kernel.machine.step s.listener.kernel call).1.sessions p.sessionId)
      _ _ _
    rw [Kernel.step_spares hspares]
    exact h.stage
  · exact h.quiet

theorem stands_write (h : Stands p log s) (env : Environment) (op : Store.Write) :
    Stands p (log ++ (step p s (.write env op)).2) (step p s (.write env op)).1 := by
  simp only [step]
  split
  · next hspares =>
    refine .quiet ⟨h.queue, ?_⟩
    have hrunning : running p (op.run env s.store) = running p s.store := by
      ext T
      exact op.runs env hspares
    rw [hrunning]
    exact h.stage
  · exact h.quiet

/-- **Every move keeps the invariant.** -/
theorem stands_step (h : Stands p log s) (move : Move) :
    Stands p (log ++ (step p s move).2) (step p s move).1 := by
  cases move with
  | submit c origin => exact stands_submit h c origin
  | appendPrompt env fault => exact stands_appendPrompt h env fault
  | prepare preferences outcome => exact stands_prepare h preferences outcome
  | start mcp => exact stands_start h mcp
  | listen move => exact stands_listen h move
  | emit c origin => exact stands_emit h c origin
  | append env fault shown => exact stands_append h env fault shown
  | dispatch c origin => exact stands_dispatch h c origin
  | appendAll env fault => exact stands_appendAll h env fault
  | finish => exact stands_finish h
  | fail c origin => exact stands_fail h c origin
  | appendFailed env fault => exact stands_appendFailed h env fault
  | elsewhere call => exact stands_elsewhere h call
  | write env op => exact stands_write h env op

/-- A prompt of a session that is ready, in a thread whose turns have all ended. -/
theorem stands_run {kernel : Kernel} {store : Database}
    (hready : Kernel.Ready (kernel.sessions p.sessionId))
    (hidle : store.runningTurns p.threadId = []) (moves : List Move) :
    Stands p ((machine p).run (start kernel store) moves).2
      ((machine p).run (start kernel store) moves).1 := by
  refine (machine p).run_induction (C := fun _ _ => True)
    (motive := fun _ log s => Stands p log s) ?_ ?_ moves
    ((machine p).meets_of_forall (fun _ _ _ => trivial) _)
  · have hclean : Clean [] := ⟨List.not_mem_nil, List.not_mem_nil⟩
    have hqueue : ∀ e ∈ ([] : List AppEvent), e.isObservation = true :=
      fun _ he => absurd he List.not_mem_nil
    exact ⟨hqueue, rfl, hready, running_eq_empty.mpr hidle, rfl, hclean⟩
  · intro _ log s move h _
    exact stands_step h move

/-! ## The result -/

/-- The session is ready and the store runs no turn of the thread: it can be prompted, revised and
deleted. -/
def Settled (p : Prompt) (s : Prompting) : Prop :=
  Kernel.Ready (s.listener.kernel.sessions p.sessionId) ∧ s.store.runningTurns p.threadId = []

/-- **Once the work is released, the session is settled exactly if no append of the events that end
the turn failed, or the prompt had not been appended.** -/
theorem prompt_settles_iff (p : Prompt) (kernel : Kernel) (store : Database)
    (hready : Kernel.Ready (kernel.sessions p.sessionId))
    (hidle : store.runningTurns p.threadId = []) (moves : List Move)
    (hreleased : ((machine p).run (start kernel store) moves).1.stage = .released) :
    Settled p ((machine p).run (start kernel store) moves).1 ↔
      Refused ((machine p).run (start kernel store) moves).2 .prompt ∨
        ¬Refused ((machine p).run (start kernel store) moves).2 .terminal := by
  have hs := (stands_run hready hidle moves).stage
  rw [hreleased] at hs
  obtain ⟨hready', hiff⟩ := hs
  rw [← hiff, running_eq_empty]
  exact and_iff_right hready'

namespace Sample

def prompt : Prompt where
  sessionId := Store.Sample.session
  turnId := Store.Sample.turn
  text := "Hello"
  attachments := []
  clientItemId := none
  messageRevision := none

/-- The session is created in the kernel and in the store. -/
def kernel : Kernel :=
  (dispatching (.withServices fun _ => Store.Sample.time) ⟨0⟩ .acp
    (.createSession Store.Sample.session "/work" .acp .web)).2

def store : Database := (Store.store.run {} [Store.Sample.create]).1

/-- The runner returns, and the storage is full when the end of the turn is appended. -/
def moves : List Move :=
  [ .submit ⟨1⟩ .acp, .appendPrompt (Store.Sample.env "prompt") none,
    .prepare store.preferences (.ok ()), .start (.ok ()), .listen (.returns (.ok ())),
    .listen .drain, .dispatch ⟨2⟩ .acp,
    .appendAll (Store.Sample.env "end") (some (.storage "disk full")), .finish ]

end Sample

/-- The only append that fails is the last one, and the work is released with a turn that runs. -/
theorem failed_end_strands :
    ((machine Sample.prompt).run (start Sample.kernel Sample.store) Sample.moves).1.stage = .released ∧
      ((machine Sample.prompt).run (start Sample.kernel Sample.store) Sample.moves).2 =
        [⟨.prompt, true⟩, ⟨.terminal, false⟩] ∧
      ¬Settled Sample.prompt
        ((machine Sample.prompt).run (start Sample.kernel Sample.store) Sample.moves).1 := by
  refine ⟨rfl, by decide +kernel, ?_⟩
  intro h
  have hnone := h.2
  revert hnone
  decide +kernel

theorem prompt_settles_iff_full :
    Settled Sample.prompt
        ((machine Sample.prompt).run (start Sample.kernel Sample.store) Sample.moves).1 ↔
      Refused ((machine Sample.prompt).run (start Sample.kernel Sample.store) Sample.moves).2 .prompt ∨
        ¬Refused ((machine Sample.prompt).run (start Sample.kernel Sample.store) Sample.moves).2
          .terminal :=
  prompt_settles_iff Sample.prompt Sample.kernel Sample.store ⟨_, rfl, rfl⟩ (by decide +kernel)
    Sample.moves rfl

end Prompting

end AxiomDesktop
