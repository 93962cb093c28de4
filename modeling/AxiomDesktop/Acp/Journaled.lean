import AxiomDesktop.Acp.Listener

/-!
# The events of a runner are journaled

`events_journaled` tells in which runs of an operation every event that its runner sent is emitted
and appended once, in order, before the terminal event: in those where the loop ends with an empty
channel or is followed by a drain. `Stepped` says what one move can do, `Kept` what a run keeps: no
event is lost between the channel and the store (`conserve`).
-/

namespace AxiomDesktop

namespace Listener

variable {ρ : Type} {op : Operation ρ} {s s' : Listener ρ} {log entries : List Entry} {met : Prop}

/-! ## What was written -/

def Entry.emitted? : Entry → Option EventEnvelope
  | .emitted envelope => some envelope
  | _ => none

def Entry.appended? : Entry → Option EventEnvelope
  | .appended envelope => some envelope
  | _ => none

def emittedEnvelopes (log : List Entry) : List EventEnvelope := log.filterMap Entry.emitted?

/-- What was appended of the runner's events. -/
def appendedEnvelopes (log : List Entry) : List EventEnvelope := log.filterMap Entry.appended?

def journal (log : List Entry) : List AppEvent := (appendedEnvelopes log).map (·.event)

@[simp] theorem emittedEnvelopes_append (log log' : List Entry) :
    emittedEnvelopes (log ++ log') = emittedEnvelopes log ++ emittedEnvelopes log' :=
  List.filterMap_append

@[simp] theorem appendedEnvelopes_append (log log' : List Entry) :
    appendedEnvelopes (log ++ log') = appendedEnvelopes log ++ appendedEnvelopes log' :=
  List.filterMap_append

@[simp] theorem journal_append (log log' : List Entry) :
    journal (log ++ log') = journal log ++ journal log' := by simp [journal]

@[simp] theorem emittedEnvelopes_nil : emittedEnvelopes [] = [] := rfl
@[simp] theorem appendedEnvelopes_nil : appendedEnvelopes [] = [] := rfl
@[simp] theorem journal_nil : journal [] = [] := rfl

@[simp] theorem emittedEnvelopes_emitted (envelope : EventEnvelope) :
    emittedEnvelopes [.emitted envelope] = [envelope] := rfl
@[simp] theorem appendedEnvelopes_emitted (envelope : EventEnvelope) :
    appendedEnvelopes [.emitted envelope] = [] := rfl
@[simp] theorem emittedEnvelopes_appended (envelope : EventEnvelope) :
    emittedEnvelopes [.appended envelope] = [] := rfl
@[simp] theorem appendedEnvelopes_appended (envelope : EventEnvelope) :
    appendedEnvelopes [.appended envelope] = [envelope] := rfl

@[simp] theorem emittedEnvelopes_terminal (events : List EventEnvelope) :
    emittedEnvelopes (events.map .terminal) = [] := by
  induction events with
  | nil => rfl
  | cons _ _ ih => exact ih

@[simp] theorem appendedEnvelopes_terminal (events : List EventEnvelope) :
    appendedEnvelopes (events.map .terminal) = [] := by
  induction events with
  | nil => rfl
  | cons _ _ ih => exact ih

/-! ## What a move does -/

/-- The channel and what was sent are as they were. -/
structure SameChannel (s s' : Listener ρ) : Prop where
  queue : s'.queue = s.queue
  sent : s'.sent = s.sent
  late : s'.late = s.late

/-- What one move does beside the kernel, the tokens and the notes, what it writes, and whether it
ends the loop. -/
inductive Stepped (op : Operation ρ) (s s' : Listener ρ) : List Entry → Bool → Prop where
  | idle (hsame : SameChannel s s') (hphase : s'.phase = s.phase) : Stepped op s s' [] false
  | sent (event : AppEvent) (hopen : s.phase.closed = false) (hphase : s'.phase = s.phase)
      (hqueue : s'.queue = s.queue ++ [event])
      (hsent : s'.sent = if s.phase.inLoop then s.sent ++ [event] else s.sent)
      (hlate : s'.late = if s.phase.inLoop then s.late else s.late ++ [event]) :
      Stepped op s s' [] false
  | broke (result : Except AxiomError ρ) (hsame : SameChannel s s') (hphase : s.phase = .listening)
      (hphase' : s'.phase = if op.drains then .draining result else .finishing result) :
      Stepped op s s' [] true
  | took (event : AppEvent) (behind : Option (Except AxiomError ρ))
      (hphase : s.phase = .resumed behind) (hphase' : s'.phase = .received event behind)
      (hqueue : s.queue = event :: s'.queue) (hsent : s'.sent = s.sent) (hlate : s'.late = s.late) :
      Stepped op s s' [] false
  | drained (result : Except AxiomError ρ) (hsame : SameChannel s s')
      (hphase : s.phase = .draining result) (hempty : s.queue = [])
      (hphase' : s'.phase = .finishing result) : Stepped op s s' [] false
  | emitted (envelope : EventEnvelope) (behind : Option (Except AxiomError ρ))
      (hsame : SameChannel s s') (hphase : s.phase = .received envelope.event behind)
      (howner : envelope.sessionId = op.sessionId) (hphase' : s'.phase = .emitted envelope behind) :
      Stepped op s s' [.emitted envelope] false
  | appended (envelope : EventEnvelope) (behind : Option (Except AxiomError ρ))
      (hsame : SameChannel s s') (hphase : s.phase = .emitted envelope behind)
      (hphase' : s'.phase = .resumed behind ∨ ∃ error, s'.phase = .failed error) :
      Stepped op s s' [.appended envelope] false
  | gaveUp (error : AxiomError) (hsame : SameChannel s s') (hopen : s.phase.closed = false)
      (hphase' : s'.phase = .failed error) : Stepped op s s' [] false
  | finished (result : Except AxiomError ρ) (hsame : SameChannel s s')
      (hphase : s.phase = .finishing result)
      (hphase' : s'.phase = .ended result ∨ ∃ events, s'.phase = .dispatched events result) :
      Stepped op s s' [] false
  | terminal (events : List EventEnvelope) (result : Except AxiomError ρ) (hsame : SameChannel s s')
      (hphase : s.phase = .dispatched events result) (hphase' : s'.phase = .ended result) :
      Stepped op s s' (events.map .terminal) false

theorem SameChannel.refl (s : Listener ρ) : SameChannel s s := ⟨rfl, rfl, rfl⟩

theorem Stepped.refl (s : Listener ρ) : Stepped op s s [] false := .idle (.refl s) rfl

theorem noting_same (s : Listener ρ) (event : AppEvent) : SameChannel s (s.noting event) := by
  cases event <;> exact ⟨rfl, rfl, rfl⟩

/-- **What one move does.** -/
theorem step_stepped (op : Operation ρ) (s : Listener ρ) (move : Move ρ) :
    Stepped op s (step op s move).1 (step op s move).2 (s.breaks op move) := by
  have hother (h : ∀ result, move ≠ .returns result)
      (h' : ∀ request, move ≠ .observeCancelled request) : s.breaks op move = false := by
    unfold breaks
    split
    · exact absurd rfl (h _)
    · exact absurd rfl (h' _)
    · rfl
  cases move with
  | send event =>
    rw [hother nofun nofun]
    show Stepped op s (s.sending event) [] false
    unfold sending
    split
    · next hroom => exact .sent event hroom.2 rfl rfl rfl rfl
    · exact .refl s
  | cancelRequest =>
    rw [hother nofun nofun]
    exact .idle ⟨rfl, rfl, rfl⟩ rfl
  | cancelWork =>
    rw [hother nofun nofun]
    exact .idle ⟨rfl, rfl, rfl⟩ rfl
  | others call =>
    rw [hother nofun nofun]
    exact .idle ⟨rfl, rfl, rfl⟩ rfl
  | returns result =>
    rcases hphase : s.phase with _ | _ | _ | _ | _ | _ | _ | _ <;>
      simp only [step, breaks, hphase]
    case listening => exact .broke result ⟨rfl, rfl, rfl⟩ hphase rfl
    all_goals exact .refl s
  | receive =>
    rw [hother nofun nofun]
    simp only [step]
    split
    · next event queue hphase hqueue => exact .took event none hphase rfl hqueue rfl rfl
    · exact .refl s
  | observeCancelled request =>
    rcases hphase : s.phase with _ | _ | _ | _ | _ | _ | _ | _ <;>
      simp only [step, breaks, hphase]
    case listening =>
      cases hobserves : s.observes op request with
      | true => exact .broke (.error .cancelled) ⟨rfl, rfl, rfl⟩ hphase rfl
      | false => exact .refl s
    all_goals exact .refl s
  | emit correlationId origin =>
    rw [hother nofun nofun]
    simp only [step]
    split
    · next event behind hphase =>
      split
      · next envelope kernel hrecord =>
        obtain ⟨_, _, _, _, hemitted⟩ := Kernel.record_ok hrecord
        obtain rfl : envelope.event = event := by simpa using hemitted.events
        exact .emitted envelope behind ⟨rfl, rfl, rfl⟩ hphase (hemitted.owner envelope (by simp)) rfl
      · next error kernel hrecord =>
        exact .gaveUp error ⟨rfl, rfl, rfl⟩ (by rw [hphase]; rfl) rfl
    · exact .refl s
  | append stored shown =>
    rw [hother nofun nofun]
    simp only [step]
    split
    · next envelope behind hphase =>
      cases stored with
      | error error => exact .gaveUp error ⟨rfl, rfl, rfl⟩ (by rw [hphase]; rfl) rfl
      | ok _ =>
        have hsame : SameChannel s (if op.notes then s.noting envelope.event else s) := by
          cases op.notes with
          | true => exact noting_same s envelope.event
          | false => exact .refl s
        refine .appended envelope behind ⟨hsame.queue, hsame.sent, hsame.late⟩ hphase ?_
        cases shown with
        | ok _ => exact .inl rfl
        | error error => exact .inr ⟨error, rfl⟩
    · exact .refl s
  | drain =>
    rw [hother nofun nofun]
    simp only [step]
    split
    · next result event queue hphase hqueue =>
      exact .took event (some result) hphase rfl hqueue rfl rfl
    · next result hphase hqueue => exact .drained result ⟨rfl, rfl, rfl⟩ hphase hqueue rfl
    · exact .refl s
  | dispatch correlationId origin =>
    rw [hother nofun nofun]
    simp only [step]
    split
    · next result hphase =>
      split
      · exact .finished result ⟨rfl, rfl, rfl⟩ hphase (.inl rfl)
      · split
        · next events kernel happly =>
          exact .finished result ⟨rfl, rfl, rfl⟩ hphase (.inr ⟨events, rfl⟩)
        · next error kernel happly =>
          exact .gaveUp error ⟨rfl, rfl, rfl⟩ (by rw [hphase]; rfl) rfl
    · exact .refl s
  | appendAll stored =>
    rw [hother nofun nofun]
    simp only [step]
    split
    · next events result hphase =>
      cases stored with
      | ok _ => exact .terminal events result ⟨rfl, rfl, rfl⟩ hphase rfl
      | error error => exact .gaveUp error ⟨rfl, rfl, rfl⟩ (by rw [hphase]; rfl) rfl
    · exact .refl s

/-! ## What a run keeps -/

/-- The handler has not failed. -/
def Phase.Sound (phase : Phase ρ) : Prop := ∀ error, phase ≠ .failed error

/-- Every event is in the store, in the hands of the handler, or in the channel. -/
structure Accounted (op : Operation ρ) (s : Listener ρ) (log : List Entry) : Prop where
  conserve : s.phase.Sound → journal log ++ s.phase.pending ++ s.queue = s.sent ++ s.late
  inOrder : journal log <+: s.sent ++ s.late
  early : s.phase.inLoop = true → s.late = []
  emissions : s.phase.Sound → emittedEnvelopes log = appendedEnvelopes log ++ s.phase.unappended
  emittedOnce : appendedEnvelopes log <+: emittedEnvelopes log
  owner : ∀ envelope ∈ emittedEnvelopes log, envelope.sessionId = op.sessionId

/-- The terminal events come last. -/
structure Terminated (s : Listener ρ) (log : List Entry) : Prop where
  ended : ∀ envelope, .terminal envelope ∈ log → ∃ result, s.phase = .ended result
  last : ∀ before envelope after, log = before ++ .terminal envelope :: after →
    journal before = journal log

/-- Behind the loop and its drain nothing that the runner sent is left, where the steps have `met`
the condition on the channel. -/
structure Settled (op : Operation ρ) (s : Listener ρ) (log : List Entry) (met : Prop) : Prop where
  undrained : s.phase.Sound → op.drains = false →
    s.phase.inLoop = true ∨ s.phase.settled = true
  unsettled : s.phase.Sound → s.phase.settled = false → met
  settled : s.phase.settled = true → (met ↔ s.sent <+: journal log)

theorem resumed_sound (behind : Option (Except AxiomError ρ)) : (Phase.resumed behind).Sound := by
  cases behind <;> intro error h <;> cases h

@[simp] theorem pending_resumed (behind : Option (Except AxiomError ρ)) :
    (Phase.resumed behind).pending = [] := by cases behind <;> rfl

@[simp] theorem unappended_resumed (behind : Option (Except AxiomError ρ)) :
    (Phase.resumed behind).unappended = [] := by cases behind <;> rfl

/-- An event is handled in the loop exactly where it was taken there. -/
theorem inLoop_resumed (behind : Option (Except AxiomError ρ)) :
    (Phase.resumed behind).inLoop = behind.isNone := by cases behind <;> rfl

theorem inLoop_received (event : AppEvent) (behind : Option (Except AxiomError ρ)) :
    (Phase.received event behind).inLoop = behind.isNone := by cases behind <;> rfl

theorem inLoop_emitted (envelope : EventEnvelope) (behind : Option (Except AxiomError ρ)) :
    (Phase.emitted envelope behind).inLoop = behind.isNone := by cases behind <;> rfl

theorem sound_of_open (h : s.phase.closed = false) : s.phase.Sound := by
  intro error hfailed
  rw [hfailed] at h
  cases h

/-- A move to a phase that holds no event. -/
theorem Accounted.moved (h : Accounted op s log) (hsame : SameChannel s s')
    (hsound : s'.phase.Sound → s.phase.Sound) (hpending : s.phase.pending = s'.phase.pending)
    (hunappended : s.phase.unappended = s'.phase.unappended)
    (hloop : s'.phase.inLoop = true → s.phase.inLoop = true) : Accounted op s' log where
  conserve hs := by
    rw [hsame.queue, hsame.sent, hsame.late, ← hpending]
    exact h.conserve (hsound hs)
  inOrder := by
    rw [hsame.sent, hsame.late]
    exact h.inOrder
  early hl := by
    rw [hsame.late]
    exact h.early (hloop hl)
  emissions hs := by
    rw [← hunappended]
    exact h.emissions (hsound hs)
  emittedOnce := h.emittedOnce
  owner := h.owner

/-- A move that gives up. -/
theorem Accounted.failed (h : Accounted op s log) (hsame : SameChannel s s') {error : AxiomError}
    (hfailed : s'.phase = .failed error) : Accounted op s' log where
  conserve hs := absurd hfailed (hs error)
  inOrder := by
    rw [hsame.sent, hsame.late]
    exact h.inOrder
  early hl := by
    rw [hfailed] at hl
    cases hl
  emissions hs := absurd hfailed (hs error)
  emittedOnce := h.emittedOnce
  owner := h.owner

/-- An event that is appended, or whose client is gone. -/
theorem Accounted.appended (h : Accounted op s log) {envelope : EventEnvelope}
    {behind : Option (Except AxiomError ρ)} (hsame : SameChannel s s')
    (hphase : s.phase = .emitted envelope behind) (hphase' : s'.phase = .resumed behind) :
    Accounted op s' (log ++ [.appended envelope]) := by
  have hsound : s.phase.Sound := sound_of_open (by rw [hphase]; rfl)
  have hconserve := h.conserve hsound
  have hemissions := h.emissions hsound
  rw [hphase] at hconserve hemissions
  have hjournal : journal (log ++ [.appended envelope]) = journal log ++ [envelope.event] := by
    simp [journal]
  refine ⟨fun _ => ?_, ?_, fun hl => ?_, fun _ => ?_, ?_, ?_⟩
  · rw [hphase', hjournal, pending_resumed, List.append_nil, hsame.queue, hsame.sent, hsame.late]
    exact hconserve
  · rw [hjournal, hsame.sent, hsame.late, ← hconserve]
    exact List.prefix_append _ _
  · rw [hphase', inLoop_resumed] at hl
    rw [hsame.late]
    exact h.early (by rw [hphase, inLoop_emitted, hl])
  · rw [hphase', unappended_resumed, List.append_nil]
    simpa [Phase.unappended] using hemissions
  · simp [hemissions, Phase.unappended]
  · simpa using h.owner

/-- **The accounts of the events** are kept by every move. -/
theorem Accounted.step {broke : Bool} (h : Accounted op s log)
    (hstep : Stepped op s s' entries broke) : Accounted op s' (log ++ entries) := by
  cases hstep with
  | idle hsame hphase =>
    rw [List.append_nil]
    exact h.moved hsame (by rw [hphase]; exact id) (by rw [hphase]) (by rw [hphase])
      (by rw [hphase]; exact id)
  | sent event hopen hphase hqueue hsent hlate =>
    have hconserve := h.conserve (sound_of_open hopen)
    rw [List.append_nil]
    have hsends : s'.sent ++ s'.late = s.sent ++ s.late ++ [event] := by
      rw [hsent, hlate]
      split
      · next hloop => simp [h.early hloop]
      · simp
    refine ⟨fun _ => ?_, ?_, fun hl => ?_, fun hs => ?_, h.emittedOnce, h.owner⟩
    · rw [hphase, hqueue, hsends, ← hconserve, List.append_assoc _ s.queue]
    · rw [hsends]
      exact h.inOrder.trans (List.prefix_append _ _)
    · rw [hphase] at hl
      rw [hlate, if_pos hl]
      exact h.early hl
    · rw [hphase] at hs ⊢
      exact h.emissions hs
  | broke result hsame hphase hphase' =>
    rw [List.append_nil]
    have hloop : s.phase.inLoop = true := by
      rw [hphase]
      rfl
    refine h.moved hsame (fun _ => sound_of_open (by rw [hphase]; rfl)) ?_ ?_ fun _ => hloop
    · rw [hphase, hphase']
      cases op.drains <;> rfl
    · rw [hphase, hphase']
      cases op.drains <;> rfl
  | took event behind hphase hphase' hqueue hsent hlate =>
    have hconserve := h.conserve (by rw [hphase]; exact resumed_sound behind)
    have hemissions := h.emissions (by rw [hphase]; exact resumed_sound behind)
    rw [hphase, pending_resumed, hqueue] at hconserve
    rw [hphase, unappended_resumed] at hemissions
    rw [List.append_nil]
    refine ⟨fun _ => ?_, ?_, fun hl => ?_, fun _ => ?_, h.emittedOnce, h.owner⟩
    · rw [hphase', hsent, hlate, ← hconserve]
      simp [Phase.pending]
    · rw [hsent, hlate]
      exact h.inOrder
    · rw [hphase', inLoop_received] at hl
      rw [hlate]
      exact h.early (by rw [hphase, inLoop_resumed, hl])
    · rw [hphase']
      exact hemissions
  | drained result hsame hphase hempty hphase' =>
    rw [List.append_nil]
    refine h.moved hsame (fun _ => sound_of_open (by rw [hphase]; rfl)) ?_ ?_ ?_
    · rw [hphase, hphase']
      rfl
    · rw [hphase, hphase']
      rfl
    · rw [hphase']
      exact nofun
  | emitted envelope behind hsame hphase howner hphase' =>
    have hsound : s.phase.Sound := sound_of_open (by rw [hphase]; rfl)
    have hconserve := h.conserve hsound
    have hemissions := h.emissions hsound
    rw [hphase] at hconserve hemissions
    refine ⟨fun _ => ?_, ?_, fun hl => ?_, fun _ => ?_, ?_, ?_⟩
    · rw [hphase', hsame.queue, hsame.sent, hsame.late, ← hconserve]
      simp [journal, Phase.pending]
    · rw [hsame.sent, hsame.late]
      simpa [journal] using h.inOrder
    · rw [hphase', inLoop_emitted] at hl
      rw [hsame.late]
      exact h.early (by rw [hphase, inLoop_received, hl])
    · rw [hphase']
      simpa [Phase.unappended] using hemissions
    · simpa using h.emittedOnce.trans (List.prefix_append _ _)
    · intro envelope' henvelope
      rw [emittedEnvelopes_append, List.mem_append] at henvelope
      rcases henvelope with henvelope | henvelope
      · exact h.owner envelope' henvelope
      · obtain rfl : envelope' = envelope := by simpa using henvelope
        exact howner
  | appended envelope behind hsame hphase hphase' =>
    rcases hphase' with hphase' | ⟨error, hphase'⟩
    · exact h.appended hsame hphase hphase'
    · have hresumed : Accounted op { s' with phase := .resumed behind }
          (log ++ [.appended envelope]) := h.appended ⟨hsame.queue, hsame.sent, hsame.late⟩ hphase rfl
      exact hresumed.failed ⟨rfl, rfl, rfl⟩ hphase'
  | gaveUp error hsame hopen hphase' =>
    rw [List.append_nil]
    exact h.failed hsame hphase'
  | finished result hsame hphase hphase' =>
    rw [List.append_nil]
    have hopen : s.phase.closed = false := by
      rw [hphase]
      rfl
    rcases hphase' with hphase' | ⟨events, hphase'⟩
    · refine h.moved hsame (fun _ => sound_of_open hopen) ?_ ?_ ?_ <;> rw [hphase']
      · rw [hphase]
        rfl
      · rw [hphase]
        rfl
      · exact nofun
    · refine h.moved hsame (fun _ => sound_of_open hopen) ?_ ?_ ?_ <;> rw [hphase']
      · rw [hphase]
        rfl
      · rw [hphase]
        rfl
      · exact nofun
  | terminal events result hsame hphase hphase' =>
    have hopen : s.phase.closed = false := by
      rw [hphase]
      rfl
    have hmoved : Accounted op s' log := by
      refine h.moved hsame (fun _ => sound_of_open hopen) ?_ ?_ ?_ <;> rw [hphase']
      · rw [hphase]
        rfl
      · rw [hphase]
        rfl
      · exact nofun
    exact ⟨fun hs => by simpa [journal] using hmoved.conserve hs,
      by simpa [journal] using hmoved.inOrder, hmoved.early,
      fun hs => by simpa using hmoved.emissions hs, by simpa using hmoved.emittedOnce,
      by simpa using hmoved.owner⟩

/-- **The terminal events** stay last. -/
theorem Terminated.step {broke : Bool} (h : Terminated s log)
    (hstep : Stepped op s s' entries broke) : Terminated s' (log ++ entries) := by
  have hnone (hphase : ∀ result, s.phase ≠ .ended result) (envelope : EventEnvelope) :
      Entry.terminal envelope ∉ log := fun hmem =>
    let ⟨result, hended⟩ := h.ended envelope hmem
    hphase result hended
  -- what is no terminal event is written while there is none
  have hbefore (hphase : ∀ result, s.phase ≠ .ended result)
      (hentries : ∀ envelope, Entry.terminal envelope ∉ entries) : Terminated s' (log ++ entries) := by
    have hmem (envelope : EventEnvelope) : Entry.terminal envelope ∉ log ++ entries := by
      simp [hnone hphase envelope, hentries envelope]
    refine ⟨fun envelope henvelope => absurd henvelope (hmem envelope), ?_⟩
    intro before envelope after hlog
    exact absurd (hlog ▸ by simp) (hmem envelope)
  cases hstep with
  | idle hsame hphase =>
    rw [List.append_nil]
    exact ⟨by rw [hphase]; exact h.ended, h.last⟩
  | sent event hopen hphase hqueue hsent hlate =>
    rw [List.append_nil]
    exact ⟨by rw [hphase]; exact h.ended, h.last⟩
  | broke result hsame hphase hphase' => exact hbefore (by simp [hphase]) (by simp)
  | took event behind hphase hphase' hqueue hsent hlate =>
    exact hbefore (by rw [hphase]; cases behind <;> simp [Phase.resumed]) (by simp)
  | drained result hsame hphase hempty hphase' => exact hbefore (by simp [hphase]) (by simp)
  | emitted envelope behind hsame hphase howner hphase' => exact hbefore (by simp [hphase]) (by simp)
  | appended envelope behind hsame hphase hphase' => exact hbefore (by simp [hphase]) (by simp)
  | gaveUp error hsame hopen hphase' =>
    refine hbefore (fun result hended => ?_) (by simp)
    rw [hended] at hopen
    cases hopen
  | finished result hsame hphase hphase' => exact hbefore (by simp [hphase]) (by simp)
  | terminal events result hsame hphase hphase' =>
    refine ⟨fun _ _ => ⟨result, hphase'⟩, fun before envelope after hlog => ?_⟩
    have hlast : ∃ events' : List EventEnvelope, before = log ++ events'.map .terminal := by
      rcases List.append_eq_append_iff.mp hlog with ⟨rest, rfl, hrest⟩ | ⟨rest, hlog', hrest⟩
      · obtain ⟨events', _, -, hevents', -⟩ := List.map_eq_append_iff.mp hrest
        exact ⟨events', by rw [hevents']⟩
      · cases rest with
        | nil => exact ⟨[], by simpa using hlog'.symm⟩
        | cons entry rest =>
          obtain ⟨rfl, -⟩ := List.cons.inj hrest
          exact absurd (hlog' ▸ by simp) (hnone (by simp [hphase]) envelope)
    obtain ⟨events', rfl⟩ := hlast
    simp [journal]

/-- **The condition on the channel** tells where nothing is left behind. -/
theorem Settled.step {broke : Bool} (h : Settled op s log met) (haccounts : Accounted op s log)
    (hstep : Stepped op s s' entries broke) : Settled op s' (log ++ entries)
      (met ∧ (broke = true → op.drains = true ∨ s.queue.isEmpty = true)) := by
  cases hstep with
  | idle hsame hphase =>
    refine ⟨by rw [hphase]; exact h.undrained, ?_, ?_⟩
    · rw [hphase]
      exact fun hs hsettled => ⟨h.unsettled hs hsettled, nofun⟩
    · rw [hphase, hsame.sent]
      simpa using h.settled
  | sent event hopen hphase hqueue hsent hlate =>
    refine ⟨by rw [hphase]; exact h.undrained, ?_, ?_⟩
    · rw [hphase]
      exact fun hs hsettled => ⟨h.unsettled hs hsettled, nofun⟩
    · rw [hphase]
      intro hsettled
      have hloop : s.phase.inLoop = false := by
        rcases hp : s.phase with _ | _ | _ | _ | _ | _ | _ | _ <;> rw [hp] at hsettled <;>
          first | rfl | cases hsettled
      rw [hsent, hloop]
      simpa using h.settled hsettled
  | broke result hsame hphase hphase' =>
    have hsound : s.phase.Sound := sound_of_open (by rw [hphase]; rfl)
    have hmet := h.unsettled hsound (by rw [hphase]; rfl)
    have hconserve := haccounts.conserve hsound
    rw [haccounts.early (by rw [hphase]; rfl), hphase] at hconserve
    cases hdrains : op.drains with
    | true =>
      rw [hdrains] at hphase'
      refine ⟨fun _ hno => ?_, fun _ _ => ⟨hmet, fun _ => .inl rfl⟩, fun hsettled => ?_⟩
      · rw [hdrains] at hno
        cases hno
      · rw [hphase'] at hsettled
        cases hsettled
    | false =>
      rw [hdrains] at hphase'
      refine ⟨fun _ _ => .inr (by rw [hphase']; rfl), fun _ hsettled => ?_, fun _ => ?_⟩
      · rw [hphase'] at hsettled
        cases hsettled
      · rw [hsame.sent, List.append_nil]
        have hsent : s.sent = journal log ++ s.queue := by simpa [Phase.pending] using hconserve.symm
        rw [hsent]
        constructor
        · rintro ⟨-, hempty⟩
          have hempty : s.queue = [] := by simpa using hempty
          rw [hempty, List.append_nil]
        · intro hprefix
          have hlength := hprefix.length_le
          rw [List.length_append] at hlength
          have hempty : s.queue.length = 0 := by omega
          exact ⟨hmet, fun _ => .inr (by simpa using hempty)⟩
  | took event behind hphase hphase' hqueue hsent hlate =>
    have hsound : s.phase.Sound := by
      rw [hphase]
      exact resumed_sound behind
    have hunsettled : s.phase.settled = false := by
      rw [hphase]
      cases behind <;> rfl
    refine ⟨fun _ hno => ?_, fun _ _ => ⟨h.unsettled hsound hunsettled, nofun⟩, ?_⟩
    · rcases h.undrained hsound hno with hloop | hsettled
      · rw [hphase, inLoop_resumed] at hloop
        exact .inl (by rw [hphase', inLoop_received, hloop])
      · rw [hunsettled] at hsettled
        cases hsettled
    · rw [hphase']
      exact nofun
  | drained result hsame hphase hempty hphase' =>
    have hsound : s.phase.Sound := sound_of_open (by rw [hphase]; rfl)
    have hmet := h.unsettled hsound (by rw [hphase]; rfl)
    have hconserve := haccounts.conserve hsound
    rw [hphase, hempty] at hconserve
    refine ⟨fun _ _ => .inr (by rw [hphase']; rfl), fun _ hsettled => ?_, fun _ => ?_⟩
    · rw [hphase'] at hsettled
      cases hsettled
    · rw [hsame.sent, List.append_nil]
      refine iff_of_true ⟨hmet, nofun⟩ ?_
      simp only [Phase.pending, List.append_nil] at hconserve
      rw [hconserve]
      exact List.prefix_append _ _
  | emitted envelope behind hsame hphase howner hphase' =>
    have hsound : s.phase.Sound := sound_of_open (by rw [hphase]; rfl)
    refine ⟨fun _ hno => ?_, fun _ _ => ⟨h.unsettled hsound (by rw [hphase]; rfl), nofun⟩, ?_⟩
    · rcases h.undrained hsound hno with hloop | hsettled
      · rw [hphase, inLoop_received] at hloop
        exact .inl (by rw [hphase', inLoop_emitted, hloop])
      · rw [hphase] at hsettled
        cases hsettled
    · rw [hphase']
      exact nofun
  | appended envelope behind hsame hphase hphase' =>
    have hsound : s.phase.Sound := sound_of_open (by rw [hphase]; rfl)
    have hmet := h.unsettled hsound (by rw [hphase]; rfl)
    rcases hphase' with hphase' | ⟨error, hphase'⟩
    · refine ⟨fun _ hno => ?_, fun _ _ => ⟨hmet, nofun⟩, ?_⟩
      · rcases h.undrained hsound hno with hloop | hsettled
        · rw [hphase, inLoop_emitted] at hloop
          exact .inl (by rw [hphase', inLoop_resumed, hloop])
        · rw [hphase] at hsettled
          cases hsettled
      · rw [hphase']
        cases behind <;> exact nofun
    · refine ⟨fun hs => absurd hphase' (hs error), fun hs => absurd hphase' (hs error), ?_⟩
      rw [hphase']
      exact nofun
  | gaveUp error hsame hopen hphase' =>
    refine ⟨fun hs => absurd hphase' (hs error), fun hs => absurd hphase' (hs error), ?_⟩
    rw [hphase']
    exact nofun
  | finished result hsame hphase hphase' =>
    have hsettled : s'.phase.settled = true := by
      rcases hphase' with hphase' | ⟨events, hphase'⟩ <;> rw [hphase'] <;> rfl
    refine ⟨fun _ _ => .inr hsettled, fun _ hno => ?_, fun _ => ?_⟩
    · rw [hsettled] at hno
      cases hno
    · rw [hsame.sent]
      simpa using h.settled (by rw [hphase]; rfl)
  | terminal events result hsame hphase hphase' =>
    refine ⟨fun _ _ => .inr (by rw [hphase']; rfl), fun _ hno => ?_, fun _ => ?_⟩
    · rw [hphase'] at hno
      cases hno
    · rw [hsame.sent]
      simpa [journal] using h.settled (by rw [hphase]; rfl)

/-! ## The law -/

/-- Every event that the runner sent before it returned or was abandoned is emitted and appended
once, in the order of the sends, and before the terminal event. -/
structure EveryEventJournaled (op : Operation ρ) (s : Listener ρ) (log : List Entry) : Prop where
  inOrder : journal log <+: s.sent ++ s.late
  emittedOnce : appendedEnvelopes log <+: emittedEnvelopes log
  owner : ∀ envelope ∈ appendedEnvelopes log, envelope.sessionId = op.sessionId
  beforeTerminal : ∀ before envelope after, log = before ++ .terminal envelope :: after →
    s.sent <+: journal before
  complete : ∀ result, s.phase = .ended result →
    s.sent <+: journal log ∧ appendedEnvelopes log = emittedEnvelopes log

theorem everyEventJournaled (haccounts : Accounted op s log) (hterminal : Terminated s log)
    (hsettled : Settled op s log met) (hmet : met) : EveryEventJournaled op s log where
  inOrder := haccounts.inOrder
  emittedOnce := haccounts.emittedOnce
  owner envelope henvelope := haccounts.owner envelope (haccounts.emittedOnce.subset henvelope)
  beforeTerminal before envelope after hlog := by
    obtain ⟨result, hended⟩ := hterminal.ended envelope (by simp [hlog])
    rw [hterminal.last before envelope after hlog]
    exact (hsettled.settled (by rw [hended]; rfl)).mp hmet
  complete result hended := by
    have hemissions := haccounts.emissions fun error hfailed => by
      rw [hended] at hfailed
      cases hfailed
    rw [hended] at hemissions
    refine ⟨(hsettled.settled (by rw [hended]; rfl)).mp hmet, ?_⟩
    simpa [Phase.unappended] using hemissions.symm

/-- The run of an operation, from a kernel and an empty channel. -/
theorem run_kept (op : Operation ρ) (kernel : Kernel) (moves : List (Move ρ)) :
    Accounted op ((machine op).run { kernel } moves).1 ((machine op).run { kernel } moves).2 ∧
      Terminated ((machine op).run { kernel } moves).1 ((machine op).run { kernel } moves).2 ∧
      Settled op ((machine op).run { kernel } moves).1 ((machine op).run { kernel } moves).2
        ((machine op).Meets (FoundEmpty op) { kernel } moves) := by
  induction moves using List.reverseRecOn with
  | nil =>
    refine ⟨⟨fun _ => rfl, List.prefix_refl _, fun _ => rfl, fun _ => rfl, List.prefix_refl _, ?_⟩,
      ⟨?_, ?_⟩, fun _ _ => .inl rfl, fun _ _ => trivial, fun h => ?_⟩
    · exact fun _ h => absurd h List.not_mem_nil
    · exact fun _ h => absurd h List.not_mem_nil
    · intro before envelope after h
      simp at h
    · cases h
  | append_singleton moves move ih =>
    obtain ⟨haccounts, hterminal, hsettled⟩ := ih
    have hstep := step_stepped op ((machine op).run { kernel } moves).1 move
    rw [Machine.run_snoc]
    have hmeets : (machine op).Meets (FoundEmpty op) { kernel } (moves ++ [move]) ↔
        (machine op).Meets (FoundEmpty op) { kernel } moves ∧
          FoundEmpty op ((machine op).run { kernel } moves).1 move := by
      rw [Machine.meets_append, Machine.meets_cons]
      simp
    rw [hmeets]
    exact ⟨haccounts.step hstep, hterminal.step hstep, hsettled.step haccounts hstep⟩

end Listener

open Listener

/-- **The events of a runner are journaled** in the runs that find the channel empty where the loop
ends, unless it is drained; of the runs that came to their end, in no others. -/
theorem events_journaled {ρ : Type} (op : Operation ρ) (kernel : Kernel) (moves : List (Move ρ)) :
    ((machine op).Meets (FoundEmpty op) { kernel } moves →
      EveryEventJournaled op ((machine op).run { kernel } moves).1
        ((machine op).run { kernel } moves).2) ∧
    ∀ result, ((machine op).run { kernel } moves).1.phase = .ended result →
      (EveryEventJournaled op ((machine op).run { kernel } moves).1
          ((machine op).run { kernel } moves).2 ↔
        (machine op).Meets (FoundEmpty op) { kernel } moves) := by
  obtain ⟨haccounts, hterminal, hsettled⟩ := run_kept op kernel moves
  have hmet := everyEventJournaled haccounts hterminal hsettled
  refine ⟨hmet, fun result hended => ⟨fun hjournaled => ?_, hmet⟩⟩
  exact (hsettled.settled (by rw [hended]; rfl)).mpr (hjournaled.complete result hended).1

/-! ## A compaction that was paid for -/

def paidUsage : AppEvent :=
  .requestUsageUpdated
    { requestId := "0123456789abcdef0123456789abcdef", modelId := "model", providerId := "near"
      purpose := .compaction, state := .completed, completeness := .final
      costMicrousd := some "70", settled := true }

/-- A kernel with a session that is ready. -/
def compactingKernel : Kernel :=
  (Kernel.machine.step (Kernel.withServices fun _ => ⟨"", "", ""⟩)
    (.apply ⟨⟨0⟩, .acp, false, .createSession ⟨1⟩ "/work" .acp .web⟩)).1

/-- What follows the end of the loop. -/
def recording : List (Move CompactionResult) :=
  [.returns (.ok ⟨"summary", 2⟩), .drain, .dispatch ⟨2⟩ .acp, .appendAll (.ok ())]

/-- The loop receives the record before the future returns. -/
def receivedMoves : List (Move CompactionResult) :=
  [.send paidUsage, .receive, .emit ⟨1⟩ .acp, .append (.ok ()) (.ok ())] ++ recording

theorem events_journaled_received :
    EveryEventJournaled (.compact ⟨1⟩)
      ((machine (.compact ⟨1⟩)).run { kernel := compactingKernel } receivedMoves).1
      ((machine (.compact ⟨1⟩)).run { kernel := compactingKernel } receivedMoves).2 :=
  (events_journaled (.compact ⟨1⟩) compactingKernel receivedMoves).1 (by decide)

/-- The future sends the record and returns in one poll: the compaction is recorded, and the record
is still in the channel that is dropped. -/
theorem paid_usage_dropped :
    (((machine (.compact ⟨1⟩)).run { kernel := compactingKernel }
        (.send paidUsage :: recording)).2.length = 1 ∧
      ¬ EveryEventJournaled (.compact ⟨1⟩)
        ((machine (.compact ⟨1⟩)).run { kernel := compactingKernel }
          (.send paidUsage :: recording)).1
        ((machine (.compact ⟨1⟩)).run { kernel := compactingKernel }
          (.send paidUsage :: recording)).2) := by
  refine ⟨by decide, fun h => ?_⟩
  have hlength := (h.complete (.ok ⟨"summary", 2⟩) rfl).1.length_le
  revert hlength
  decide

end AxiomDesktop
