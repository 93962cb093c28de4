import AxiomDesktop.App.TurnProtocol
import AxiomDesktop.Data.Uuid
import AxiomDesktop.Session.Running

/-!
# The store follows the kernel

A kernel, and the store to which the envelopes of each of its calls are appended as one batch,
beside whatever else is written to the store, through the ends and starts of the process
(`journaling`). In the store the turns of a session that run are those that the kernel has active
(`store_follows_kernel`): what an event does to the turns of the store (`Persisted.runs`) is what
it does to the talk of the session (`Talk.hear_ok`).
-/

namespace AxiomDesktop.Store

open Fallible

/-! ## Turns of a talk -/

/-- The turn in flight has the text as its identifier. -/
def InFlight (talk : Talk) (T : String) : Prop := ∃ t, talk.phase.turn = some t ∧ t.toString = T

/-- The event accepts a prompt. -/
def isPromptEvent : AppEvent → Bool
  | .promptAccepted .. => true
  | _ => false

/-- The call records no prompt: a prompt is accepted by a command alone. -/
def RecordsNoPrompt : KernelCall → Prop
  | .record _ _ _ e => isPromptEvent e = false
  | _ => True

theorem startedTurn_eq {e : AppEvent} (h : isPromptEvent e = false) :
    startedTurn e = e.started?.map (·.toString) := by
  cases e <;> first
    | rfl
    | cases h

theorem endedTurn_eq (e : AppEvent) : endedTurn e = e.ended?.map (·.toString) := by
  cases e
  case errorRaised turnId message => cases turnId <;> rfl
  all_goals rfl

theorem inFlight_hear {talk talk' : Talk} {e : AppEvent} {T : String}
    (h : talk.hear e = some talk') (he : isPromptEvent e = false) :
    InFlight talk' T ↔ startedTurn e = some T ∨ InFlight talk T ∧ endedTurn e ≠ some T := by
  obtain ⟨⟨hturn, -, hfresh⟩, -⟩ := Talk.hear_ok h
  have hone : e.started? = none ∨ e.ended? = none := by
    cases e <;> first
      | exact .inl rfl
      | exact .inr rfl
  rw [startedTurn_eq he, endedTurn_eq]
  unfold InFlight
  cases hs : e.started? with
  | some t =>
    obtain ⟨hidle, -⟩ := hfresh t hs
    have hnone := hone.resolve_left (by simp [hs])
    rw [hs, hidle, hnone] at hturn
    cases hturn' : talk'.phase.turn <;> simp_all
  | none =>
    cases hend : e.ended? <;> cases hturn' : talk'.phase.turn <;> cases hold : talk.phase.turn <;>
      simp_all

/-- After events that are allowed, and accept no prompt, the turn in flight is the one that the
store has running. -/
theorem runsAfter_listen {talk talk' : Talk} {events : List AppEvent} {T : String}
    (h : talk.listen events = some talk') (hevents : ∀ e ∈ events, isPromptEvent e = false) :
    RunsAfter T events (InFlight talk T) ↔ InFlight talk' T := by
  induction events generalizing talk with
  | nil =>
    cases h
    exact Iff.rfl
  | cons e events ih =>
    rw [List.forall_mem_cons] at hevents
    obtain ⟨mid, hmid, h⟩ := Option.bind_eq_some_iff.mp h
    exact (RunsAfter.congr (inFlight_hear hmid hevents.1).symm).trans (ih h hevents.2)

/-- The same of a prompt and the start of its turn. -/
theorem runsAfter_prompt {talk talk' : Talk} {t : TurnId} {text : String}
    {attachments : List PromptAttachment} {T : String}
    (h : talk.listen [.promptAccepted t text attachments, .turnStarted t] = some talk') :
    RunsAfter T [.promptAccepted t text attachments, .turnStarted t] (InFlight talk T) ↔
      InFlight talk' T := by
  obtain ⟨mid, hmid, h⟩ := Option.bind_eq_some_iff.mp h
  obtain ⟨-, rfl⟩ := Talk.moveIf_eq hmid
  obtain ⟨⟨hidle, -⟩, rfl⟩ := Talk.moveIf_eq ((Talk.listen_singleton _ _).symm.trans h)
  simp only at hidle
  simp [RunsAfter, startedTurn, endedTurn, finishOf, InFlight, TalkPhase.turn, hidle]

/-! ## The kernel and its store -/

/-- A start leaves no turn running. -/
theorem not_runs_interrupt {db : Database} {t T now : String} :
    ¬Runs (interruptIncompleteTurns now db) t T := by
  rintro ⟨r, hr, -, hrunning⟩
  unfold interruptIncompleteTurns at hr
  dsimp only at hr
  split at hr
  · next hnone =>
    simp only [Rows.any, Bool.not_eq_true', List.any_eq_false, decide_eq_true_eq] at hnone
    exact hnone r hr hrunning
  · obtain ⟨a, -, rfl⟩ := List.mem_map.mp hr
    unfold Rows.edit at hrunning
    split at hrunning
    · cases hrunning
    · next hnot => exact hnot (decide_eq_true hrunning)

/-- A call of the kernel, with what is stored beside its envelopes, an operation of the store, or a
new process. -/
inductive JournalMove where
  | call (env : Environment) (call : KernelCall) (clientItemId : Option String)
      (preferences : Option (String × ThinkingLevel))
  | write (env : Environment) (op : Write)
  | restart (services : Nat → DateTime) (now : String)

/-- The kernel, with the store that its envelopes are appended to. -/
def journaling : Machine (Kernel × Database) JournalMove EventEnvelope where
  step s
    | .call env call clientItemId preferences =>
      let r := Kernel.machine.step s.1 call
      ((r.1, (appendBatch env r.2 clientItemId preferences none s.2).2), r.2)
    | .write env op => ((s.1, op.run env s.2), [])
    | .restart services now => ((.withServices services, interruptIncompleteTurns now s.2), [])

/-- The call loads the session, from a journal that leaves it between two turns. -/
def Reloads (id : SessionId) (k : Kernel) : KernelCall → Prop
  | .restoreFromEvents events => k.sessions id = none ∧
      ∀ restored, RestoreProjection.project events = .ok restored →
        Talk.Of ⟨.idle, restored.state.terminalTurns⟩ (some restored.state)
  | _ => False

/-- The envelopes of a call are taken by the store, and the session keeps its journal or is loaded
from it; another operation is beside its thread. -/
def Journals (id : SessionId) (s : Kernel × Database) : JournalMove → Prop
  | .call env call clientItemId preferences =>
    let envelopes := (Kernel.machine.step s.1 call).2
    (call.Journaled id ∨ Reloads id s.1 call) ∧ RecordsNoPrompt call ∧
      (envelopes = [] ∨
        (appendBatch env envelopes clientItemId preferences none s.2).1.toOption.isSome)
  | .write _ op => op.spares id.toString = true
  | .restart .. => True

/-- The store has the turn running that the kernel has active. -/
def Follows (id : SessionId) (k : Kernel) (db : Database) : Prop :=
  ∀ T, Runs db id.toString T ↔
    ∃ s t, k.sessions id = some s ∧ s.activeTurn = some t ∧ t.toString = T

theorem follows_iff {id : SessionId} {k : Kernel} {db : Database} {talk : Talk}
    (hof : talk.Of (k.sessions id)) :
    Follows id k db ↔ ∀ T, Runs db id.toString T ↔ InFlight talk T := by
  refine forall_congr' fun T => iff_congr Iff.rfl ?_
  simp only [InFlight, hof.turn_eq, Option.bind_eq_some_iff]
  constructor
  · rintro ⟨s, t, hs, ht, hT⟩
    exact ⟨t, ⟨s, hs, ht⟩, hT⟩
  · rintro ⟨t, ⟨s, hs, ht⟩, hT⟩
    exact ⟨s, t, hs, ht, hT⟩

/-- A session that is loaded has no turn in flight, as before. -/
theorem reloaded {id : SessionId} {k : Kernel} {call : KernelCall} {talk : Talk}
    (h : Reloads id k call) (hof : talk.Of (k.sessions id)) :
    (Kernel.machine.step k call).2 = [] ∧ ∃ talk' : Talk, talk'.phase.turn = talk.phase.turn ∧
      talk'.Of ((Kernel.machine.step k call).1.sessions id) := by
  rcases Kernel.step_cases k call with hstep | ⟨_, rfl, -⟩ | ⟨_, _, _, _, _, rfl, -⟩ |
    ⟨events, s, rfl, hstep, hout⟩
  · rw [hstep]
    exact ⟨rfl, talk, rfl, hof⟩
  · cases h
  · cases h
  · obtain ⟨hnew, hidle⟩ := h
    obtain ⟨restored, hproject, -, hk⟩ := Kernel.restoreFromEvents_ok hstep
    refine ⟨hout, ?_⟩
    rw [hk]
    by_cases hid : id = restored.id
    · subst hid
      rw [hnew] at hof
      cases hof
      exact ⟨⟨.idle, restored.state.terminalTurns⟩, rfl,
        by simpa [Kernel.withSession] using hidle restored hproject⟩
    · exact ⟨talk, rfl, by simpa [Kernel.withSession, Function.update_of_ne hid] using hof⟩

/-- The prompts among the envelopes of a call. -/
theorem placed_prompts {k : Kernel} {call : KernelCall} (hcall : RecordsNoPrompt call) :
    let events := (Kernel.machine.step k call).2.map (·.event)
    (∀ e ∈ events, isPromptEvent e = false) ∨
      ∃ t text attachments, events = [.promptAccepted t text attachments, .turnStarted t] := by
  intro events
  rcases Kernel.step_cases k call with h | ⟨request, rfl, h⟩ |
    ⟨sid, _, _, e, recorded, rfl, h, hout⟩ | ⟨_, s, rfl, h, hout⟩
  · exact .inl (by simp [events, h])
  · simp only [Kernel.apply, exec_bind_ok, exec_failIf_ok] at h
    obtain ⟨_, _, ⟨_, rfl⟩, emitted, _, h, hemit⟩ := h
    have hevents : events = emitted := (Kernel.mapM_envelope_ok hemit).events
    by_cases hprompt : ∀ e ∈ events, isPromptEvent e = false
    · exact .inl hprompt
    · push Not at hprompt
      obtain ⟨e, he, hprompt⟩ := hprompt
      cases e <;> first
        | exact absurd rfl hprompt
        | exact .inr ⟨_, _, _, hevents.trans ((Kernel.transition_plain h).2 _ _ _ (hevents ▸ he))⟩
  · obtain ⟨_, _, _, _, hemit⟩ := Kernel.record_ok h
    refine .inl fun e' he' => ?_
    rw [show events = [e] by simpa [events, hout] using hemit.events, List.mem_singleton] at he'
    exact he' ▸ hcall
  · exact .inl (by simp [events, hout])

/-- Every step keeps the store with the kernel. -/
theorem Follows.step {id : SessionId} {s : Kernel × Database} {move : JournalMove}
    (hmove : Journals id s move) (h : ∃ talk : Talk, talk.Of (s.1.sessions id) ∧ Follows id s.1 s.2) :
    ∃ talk : Talk, talk.Of ((journaling.step s move).1.1.sessions id) ∧
      Follows id (journaling.step s move).1.1 (journaling.step s move).1.2 := by
  obtain ⟨talk, hof, hruns⟩ := h
  obtain ⟨k, db⟩ := s
  cases move with
  | write env op => exact ⟨talk, hof, fun T => (op.runs env hmove).trans (hruns T)⟩
  | restart services now =>
    have hnew : Talk.silence.Of ((Kernel.withServices services).sessions id) := rfl
    exact ⟨.silence, hnew, (follows_iff hnew).mpr fun T =>
      iff_of_false not_runs_interrupt fun ⟨t, ht, _⟩ => by cases ht⟩
  | call env call clientItemId preferences =>
    obtain ⟨hcall, hprompts, hstored⟩ := hmove
    rcases hcall.symm with hreloads | hcall
    · obtain ⟨hout, talk', hturn, hof'⟩ := reloaded hreloads hof
      refine ⟨talk', hof', (follows_iff hof').mpr fun T => ?_⟩
      dsimp only [journaling]
      rw [hout, InFlight, hturn]
      exact (follows_iff hof).mp hruns T
    · obtain ⟨talk', hlisten, hof'⟩ := Kernel.step_heard hcall hof
      refine ⟨talk', hof', (follows_iff hof').mpr fun T => ?_⟩
      have hruns := (follows_iff hof).mp hruns T
      have hplaced := placed_prompts (k := k) hprompts
      dsimp only [journaling]
      generalize (Kernel.machine.step k call).2 = envelopes at *
      rcases hstored with rfl | hout
      · cases hlisten
        exact hruns
      · rcases hrun : appendBatch env envelopes clientItemId preferences none db with
          ⟨error | out, db'⟩ <;> rw [hrun] at hout
        · contradiction
        obtain ⟨first, hfirst, hsame, c, hbatch⟩ := appendBatch_ok hrun
        by_cases hid : first.sessionId = id
        · subst hid
          rw [journal_own hsame] at hlisten
          refine hbatch.runs.trans ((RunsAfter.congr hruns).trans ?_)
          rcases hplaced with hplain | ⟨t, text, attachments, hevents⟩
          · exact runsAfter_listen hlisten hplain
          · rw [hevents] at hlisten ⊢
            exact runsAfter_prompt hlisten
        · rw [journal_other hid hsame] at hlisten
          cases hlisten
          have hne : id.toString ≠ first.sessionId.toString := fun heq =>
            hid (congrArg SessionId.mk (Text.uuid_injective heq)).symm
          exact (Runs.of_turnsOf (hbatch.sameThread hne).turns).trans hruns

/-- A session is created, is renamed while a prompt of it runs, which is cancelled, and the process
starts again. -/
def followedMoves : List JournalMove :=
  let send name command :=
    .call (Sample.env name) (.apply ⟨⟨0⟩, .test, false, command⟩) none none
  [ send "create" (.createSession Sample.session "/w" .test .confirm),
    send "prompt" (.submitPrompt Sample.session ⟨2⟩ "hi" []),
    .write (Sample.env "rename") (.rename Sample.thread "title" ""),
    send "cancel" (.cancelTurn Sample.session ⟨2⟩),
    .restart (fun _ => Sample.time) "" ]

theorem journals_followedMoves :
    journaling.Meets (Journals Sample.session) (Kernel.withServices fun _ => Sample.time, {})
      followedMoves := by
  simp only [followedMoves, Machine.meets_cons, Journals]
  refine ⟨⟨.inl trivial, trivial, .inr ?_⟩, ⟨.inl trivial, trivial, .inr ?_⟩, ?_,
    ⟨.inl trivial, trivial, .inr ?_⟩, trivial, trivial⟩ <;>
    decide +kernel

end AxiomDesktop.Store
