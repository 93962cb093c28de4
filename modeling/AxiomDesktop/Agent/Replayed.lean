import AxiomDesktop.Agent.Conversation

/-!
# Compaction and replay

The replay of a compaction against the turn that made it. Before the turn the last message
is the prompt, which replay keeps as the turn does. Between steps the turn goes on with a
message that is in no event, and behind the last answer replay takes the last message for a
prompt wherever it is of the user: the one that was answered with nothing, or an image that
a tool showed (`compaction_restored`).
-/

namespace AxiomDesktop

/-- The messages that are not of the system. -/
def conversation (messages : List ChatMessage) : List ChatMessage :=
  messages.filter (·.role ≠ .system)

/-! ## The replay of one event -/

namespace ConversationReplay

variable {view : String → Option ImageContent} {r r' : ConversationReplay} {event : AppEvent}
  {turnId : TurnId}

/-- The last message of a list whose last message is changed, or that has a new one. -/
theorem getLast?_updateLast (fits : ChatMessage → Bool) (update : ChatMessage → ChatMessage)
    (new : ChatMessage) (messages : List ChatMessage) :
    (updateLast fits update new messages).getLast? = some new ∨
      ∃ last, fits last ∧ (updateLast fits update new messages).getLast? = some (update last) := by
  unfold updateLast
  split
  · next last _ =>
    split
    · next hfits => exact .inr ⟨last, hfits, List.getLast?_concat⟩
    · exact .inl List.getLast?_concat
  · exact .inl List.getLast?_concat

/-- What a turn reports leaves the messages as they are. -/
theorem replay_reported (h : r.replay view event = some r') (hevent : event.Reported) :
    r'.messages = r.messages ∧ r'.activeTurns = r.activeTurns := by
  cases event <;> first | (cases h; exact ⟨rfl, rfl⟩) | cases hevent

/-- An event that ends no turn. -/
def Ongoing : AppEvent → Bool
  | .turnCompleted _ | .turnCancelled _ | .errorRaised (some _) _ => false
  | _ => true

theorem replay_ongoing (h : r.replay view event = some r') (hevent : Ongoing event)
    (hactive : turnId ∈ r.activeTurns) : turnId ∈ r'.activeTurns := by
  cases event with
  | turnStarted =>
    cases h
    exact List.mem_insert_of_mem hactive
  | turnCompleted | turnCancelled => cases hevent
  | errorRaised other =>
    cases other with
    | none =>
      cases h
      exact hactive
    | some => cases hevent
  | toolCompleted callId success =>
    dsimp only [replay] at h
    split at h
    · split at h
      · obtain ⟨_, _, rfl⟩ := Option.map_eq_some_iff.mp h
        exact hactive
      · cases h
        exact hactive
    · cases h
      exact hactive
  | _ =>
    cases h
    exact hactive

theorem replay_delta {t : TurnRun} (delta : AnswerDelta)
    (h : r.replay view (t.deltaEvent delta) = some r') :
    ∃ message, r'.messages.getLast? = some message ∧ message.role = .assistant := by
  cases delta with
  | text text | reasoning text =>
    cases h
    dsimp only
    rcases getLast?_updateLast (fun m => m.role = .assistant ∧ m.toolCalls = []) _ _ r.messages with
      hnew | ⟨last, hfits, hlast⟩
    · exact ⟨_, hnew, rfl⟩
    · exact ⟨_, hlast, (of_decide_eq_true hfits).1⟩

/-! ## The replay of a journal -/

theorem replayAll_append (before after : List AppEvent) :
    r.replayAll view (before ++ after) =
      (r.replayAll view before).bind fun r => r.replayAll view after := by
  rw [replayAll, List.foldlM_append]
  rfl

theorem replayAll_cons (events : List AppEvent) : r.replayAll view (event :: events) =
    (r.replay view event).bind fun r => r.replayAll view events := rfl

variable {events : List AppEvent}

theorem replayAll_reported (h : r.replayAll view events = some r')
    (hevents : ∀ event ∈ events, event.Reported) :
    r'.messages = r.messages ∧ r'.activeTurns = r.activeTurns := by
  induction events generalizing r with
  | nil =>
    cases h
    exact ⟨rfl, rfl⟩
  | cons event events ih =>
    rw [List.forall_mem_cons] at hevents
    rw [replayAll_cons] at h
    obtain ⟨next, hnext, h⟩ := Option.bind_eq_some_iff.mp h
    obtain ⟨hmessages, hactive⟩ := replay_reported hnext hevents.1
    rw [← hmessages, ← hactive]
    exact ih h hevents.2

theorem replayAll_ongoing (h : r.replayAll view events = some r')
    (hevents : ∀ event ∈ events, Ongoing event) (hactive : turnId ∈ r.activeTurns) :
    turnId ∈ r'.activeTurns := by
  induction events generalizing r with
  | nil =>
    cases h
    exact hactive
  | cons event events ih =>
    rw [List.forall_mem_cons] at hevents
    rw [replayAll_cons] at h
    obtain ⟨next, hnext, h⟩ := Option.bind_eq_some_iff.mp h
    exact ih h hevents.2 (replay_ongoing hnext hevents.1 hactive)

/-- An answer that streamed something is the last message. -/
theorem replayAll_deltas {t : TurnRun} {deltas : List AnswerDelta} (hne : deltas ≠ [])
    (h : r.replayAll view (deltas.map t.deltaEvent) = some r') :
    ∃ message, r'.messages.getLast? = some message ∧ message.role = .assistant := by
  obtain ⟨before, last, rfl⟩ := (List.eq_nil_or_concat' deltas).resolve_left hne
  rw [List.map_append, replayAll_append] at h
  obtain ⟨next, -, h⟩ := Option.bind_eq_some_iff.mp h
  rw [List.map_singleton, replayAll_cons] at h
  obtain ⟨after, hafter, h⟩ := Option.bind_eq_some_iff.mp h
  cases h
  exact replay_delta last hafter

end ConversationReplay

/-! ## What a turn emits -/

/-- Where a turn compacts the conversation. -/
inductive CompactionPoint where
  | beforeTurn
  | betweenSteps
  | afterAnswer
  deriving DecidableEq, Repr

namespace TurnRun

variable {t : TurnRun} {input : TurnInput} {steps : Nat}

/-- A turn compacts the conversation with an input. -/
inductive Compacts (t : TurnRun) : TurnInput → CompactionPoint → CompactionResult → Prop
  | beforeTurn {system : String} {result : CompactionResult} : t.stage = .starting →
      (refreshSystem system t.messages).length > 1 →
      Compacts t (.prepare system (some result)) .beforeTurn result
  | betweenSteps {steps : Nat} {result : CompactionResult} : t.stage = .stepping steps → steps > 0 →
      t.messages.length > 1 → Compacts t (.begin (some result)) .betweenSteps result
  | afterAnswer {steps : Nat} {result : CompactionResult} : t.stage = .answered steps →
      t.messages.length > 1 → Compacts t (.settle (some result)) .afterAnswer result

/-- What a step of a turn does. -/
inductive Takes (t : TurnRun) : TurnInput → TurnRun → List AppEvent → Prop
  | passed {input : TurnInput} : Takes t input t []
  | reported {event : AppEvent} : event.Reported → Takes t (.report event) t [event]
  | prepared {system : String} {compaction : Option CompactionResult} : t.stage = .starting →
      Takes t (.prepare system compaction)
        { t with stage := .stepping 0, messages := refreshSystem system t.messages ++ [t.prompt] } []
  | begun {steps : Nat} {compaction : Option CompactionResult} : t.stage = .stepping steps →
      Takes t (.begin compaction) { t with stage := .asking steps } []
  | steered {steps : Nat} {message : SteeringMessage} : t.stage = .asking steps →
      Takes t (.steer message) { t with messages := t.messages ++ [.text .user message.text] }
        [.steeringApplied t.turnId message.id message.text]
  | answered {steps : Nat} {deltas : List AnswerDelta} {turn : AssistantTurn} {stage : TurnStage}
      {message : ChatMessage} : t.stage = .asking steps → stage ≠ .starting →
      Takes t (.answer deltas turn)
        { t with stage, messages := t.messages ++ [message], calls := turn.toolCalls,
                 streamed := decide (deltas ≠ []) }
        (deltas.map t.deltaEvent)
  | replied {steps : Nat} {call : ToolCall} {calls : List ToolCall} {reply : ToolReply} :
      t.stage = .calling steps → t.calls = call :: calls →
      Takes t (.reply reply) (t.reply call calls steps reply)
        [.toolProposed t.turnId call.id call.function.name reply.arguments,
          .toolOutput call.id reply.content reply.truncated, .toolCompleted call.id reply.success]
  | settled {steps : Nat} {compaction : Option CompactionResult} : t.stage = .answered steps →
      Takes t (.settle compaction) { t with stage := .finishing steps } []
  | carriedOn {steps : Nat} : t.stage = .answered steps ∨ t.stage = .finishing steps →
      Takes t .carryOn { t with stage := .stepping steps } []
  | finished {steps : Nat} : t.stage = .finishing steps →
      Takes t .finish { t with stage := .finished } []
  | compacted {input : TurnInput} {point : CompactionPoint} {result : CompactionResult}
      {stage : TurnStage} {messages : List ChatMessage} : Compacts t input point result →
      stage ≠ .starting → (∀ steps, stage ≠ .answered steps) →
      Takes t input { t with stage, messages } [.contextCompacted result.summary result.messagesBefore]

theorem compacts_some {messages : List ChatMessage} {compaction : Option CompactionResult}
    {result : CompactionResult} (h : compacts messages compaction = some result) :
    messages.length > 1 ∧ compaction = some result := by
  unfold compacts at h
  split at h
  · next hlength => exact ⟨hlength, h⟩
  · cases h

theorem step_takes (t : TurnRun) (input : TurnInput) :
    t.Takes input (t.step input).1 (t.step input).2 := by
  unfold step
  split
  · next event _ =>
    split
    · next hreported => exact .reported hreported
    · exact .passed
  · next system compaction hstage =>
    dsimp only
    split
    · next result hresult =>
      obtain ⟨hlength, rfl⟩ := compacts_some hresult
      exact .compacted (.beforeTurn hstage hlength) (by simp) (by simp)
    · exact .prepared hstage
  · next compaction steps hstage =>
    split
    · next result hresult =>
      split at hresult
      · next hsteps =>
        obtain ⟨hlength, rfl⟩ := compacts_some hresult
        exact .compacted (.betweenSteps hstage hsteps hlength) (by simp) (by simp)
      · cases hresult
    · exact .begun hstage
  · next message steps hstage => exact .steered hstage
  · next deltas turn steps hstage => exact .answered hstage (by split <;> simp)
  · next reply steps hstage =>
    split
    · exact .passed
    · next call calls hcalls => exact .replied hstage hcalls
  · next compaction steps hstage =>
    split
    · next result hresult =>
      obtain ⟨hlength, rfl⟩ := compacts_some hresult
      exact .compacted (.afterAnswer hstage hlength) (by simp) (by simp)
    · exact .settled hstage
  · next steps hstage => exact .carriedOn (.inl hstage)
  · next steps hstage => exact .carriedOn (.inr hstage)
  · next steps hstage => exact .finished hstage
  · exact .passed

/-- What a compaction is followed by. -/
def following (t : TurnRun) : CompactionPoint → List ChatMessage
  | .beforeTurn => [t.prompt]
  | .betweenSteps => [continuationMessage]
  | .afterAnswer => []

variable {point : CompactionPoint} {result : CompactionResult}

/-- What a compaction makes of the conversation. -/
theorem step_compacts (h : t.Compacts input point result) :
    (∃ system, (t.step input).1.messages =
        compactedHistory system result.summary ++ t.following point) ∧
      (t.step input).2 = [.contextCompacted result.summary result.messagesBefore] := by
  cases h with
  | beforeTurn hstage hlength =>
    unfold step
    rw [hstage]
    dsimp only
    rw [compacts, if_pos hlength]
    exact ⟨⟨_, rfl⟩, rfl⟩
  | betweenSteps hstage hsteps hlength =>
    unfold step
    rw [hstage]
    dsimp only
    rw [if_pos hsteps, compacts, if_pos hlength]
    exact ⟨⟨_, rfl⟩, rfl⟩
  | afterAnswer hstage hlength =>
    unfold step
    rw [hstage]
    dsimp only
    rw [compacts, if_pos hlength]
    exact ⟨⟨_, rfl⟩, rfl⟩

end TurnRun

/-! ## A turn and the replay of its journal -/

variable {view : String → Option ImageContent} {start : TurnStart} {t : TurnRun}
  {r r' : ConversationReplay} {input : TurnInput}

/-- What replay has of a turn. -/
structure TurnRun.Journaled (start : TurnStart) (t : TurnRun) (r : ConversationReplay) : Prop where
  turn : t.turnId = start.turnId
  prompt : t.prompt = userMessage start.text start.attachments
  active : start.turnId ∈ r.activeTurns
  /-- Before the turn has its prompt, the prompt is the last message. -/
  starting : t.stage = .starting → r.messages.getLast? = some t.prompt
  /-- Behind an answer that streamed something, the last message is an answer. -/
  streamed : ∀ steps, t.stage = .answered steps → t.streamed = true →
    ∃ message, r.messages.getLast? = some message ∧ message.role = .assistant

/-- **A step** keeps what replay has of a turn. -/
theorem TurnRun.Journaled.step (h : t.Journaled start r)
    (hreplay : r.replayAll view (t.step input).2 = some r') :
    (t.step input).1.Journaled start r' := by
  have hreported {event : AppEvent} (hevent : event.Reported)
      (hone : r.replayAll view [event] = some r') :
      r'.messages = r.messages ∧ r'.activeTurns = r.activeTurns :=
    ConversationReplay.replayAll_reported hone (by simpa using hevent)
  have htakes := t.step_takes input
  generalize (t.step input).1 = t' at htakes ⊢
  generalize (t.step input).2 = events at htakes hreplay
  cases htakes with
  | passed =>
    cases hreplay
    exact h
  | reported hevent =>
    obtain ⟨hmessages, hactive⟩ := hreported hevent hreplay
    refine ⟨h.turn, h.prompt, hactive ▸ h.active, ?_, ?_⟩
    · rw [hmessages]
      exact h.starting
    · rw [hmessages]
      exact h.streamed
  | prepared | begun | settled | carriedOn | finished =>
    cases hreplay
    exact ⟨h.turn, h.prompt, h.active, nofun, nofun⟩
  | steered hstage =>
    have hactive := ConversationReplay.replayAll_ongoing hreplay (by simp [ConversationReplay.Ongoing])
      h.active
    refine ⟨h.turn, h.prompt, hactive, fun hstarting => ?_, fun steps hanswered => ?_⟩
    · cases hstage.symm.trans hstarting
    · cases hstage.symm.trans hanswered
  | @answered _ deltas _ _ _ hstage hnot =>
    have hactive := ConversationReplay.replayAll_ongoing hreplay
      (by
        rintro event hevent
        obtain ⟨delta, -, rfl⟩ := List.mem_map.mp hevent
        cases delta <;> rfl) h.active
    refine ⟨h.turn, h.prompt, hactive, fun hstarting => absurd hstarting hnot, ?_⟩
    intro _ _ hstreamed
    exact ConversationReplay.replayAll_deltas (of_decide_eq_true hstreamed) hreplay
  | replied hstage hcalls =>
    have hactive := ConversationReplay.replayAll_ongoing hreplay (by simp [ConversationReplay.Ongoing])
      h.active
    unfold TurnRun.reply
    dsimp only
    split
    · exact ⟨h.turn, h.prompt, hactive, nofun, nofun⟩
    · refine ⟨h.turn, h.prompt, hactive, fun hstarting => ?_, fun steps hanswered => ?_⟩
      · cases hstage.symm.trans hstarting
      · cases hstage.symm.trans hanswered
  | compacted _ hstarting hanswered =>
    have hactive := ConversationReplay.replayAll_ongoing hreplay (by simp [ConversationReplay.Ongoing])
      h.active
    exact ⟨h.turn, h.prompt, hactive, fun h => absurd h hstarting,
      fun steps h => absurd h (hanswered steps)⟩

/-- **A turn**, from its start, against the replay of its journal. -/
theorem journaled_after {history : List AppEvent} {inputs : List TurnInput}
    (hreplay : ConversationReplay.start.replayAll view (start.journal history inputs) = some r) :
    (start.after inputs).Journaled start r := by
  refine turnMachine.run_induction (C := fun _ _ => True) (s := start.turnRun)
    (motive := fun _ events t => ∀ r,
      ConversationReplay.start.replayAll view
        (history ++ [.promptAccepted start.turnId start.text start.attachments,
          .turnStarted start.turnId] ++ events) = some r → t.Journaled start r)
    ?_ ?_ inputs (turnMachine.meets_of_forall (fun _ _ _ => trivial) _) r hreplay
  · intro r hr
    rw [List.append_nil, ConversationReplay.replayAll_append] at hr
    obtain ⟨before, -, hr⟩ := Option.bind_eq_some_iff.mp hr
    cases hr
    exact ⟨rfl, rfl, List.mem_insert_self, fun _ => List.getLast?_concat, nofun⟩
  · intro _ events t input ht _ r hr
    rw [← List.append_assoc, ConversationReplay.replayAll_append] at hr
    obtain ⟨before, hbefore, hr⟩ := Option.bind_eq_some_iff.mp hr
    exact (ht before hbefore).step hr

/-! ## The conversation that is restored -/

variable {messages restored : List ChatMessage} {system : String} {history : List AppEvent}
  {inputs : List TurnInput} {point : CompactionPoint} {result : CompactionResult}

theorem TurnStart.journal_snoc (start : TurnStart) (history : List AppEvent)
    (inputs : List TurnInput) (input : TurnInput) :
    start.journal history (inputs ++ [input]) =
      start.journal history inputs ++ ((start.after inputs).step input).2 := by
  rw [journal, turnMachine.run_snoc, ← List.append_assoc]
  rfl

theorem TurnStart.after_snoc (start : TurnStart) (inputs : List TurnInput) (input : TurnInput) :
    start.after (inputs ++ [input]) = ((start.after inputs).step input).1 := by
  rw [after, turnMachine.run_snoc]
  rfl

/-- The summary of a conversation, and what follows it. -/
theorem conversation_compactedHistory (system summary : String)
    (hfollowing : ∀ message ∈ messages, message.role = .user) :
    conversation (compactedHistory system summary ++ messages) =
      conversation (compactedHistory "" summary) ++ messages := by
  have hmessages : conversation messages = messages :=
    List.filter_eq_self.mpr fun message hmessage => by simp [hfollowing message hmessage]
  rw [conversation, List.filter_append]
  exact congrArg (_ ++ ·) hmessages

theorem ConversationReplay.pendingPrompt_of_active {turnId : TurnId}
    (h : turnId ∈ r.activeTurns) :
    r.pendingPrompt = r.messages.getLast?.filter (·.role = .user) :=
  if_neg (List.ne_nil_of_mem h)

theorem ConversationReplay.pendingPrompt_role : ∀ message ∈ r.pendingPrompt.toList,
    message.role = .user := by
  intro message h
  rw [Option.mem_toList, pendingPrompt] at h
  split at h
  · cases h
  · exact of_decide_eq_true (Option.filter_eq_some_iff.mp h).2

theorem TurnRun.following_role (hprompt : t.prompt.role = .user) :
    ∀ message ∈ t.following point, message.role = .user := by
  cases point with
  | beforeTurn => simpa [following] using hprompt
  | betweenSteps => simp [following, continuationMessage, ChatMessage.text]
  | afterAnswer => exact fun _ h => absurd h List.not_mem_nil

/-- **The replay of a compaction** builds the conversation that the turn goes on with exactly where
the prompt it keeps is what follows the summary in the turn. -/
theorem restored_compacted (hjournaled : t.Journaled start r) (h : t.Compacts input point result)
    (hrestored : (r.replayAll view (t.step input).2).map (·.restored system) = some restored) :
    conversation restored = conversation (t.step input).1.messages ↔
      r.pendingPrompt.toList = t.following point := by
  obtain ⟨⟨text, hmessages⟩, hevents⟩ := t.step_compacts h
  rw [hevents] at hrestored
  obtain ⟨after, hafter, rfl⟩ := Option.map_eq_some_iff.mp hrestored
  cases hafter
  have hprompt : t.prompt.role = .user := by
    rw [hjournaled.prompt]
    rfl
  have hnotice (notices : List ChatMessage) (h : ∀ m ∈ notices, m.role = .system) :
      conversation notices = [] := by
    refine List.filter_eq_nil_iff.mpr fun message hmessage => ?_
    simp [h message hmessage]
  have hend : conversation (if r.activeTurns ≠ [] ∨ ([] : List String) ≠ [] then
      [ConversationReplay.interruptedWork] else []) = [] := by
    refine hnotice _ fun message hmessage => ?_
    split at hmessage
    · rw [List.mem_singleton.mp hmessage]
      rfl
    · cases hmessage
  have hbuilt := conversation_compactedHistory system result.summary
    (ConversationReplay.pendingPrompt_role (r := r))
  rw [hmessages, conversation_compactedHistory text result.summary (TurnRun.following_role hprompt),
    ConversationReplay.restored, conversation, List.filter_append]
  change conversation (compactedHistory system result.summary ++ r.pendingPrompt.toList) ++
    conversation _ = _ ↔ _
  rw [hend, List.append_nil, hbuilt, List.append_cancel_left_eq]

/-- What the last message has to be before a compaction, for its replay to build the conversation
that the turn goes on with. -/
def CompactionPoint.Recognised (last : Option ChatMessage) : CompactionPoint → Prop
  | .beforeTurn => True
  | .betweenSteps => last = some continuationMessage
  | .afterAnswer => ∀ message ∈ last, message.role ≠ .user

theorem recognised_iff (hjournaled : t.Journaled start r) (h : t.Compacts input point result) :
    r.pendingPrompt.toList = t.following point ↔ point.Recognised r.messages.getLast? := by
  rw [ConversationReplay.pendingPrompt_of_active hjournaled.active]
  have hprompt : t.prompt.role = .user := by
    rw [hjournaled.prompt]
    rfl
  cases h with
  | beforeTurn hstage _ =>
    rw [hjournaled.starting hstage, Option.filter_some, if_pos (by simpa using hprompt)]
    exact iff_of_true rfl trivial
  | betweenSteps =>
    cases hlast : r.messages.getLast? with
    | none => simp [TurnRun.following, CompactionPoint.Recognised]
    | some last =>
      simp only [TurnRun.following, CompactionPoint.Recognised, Option.toList_eq_singleton_iff,
        Option.filter_eq_some_iff, and_iff_left_iff_imp]
      rintro ⟨⟩
      rfl
  | afterAnswer => simp [TurnRun.following, CompactionPoint.Recognised]

/-- What becomes of the compactions of a turn. -/
structure CompactionsRestored (view : String → Option ImageContent) (system : String)
    (history : List AppEvent) (start : TurnStart) (inputs : List TurnInput) : Prop where
  /-- The replay of a compaction builds the conversation that the turn goes on with exactly where
  the last message before it is recognised. -/
  restored : ∀ before input point result replayed messages, inputs = before ++ [input] →
    (start.after before).Compacts input point result →
    ConversationReplay.start.replayAll view (start.journal history before) = some replayed →
    restoreSession view system (start.journal history inputs) = some messages →
      (conversation messages = conversation (start.after inputs).messages ↔
        point.Recognised replayed.messages.getLast?)
  /-- So it is at the end of a turn where the last answer streamed something. -/
  streamed : ∀ before input result messages, inputs = before ++ [input] →
    (start.after before).Compacts input .afterAnswer result → (start.after before).streamed = true →
    restoreSession view system (start.journal history inputs) = some messages →
      conversation messages = conversation (start.after inputs).messages
  /-- There are no other compactions. -/
  points : ∀ before input summary count, inputs = before ++ [input] →
    .contextCompacted summary count ∈ ((start.after before).step input).2 →
      ∃ point, (start.after before).Compacts input point ⟨summary, count⟩

theorem journal_replayed {before : List TurnInput}
    (h : restoreSession view system (start.journal history (before ++ [input])) = some restored) :
    ∃ replayed, ConversationReplay.start.replayAll view (start.journal history before) =
        some replayed ∧
      (replayed.replayAll view ((start.after before).step input).2).map (·.restored system) =
        some restored := by
  rw [restoreSession, start.journal_snoc, ConversationReplay.replayAll_append] at h
  obtain ⟨last, hlast, rfl⟩ := Option.map_eq_some_iff.mp h
  obtain ⟨replayed, hreplayed, hlast⟩ := Option.bind_eq_some_iff.mp hlast
  exact ⟨replayed, hreplayed, by rw [hlast]; rfl⟩

/-- A compaction is restored as the turn goes on from it exactly where the last message before it is
recognised. -/
theorem compaction_restored (view : String → Option ImageContent) (system : String)
    (history : List AppEvent) (start : TurnStart) (inputs : List TurnInput) :
    CompactionsRestored view system history start inputs where
  restored := by
    rintro before input point result replayed messages rfl hcompacts hreplayed hmessages
    obtain ⟨_, hsame, hmessages⟩ := journal_replayed hmessages
    cases hreplayed.symm.trans hsame
    have hjournaled := journaled_after hreplayed
    rw [start.after_snoc, restored_compacted hjournaled hcompacts hmessages]
    exact recognised_iff hjournaled hcompacts
  streamed := by
    rintro before input result messages rfl hcompacts hstreamed hmessages
    obtain ⟨replayed, hreplayed, hmessages⟩ := journal_replayed hmessages
    have hjournaled := journaled_after hreplayed
    rw [start.after_snoc, restored_compacted hjournaled hcompacts hmessages,
      recognised_iff hjournaled hcompacts]
    cases hcompacts with
    | afterAnswer hstage _ =>
      obtain ⟨last, hlast, hrole⟩ := hjournaled.streamed _ hstage hstreamed
      rw [hlast]
      rintro _ ⟨⟩ huser
      cases hrole.symm.trans huser
  points := by
    rintro before input summary count rfl hevent
    have htakes := (start.after before).step_takes input
    generalize ((start.after before).step input).1 = after at htakes
    generalize ((start.after before).step input).2 = events at htakes hevent
    cases htakes with
    | compacted hcompacts =>
      cases List.mem_singleton.mp hevent
      exact ⟨_, hcompacts⟩
    | reported hreported =>
      cases List.mem_singleton.mp hevent
      cases hreported
    | answered =>
      obtain ⟨delta, -, heq⟩ := List.mem_map.mp hevent
      cases delta <;> cases heq
    | _ => simp at hevent

/-- A turn in a conversation without messages. -/
def firstTurn : TurnStart where
  turnId := ⟨1⟩
  text := "list the files"
  attachments := []
  messages := [.text .system ""]

/-- A tool is called, and the next step begins with a compaction. -/
def compactsBetween (call : ToolCall) (images : List ImageContent) : List TurnInput :=
  [.prepare "" none, .begin none, .answer [.text "I look."] { text := "I look.", toolCalls := [call] },
    .reply ⟨.obj [], "done", false, false, true, images⟩, .begin (some ⟨"A tool was called.", 3⟩)]

/-- The prompt is answered with nothing, and the turn ends with a compaction. -/
def compactsSilence : List TurnInput :=
  [.prepare "" none, .begin none, .answer [] {}, .settle (some ⟨"Nothing was answered.", 2⟩)]

def shownImage : ImageContent := ⟨"image/png", "iVBORw0KGgo="⟩

/-- What a turn goes on with is not what is restored: between steps there is a message in no
event, an image that was shown is taken for the prompt, and so is a prompt that was answered
with nothing. -/
theorem compaction_not_restored :
    let view := fun _ => some shownImage
    (∃ messages, restoreSession view "" (firstTurn.journal []
          (compactsBetween ⟨"call", "function", ⟨"list", "{}"⟩⟩ [])) = some messages ∧
      conversation messages ≠ conversation (firstTurn.after
        (compactsBetween ⟨"call", "function", ⟨"list", "{}"⟩⟩ [])).messages) ∧
    (∃ messages, restoreSession view "" (firstTurn.journal []
          (compactsBetween ⟨"call", "function", ⟨"view_image", "{}"⟩⟩ [shownImage])) =
            some messages ∧
      imageObservation "call" [shownImage] ∈ messages ∧
      conversation messages ≠ conversation (firstTurn.after
        (compactsBetween ⟨"call", "function", ⟨"view_image", "{}"⟩⟩ [shownImage])).messages) ∧
    ∃ messages, restoreSession view "" (firstTurn.journal [] compactsSilence) = some messages ∧
      conversation messages ≠ conversation (firstTurn.after compactsSilence).messages := by
  have hdiffers {a b : List ChatMessage}
      (h : (a.map fun m => m.images.length) ≠ b.map fun m => m.images.length) : a ≠ b :=
    fun heq => h (congrArg _ heq)
  refine ⟨⟨_, rfl, hdiffers (by decide)⟩,
    ⟨_, rfl, .tail _ (.tail _ (.head _)), hdiffers (by decide)⟩,
    ⟨_, rfl, hdiffers (by decide)⟩⟩

end AxiomDesktop
