import AxiomDesktop.SecureClient.Stream

/-!
# The invariant of a stream

What the state machine of a stream knows of the events it has accepted and the events it has sent
(`Near.FeedInvariant`), and that every accepted event keeps it (`Near.wp_accept`,
`Near.wp_acceptAll`). The state's text, reasoning and refusal are the fragments sent, its tool calls
are the fragments held back, its sequence number counts the deltas, and after a completion the
response its fields make is authentic (`Near.Authentic`): it is what the signed bytes parse to.
-/

namespace AxiomDesktop

namespace Near

open Fallible

/-! ## The response the events make -/

/-- The events that only a verified stream may send. -/
def gated : ProviderEvent → Bool
  | .toolCallDelta _ | .usage .. | .finished _ | .responseVerified => true
  | _ => false

def textDelta? : ProviderEvent → Option String
  | .textDelta text => some text
  | _ => none

def reasoningDelta? : ProviderEvent → Option String
  | .reasoningDelta text => some text
  | _ => none

def refusalDelta? : ProviderEvent → Option String
  | .refusalDelta text => some text
  | _ => none

def toolCallDelta? : ProviderEvent → Option ToolCallDelta
  | .toolCallDelta delta => some delta
  | _ => none

def usage? : ProviderEvent → Option (Nat × Nat)
  | .usage inputTokens outputTokens => some (inputTokens, outputTokens)
  | _ => none

def finished? : ProviderEvent → Option FinishReason
  | .finished reason => some reason
  | _ => none

/-- The fragments the events carry, joined. -/
def collect (pick : ProviderEvent → Option String) (events : List ProviderEvent) : String :=
  (events.filterMap pick).foldr (· ++ ·) ""

theorem foldr_append (xs : List String) (y : String) :
    xs.foldr (· ++ ·) y = xs.foldr (· ++ ·) "" ++ y := by
  induction xs with
  | nil => simp
  | cons x xs ih => simp only [List.foldr_cons, ih, String.append_assoc]

theorem collect_append (pick : ProviderEvent → Option String) (a b : List ProviderEvent) :
    collect pick (a ++ b) = collect pick a ++ collect pick b := by
  rw [collect, List.filterMap_append, List.foldr_append, foldr_append]
  rfl

/-- An event that carries no such fragment adds nothing. -/
theorem collect_snoc_none {pick : ProviderEvent → Option String} {e : ProviderEvent}
    (h : pick e = none) (events : List ProviderEvent) :
    collect pick (events ++ [e]) = collect pick events := by
  simp [collect, h]

theorem collect_snoc_some {pick : ProviderEvent → Option String} {e : ProviderEvent} {v : String}
    (h : pick e = some v) (events : List ProviderEvent) :
    collect pick (events ++ [e]) = collect pick events ++ v := by
  rw [collect_append]
  simp [collect, h]

/-! ## The guarantees -/

def isDelta : RelayEvent → Bool
  | .delta _ => true
  | _ => false

def isCompletion : RelayEvent → Bool
  | .messageCompleted _ => true
  | _ => false

theorem textDelta?_gated (e : ProviderEvent) (h : gated e = true) : textDelta? e = none := by
  cases e <;> first | rfl | cases h

theorem reasoningDelta?_gated (e : ProviderEvent) (h : gated e = true) :
    reasoningDelta? e = none := by
  cases e <;> first | rfl | cases h

theorem refusalDelta?_gated (e : ProviderEvent) (h : gated e = true) : refusalDelta? e = none := by
  cases e <;> first | rfl | cases h

theorem toolCallDelta?_open (e : ProviderEvent) (h : gated e = false) : toolCallDelta? e = none := by
  cases e <;> first | rfl | cases h

theorem usage?_open (e : ProviderEvent) (h : gated e = false) : usage? e = none := by
  cases e <;> first | rfl | cases h

theorem finished?_open (e : ProviderEvent) (h : gated e = false) : finished? e = none := by
  cases e <;> first | rfl | cases h

/-- What the caller of a stream expects of its receipt. -/
structure Expected where
  requestHash : String
  signingAddress : String
  model : String

/-- The relay's events hold exactly one completion, and its receipt holds for the request over
bytes that parse to the response, with one accepted delta for each chunk that carries content. -/
structure Authentic (P : Primitives) (x : Expected) (events : List RelayEvent)
    (response : InferenceResponse) : Prop where
  exactlyOne : events.countP isCompletion = 1
  receipt : ∃ payload value proof body transcript,
    .messageCompleted payload ∈ events ∧ payload.proof = some value ∧
      verifyNearProof P value x.requestHash x.signingAddress x.model = .ok (proof, body) ∧
      ReceiptHolds P x.requestHash x.signingAddress x.model proof body ∧
      parseRawStream P body = .ok transcript ∧ transcript.response = response ∧
      transcript.sequenceCount = events.countP isDelta

/-- The state's record of a completion: the response its fields make is authentic. -/
def Completed (P : Primitives) (x : Expected) (done : List RelayEvent) (s : StreamState) : Prop :=
  ∃ usage reason response, s.usage = some usage ∧ s.finishReason = some reason ∧
    provisionalResponse P s usage reason = .ok response ∧ Authentic P x done response

/-- No event that waits for verification has been sent. -/
def Quiet (feed : Feed) : Prop := ∀ e ∈ feed.sent, gated e = false

/-- What the completion adds to the events held back. -/
def terminalEvents (s : StreamState) : List ProviderEvent :=
  match s.usage, s.finishReason with
  | some usage, some reason => [.usage usage.inputTokens usage.outputTokens, .finished reason]
  | _, _ => []

/-- **The invariant of a stream**, of the relay events accepted, the state and the events sent. -/
structure FeedInvariant (P : Primitives) (x : Expected) (done : List RelayEvent) (feed : Feed) :
    Prop where
  quiet : Quiet feed
  requestHash : feed.state.expectedRequestHash = x.requestHash
  signingAddress : feed.state.expectedSigningAddress = x.signingAddress
  model : feed.state.expectedModel = x.model
  text : feed.state.text = collect textDelta? feed.sent
  reasoning : feed.state.reasoning = collect reasoningDelta? feed.sent
  refusal : feed.state.refusal = collect refusalDelta? feed.sent
  sequence : feed.state.nextSequence = some (1 + done.countP isDelta)
  held : ∃ deltas : List ToolCallDelta,
    (deltas.forM ToolCallAccumulator.push).exec {} = (.ok ⟨⟩, feed.state.toolCalls) ∧
    feed.state.verifiedEvents = deltas.map .toolCallDelta ++ terminalEvents feed.state
  waiting : feed.state.messageCompleted = false →
    feed.state.usage = none ∧ feed.state.finishReason = none ∧ done.countP isCompletion = 0
  completed : feed.state.messageCompleted = true → Completed P x done feed.state

variable {P : Primitives} {x : Expected} {sink : Nat → Bool}

theorem FeedInvariant.init (x : Expected) :
    FeedInvariant P x [] ⟨.new x.requestHash x.signingAddress x.model, []⟩ where
  quiet := by simp [Quiet]
  requestHash := rfl
  signingAddress := rfl
  model := rfl
  text := rfl
  reasoning := rfl
  refusal := rfl
  sequence := rfl
  held := ⟨[], rfl, rfl⟩
  waiting := fun _ => ⟨rfl, rfl, rfl⟩
  completed := fun h => by cases h

/-- Events that are no delta and no completion change nothing about an authentic response. -/
theorem Authentic.snoc {events : List RelayEvent} {response : InferenceResponse} {e : RelayEvent}
    (h : Authentic P x events response) (hd : isDelta e = false) (hc : isCompletion e = false) :
    Authentic P x (events ++ [e]) response := by
  obtain ⟨hone, payload, value, proof, body, transcript, hmem, hrest⟩ := h
  refine ⟨by simp [hone, hc], payload, value, proof, body, transcript,
    List.mem_append_left _ hmem, ?_⟩
  simpa [hd] using hrest

/-- An event that is no delta and no completion may change the run of the state and whether it is
complete, and may send an event that is not gated and carries no part of the response. -/
theorem FeedInvariant.other {done : List RelayEvent} {feed : Feed} {e : RelayEvent}
    (h : FeedInvariant P x done feed) (hd : isDelta e = false) (hc : isCompletion e = false)
    (runId : Option String) (runCompleted : Bool) :
    FeedInvariant P x (done ++ [e]) { feed with state := { feed.state with runId, runCompleted } }
    where
  quiet := h.quiet
  requestHash := h.requestHash
  signingAddress := h.signingAddress
  model := h.model
  text := h.text
  reasoning := h.reasoning
  refusal := h.refusal
  sequence := by simpa [hd] using h.sequence
  held := h.held
  waiting := fun hw => by simpa [hc] using h.waiting hw
  completed := fun hw => by
    obtain ⟨usage, reason, response, hu, hr, hp, ha⟩ := h.completed hw
    exact ⟨usage, reason, response, hu, hr, hp, ha.snoc hd hc⟩

/-- Sending an event that is not gated and carries no part of the response keeps the invariant. -/
theorem FeedInvariant.sent {done : List RelayEvent} {feed : Feed} {e : ProviderEvent}
    (h : FeedInvariant P x done feed) (hg : gated e = false) (ht : textDelta? e = none)
    (hr : reasoningDelta? e = none) (hf : refusalDelta? e = none) :
    FeedInvariant P x done { feed with sent := feed.sent ++ [e] } where
  quiet := by simpa [Quiet, or_imp, forall_and, hg] using h.quiet
  requestHash := h.requestHash
  signingAddress := h.signingAddress
  model := h.model
  text := by rw [collect_snoc_none ht]; exact h.text
  reasoning := by rw [collect_snoc_none hr]; exact h.reasoning
  refusal := by rw [collect_snoc_none hf]; exact h.refusal
  sequence := h.sequence
  held := h.held
  waiting := h.waiting
  completed := h.completed

/-! ## Spec lemmas of the parts of `accept` -/

section
variable {α : Type} {ok : α → Feed → Prop} {feed : Feed}

@[simp] theorem wp_onState {err : SecureClientError → Feed → Prop}
    (y : Fallible SecureClientError StreamState α) :
    (onState y).Wp ok err feed ↔
      y.Wp (fun a s => ok a { feed with state := s }) (fun e s => err e { feed with state := s })
        feed.state :=
  wp_focus _ _ _ _

end

@[simp] theorem wp_send {ok : PUnit → Feed → Prop} {err : SecureClientError → Feed → Prop}
    {feed : Feed} (e : ProviderEvent) :
    (send sink e).Wp ok err feed ↔
      (sink feed.sent.length = false → err .stopped feed) ∧
        (sink feed.sent.length = true → ok ⟨⟩ { feed with sent := feed.sent ++ [e] }) := by
  simp [send]

@[simp] theorem wp_requireRun {ok : PUnit → StreamState → Prop}
    {err : SecureClientError → StreamState → Prop} {s : StreamState} (runId : String) :
    (requireRun runId).Wp ok err s ↔
      (s.runId ≠ some runId → err (.invalid "relay event run ID is inconsistent") s) ∧
        (s.runId = some runId → ok ⟨⟩ s) := by
  simp [requireRun]

theorem wp_keepStable {ok : PUnit → Option String → Prop}
    {err : SecureClientError → Option String → Prop} {old : Option String}
    {value : Option String} {check : String → Except SecureClientError Unit} {detail : String}
    (hok : ∀ new, ok ⟨⟩ new) (herr : ∀ e, err e old) :
    (keepStable value check detail).Wp ok err old := by
  cases value with
  | none => exact hok _
  | some value =>
    simp only [keepStable, wp_bind, wp_ofResult, wp_get, wp_failIf, wp_set]
    exact ⟨fun e _ => herr e, fun _ _ => ⟨fun _ => herr _, fun _ => hok _⟩⟩

/-- An accepted delta is the next one of the sequence, before the completion. -/
theorem wp_acceptSequence (payload : DeltaPayload) (s : StreamState) :
    (acceptSequence payload).Wp
      (fun _ t => s.messageCompleted = false ∧
        (∀ n, s.nextSequence = some n → payload.sequence.toNat = n) ∧
        ∃ responseId, t = { s with nextSequence := some (payload.sequence.toNat + 1), responseId })
      (fun _ _ => True) s := by
  simp only [acceptSequence, wp_bind, wp_requireRun, wp_get, wp_failIf, wp_set, wp_focus]
  refine ⟨fun _ => trivial, fun _ => ⟨fun _ => trivial, fun hm => ⟨fun _ => trivial,
    fun hseq => ⟨fun _ => trivial, fun _ => ?_⟩⟩⟩⟩
  refine wp_keepStable (fun responseId => ?_) fun _ => trivial
  refine ⟨by simpa using hm, fun n hn => ?_, responseId, rfl⟩
  simpa [hn] using hseq

/-- A fragment that is accepted is appended where it belongs, and sent. -/
theorem wp_acceptFragment {read : StreamState → String}
    {write : String → StreamState → StreamState} {event : String → ProviderEvent}
    (fragment : Option CiphertextHex) (feed : Feed) :
    (acceptFragment P sink read write event fragment).Wp
      (fun _ t => t = feed ∨ ∃ value, t =
        { state := write (read feed.state ++ value) feed.state, sent := feed.sent ++ [event value] })
      (fun _ t => t.sent = feed.sent) feed := by
  cases fragment with
  | none => exact .inl rfl
  | some ciphertext =>
    simp only [acceptFragment, appendBounded, wp_bind, wp_ofResult, wp_onState, wp_focus, wp_get,
      wp_failIf, wp_set, wp_send]
    exact ⟨fun _ _ => trivial, fun value _ => ⟨fun _ => trivial,
      fun _ => ⟨fun _ => trivial, fun _ => .inr ⟨value, rfl⟩⟩⟩⟩

/-- The second state has the fragments of some more tool calls joined and held back, in order. -/
def Joined (s t : StreamState) : Prop :=
  ∃ (deltas : List ToolCallDelta) (toolCalls : ToolCallAccumulator),
    (deltas.forM ToolCallAccumulator.push).exec s.toolCalls = (.ok ⟨⟩, toolCalls) ∧
    t = { s with
      toolCalls, verifiedEvents := s.verifiedEvents ++ deltas.map ProviderEvent.toolCallDelta }

theorem Joined.refl (s : StreamState) : Joined s s := ⟨[], s.toolCalls, rfl, by simp⟩

/-- The fragments of tool calls that are accepted are joined in order, and held back in order. -/
theorem wp_acceptToolCalls (encrypted : List EncryptedToolCallDelta) (s : StreamState) :
    (encrypted.forM (acceptToolCall P)).Wp (fun _ t => Joined s t) (fun _ _ => True) s := by
  refine Wp.forM (I := fun _ t => Joined s t) (.refl s) ?_ encrypted
  rintro _ call t ⟨deltas, toolCalls, hpush, rfl⟩
  simp only [acceptToolCall, pushCall, wp_bind, wp_ofResult, wp_focus, wp_mapError, wp_modify]
  refine ⟨fun _ _ => trivial, fun name _ => ⟨fun _ _ => trivial, fun arguments _ => ?_⟩⟩
  refine (Wp.exec _ _).mono (fun _ acc hacc => ?_) fun _ _ _ => trivial
  refine ⟨deltas ++ [⟨call.index, call.id, call.kind, name, arguments⟩], acc, ?_, by simp⟩
  rw [exec_forM_append hpush, exec_forM_singleton hacc]

/-! ## One event -/

/-- What `Quiet` says depends on the events sent alone. -/
theorem Quiet.of_sent {feed t : Feed} (h : Quiet feed) (ht : t.sent = feed.sent) : Quiet t := by
  rw [Quiet, ht]
  exact h

/-- Before the completion, the state's fields of the response may change with an event that is
sent, as long as they stay what the events sent make. -/
theorem FeedInvariant.append {done : List RelayEvent} {feed : Feed} {e : ProviderEvent}
    {text reasoning refusal : String} (h : FeedInvariant P x done feed)
    (hopen : feed.state.messageCompleted = false) (hg : gated e = false)
    (ht : text = collect textDelta? (feed.sent ++ [e]))
    (hr : reasoning = collect reasoningDelta? (feed.sent ++ [e]))
    (hf : refusal = collect refusalDelta? (feed.sent ++ [e])) :
    FeedInvariant P x done
      { state := { feed.state with text, reasoning, refusal }, sent := feed.sent ++ [e] } where
  quiet := by simpa [Quiet, or_imp, forall_and, hg] using h.quiet
  requestHash := h.requestHash
  signingAddress := h.signingAddress
  model := h.model
  text := ht
  reasoning := hr
  refusal := hf
  sequence := h.sequence
  held := h.held
  waiting := h.waiting
  completed := fun hc => by
    rw [hopen] at hc
    cases hc

/-- Before the completion, more fragments of tool calls may be joined and held back. -/
theorem FeedInvariant.join {done : List RelayEvent} {feed : Feed} {s : StreamState}
    (h : FeedInvariant P x done feed) (hopen : feed.state.messageCompleted = false)
    (hs : Joined feed.state s) : FeedInvariant P x done { feed with state := s } := by
  obtain ⟨more, toolCalls, hmore, rfl⟩ := hs
  obtain ⟨deltas, hpush, hheld⟩ := h.held
  obtain ⟨husage, _, _⟩ := h.waiting hopen
  refine { h with held := ⟨deltas ++ more, ?_, ?_⟩, completed := fun hc => ?_ }
  · rw [exec_forM_append hpush, hmore]
  · simp [hheld, terminalEvents, husage]
  · rw [hopen] at hc
    cases hc

/-- An accepted sequence number counts the delta. -/
theorem FeedInvariant.count {done : List RelayEvent} {feed : Feed} (payload : DeltaPayload)
    (h : FeedInvariant P x done feed) (hopen : feed.state.messageCompleted = false)
    (hseq : ∀ n, feed.state.nextSequence = some n → payload.sequence.toNat = n)
    (responseId : Option String) :
    FeedInvariant P x (done ++ [.delta payload])
      { feed with state :=
          { feed.state with nextSequence := some (payload.sequence.toNat + 1), responseId } } where
  quiet := h.quiet
  requestHash := h.requestHash
  signingAddress := h.signingAddress
  model := h.model
  text := h.text
  reasoning := h.reasoning
  refusal := h.refusal
  sequence := by
    have hnext := hseq _ h.sequence
    simp [isDelta, hnext]
    omega
  held := h.held
  waiting := fun hw => by simpa [isCompletion] using h.waiting hw
  completed := fun hc => by
    rw [hopen] at hc
    cases hc

/-- **Deltas.** An accepted delta keeps the invariant. -/
theorem wp_acceptDelta {done : List RelayEvent} {feed : Feed} (payload : DeltaPayload)
    (h : FeedInvariant P x done feed) :
    (acceptDelta P sink payload).Wp (fun _ t => FeedInvariant P x (done ++ [.delta payload]) t)
      (fun _ t => Quiet t) feed := by
  simp only [acceptDelta, wp_bind, wp_onState]
  refine (wp_acceptSequence payload feed.state).mono ?_ fun _ _ _ => h.quiet
  rintro _ s ⟨hopen, hseq, responseId, rfl⟩
  have h0 := h.count payload hopen hseq responseId
  -- The text, the reasoning and the refusal, each appended and sent.
  refine (wp_acceptFragment _ _).mono ?_ fun _ _ ht => h0.quiet.of_sent ht
  intro _ t1 ht1
  have h1 : FeedInvariant P x (done ++ [.delta payload]) t1 ∧ t1.state.messageCompleted = false := by
    rcases ht1 with rfl | ⟨value, rfl⟩
    · exact ⟨h0, hopen⟩
    · refine ⟨h0.append hopen rfl ?_ ?_ ?_, hopen⟩
      · rw [collect_snoc_some rfl, ← h0.text]
      · rw [collect_snoc_none rfl, ← h0.reasoning]
      · rw [collect_snoc_none rfl, ← h0.refusal]
  refine (wp_acceptFragment _ _).mono ?_ fun _ _ ht => h1.1.quiet.of_sent ht
  intro _ t2 ht2
  have h2 : FeedInvariant P x (done ++ [.delta payload]) t2 ∧ t2.state.messageCompleted = false := by
    rcases ht2 with rfl | ⟨value, rfl⟩
    · exact h1
    · refine ⟨h1.1.append h1.2 rfl ?_ ?_ ?_, h1.2⟩
      · rw [collect_snoc_none rfl, ← h1.1.text]
      · rw [collect_snoc_some rfl, ← h1.1.reasoning]
      · rw [collect_snoc_none rfl, ← h1.1.refusal]
  refine (wp_acceptFragment _ _).mono ?_ fun _ _ ht => h2.1.quiet.of_sent ht
  intro _ t3 ht3
  have h3 : FeedInvariant P x (done ++ [.delta payload]) t3 ∧ t3.state.messageCompleted = false := by
    rcases ht3 with rfl | ⟨value, rfl⟩
    · exact h2
    · refine ⟨h2.1.append h2.2 rfl ?_ ?_ ?_, h2.2⟩
      · rw [collect_snoc_none rfl, ← h2.1.text]
      · rw [collect_snoc_none rfl, ← h2.1.reasoning]
      · rw [collect_snoc_some rfl, ← h2.1.refusal]
  -- The fragments of tool calls, held back.
  refine (wp_acceptToolCalls _ _).mono (fun _ s hs => h3.1.join h3.2 hs) fun _ _ _ => ?_
  exact h3.1.quiet

/-- A completion that is accepted has a receipt that holds for the response of the state. -/
theorem checkCompletion_ok {s : StreamState} {payload : CompletedPayload} {usage : Usage}
    {reason : FinishReason} (h : checkCompletion P s payload = .ok (usage, reason)) :
    ∃ value proof body transcript, payload.proof = some value ∧
      verifyNearProof P value s.expectedRequestHash s.expectedSigningAddress s.expectedModel =
        .ok (proof, body) ∧
      parseRawStream P body = .ok transcript ∧
      transcript.sequenceCount = s.nextSequence.getD 1 - 1 ∧
      provisionalResponse P s usage reason = .ok transcript.response := by
  unfold checkCompletion at h
  cases hvalue : payload.proof with
  | none => rw [hvalue] at h; cases h
  | some value =>
    rw [hvalue] at h
    obtain ⟨⟨proof, body⟩, hproof, h⟩ := result_bind_ok h
    obtain ⟨_, _, h⟩ := result_bind_ok h
    obtain ⟨transcript, htranscript, h⟩ := result_bind_ok h
    obtain ⟨_, _, h⟩ := result_bind_ok h
    obtain ⟨_, _, h⟩ := result_bind_ok h
    obtain ⟨_, hcount, h⟩ := result_bind_ok h
    obtain ⟨r, _, h⟩ := result_bind_ok h
    obtain ⟨u, _, h⟩ := result_bind_ok h
    obtain ⟨provisional, hprovisional, h⟩ := result_bind_ok h
    obtain ⟨_, hsame, h⟩ := result_bind_ok h
    cases h
    have hresponse : provisional = transcript.response := by simpa using ensure_ok hsame
    exact ⟨value, proof, body, transcript, rfl, hproof, htranscript,
      by simpa using ensure_ok hcount, hresponse ▸ hprovisional⟩

/-- **Completion.** An accepted completion makes the response of the state authentic. -/
theorem wp_acceptCompletion {done : List RelayEvent} {feed : Feed} (payload : CompletedPayload)
    (h : FeedInvariant P x done feed) :
    (onState (acceptCompletion P payload)).Wp
      (fun _ t => FeedInvariant P x (done ++ [.messageCompleted payload]) t)
      (fun _ t => Quiet t) feed := by
  simp only [acceptCompletion, wp_onState, wp_bind, wp_requireRun, wp_get, wp_failIf, wp_ofResult,
    wp_modify]
  refine ⟨fun _ => h.quiet, fun _ => ⟨fun _ => h.quiet, fun hopen => ⟨fun _ _ => h.quiet, ?_⟩⟩⟩
  rintro ⟨usage, reason⟩ hcheck
  have hopen : feed.state.messageCompleted = false := by simpa using hopen
  obtain ⟨husage, _, hnone⟩ := h.waiting hopen
  obtain ⟨deltas, hpush, hheld⟩ := h.held
  obtain ⟨value, proof, body, transcript, hvalue, hproof, htranscript, hcount, hresponse⟩ :=
    checkCompletion_ok hcheck
  rw [h.requestHash, h.signingAddress, h.model] at hproof
  rw [h.sequence] at hcount
  refine
    { quiet := h.quiet
      requestHash := h.requestHash
      signingAddress := h.signingAddress
      model := h.model
      text := h.text
      reasoning := h.reasoning
      refusal := h.refusal
      sequence := by simpa [isDelta] using h.sequence
      held := ⟨deltas, hpush, by simp [hheld, terminalEvents, husage]⟩
      waiting := fun hw => by cases hw
      completed := fun _ => ⟨usage, reason, transcript.response, rfl, rfl, hresponse, ?_, ?_⟩ }
  · simp [hnone, isCompletion]
  · exact ⟨payload, value, proof, body, transcript, by simp, hvalue, hproof,
      verifyNearProof_ok hproof, htranscript, rfl, by simpa [isDelta] using hcount⟩

/-- **One event.** An event that is accepted keeps the invariant, and one that is refused leaves
nothing gated among the events sent. -/
theorem wp_accept {done : List RelayEvent} {feed : Feed} (event : RelayEvent)
    (h : FeedInvariant P x done feed) :
    (accept P sink event).Wp (fun _ t => FeedInvariant P x (done ++ [event]) t)
      (fun _ t => Quiet t) feed := by
  simp only [accept, wp_bind, wp_get, wp_failIf]
  refine ⟨fun _ => h.quiet, fun _ => ?_⟩
  cases event with
  | finalizing payload =>
    simp only [acceptEvent, wp_onState, wp_requireRun]
    exact ⟨fun _ => h.quiet, fun _ => h.other rfl rfl _ _⟩
  | accounting usage =>
    simp only [acceptEvent, wp_bind, wp_onState, wp_requireRun, wp_failIf, wp_send]
    exact ⟨fun _ => h.quiet, fun _ => ⟨fun _ => h.quiet, fun _ => ⟨fun _ => h.quiet,
      fun _ => (h.other rfl rfl _ _).sent rfl rfl rfl rfl⟩⟩⟩
  | runCreated payload =>
    simp only [acceptEvent, wp_bind, wp_get, wp_failIf, wp_ofResult, wp_onState, wp_modify, wp_send]
    exact ⟨fun _ => h.quiet, fun _ => ⟨fun _ _ => h.quiet, fun _ _ => ⟨fun _ => h.quiet,
      fun _ => (h.other rfl rfl _ _).sent rfl rfl rfl rfl⟩⟩⟩
  | delta payload => exact wp_acceptDelta payload h
  | messageCompleted payload => exact wp_acceptCompletion payload h
  | runCompleted payload =>
    simp only [acceptEvent, wp_bind, wp_onState, wp_requireRun, wp_get, wp_failIf, wp_modify]
    exact ⟨fun _ => h.quiet, fun _ => ⟨fun _ => h.quiet, fun _ => h.other rfl rfl _ _⟩⟩
  | cancelled payload =>
    simp only [acceptEvent, wp_bind, wp_onState, wp_requireRun, wp_throw]
    exact ⟨fun _ => h.quiet, fun _ => h.quiet⟩
  | failed payload =>
    simp only [acceptEvent, wp_bind, wp_onState, wp_requireRun, wp_throw]
    exact ⟨fun _ => h.quiet, fun _ => h.quiet⟩

/-- **A run of events.** After events that were all accepted the invariant holds, and where one
was refused nothing gated has been sent. -/
theorem wp_acceptAll (x : Expected) (events : List RelayEvent) :
    (events.forM (accept P sink)).Wp (fun _ t => FeedInvariant P x events t) (fun _ t => Quiet t)
      ⟨.new x.requestHash x.signingAddress x.model, []⟩ :=
  Wp.forM (I := fun done t => FeedInvariant P x done t) (.init x) (fun _ event _ h => wp_accept event h) events

end Near

end AxiomDesktop
