import AxiomDesktop.SecureClient.StreamInvariant

/-!
# Authenticity of a stream

What the events a stream sends, and the response it returns, rest on. The main theorem is
`Near.stream_authentic`: a stream that is taken to its end has accepted exactly one completion,
its receipt holds for the request, the model and the attested key, the signed bytes parse to the
response that is returned, and the events sent and held back rebuild that response up to its total
token count; and on every run whatever, a tool call, a usage, a finish or a verification is sent
only where all of this was checked.

The exception is real: the events carry the input and output token counts and not the total, and
`Near.total_tokens_not_in_events` gives two streams with the same events and different responses.
-/

namespace AxiomDesktop

namespace Near

open Fallible

variable {P : Primitives} {x : Expected} {sink : Nat → Bool}

/-! ## The response the events make -/

/-- The accumulator after the fragments of tool calls, where all of them fit. -/
def joinCalls (deltas : List ToolCallDelta) : Option ToolCallAccumulator :=
  match (deltas.forM ToolCallAccumulator.push).exec {} with
  | (.ok _, acc) => some acc
  | (.error _, _) => none

/-- The response a caller makes of the events, given the total token count they do not carry. -/
def rebuild (events : List ProviderEvent) (totalTokens : Nat) : Option InferenceResponse := do
  let acc ← joinCalls (events.filterMap toolCallDelta?)
  let toolCalls ← acc.finish.toOption
  let (inputTokens, outputTokens) ← (events.filterMap usage?).getLast?
  let reason ← (events.filterMap finished?).getLast?
  pure
    { assistant := { text := collect textDelta? events, reasoning := none, toolCalls }
      reasoning := nonempty (collect reasoningDelta? events)
      refusal := nonempty (collect refusalDelta? events)
      usage := { inputTokens, outputTokens, totalTokens }
      finishReason := some reason }

/-! ## The end of the stream -/

theorem mapError_ok {ε ε' α : Type} {y : Except ε α} {f : ε → ε'} {a : α}
    (h : y.mapError f = .ok a) : y = .ok a := by
  cases y with
  | error e => cases h
  | ok b => cases h; rfl

/-- The response the state's fields make, where their tool calls are complete. -/
theorem provisionalResponse_ok {s : StreamState} {usage : Usage} {reason : FinishReason}
    {response : InferenceResponse} (h : provisionalResponse P s usage reason = .ok response) :
    ∃ toolCalls, s.toolCalls.finish = .ok toolCalls ∧ response =
      { assistant := { text := s.text, reasoning := none, toolCalls }
        reasoning := nonempty s.reasoning
        refusal := nonempty s.refusal
        usage
        finishReason := some reason } := by
  obtain ⟨toolCalls, hcalls, h⟩ := result_bind_ok h
  obtain ⟨_, _, h⟩ := result_bind_ok h
  obtain ⟨_, _, h⟩ := result_bind_ok h
  cases h
  exact ⟨toolCalls, mapError_ok hcalls, rfl⟩

/-- What `finish` returns is the response the state's fields make, with the events held back. -/
theorem finish_ok {s : StreamState} {response : InferenceResponse} {held : List ProviderEvent}
    (h : finish P s = .ok (response, held)) :
    s.messageCompleted = true ∧ held = s.verifiedEvents ∧
      ∃ reason, s.finishReason = some reason ∧
        provisionalResponse P s (s.usage.getD {}) reason = .ok response := by
  obtain ⟨_, hdone, h⟩ := result_bind_ok h
  obtain ⟨toolCalls, hcalls, h⟩ := result_bind_ok h
  obtain ⟨_, hvalid, h⟩ := result_bind_ok h
  cases hreason : s.finishReason with
  | none => rw [hreason] at h; cases h
  | some reason =>
    rw [hreason] at h
    obtain ⟨_, hshape, h⟩ := result_bind_ok h
    cases h
    have hcompleted := ensure_ok hdone
    rw [Bool.and_eq_true] at hcompleted
    refine ⟨hcompleted.1, rfl, reason, rfl, ?_⟩
    simp only [provisionalResponse, hcalls, hvalid, hshape, bind, Except.bind]
    rfl

/-- Among events none of which is gated there is none of a gated kind. -/
theorem filterMap_quiet {β : Type} {pick : ProviderEvent → Option β} {events : List ProviderEvent}
    (h : ∀ e ∈ events, gated e = false) (hpick : ∀ e, gated e = false → pick e = none) :
    events.filterMap pick = [] :=
  List.filterMap_eq_nil_iff.mpr fun e he => hpick e (h e he)

theorem filterMap_toolCalls {β : Type} {pick : ProviderEvent → Option β}
    (h : ∀ delta, pick (.toolCallDelta delta) = none) (deltas : List ToolCallDelta) :
    (deltas.map ProviderEvent.toolCallDelta).filterMap pick = [] := by
  rw [List.filterMap_map]
  exact List.filterMap_eq_nil_iff.mpr fun delta _ => h delta

/-- The events held back carry no text, no reasoning and no refusal. -/
theorem collect_held {pick : ProviderEvent → Option String} (hpick : ∀ e, gated e → pick e = none)
    {events : List ProviderEvent} (h : ∀ e ∈ events, gated e = true) : collect pick events = "" := by
  rw [collect, List.filterMap_eq_nil_iff.mpr fun e he => hpick e (h e he)]
  rfl

/-- **The end of a stream.** The response of a stream that is finished is authentic, and the
events sent and held back make it, given its total token count. -/
theorem finish_authentic {events : List RelayEvent} {feed : Feed} {response : InferenceResponse}
    {held : List ProviderEvent} (h : FeedInvariant P x events feed)
    (hf : finish P feed.state = .ok (response, held)) :
    Authentic P x events response ∧
      rebuild (feed.sent ++ held) response.usage.totalTokens = some response := by
  obtain ⟨hcompleted, rfl, reason, hreason, hresponse⟩ := finish_ok hf
  obtain ⟨usage, reason', response', husage, hreason', hresponse', hauthentic⟩ :=
    h.completed hcompleted
  rw [hreason] at hreason'
  cases hreason'
  rw [husage, Option.getD_some, hresponse'] at hresponse
  cases hresponse
  refine ⟨hauthentic, ?_⟩
  obtain ⟨toolCalls, hcalls, rfl⟩ := provisionalResponse_ok hresponse'
  obtain ⟨deltas, hpush, hheld⟩ := h.held
  have hterminal : terminalEvents feed.state =
      [.usage usage.inputTokens usage.outputTokens, .finished reason] := by
    simp [terminalEvents, husage, hreason]
  rw [hterminal] at hheld
  have hgated : ∀ e ∈ feed.state.verifiedEvents, gated e = true := by
    rw [hheld]
    simp only [List.mem_append, List.mem_map, List.mem_cons, List.not_mem_nil, or_false]
    rintro e (⟨delta, _, rfl⟩ | rfl | rfl) <;> rfl
  -- The three texts come from the events sent, everything else from the events held back.
  have htext (pick : ProviderEvent → Option String) (hpick : ∀ e, gated e → pick e = none) :
      collect pick (feed.sent ++ feed.state.verifiedEvents) = collect pick feed.sent := by
    rw [collect_append, collect_held hpick hgated, String.append_empty]
  have hpicked {β : Type} (pick : ProviderEvent → Option β)
      (hpick : ∀ e, gated e = false → pick e = none) :
      (feed.sent ++ feed.state.verifiedEvents).filterMap pick =
        feed.state.verifiedEvents.filterMap pick := by
    rw [List.filterMap_append, filterMap_quiet h.quiet hpick, List.nil_append]
  have hdeltas : (feed.sent ++ feed.state.verifiedEvents).filterMap toolCallDelta? = deltas := by
    rw [hpicked _ toolCallDelta?_open, hheld]
    simp [List.filterMap_map, Function.comp_def, toolCallDelta?]
  have husages : (feed.sent ++ feed.state.verifiedEvents).filterMap usage? =
      [(usage.inputTokens, usage.outputTokens)] := by
    rw [hpicked _ usage?_open, hheld, List.filterMap_append, filterMap_toolCalls fun _ => rfl]
    rfl
  have hfinished : (feed.sent ++ feed.state.verifiedEvents).filterMap finished? = [reason] := by
    rw [hpicked _ finished?_open, hheld, List.filterMap_append, filterMap_toolCalls fun _ => rfl]
    rfl
  have hjoined : joinCalls deltas = some feed.state.toolCalls := by rw [joinCalls, hpush]
  have hfinish : feed.state.toolCalls.finish.toOption = some toolCalls := by rw [hcalls]; rfl
  rw [rebuild, hdeltas, husages, hfinished, htext _ textDelta?_gated, htext _ reasoningDelta?_gated,
    htext _ refusalDelta?_gated, ← h.text, ← h.reasoning, ← h.refusal,
    hjoined]
  simp [hfinish]

/-- The checks of a stream: every event was accepted, the transport ended cleanly, the state was
finished, and the response is authentic. -/
def Checked (P : Primitives) (x : Expected) (sink : Nat → Bool) (events : List RelayEvent)
    (ending : Except SecureClientError PUnit) : Prop :=
  ∃ feed response held,
    (events.forM (accept P sink)).exec ⟨.new x.requestHash x.signingAddress x.model, []⟩ =
      (.ok ⟨⟩, feed) ∧
    ending = .ok ⟨⟩ ∧ finish P feed.state = .ok (response, held) ∧ Authentic P x events response

/-- On every run a gated event is sent only by a stream that passed its checks. -/
theorem wp_stream (x : Expected) (events : List RelayEvent)
    (ending : Except SecureClientError PUnit) :
    (stream P sink events ending).Wp
      (fun _ t => ∀ e ∈ t.sent, gated e = true → Checked P x sink events ending)
      (fun _ t => ∀ e ∈ t.sent, gated e = true → Checked P x sink events ending)
      ⟨.new x.requestHash x.signingAddress x.model, []⟩ := by
  have quiet {t : Feed} (h : Quiet t) :
      ∀ e ∈ t.sent, gated e = true → Checked P x sink events ending := by
    intro e he hg
    rw [h e he] at hg
    cases hg
  simp only [stream, wp_bind, wp_ofResult, wp_get]
  refine ((wp_acceptAll x events).and (Wp.exec _ _)).mono ?_ fun _ _ h => quiet h.1
  rintro _ feed ⟨hfeed, hrun⟩
  refine ⟨fun _ _ => quiet hfeed.quiet, fun _ hending => ⟨fun _ _ => quiet hfeed.quiet, ?_⟩⟩
  rintro ⟨response, held⟩ hfinish
  -- From here on everything may be sent.
  have hchecked : Checked P x sink events ending :=
    ⟨feed, response, held, hrun, hending, hfinish, (finish_authentic hfeed hfinish).1⟩
  exact (Wp.exec _ _).mono (fun _ _ _ _ _ _ => hchecked) fun _ _ _ _ _ _ => hchecked

/-- **Authenticity of a stream.** Where every event is accepted and the state can be finished, the
response is authentic and the events sent and held back make it, given its total token count. On
every run of the call, a tool call, a usage, a finish or a verification is sent only where every
check passed. -/
theorem stream_authentic (P : Primitives) (x : Expected) (sink : Nat → Bool)
    (events : List RelayEvent) :
    (∀ feed response held,
      (events.forM (accept P sink)).exec ⟨.new x.requestHash x.signingAddress x.model, []⟩ =
          (.ok ⟨⟩, feed) →
        finish P feed.state = .ok (response, held) →
          Authentic P x events response ∧
            rebuild (feed.sent ++ held) response.usage.totalTokens = some response) ∧
      ∀ ending result feed,
        (stream P sink events ending).exec ⟨.new x.requestHash x.signingAddress x.model, []⟩ =
            (result, feed) →
          ∀ e ∈ feed.sent, gated e = true → Checked P x sink events ending := by
  constructor
  · intro feed response held hrun hfinish
    have h : (events.forM (accept P sink)).Wp _ _ _ := wp_acceptAll x events
    rw [Wp, hrun] at h
    exact finish_authentic h hfinish
  · intro ending result feed hrun
    have h : (stream P sink events ending).Wp _ _ _ := wp_stream x events ending
    rw [Wp, hrun] at h
    cases result <;> exact h

/-! ## Two replies that differ in their total token count -/

namespace Reply

/-- A signed reply: its total token count, its bytes, their SHA-256 hash, and the signature of the
text that binds the hash to the model and the request. -/
structure Signed where
  total : Nat
  body : String
  responseHash : String
  signature : String

def three : Signed :=
  { total := 3
    body := "data:\x7b\"id\":\"c\",\"usage\":\x7b\"total_tokens\":3\x7d\x7d\ndata:[DONE]"
    responseHash := "d1743d8e409be5cfc4ab23644b6f4fffb9c6c731861812fbc482d30c81ba9ecb"
    signature :=
      "405aa8d640b69d55c1e449d96bedd2491bbf803526203bf7235a69ade093a049" ++
        "b8f1b93797a86a3147107bd397f1194ba0e7a405b6b399869e10420c91228a07" }

def four : Signed :=
  { total := 4
    body := "data:\x7b\"id\":\"c\",\"usage\":\x7b\"total_tokens\":4\x7d\x7d\ndata:[DONE]"
    responseHash := "c8c1098b531a58d43c1e7324abccdab4acd9d5e96b5b3cab6bc2e4a48b508ba7"
    signature :=
      "9a20ea2142c0817283bc49f6d572acd749b21544c64c33121d397a3eb03c97fd" ++
        "e032739d0f586dc7f3e7c995aaa5dfa3047d5b38a942cc4f9b1205b5744a4800" }

def requestHash : String := "2222222222222222222222222222222222222222222222222222222222222222"

def signingAddress : String := "03a107bff3ce10be1d70dd18e74bc09967e4d6309ba50d5f1ddc8664125531b8"

namespace Signed

def signedText (r : Signed) : String := "m:" ++ (requestHash ++ ":" ++ r.responseHash)

def bytes (r : Signed) : List UInt8 := Text.bytes r.body

/-- The chunk of the reply, as text and as it is read. -/
def chunkText (r : Signed) : String :=
  "\x7b\"id\":\"c\",\"usage\":\x7b\"total_tokens\":" ++ toString r.total ++ "\x7d\x7d"

def chunk (r : Signed) : RawNearStreamChunk :=
  { id := some "c", usage := some (.obj [("total_tokens", .ofNat r.total)]) }

def proof (r : Signed) : NearCompletionProof :=
  { provider := "near"
    protocol := "near-v3"
    chatId := "c"
    model := "m"
    requestHash
    responseHash := r.responseHash
    responseBodyBase64 := String.ofList (Base64.encode r.bytes)
    signedText := r.signedText
    signature := r.signature
    signingAddress }

def receipt (r : Signed) : Json :=
  .obj
    [ ("provider", .str "near"), ("protocol", .str "near-v3"), ("chat_id", .str "c"),
      ("model", .str "m"), ("request_hash", .str requestHash),
      ("response_hash", .str r.responseHash),
      ("response_body_base64", .str r.proof.responseBodyBase64),
      ("signed_text", .str r.signedText), ("signature", .str r.signature),
      ("signing_address", .str signingAddress) ]

/-- The response of the reply: no text, and a total token count. -/
def response (r : Signed) : InferenceResponse :=
  { usage := { totalTokens := r.total }, finishReason := some .stop }

end Signed

def bytesOfHex (s : String) : List UInt8 := (Text.hexDecode (Text.bytes s)).getD []

/-- The libraries, on the inputs of the two streams. -/
def primitives : Primitives where
  sha256 bs :=
    if bs = three.bytes then bytesOfHex three.responseHash
    else if bs = four.bytes then bytesOfHex four.responseHash
    else []
  isVerifyingKey key := key = bytesOfHex signingAddress
  verifyStrict key text signature :=
    key = bytesOfHex signingAddress ∧
      ((text = three.signedText ∧ signature = bytesOfHex three.signature) ∨
        (text = four.signedText ∧ signature = bytesOfHex four.signature))
  decryptHex _ := .error (.new .decryption "ciphertext authentication failed")
  isJson text := text = "null"
  chunkFromStr text :=
    if text = three.chunkText then some three.chunk
    else if text = four.chunkText then some four.chunk
    else none
  truncF64 _ := 0
  nonzeroF64 _ := false

/-- The relay's events for the reply. -/
def completion (r : Signed) : CompletedPayload :=
  { runId := "r", usage := { totalTokens := some r.total }, finishReason := "stop",
    proof := some r.receipt }

def events (r : Signed) : List RelayEvent :=
  [ .runCreated ⟨"r", INFERENCE_ENCRYPTION⟩, .messageCompleted (completion r),
    .runCompleted ⟨"r"⟩ ]

def expected : Expected := ⟨requestHash, signingAddress, "m"⟩

/-- The feed once the run is created. -/
def created : Feed :=
  { state := { StreamState.new requestHash signingAddress "m" with runId := some "r" }
    sent := [.status true "Attested end-to-end encrypted inference connected"] }

def held : List ProviderEvent := [.usage 0 0, .finished .stop]

/-- The feed at the end of the stream. -/
def final (r : Signed) : Feed :=
  { created with
    state := { created.state with
      verifiedEvents := held, usage := some { totalTokens := r.total }, finishReason := some .stop,
      messageCompleted := true, runCompleted := true } }

theorem checkCompletion_three : checkCompletion primitives created.state (completion three) =
    .ok ({ totalTokens := 3 }, .stop) := by
  decide +kernel

theorem checkCompletion_four : checkCompletion primitives created.state (completion four) =
    .ok ({ totalTokens := 4 }, .stop) := by
  decide +kernel

/-- The feed after the completion. -/
def completed (r : Signed) : Feed :=
  { final r with state := { (final r).state with runCompleted := false } }

/-- A completion that passes its checks is accepted. -/
theorem accept_completion {r : Signed}
    (h : checkCompletion primitives created.state (completion r) =
      .ok ({ totalTokens := r.total }, .stop)) :
    (accept primitives (fun _ => true) (.messageCompleted (completion r))).exec created =
      (.ok ⟨⟩, completed r) := by
  have hstate : (acceptCompletion primitives (completion r)).exec created.state =
      (.ok ⟨⟩, (completed r).state) := by
    refine exec_bind_ok.mpr ⟨⟨⟩, created.state, rfl, exec_bind_ok.mpr ⟨created.state, _, rfl, ?_⟩⟩
    refine exec_bind_ok.mpr ⟨⟨⟩, created.state, rfl, exec_bind_ok.mpr
      ⟨({ totalTokens := r.total }, .stop), created.state, ?_, rfl⟩⟩
    exact exec_ofResult_ok.mpr ⟨h, rfl⟩
  refine exec_bind_ok.mpr ⟨created, created, rfl, exec_bind_ok.mpr ⟨⟨⟩, created, rfl, ?_⟩⟩
  show (((acceptCompletion primitives (completion r)).exec created.state).1, Feed.mk
    ((acceptCompletion primitives (completion r)).exec created.state).2 created.sent) = _
  rw [hstate]
  rfl

/-- A reply whose completion passes its checks is taken to its end. -/
theorem accept_events {r : Signed}
    (h : checkCompletion primitives created.state (completion r) =
      .ok ({ totalTokens := r.total }, .stop)) :
    ((events r).forM (accept primitives fun _ => true)).exec
      ⟨.new requestHash signingAddress "m", []⟩ = (.ok ⟨⟩, final r) :=
  exec_bind_ok.mpr ⟨⟨⟩, created, rfl, exec_bind_ok.mpr ⟨⟨⟩, completed r, accept_completion h,
    exec_forM_singleton rfl⟩⟩

theorem finish_final (r : Signed) :
    finish primitives (final r).state = .ok (r.response, held) := rfl

end Reply

/-- The theorem at a concrete stream: the signed reply of three tokens is authentic. -/
theorem stream_authentic_reply :
    Authentic Reply.primitives Reply.expected (Reply.events Reply.three) Reply.three.response ∧
      rebuild ((Reply.final Reply.three).sent ++ Reply.held) 3 = some Reply.three.response :=
  (stream_authentic Reply.primitives Reply.expected (fun _ => true) (Reply.events Reply.three)).1
    (Reply.final Reply.three) Reply.three.response Reply.held
    (Reply.accept_events Reply.checkCompletion_three) (Reply.finish_final Reply.three)

/-- **The total token count is not in the events.** No function of the events sent and held back
gives the response of every stream: two signed replies that differ in their total token count alone
have the same events. -/
theorem total_tokens_not_in_events :
    ¬∃ fold : List ProviderEvent → InferenceResponse,
      ∀ (P : Primitives) (x : Expected) (sink : Nat → Bool) (events : List RelayEvent)
        (feed : Feed) (response : InferenceResponse) (held : List ProviderEvent),
        (events.forM (accept P sink)).exec ⟨.new x.requestHash x.signingAddress x.model, []⟩ =
            (.ok ⟨⟩, feed) →
          finish P feed.state = .ok (response, held) → fold (feed.sent ++ held) = response := by
  rintro ⟨fold, hfold⟩
  have h3 := hfold Reply.primitives Reply.expected _ _ _ _ _
    (Reply.accept_events Reply.checkCompletion_three) (Reply.finish_final Reply.three)
  have h4 := hfold Reply.primitives Reply.expected _ _ _ _ _
    (Reply.accept_events Reply.checkCompletion_four) (Reply.finish_final Reply.four)
  have hsame : (Reply.final Reply.three).sent = (Reply.final Reply.four).sent := rfl
  rw [hsame, h4] at h3
  exact absurd h3 (by decide)


end Near

end AxiomDesktop
