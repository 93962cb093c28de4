import AxiomDesktop.Data.JsonReader
import AxiomDesktop.Inference.Fragments
import AxiomDesktop.SecureClient.Completion
import AxiomDesktop.SecureClient.TinfoilOutput

/-!
# The IDs of tool calls

A provider's reply comes in one of four ways (`Route`): a relay's response in one body or as a
stream, and a response of Tinfoil as a stream or in one body. Only the first refuses two calls with
one ID; the others take what they are given, so the IDs of their calls are apart exactly where those
of the reply were (`accepted_ids`).
-/

namespace AxiomDesktop

open Fallible

/-! ## A stream of the relay -/

namespace Near

variable {P : Primitives} {sink : Nat → Bool}

/-- The indices and the IDs of the calls in an event. -/
def eventFragments : RelayEvent → List (Nat × Option String)
  | .delta payload => payload.encryptedToolCalls.map fun call => (call.index, call.id)
  | _ => []

/-- The calls of a state are those of the events. -/
def Gathered (done : List RelayEvent) (feed : Feed) : Prop :=
  ∃ deltas : List ToolCallDelta,
    (deltas.forM ToolCallAccumulator.push).exec {} = (.ok ⟨⟩, feed.state.toolCalls) ∧
      deltas.map ToolCallDelta.fragment = done.flatMap eventFragments

theorem wp_gatherToolCalls (encrypted : List EncryptedToolCallDelta) (s : StreamState) :
    (encrypted.forM (acceptToolCall P)).Wp
      (fun _ t => ∃ deltas : List ToolCallDelta,
        (deltas.forM ToolCallAccumulator.push).exec s.toolCalls = (.ok ⟨⟩, t.toolCalls) ∧
          deltas.map ToolCallDelta.fragment = encrypted.map fun call => (call.index, call.id))
      (fun _ _ => True) s := by
  refine Wp.forM (I := fun done (t : StreamState) => ∃ deltas : List ToolCallDelta,
    (deltas.forM ToolCallAccumulator.push).exec s.toolCalls = (.ok ⟨⟩, t.toolCalls) ∧
      deltas.map ToolCallDelta.fragment = done.map fun call => (call.index, call.id))
    ⟨[], rfl, rfl⟩ ?_ encrypted
  rintro done call t ⟨deltas, hpush, hdone⟩
  simp only [acceptToolCall, pushCall, wp_bind, wp_ofResult, wp_focus, wp_mapError, wp_modify]
  refine ⟨fun _ _ => trivial, fun name _ => ⟨fun _ _ => trivial, fun arguments _ => ?_⟩⟩
  refine (Wp.exec _ _).mono (fun _ acc hacc => ?_) fun _ _ _ => trivial
  refine ⟨deltas ++ [⟨call.index, call.id, call.kind, name, arguments⟩], ?_, ?_⟩
  · exact (exec_forM_append hpush).trans (exec_forM_singleton hacc)
  · rw [List.map_append, List.map_append, hdone]
    rfl

theorem wp_delta_gathered {done : List RelayEvent} {feed : Feed} (payload : DeltaPayload)
    (h : Gathered done feed) :
    (acceptDelta P sink payload).Wp (fun _ t => Gathered (done ++ [.delta payload]) t)
      (fun _ _ => True) feed := by
  obtain ⟨deltas, hpush, hdone⟩ := h
  simp only [acceptDelta, wp_bind, wp_onState]
  refine (wp_acceptSequence payload feed.state).mono ?_ fun _ _ _ => trivial
  rintro _ s ⟨_, _, responseId, rfl⟩
  -- The text, the reasoning and the refusal leave the calls alone.
  refine (wp_acceptFragment _ _).mono ?_ fun _ _ _ => trivial
  intro _ t1 ht1
  have h1 : t1.state.toolCalls = feed.state.toolCalls := by
    rcases ht1 with rfl | ⟨value, rfl⟩
    · rfl
    · rfl
  refine (wp_acceptFragment _ _).mono ?_ fun _ _ _ => trivial
  intro _ t2 ht2
  have h2 : t2.state.toolCalls = feed.state.toolCalls := by
    rcases ht2 with rfl | ⟨value, rfl⟩
    · exact h1
    · exact h1
  refine (wp_acceptFragment _ _).mono ?_ fun _ _ _ => trivial
  intro _ t3 ht3
  have h3 : t3.state.toolCalls = feed.state.toolCalls := by
    rcases ht3 with rfl | ⟨value, rfl⟩
    · exact h2
    · exact h2
  refine (wp_gatherToolCalls _ _).mono (fun _ t ht => ?_) fun _ _ _ => trivial
  obtain ⟨more, hmore, hfragments⟩ := ht
  refine ⟨deltas ++ more, ?_, ?_⟩
  · rw [exec_forM_append hpush, ← h3]
    exact hmore
  · rw [List.map_append, hdone, hfragments, List.flatMap_append, List.flatMap_singleton]
    rfl

/-- An event without calls. -/
theorem Gathered.same {done : List RelayEvent} {feed t : Feed} {event : RelayEvent}
    (h : Gathered done feed) (ht : t.state.toolCalls = feed.state.toolCalls)
    (hevent : eventFragments event = []) : Gathered (done ++ [event]) t := by
  obtain ⟨deltas, hpush, hdone⟩ := h
  refine ⟨deltas, by rw [ht, hpush], ?_⟩
  rw [hdone, List.flatMap_append, List.flatMap_singleton, hevent, List.append_nil]

theorem wp_gathered {done : List RelayEvent} {feed : Feed} (event : RelayEvent)
    (h : Gathered done feed) :
    (accept P sink event).Wp (fun _ t => Gathered (done ++ [event]) t) (fun _ _ => True) feed := by
  simp only [accept, wp_bind, wp_get, wp_failIf]
  refine ⟨fun _ => trivial, fun _ => ?_⟩
  cases event with
  | finalizing payload =>
    simp only [acceptEvent, wp_onState, wp_requireRun]
    exact ⟨fun _ => trivial, fun _ => h.same rfl rfl⟩
  | accounting usage =>
    simp only [acceptEvent, wp_bind, wp_onState, wp_requireRun, wp_failIf, wp_send]
    exact ⟨fun _ => trivial, fun _ => ⟨fun _ => trivial, fun _ => ⟨fun _ => trivial,
      fun _ => h.same rfl rfl⟩⟩⟩
  | runCreated payload =>
    simp only [acceptEvent, wp_bind, wp_get, wp_failIf, wp_ofResult, wp_onState, wp_modify, wp_send]
    exact ⟨fun _ => trivial, fun _ => ⟨fun _ _ => trivial, fun _ _ => ⟨fun _ => trivial,
      fun _ => h.same rfl rfl⟩⟩⟩
  | delta payload => exact wp_delta_gathered payload h
  | messageCompleted payload =>
    simp only [acceptEvent, acceptCompletion, wp_bind, wp_onState, wp_requireRun, wp_get, wp_failIf,
      wp_ofResult, wp_modify]
    exact ⟨fun _ => trivial, fun _ => ⟨fun _ => trivial, fun _ => ⟨fun _ _ => trivial,
      fun _ _ => h.same rfl rfl⟩⟩⟩
  | runCompleted payload =>
    simp only [acceptEvent, wp_bind, wp_onState, wp_requireRun, wp_get, wp_failIf, wp_modify]
    exact ⟨fun _ => trivial, fun _ => ⟨fun _ => trivial, fun _ => h.same rfl rfl⟩⟩
  | cancelled payload =>
    simp only [acceptEvent, wp_bind, wp_onState, wp_requireRun, wp_throw]
    exact ⟨fun _ => trivial, fun _ => trivial⟩
  | failed payload =>
    simp only [acceptEvent, wp_bind, wp_onState, wp_requireRun, wp_throw]
    exact ⟨fun _ => trivial, fun _ => trivial⟩

theorem gathered_of_run {requestHash signingAddress model : String} {events : List RelayEvent}
    {feed : Feed}
    (h : (events.forM (accept P sink)).exec ⟨.new requestHash signingAddress model, []⟩ =
      (.ok ⟨⟩, feed)) : Gathered events feed := by
  have hrun : (events.forM (accept P sink)).Wp (fun _ t => Gathered events t) (fun _ _ => True)
      ⟨.new requestHash signingAddress model, []⟩ :=
    Wp.forM (I := fun done t => Gathered done t) ⟨[], rfl, rfl⟩
      (fun _ event _ h => wp_gathered event h) events
  unfold Wp at hrun
  rw [h] at hrun
  exact hrun

/-- The calls of a finished stream. -/
theorem finish_calls {s : StreamState} {response : InferenceResponse} {events : List ProviderEvent}
    (h : finish P s = .ok (response, events)) :
    s.toolCalls.finish = .ok response.assistant.toolCalls := by
  unfold finish at h
  obtain ⟨_, _, h⟩ := result_bind_ok h
  obtain ⟨calls, hcalls, h⟩ := result_bind_ok h
  obtain ⟨_, _, h⟩ := result_bind_ok h
  split at h
  · obtain ⟨_, _, h⟩ := result_bind_ok h
    cases h
    cases hresult : s.toolCalls.finish with
    | error e =>
      rw [hresult] at hcalls
      cases hcalls
    | ok tools =>
      rw [hresult] at hcalls
      exact congrArg Except.ok (Except.ok.inj hcalls)
  · cases h

end Near

/-! ## A response of Tinfoil -/

namespace Tinfoil

open Feeding (readFrom)
open Near (toolCallDelta?)
open StreamParser (Parsed Target)

/-- The tool calls in a delta. -/
def deltaCalls (delta : Json) : List Json :=
  ((delta.present? "tool_calls").bind Json.arr?).getD []

/-- The fragments of calls in a choice. -/
def choiceDeltas (choice : Json) : List ToolCallDelta :=
  ((choice.object? "delta").elim [] deltaCalls).filterMap fun call =>
    (StreamParser.toolCallDelta call).toOption

/-- The fragments of calls in a message. -/
def messageDeltas (D : TinfoilDecoders) (data : String) : List ToolCallDelta :=
  if data = "[DONE]" then []
  else
    (((D.fromStr data).bind fun value => (value.get? "choices").bind Json.arr?).getD []).flatMap
      choiceDeltas

/-- The fragments of calls in a stream. -/
def streamDeltas (D : TinfoilDecoders) (bytes : List UInt8) : List ToolCallDelta :=
  (Held.read {} bytes).2.flatMap (messageDeltas D)

section
variable {D : TinfoilDecoders} {p p' : StreamParser} {more : List ProviderEvent}

/-- The events of a text hold no call. -/
theorem acceptText_deltas {part : Option Json × Target} (h : p.acceptText part = .ok (p', more)) :
    more.filterMap toolCallDelta? = [] := by
  unfold StreamParser.acceptText at h
  split at h
  · cases h
    rfl
  · split at h
    · cases h
    · split at h
      · cases h
        rfl
      · split at h
        · cases h
        · cases h
          obtain ⟨value, target⟩ := part
          cases target with
          | text => rfl
          | reasoning => rfl
          | refusal => rfl

theorem readTexts_deltas {parts : List (Option Json × Target)}
    (h : readFrom StreamParser.acceptText p parts = .ok (p', more)) :
    more.filterMap toolCallDelta? = [] := by
  induction parts generalizing p more with
  | nil =>
    cases h
    rfl
  | cons part parts ih =>
    obtain ⟨q, first, rest, hpart, hparts, rfl⟩ := Feeding.andThen_eq_ok h
    rw [List.filterMap_append, acceptText_deltas hpart, ih hparts]
    rfl

/-- The events of calls hold the calls. -/
theorem readCalls_deltas {calls : List Json}
    (h : readFrom StreamParser.acceptToolCall p calls = .ok (p', more)) :
    more.filterMap toolCallDelta? =
      calls.filterMap fun call => (StreamParser.toolCallDelta call).toOption := by
  induction calls generalizing p more with
  | nil =>
    cases h
    rfl
  | cons call calls ih =>
    obtain ⟨q, first, rest, hcall, hcalls, rfl⟩ := Feeding.andThen_eq_ok h
    rw [List.filterMap_append, ih hcalls]
    unfold StreamParser.acceptToolCall at hcall
    split at hcall
    · cases hcall
    · next delta hdelta =>
      split at hcall
      · cases hcall
      · cases hcall
        have hsome : (StreamParser.toolCallDelta call).toOption = some delta := by
          rw [hdelta]
          rfl
        exact (List.filterMap_cons_some (f := fun call => (StreamParser.toolCallDelta call).toOption)
          hsome).symm

theorem acceptToolCalls_deltas {delta : Json} (h : p.acceptToolCalls delta = .ok (p', more)) :
    more.filterMap toolCallDelta? =
      (deltaCalls delta).filterMap fun call => (StreamParser.toolCallDelta call).toOption := by
  unfold StreamParser.acceptToolCalls at h
  unfold deltaCalls
  split at h
  · next habsent =>
    cases h
    rw [habsent]
    rfl
  · next raw hraw =>
    split at h
    · cases h
    · next calls hcalls =>
      split at h
      · cases h
      · rw [readCalls_deltas h, hraw, Option.bind_some, hcalls]
        rfl

theorem acceptFinishReason_events {choice : Json}
    (h : p.acceptFinishReason choice = .ok (p', more)) : more = [] := by
  unfold StreamParser.acceptFinishReason at h
  split at h
  · cases h
    rfl
  · split at h
    · cases h
    · cases h
      rfl

theorem acceptChoice_deltas {choice : Json} (h : p.acceptChoice choice = .ok (p', more)) :
    more.filterMap toolCallDelta? = choiceDeltas choice := by
  unfold StreamParser.acceptChoice at h
  unfold choiceDeltas
  split at h
  · cases h
  · split at h
    · cases h
    · next delta hdelta =>
      obtain ⟨q, first, rest, hfirst, hrest, rfl⟩ := Feeding.andThen_eq_ok h
      rw [acceptFinishReason_events hrest, List.append_nil, hdelta]
      unfold StreamParser.acceptDelta at hfirst
      split at hfirst
      · cases hfirst
      · split at hfirst
        · cases hfirst
        · obtain ⟨_, texts, calls, htexts, hcalls, rfl⟩ := Feeding.andThen_eq_ok hfirst
          rw [List.filterMap_append, readTexts_deltas htexts, acceptToolCalls_deltas hcalls]
          rfl

theorem event_deltas {data : String} (h : p.event D data = .ok (p', more)) :
    more.filterMap toolCallDelta? = messageDeltas D data := by
  unfold StreamParser.event at h
  unfold messageDeltas
  split at h
  · cases h
  · split at h
    · next hdone =>
      rw [if_pos hdone]
      split at h
      · cases h
      · cases h
        rfl
    · next hdone =>
      rw [if_neg hdone]
      split at h
      · cases h
      · next value hvalue =>
        rw [hvalue, Option.bind_some]
        unfold StreamParser.acceptValue at h
        split at h
        · cases h
        · split at h
          · cases h
          · next hchoices =>
            cases h
            rw [hchoices]
            rfl
          · next choice hchoices =>
            rw [hchoices, acceptChoice_deltas h]
            exact (List.append_nil _).symm
          · cases h

/-- What is emitted of a stream holds its calls. -/
theorem readFrom_deltas {bytes : List UInt8}
    (h : readFrom (StreamParser.acceptByte D) p bytes = .ok (p', more)) :
    more.filterMap toolCallDelta? = (p.held.read bytes).2.flatMap (messageDeltas D) := by
  induction bytes generalizing p more with
  | nil =>
    cases h
    rfl
  | cons byte bytes ih =>
    obtain ⟨q, first, rest, hbyte, hbytes, rfl⟩ := Feeding.andThen_eq_ok h
    have hrest := ih hbytes
    rw [(held_acceptByte hbyte).1] at hrest
    have hfirst : first.filterMap toolCallDelta? = (p.held.next byte).2.flatMap (messageDeltas D) := by
      rcases acceptByte_cases hbyte with ⟨held, hnext, rfl, rfl⟩ | ⟨message, hnext, hevent⟩
      · rw [hnext]
        rfl
      · rw [hnext, event_deltas hevent]
        exact (List.append_nil _).symm
    rw [List.filterMap_append, hfirst, hrest, ← List.flatMap_append]
    rfl

end

/-- The calls in a body. -/
def bodyCalls (D : TinfoilDecoders) (body : List UInt8) : List ToolCall :=
  (((D.fromSlice body).bind fun value => (value.get? "choices").bind Json.arr?).getD []).flatMap
    fun choice => (((choice.object? "message").bind (·.present? "tool_calls")).bind D.toolCalls).getD []

theorem complete_calls {D : TinfoilDecoders} {body : List UInt8} {response : InferenceResponse}
    (h : complete D body = .ok response) : response.assistant.toolCalls = bodyCalls D body := by
  unfold complete at h
  split at h
  · next value hvalue =>
    iterate 3 obtain ⟨_, _, h⟩ := result_bind_ok h
    obtain ⟨choice, hchoice, h⟩ := result_bind_ok h
    obtain ⟨_, _, h⟩ := result_bind_ok h
    obtain ⟨message, hmessage, h⟩ := result_bind_ok h
    obtain ⟨_, _, h⟩ := result_bind_ok h
    obtain ⟨calls, hcalls, h⟩ := result_bind_ok h
    iterate 10 obtain ⟨_, _, h⟩ := result_bind_ok h
    unfold validateFinish at h
    obtain ⟨_, _, h⟩ := result_bind_ok h
    obtain ⟨_, _, h⟩ := result_bind_ok h
    cases h
    have hchoices : (value.get? "choices").bind Json.arr? = some [choice] := by
      unfold bodyChoice at hchoice
      split at hchoice
      · next only honly =>
        rw [honly, Except.ok.inj hchoice]
      · cases hchoice
    have hobject : choice.object? "message" = some message := by
      unfold choiceMessage at hmessage
      split at hmessage
      · next found hfound => rw [hfound, Except.ok.inj hmessage]
      · cases hmessage
    unfold bodyCalls
    rw [hvalue, Option.bind_some, hchoices, Option.getD_some, List.flatMap_singleton, hobject,
      Option.bind_some]
    unfold messageCalls at hcalls
    split at hcalls
    · next habsent =>
      cases hcalls
      rw [habsent]
      rfl
    · next raw hraw =>
      split at hcalls
      · cases hcalls
      · next found hfound =>
        cases hcalls
        rw [hraw, Option.bind_some, hfound]
        rfl
  · cases h

end Tinfoil

/-! ## The four ways -/

/-- A reply and the way it comes. -/
inductive Route where
  | completion (modelId upstreamModel requestHash signingAddress : String)
      (completion : RelayCompletion)
  | relayStream (requestHash signingAddress model : String) (sink : Nat → Bool)
      (events : List RelayEvent)
  | stream (model : String) (limit : Nat) (chunks : List (List UInt8))
  | body (body : List UInt8)

section
variable (P : Primitives) (completionFromSlice : List UInt8 → Option RawNearCompletion)
  (D : Tinfoil.TinfoilDecoders)

/-- The response that a reply is accepted as. -/
def Route.response : Route → Option InferenceResponse
  | .completion modelId upstreamModel requestHash signingAddress reply =>
    (Near.decryptCompletion P completionFromSlice modelId upstreamModel requestHash signingAddress
      reply).toOption
  | .relayStream requestHash signingAddress model sink events =>
    match (events.forM (Near.accept P sink)).exec ⟨.new requestHash signingAddress model, []⟩ with
    | (.error _, _) => none
    | (.ok _, feed) => (Near.finish P feed.state).toOption.map (·.1)
  | .stream model limit chunks => (Tinfoil.outcome D model limit chunks).bind fun r => r.2.toOption
  | .body bytes => (Tinfoil.complete D bytes).toOption

/-- The calls that a reply brings have IDs of their own. -/
def Route.IdsApart : Route → Prop
  | .completion .. => True
  | .relayStream _ _ _ _ events => AxiomDesktop.IdsApart (events.flatMap Near.eventFragments)
  | .stream _ _ chunks =>
    AxiomDesktop.IdsApart ((Tinfoil.streamDeltas D chunks.flatten).map ToolCallDelta.fragment)
  | .body bytes => ((Tinfoil.bodyCalls D bytes).map (·.id)).Nodup

/-- **Two calls of a response may have one ID** exactly where the reply brings them so, which a
relay's response in one body never does. -/
theorem accepted_ids (route : Route) :
    match route.response P completionFromSlice D with
    | none => True
    | some response => (response.assistant.toolCalls.map (·.id)).Nodup ↔ route.IdsApart D := by
  split
  · trivial
  · next response hresponse =>
    cases route with
    | completion modelId upstreamModel requestHash signingAddress reply =>
      have hok := Feeding.eq_ok_of_toOption hresponse
      exact iff_of_true (Near.decryptCompletion_ids hok) trivial
    | relayStream requestHash signingAddress model sink events =>
      dsimp only [Route.response] at hresponse
      split at hresponse
      · cases hresponse
      · next feed hrun =>
        obtain ⟨⟨response', sent⟩, hfinish, rfl⟩ := Option.map_eq_some_iff.mp hresponse
        obtain ⟨deltas, hpush, hdeltas⟩ := Near.gathered_of_run hrun
        dsimp only [Route.IdsApart]
        rw [← hdeltas]
        exact ToolCallAccumulator.finish_ids hpush
          (Near.finish_calls (Feeding.eq_ok_of_toOption hfinish))
    | stream model limit chunks =>
      obtain ⟨⟨events, result⟩, houtcome, hresult⟩ := Option.bind_eq_some_iff.mp hresponse
      obtain rfl := Feeding.eq_ok_of_toOption hresult
      obtain ⟨p, hread, _⟩ := Tinfoil.readFrom_of_outcome houtcome
      obtain ⟨acc, hpush, hfinish⟩ := (Tinfoil.streamed_of_outcome houtcome).calls
      dsimp only [Route.IdsApart]
      rw [show Tinfoil.streamDeltas D chunks.flatten = events.filterMap Near.toolCallDelta? from
        (Tinfoil.readFrom_deltas hread).symm]
      exact ToolCallAccumulator.finish_ids hpush hfinish
    | body bytes =>
      have hok := Feeding.eq_ok_of_toOption hresponse
      rw [Tinfoil.complete_calls hok]
      exact Iff.rfl

end

/-- A body with two calls of one ID. -/
def repeatedBody : Json :=
  let call : Json := .obj
    [("id", .str "call-1"), ("type", .str "function"),
      ("function", .obj [("name", .str "read_file"), ("arguments", .str "\x7b\x7d")])]
  .obj
    [("id", .str "request-a"), ("model", .str "deployment-alias"),
      ("choices", .arr [.obj
        [("index", .ofNat 0),
          ("message", .obj [("role", .str "assistant"), ("tool_calls", .arr [call, call])]),
          ("finish_reason", .str "tool_calls")]]),
      ("usage", .obj
        [("prompt_tokens", .ofNat 10), ("completion_tokens", .ofNat 5), ("total_tokens", .ofNat 15)])]

/-- What is read of a list of tool calls. -/
def readToolCalls (value : Json) : Option (List ToolCall) :=
  value.arr?.bind fun calls => calls.mapM fun call => do
    let id ← call.string? "id"
    let kind ← call.string? "type"
    let function ← call.object? "function"
    let name ← function.string? "name"
    let arguments ← function.string? "arguments"
    pure ⟨id, kind, name, arguments⟩

/-- Decoders that read JSON text. -/
def textDecoders : Tinfoil.TinfoilDecoders where
  fromStr := Json.ofText
  fromSlice bytes := (Text.fromUtf8 bytes).bind Json.ofText
  toolCalls := readToolCalls

theorem textDecoders_body {value : Json} (h : Json.Numbers value) :
    textDecoders.fromSlice (Text.bytes value.toText) = some value := by
  show (Text.fromUtf8 (Text.bytes value.toText)).bind Json.ofText = some value
  rw [Text.fromUtf8_bytes, Option.bind_some, Json.ofText_toText h]

theorem complete_ofText {value : Json} (h : Json.Numbers value) :
    Tinfoil.complete textDecoders (Text.bytes value.toText) =
      Tinfoil.complete { textDecoders with fromSlice := fun _ => some value } [] := by
  unfold Tinfoil.complete
  rw [textDecoders_body h]
  rfl

/-- A response whose two calls have one ID is accepted. -/
theorem repeated_id_accepted :
    ¬ ∀ (P : Primitives) (completionFromSlice : List UInt8 → Option RawNearCompletion)
      (D : Tinfoil.TinfoilDecoders) (route : Route) (response : InferenceResponse),
      route.response P completionFromSlice D = some response →
        (response.assistant.toolCalls.map (·.id)).Nodup := by
  intro h
  let P : Primitives := ⟨id, fun _ => false, fun _ _ _ => false, fun _ => .error .stopped,
    fun _ => false, fun _ => none, fun _ => 0, fun _ => false⟩
  have hnumbers : Json.Numbers repeatedBody := by
    simp only [repeatedBody, Json.ofNat, Json.Numbers, Json.NumbersIn, Json.NumbersInFields,
      Json.isNumber_toString, and_self]
  have hids : (Tinfoil.complete textDecoders (Text.bytes repeatedBody.toText)).toOption.map
      (fun response => response.assistant.toolCalls.map (·.id)) = some ["call-1", "call-1"] := by
    rw [complete_ofText hnumbers]
    decide +kernel
  obtain ⟨response, hresponse, hcalls⟩ := Option.map_eq_some_iff.mp hids
  have hnodup := h P (fun _ => none) textDecoders (.body (Text.bytes repeatedBody.toText)) response
    hresponse
  rw [hcalls] at hnodup
  exact absurd hnodup (by decide)

end AxiomDesktop
