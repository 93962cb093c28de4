import AxiomDesktop.SecureClient.StreamInvariant
import AxiomDesktop.SecureClient.TinfoilCuts
import Mathlib.Data.List.Chain

/-!
# The output of a Tinfoil stream

What a parser has put together after some messages (`StreamParser.Holds`): its texts are the
fragments it emitted, its calls are the calls of the deltas it emitted, and every message named the
same response and reported no less usage than those before it. A stream that is accepted to its end
has given its response in its events, and its last message was `[DONE]` (`stream_output`).
-/

namespace AxiomDesktop

namespace Tinfoil

open Feeding (andThen readFrom feedAll)
open Fallible (result_bind_ok)
open Near (collect collect_snoc_some collect_snoc_none ensure_ok nonempty textDelta?
  reasoningDelta? refusalDelta? toolCallDelta?)

/-! ## What a message says -/

/-- The usage that a message reports. -/
def reported? (value : Json) : Option Usage :=
  (value.present? "usage").bind fun raw => (usage raw).toOption

/-- The finish reason of a choice. -/
def choiceReason? (choice : Json) : Option FinishReason :=
  (choice.present? "finish_reason").bind fun raw => (finishReason raw).toOption

/-- The finish reason of a message. -/
def finishReason? (value : Json) : Option FinishReason :=
  ((value.get? "choices").bind Json.arr?).bind fun choices => choices.head?.bind choiceReason?

/-- All messages name the same response. -/
def Names (key : String) (values : List Json) (saved : Option String) : Prop :=
  ∀ v ∈ values, name? key v = saved ∧ saved.isSome

/-- Usage that is no less. -/
def Usage.Le (u v : Usage) : Prop := u.inputTokens ≤ v.inputTokens ∧ u.outputTokens ≤ v.outputTokens

/-- What messages say together: the response that all of them name, usage that never falls, and at
most one finish reason. -/
structure Said (values : List Json) (id wireModel : Option String) (usage : Option Usage)
    (reason : Option FinishReason) : Prop where
  id : Names "id" values id
  wireModel : Names "model" values wireModel
  rising : (values.filterMap reported?).IsChain Usage.Le
  usage : (values.filterMap reported?).getLast? = usage
  reason : values.filterMap finishReason? = reason.toList

theorem Names.snoc {key : String} {values : List Json} {saved : Option String} {value : Json}
    {actual : String} (hs : Names key values saved) (h : identity key value saved = .ok actual) :
    Names key (values ++ [value]) (some actual) := by
  unfold identity at h
  split at h
  · cases h
  · next text hname =>
    split at h
    · cases h
    · next hsaved =>
      cases h
      intro v hv
      rcases List.mem_append.mp hv with hold | hnew
      · obtain ⟨hv, hsome⟩ := hs v hold
        obtain ⟨old, rfl⟩ := Option.isSome_iff_exists.mp hsome
        have hactual : old = actual := by simpa using hsaved
        rw [hv, hactual]
        exact ⟨rfl, rfl⟩
      · rw [List.mem_singleton.mp hnew, hname]
        exact ⟨rfl, rfl⟩

theorem nextUsage_ok {saved usage : Option Usage} {value : Json}
    (h : StreamParser.nextUsage saved value = .ok usage) :
    (reported? value = none ∧ usage = saved) ∨
      ∃ current, reported? value = some current ∧ usage = some current ∧
        ∀ previous ∈ saved, Usage.Le previous current := by
  unfold StreamParser.nextUsage at h
  unfold reported?
  split at h
  · next hnone =>
    cases h
    exact .inl ⟨by rw [hnone]; rfl, rfl⟩
  · next raw hraw =>
    obtain ⟨current, hcurrent, h⟩ := result_bind_ok h
    obtain ⟨_, hle, h⟩ := result_bind_ok h
    cases h
    refine .inr ⟨current, ?_, rfl, fun previous hprevious => ?_⟩
    · rw [hraw]
      show (Tinfoil.usage raw).toOption = some current
      rw [hcurrent]
      rfl
    · have hall := ensure_ok hle
      rw [Option.mem_def.mp hprevious] at hall
      simpa [Usage.Le] using hall

/-- The usage after one more message. -/
theorem rising_snoc {values : List Json} {saved usage : Option Usage} {value : Json}
    (hrising : (values.filterMap reported?).IsChain Usage.Le)
    (hsaved : (values.filterMap reported?).getLast? = saved)
    (h : StreamParser.nextUsage saved value = .ok usage) :
    ((values ++ [value]).filterMap reported?).IsChain Usage.Le ∧
      ((values ++ [value]).filterMap reported?).getLast? = usage := by
  rw [List.filterMap_append]
  rcases nextUsage_ok h with ⟨hnone, rfl⟩ | ⟨current, hsome, rfl, hle⟩
  · rw [List.filterMap_cons_none hnone, List.filterMap_nil, List.append_nil]
    exact ⟨hrising, hsaved⟩
  · rw [List.filterMap_cons_some hsome, List.filterMap_nil]
    refine ⟨List.isChain_append.mpr ⟨hrising, List.isChain_singleton current, ?_⟩, by simp⟩
    intro previous hprevious next hnext
    rw [hsaved] at hprevious
    cases hnext
    exact hle previous hprevious

/-! ## What is emitted -/

/-- The calls that deltas make. -/
def callsOf (events : List ProviderEvent) : Except ValidationError PUnit × ToolCallAccumulator :=
  ((events.filterMap toolCallDelta?).forM ToolCallAccumulator.push).exec {}

namespace StreamParser

variable {D : TinfoilDecoders} {p p' : StreamParser} {events more : List ProviderEvent}

/-- The texts and calls of a parser are those it has emitted. -/
structure Emitted (events : List ProviderEvent) (p : StreamParser) : Prop where
  text : p.output.assistant.text = collect textDelta? events
  reasoning : p.output.reasoning = nonempty (collect reasoningDelta? events)
  refusal : p.output.refusal = nonempty (collect refusalDelta? events)
  calls : callsOf events = (.ok ⟨⟩, p.calls)

/-- What the texts and calls of a message leave alone. -/
structure SameHeader (p p' : StreamParser) : Prop where
  id : p'.id = p.id
  wireModel : p'.wireModel = p.wireModel
  usage : p'.usage = p.usage
  done : p'.done = p.done
  reason : p'.output.finishReason = p.output.finishReason

theorem SameHeader.trans {q : StreamParser} (h : SameHeader p p') (h' : SameHeader p' q) :
    SameHeader p q :=
  ⟨h'.id.trans h.id, h'.wireModel.trans h.wireModel, h'.usage.trans h.usage, h'.done.trans h.done,
    h'.reason.trans h.reason⟩

theorem getD_nonempty (text : String) : (nonempty text).getD "" = text := by
  unfold nonempty
  split
  · next h => exact (String.isEmpty_iff.mp h).symm
  · rfl

theorem nonempty_append (text : String) {more : String} (h : ¬ more.isEmpty = true) :
    nonempty (text ++ more) = some (text ++ more) := by
  refine if_neg fun hempty => h ?_
  rw [String.isEmpty_iff] at hempty ⊢
  exact (String.append_eq_empty_iff.mp hempty).2

theorem callsOf_append_none (events : List ProviderEvent) {event : ProviderEvent}
    (h : toolCallDelta? event = none) : callsOf (events ++ [event]) = callsOf events := by
  unfold callsOf
  rw [List.filterMap_append, List.filterMap_cons_none h, List.filterMap_nil, List.append_nil]

/-- A text of a message is emitted as it is joined. -/
theorem Emitted.acceptText {part : Option Json × Target} (hp : p.Emitted events)
    (h : p.acceptText part = .ok (p', more)) : p'.Emitted (events ++ more) ∧ SameHeader p p' := by
  unfold StreamParser.acceptText at h
  split at h
  · cases h
    rw [List.append_nil]
    exact ⟨hp, rfl, rfl, rfl, rfl, rfl⟩
  · split at h
    · cases h
    · next text _ =>
      split at h
      · cases h
        rw [List.append_nil]
        exact ⟨hp, rfl, rfl, rfl, rfl, rfl⟩
      · next htext =>
        split at h
        · cases h
        · next joined hjoined =>
          cases h
          have hadded : joined = part.2.read p.output ++ text := by
            unfold append at hjoined
            split at hjoined
            · cases hjoined
            · exact (Except.ok.inj hjoined).symm
          obtain ⟨value, target⟩ := part
          dsimp only at hadded
          cases target with
          | text =>
            refine ⟨⟨?_, ?_, ?_, ?_⟩, rfl, rfl, rfl, rfl, rfl⟩
            · rw [collect_snoc_some (v := text) rfl, ← hp.text, hadded]
              rfl
            · rw [collect_snoc_none rfl]
              exact hp.reasoning
            · rw [collect_snoc_none rfl]
              exact hp.refusal
            · rw [callsOf_append_none events rfl]
              exact hp.calls
          | reasoning =>
            refine ⟨⟨?_, ?_, ?_, ?_⟩, rfl, rfl, rfl, rfl, rfl⟩
            · rw [collect_snoc_none rfl]
              exact hp.text
            · rw [collect_snoc_some (v := text) rfl, nonempty_append _ htext, hadded, Target.read,
                hp.reasoning, getD_nonempty]
              rfl
            · rw [collect_snoc_none rfl]
              exact hp.refusal
            · rw [callsOf_append_none events rfl]
              exact hp.calls
          | refusal =>
            refine ⟨⟨?_, ?_, ?_, ?_⟩, rfl, rfl, rfl, rfl, rfl⟩
            · rw [collect_snoc_none rfl]
              exact hp.text
            · rw [collect_snoc_none rfl]
              exact hp.reasoning
            · rw [collect_snoc_some (v := text) rfl, nonempty_append _ htext, hadded, Target.read,
                hp.refusal, getD_nonempty]
              rfl
            · rw [callsOf_append_none events rfl]
              exact hp.calls

/-- A call of a message is emitted as it is joined. -/
theorem Emitted.acceptToolCall {call : Json} (hp : p.Emitted events)
    (h : p.acceptToolCall call = .ok (p', more)) : p'.Emitted (events ++ more) ∧ SameHeader p p' := by
  unfold StreamParser.acceptToolCall at h
  split at h
  · cases h
  · next delta _ =>
    split at h
    · cases h
    · next calls hpush =>
      cases h
      refine ⟨⟨?_, ?_, ?_, ?_⟩, rfl, rfl, rfl, rfl, rfl⟩
      · rw [collect_snoc_none rfl]
        exact hp.text
      · rw [collect_snoc_none rfl]
        exact hp.reasoning
      · rw [collect_snoc_none rfl]
        exact hp.refusal
      · unfold callsOf
        rw [List.filterMap_append]
        exact (Fallible.exec_forM_append hp.calls).trans (Fallible.exec_forM_singleton hpush)

/-- Steps that emit what they join. -/
theorem Emitted.readFrom {α : Type} {step : StreamParser → α → Parsed}
    (hstep : ∀ events p a p' more, Emitted events p → step p a = .ok (p', more) →
      p'.Emitted (events ++ more) ∧ SameHeader p p')
    {as : List α} (hp : p.Emitted events) (h : readFrom step p as = .ok (p', more)) :
    p'.Emitted (events ++ more) ∧ SameHeader p p' :=
  Feeding.readFrom_induction step (I := fun events q => q.Emitted events ∧ SameHeader p q)
    (fun before q a q' os hq hs =>
      have hnext := hstep before q a q' os hq.1 hs
      ⟨hnext.1, hq.2.trans hnext.2⟩)
    ⟨hp, rfl, rfl, rfl, rfl, rfl⟩ h

theorem Emitted.acceptDelta {delta : Json} (hp : p.Emitted events)
    (h : p.acceptDelta delta = .ok (p', more)) : p'.Emitted (events ++ more) ∧ SameHeader p p' := by
  unfold StreamParser.acceptDelta at h
  split at h
  · cases h
  · split at h
    · cases h
    · obtain ⟨q, _, _, htexts, hcalls, rfl⟩ := Feeding.andThen_eq_ok h
      obtain ⟨hq, hsame⟩ := hp.readFrom (fun _ _ _ _ _ he => he.acceptText) htexts
      rw [← List.append_assoc]
      unfold StreamParser.acceptToolCalls at hcalls
      split at hcalls
      · cases hcalls
        rw [List.append_nil]
        exact ⟨hq, hsame⟩
      · split at hcalls
        · cases hcalls
        · split at hcalls
          · cases hcalls
          · obtain ⟨hq', hsame'⟩ := hq.readFrom (fun _ _ _ _ _ he => he.acceptToolCall) hcalls
            exact ⟨hq', hsame.trans hsame'⟩

/-- A choice leaves the identity and the usage alone, and sets the finish reason it has. -/
theorem Emitted.acceptChoice {choice : Json} (hp : p.Emitted events)
    (h : p.acceptChoice choice = .ok (p', more)) :
    p'.Emitted (events ++ more) ∧ p.output.finishReason = none ∧
      p'.output.finishReason = choiceReason? choice ∧
      SameHeader p { p' with output.finishReason := none } := by
  unfold StreamParser.acceptChoice at h
  split at h
  · cases h
  · next hchoice =>
    have hfresh : p.output.finishReason = none := by
      rw [not_or, Option.not_isSome_iff_eq_none] at hchoice
      exact hchoice.2
    split at h
    · cases h
    · obtain ⟨q, _, _, hdelta, hreason, rfl⟩ := Feeding.andThen_eq_ok h
      obtain ⟨hq, hsame⟩ := hp.acceptDelta hdelta
      unfold StreamParser.acceptFinishReason at hreason
      unfold choiceReason?
      split at hreason
      · next habsent =>
        cases hreason
        rw [List.append_nil, habsent]
        exact ⟨hq, hfresh, hsame.reason.trans hfresh, hsame.id, hsame.wireModel, hsame.usage,
          hsame.done, hfresh.symm⟩
      · next raw hraw =>
        split at hreason
        · cases hreason
        · next reason hok =>
          cases hreason
          rw [List.append_nil, hraw]
          refine ⟨⟨hq.text, hq.reasoning, hq.refusal, hq.calls⟩, hfresh, ?_, hsame.id, hsame.wireModel,
            hsame.usage, hsame.done, hfresh.symm⟩
          show some reason = (finishReason raw).toOption
          rw [hok]
          rfl

/-! ## What a stream says -/

theorem acceptHeader_ok {value : Json} (h : p.acceptHeader value = .ok p') :
    ∃ id wireModel usage, identity "id" value p.id = .ok id ∧
      identity "model" value p.wireModel = .ok wireModel ∧ nextUsage p.usage value = .ok usage ∧
      p' = { p with id := some id, wireModel := some wireModel, usage } := by
  unfold StreamParser.acceptHeader at h
  obtain ⟨_, _, h⟩ := result_bind_ok h
  obtain ⟨id, hid, h⟩ := result_bind_ok h
  obtain ⟨wireModel, hmodel, h⟩ := result_bind_ok h
  obtain ⟨usage, husage, h⟩ := result_bind_ok h
  cases h
  exact ⟨id, wireModel, usage, hid, hmodel, husage, rfl⟩

/-- **What a parser holds** after messages, with what it has emitted. -/
structure Holds (D : TinfoilDecoders) (messages : List String) (events : List ProviderEvent)
    (p : StreamParser) : Prop where
  emitted : p.Emitted events
  said : ∃ texts values, messages = texts ++ (if p.done then ["[DONE]"] else []) ∧
    texts.map D.fromStr = values.map some ∧
    Said values p.id p.wireModel p.usage p.output.finishReason
  ended : p.done = true → p.output.finishReason.isSome ∧ p.usage.isSome

variable {messages : List String}

/-- What is held back does not matter. -/
theorem Holds.reframe (hp : p.Holds D messages events) (buffer : List UInt8) (data : String) :
    { p with buffer, data }.Holds D messages events :=
  ⟨⟨hp.emitted.text, hp.emitted.reasoning, hp.emitted.refusal, hp.emitted.calls⟩, hp.said, hp.ended⟩

/-- A message that is no `[DONE]`. -/
theorem Holds.acceptValue {data : String} {value : Json} (hp : p.Holds D messages events)
    (hopen : p.done = false) (hdata : D.fromStr data = some value)
    (h : p.acceptValue value = .ok (p', more)) :
    p'.Holds D (messages ++ [data]) (events ++ more) := by
  obtain ⟨texts, values, rfl, hvalues, hsaid⟩ := hp.said
  unfold StreamParser.acceptValue at h
  split at h
  · cases h
  · next q hheader =>
    obtain ⟨id, wireModel, usage, hid, hmodel, husage, rfl⟩ := acceptHeader_ok hheader
    obtain ⟨hrising, hlast⟩ := rising_snoc hsaid.rising hsaid.usage husage
    have hmap : (texts ++ [data]).map D.fromStr = (values ++ [value]).map some := by
      rw [List.map_append, List.map_append, hvalues]
      exact congrArg (fun v => values.map some ++ [v]) hdata
    have hmessages (done : Bool) (hdone : done = p.done) :
        texts ++ (if p.done then ["[DONE]"] else []) ++ [data] =
          texts ++ [data] ++ (if done then ["[DONE]"] else []) := by
      rw [hdone, hopen]
      simp
    have hemitted : { p with id := some id, wireModel := some wireModel, usage }.Emitted events :=
      ⟨hp.emitted.text, hp.emitted.reasoning, hp.emitted.refusal, hp.emitted.calls⟩
    have hreason (next : Option FinishReason) (hnext : finishReason? value = next)
        (hfresh : next.isSome → p.output.finishReason = none) :
        (values ++ [value]).filterMap finishReason? = (next.or p.output.finishReason).toList := by
      rw [List.filterMap_append, hsaid.reason]
      cases next with
      | none => simp [hnext]
      | some reason => simp [hnext, hfresh rfl]
    split at h
    · cases h
    · next hchoices =>
      cases h
      have hnone : finishReason? value = none := by
        unfold finishReason?
        rw [hchoices]
        rfl
      rw [List.append_nil]
      refine ⟨hemitted, ⟨texts ++ [data], values ++ [value], hmessages _ rfl, hmap, hsaid.id.snoc hid,
        hsaid.wireModel.snoc hmodel, hrising, hlast, hreason none hnone nofun⟩, fun hdone => ?_⟩
      rw [hopen] at hdone
      cases hdone
    · next choice hchoices =>
      obtain ⟨hemitted', hfresh, hset, hsame⟩ := hemitted.acceptChoice h
      have hfound : finishReason? value = p'.output.finishReason := by
        unfold finishReason?
        rw [hchoices, hset]
        rfl
      have hnext := hreason p'.output.finishReason hfound fun _ => hfresh
      rw [show p.output.finishReason = none from hfresh, Option.or_none] at hnext
      have hid' : p'.id = some id := hsame.id
      have hmodel' : p'.wireModel = some wireModel := hsame.wireModel
      have husage' : p'.usage = usage := hsame.usage
      have hdone' : p'.done = p.done := hsame.done
      refine ⟨hemitted', ⟨texts ++ [data], values ++ [value], hmessages _ hdone', hmap, ?_, ?_, hrising, ?_,
        hnext⟩, fun hdone => ?_⟩
      · rw [hid']
        exact hsaid.id.snoc hid
      · rw [hmodel']
        exact hsaid.wireModel.snoc hmodel
      · rw [husage']
        exact hlast
      · rw [hdone', hopen] at hdone
        cases hdone
    · cases h

theorem Holds.event {data : String} (hp : p.Holds D messages events)
    (h : p.event D data = .ok (p', more)) : p'.Holds D (messages ++ [data]) (events ++ more) := by
  unfold StreamParser.event at h
  split at h
  · cases h
  · next hopen =>
    rw [Bool.not_eq_true] at hopen
    split at h
    · next hdone =>
      split at h
      · cases h
      · next hready =>
        cases h
        rw [not_or, ← ne_eq, ← ne_eq, Option.ne_none_iff_isSome, Option.ne_none_iff_isSome] at hready
        obtain ⟨texts, values, rfl, hvalues, hsaid⟩ := hp.said
        rw [List.append_nil, hopen, hdone]
        refine ⟨⟨hp.emitted.text, hp.emitted.reasoning, hp.emitted.refusal, hp.emitted.calls⟩,
          ⟨texts, values, by simp, hvalues, hsaid⟩, fun _ => hready⟩
    · split at h
      · cases h
      · next value hvalue => exact hp.acceptValue hopen hvalue h

theorem Holds.acceptByte {byte : UInt8} (hp : p.Holds D messages events)
    (h : p.acceptByte D byte = .ok (p', more)) :
    p'.Holds D (messages ++ (p.held.next byte).2) (events ++ more) := by
  rcases acceptByte_cases h with ⟨held, hnext, rfl, rfl⟩ | ⟨message, hnext, hevent⟩
  · rw [hnext, List.append_nil, List.append_nil]
    exact hp.reframe held.line held.data
  · rw [hnext]
    exact (hp.reframe [] "").event hevent

theorem Holds.readFrom {bytes : List UInt8} (hp : p.Holds D messages events)
    (h : Feeding.readFrom (StreamParser.acceptByte D) p bytes = .ok (p', more)) :
    p'.Holds D (messages ++ (p.held.read bytes).2) (events ++ more) := by
  induction bytes generalizing p messages events more with
  | nil =>
    obtain ⟨rfl, rfl⟩ := Prod.mk.inj (Except.ok.inj h)
    simpa only [Held.read, List.append_nil] using hp
  | cons byte bytes ih =>
    obtain ⟨q, first, rest, hbyte, hbytes, rfl⟩ := Feeding.andThen_eq_ok h
    have hq := ih (hp.acceptByte hbyte) hbytes
    rw [(held_acceptByte hbyte).1, List.append_assoc, List.append_assoc] at hq
    exact hq

end StreamParser

/-! ## A whole stream -/

theorem holds_new (D : TinfoilDecoders) (model : String) (limit : Nat) :
    StreamParser.Holds D [] [] { model, limit } where
  emitted := ⟨rfl, rfl, rfl, rfl⟩
  said := ⟨[], [], rfl, rfl, nofun, nofun, List.isChain_nil, rfl, rfl⟩
  ended := nofun

/-- The response of an accepted stream is what it emitted, and what its messages before
`[DONE]` said. -/
structure Streamed (D : TinfoilDecoders) (bytes : List UInt8) (events : List ProviderEvent)
    (response : InferenceResponse) : Prop where
  text : response.assistant.text = collect textDelta? events
  reasoning : response.reasoning = nonempty (collect reasoningDelta? events)
  shown : response.assistant.reasoning = response.reasoning
  refusal : response.refusal = nonempty (collect refusalDelta? events)
  calls : ∃ acc, callsOf events = (.ok ⟨⟩, acc) ∧ acc.finish = .ok response.assistant.toolCalls
  said : ∃ texts values id wireModel reason,
    Held.read {} bytes = ({}, texts ++ ["[DONE]"]) ∧ texts.map D.fromStr = values.map some ∧
      Said values (some id) (some wireModel) (some response.usage) (some reason) ∧
      response.finishReason = some (normalize response.assistant.toolCalls reason)

theorem streamed_of_finish {D : TinfoilDecoders} {p : StreamParser} {bytes : List UInt8}
    {events : List ProviderEvent} {response : InferenceResponse}
    (hp : p.Holds D (Held.read {} bytes).2 events) (hheld : p.held = (Held.read {} bytes).1)
    (h : p.finish D = .ok response) : Streamed D bytes events response := by
  unfold StreamParser.finish at h
  obtain ⟨_, hended, h⟩ := result_bind_ok h
  obtain ⟨_, _, h⟩ := result_bind_ok h
  have hended := ensure_ok hended
  rw [Bool.and_eq_true, Bool.and_eq_true, Bool.and_eq_true] at hended
  obtain ⟨⟨⟨hdone, hbuffer⟩, hdata⟩, hid⟩ := hended
  split at h
  · next usage husage =>
    obtain ⟨calls, hcalls, h⟩ := result_bind_ok h
    obtain ⟨output, houtput, h⟩ := result_bind_ok h
    cases h
    unfold validateFinish at houtput
    obtain ⟨_, _, houtput⟩ := result_bind_ok houtput
    obtain ⟨_, _, houtput⟩ := result_bind_ok houtput
    cases houtput
    have hfinish : p.calls.finish = .ok calls := by
      cases hresult : p.calls.finish with
      | error e =>
        rw [hresult] at hcalls
        cases hcalls
      | ok tools =>
        rw [hresult] at hcalls
        exact congrArg Except.ok (Except.ok.inj hcalls)
    obtain ⟨texts, values, hmessages, hvalues, hsaid⟩ := hp.said
    obtain ⟨reason, hreason⟩ := Option.isSome_iff_exists.mp (hp.ended hdone).1
    obtain ⟨id, hid⟩ := Option.isSome_iff_exists.mp hid
    have hmodel : p.wireModel.isSome := by
      have hne : values ≠ [] := by
        rintro rfl
        rw [husage] at hsaid
        exact absurd hsaid.usage (by simp)
      obtain ⟨v, hv⟩ := List.exists_mem_of_ne_nil values hne
      exact (hsaid.wireModel v hv).2
    obtain ⟨wireModel, hmodel⟩ := Option.isSome_iff_exists.mp hmodel
    rw [hid, hmodel, husage, hreason] at hsaid
    rw [hdone] at hmessages
    refine ⟨hp.emitted.text, hp.emitted.reasoning, rfl, hp.emitted.refusal,
      ⟨p.calls, hp.emitted.calls, hfinish⟩, texts, values, id, wireModel, reason, ?_, hvalues, hsaid, ?_⟩
    · refine Prod.ext (hheld.symm.trans ?_) hmessages
      unfold StreamParser.held
      rw [List.isEmpty_iff.mp hbuffer, String.isEmpty_iff.mp hdata]
    · show p.output.finishReason.map (normalize calls) = _
      rw [hreason]
      rfl
  · cases h

theorem readFrom_of_outcome {D : TinfoilDecoders} {model : String} {limit : Nat}
    {chunks : List (List UInt8)} {events : List ProviderEvent}
    {result : Except SecureClientError InferenceResponse}
    (h : outcome D model limit chunks = some (events, result)) :
    ∃ p, readFrom (StreamParser.acceptByte D) { model, limit } chunks.flatten = .ok (p, events) ∧
      p.finish D = result := by
  unfold outcome at h
  rw [feedAll_push] at h
  obtain ⟨⟨p, emitted⟩, hread, hresult⟩ := Option.map_eq_some_iff.mp h
  obtain ⟨rfl, hfinish⟩ := Prod.mk.inj hresult
  split at hread
  · exact ⟨p, Feeding.eq_ok_of_toOption hread, hfinish⟩
  · cases hread

theorem streamed_of_outcome {D : TinfoilDecoders} {model : String} {limit : Nat}
    {chunks : List (List UInt8)} {events : List ProviderEvent} {response : InferenceResponse}
    (h : outcome D model limit chunks = some (events, .ok response)) :
    Streamed D chunks.flatten events response := by
  obtain ⟨p, hread, hfinish⟩ := readFrom_of_outcome h
  exact streamed_of_finish ((holds_new D model limit).readFrom hread) (held_readFrom hread).1 hfinish

/-- **A stream gives its response in its events.** Where a stream is accepted to its end, its
response is what it emitted, and its last message was `[DONE]`; the messages before it named one
response, never less usage, and one finish reason, and those are the response's. -/
theorem stream_output (D : TinfoilDecoders) (model : String) (limit : Nat)
    (chunks : List (List UInt8)) :
    match outcome D model limit chunks with
    | some (events, .ok response) => Streamed D chunks.flatten events response
    | _ => True := by
  split
  · next houtcome => exact streamed_of_outcome houtcome
  · trivial

end Tinfoil

end AxiomDesktop
