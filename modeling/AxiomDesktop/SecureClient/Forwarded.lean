import AxiomDesktop.SecureClient.ProviderStream

/-!
# What a verified stream has forwarded

`forwarded_verified` tells when the text and the reasoning that a successful call of
`SecureAxiomProvider::stream` has forwarded are those of the reply it returns: where the attempt
that it repeated, if it repeated one, had sent none (`abandoned`). `call_ok` and `call_refused` say
what one attempt sends, `operation_ok` what a successful operation does.
-/

namespace AxiomDesktop

namespace SecureAxiomProvider

open Near Fallible

variable {env : StreamEnvironment}

def isVerification : ProviderEvent → Bool
  | .responseVerified => true
  | _ => false

/-- The event carries a part of the reply. -/
def isReply : ProviderEvent → Bool
  | .textDelta _ | .reasoningDelta _ => true
  | _ => false

theorem not_isVerification_of_open (e : ProviderEvent) (h : gated e = false) :
    isVerification e = false := by
  cases e <;> first | rfl | cases h

theorem not_isReply_of_gated (e : ProviderEvent) (h : gated e = true) : isReply e = false := by
  cases e <;> first | rfl | cases h

theorem collect_silent {pick : ProviderEvent → Option String}
    (hpick : ∀ e, isReply e = false → pick e = none) {events : List ProviderEvent}
    (h : ∀ e ∈ events, isReply e = false) : collect pick events = "" := by
  rw [collect, List.filterMap_eq_nil_iff.mpr fun e he => hpick e (h e he)]
  rfl

theorem textDelta?_silent (e : ProviderEvent) (h : isReply e = false) : textDelta? e = none := by
  cases e <;> first | rfl | cases h

theorem reasoningDelta?_silent (e : ProviderEvent) (h : isReply e = false) :
    reasoningDelta? e = none := by
  cases e <;> first | rfl | cases h

/-- The events carry a text and a reasoning, and none of either behind a verification. -/
structure Carries (text reasoning : String) (events : List ProviderEvent) : Prop where
  split : ∃ before after, events = before ++ after ∧
    (∀ e ∈ before, isVerification e = false) ∧ (∀ e ∈ after, isReply e = false) ∧
    collect textDelta? before = text ∧ collect reasoningDelta? before = reasoning

theorem Carries.text {text reasoning : String} {events : List ProviderEvent}
    (h : Carries text reasoning events) : collect textDelta? events = text := by
  obtain ⟨before, after, rfl, -, hafter, rfl, -⟩ := h.split
  rw [collect_append, collect_silent textDelta?_silent hafter, String.append_empty]

theorem Carries.reasoning {text reasoning : String} {events : List ProviderEvent}
    (h : Carries text reasoning events) : collect reasoningDelta? events = reasoning := by
  obtain ⟨before, after, rfl, -, hafter, -, rfl⟩ := h.split
  rw [collect_append, collect_silent reasoningDelta?_silent hafter, String.append_empty]

/-- No part of the reply comes behind a verification. -/
theorem Carries.sealed {text reasoning : String} {events : List ProviderEvent}
    (h : Carries text reasoning events) {before after : List ProviderEvent}
    (hevents : events = before ++ .responseVerified :: after) : ∀ e ∈ after, isReply e = false := by
  obtain ⟨front, back, rfl, hfront, hback, -, -⟩ := h.split
  rcases List.append_eq_append_iff.mp hevents with ⟨rest, rfl, hrest⟩ | ⟨rest, rfl, hrest⟩
  · rw [hrest, List.forall_mem_append, List.forall_mem_cons] at hback
    exact hback.2.2
  · cases rest with
    | nil =>
      rw [List.nil_append] at hrest
      rw [← hrest, List.forall_mem_cons] at hback
      exact hback.2
    | cons e rest =>
      obtain ⟨rfl, -⟩ := List.cons.inj hrest
      rw [List.forall_mem_append, List.forall_mem_cons] at hfront
      cases hfront.2.1

/-- Events without a reply and without a verification go before. -/
theorem Carries.after {text reasoning text' reasoning' : String} {events : List ProviderEvent}
    (h : Carries text reasoning events) (front : List ProviderEvent)
    (hfront : ∀ e ∈ front, isVerification e = false) (htext : collect textDelta? front = text')
    (hreasoning : collect reasoningDelta? front = reasoning') :
    Carries (text' ++ text) (reasoning' ++ reasoning) (front ++ events) := by
  obtain ⟨before, after, rfl, hbefore, hafter, rfl, rfl⟩ := h.split
  refine ⟨front ++ before, after, (List.append_assoc ..).symm, ?_, hafter, ?_, ?_⟩
  · rw [List.forall_mem_append]
    exact ⟨hfront, hbefore⟩
  · rw [collect_append, htext]
  · rw [collect_append, hreasoning]

/-- Events without a reply go behind. -/
theorem Carries.before {text reasoning : String} {events : List ProviderEvent}
    (h : Carries text reasoning events) (back : List ProviderEvent) (hback : ∀ e ∈ back, isReply e = false) :
    Carries text reasoning (events ++ back) := by
  obtain ⟨before, after, rfl, hbefore, hafter, htext, hreasoning⟩ := h.split
  refine ⟨before, after ++ back, List.append_assoc .., hbefore, ?_, htext, hreasoning⟩
  rw [List.forall_mem_append]
  exact ⟨hafter, hback⟩

/-! ## One attempt -/

theorem getD_nonempty (text : String) : (nonempty text).getD "" = text := by
  unfold nonempty
  split
  · next h => simpa using (String.isEmpty_iff.mp h).symm
  · rfl

theorem ofResult_error {ε σ α : Type} {r : Except ε α} {s t : σ} {e : ε}
    (h : (ofResult r : Fallible ε σ α).exec s = (.error e, t)) : s = t := by
  have hread := readOnly_ofResult (σ := σ) r s
  rw [h] at hread
  exact hread.symm

theorem send_ok {sink : Nat → Bool} {event : ProviderEvent} {feed feed' : Feed} {u : PUnit}
    (h : (send sink event).exec feed = (.ok u, feed')) : feed'.sent = feed.sent ++ [event] := by
  obtain ⟨_, _, hget, h⟩ := exec_bind_ok.mp h
  cases hget
  obtain ⟨_, _, hopen, h⟩ := exec_bind_ok.mp h
  obtain ⟨-, rfl⟩ := exec_failIf_ok.mp hopen
  cases h
  rfl

theorem send_error {sink : Nat → Bool} {event : ProviderEvent} {feed feed' : Feed}
    {e : SecureClientError} (h : (send sink event).exec feed = (.error e, feed')) :
    e = .stopped := by
  rcases exec_bind_error.mp h with h | ⟨_, _, hget, h⟩
  · cases h
  · cases hget
    rcases exec_bind_error.mp h with h | ⟨_, _, hopen, h⟩
    · rw [exec_failIf] at h
      split at h <;> cases h
      rfl
    · cases h

theorem sendAll_ok {sink : Nat → Bool} {events : List ProviderEvent} {feed feed' : Feed} {u : PUnit}
    (h : (events.forM (send sink)).exec feed = (.ok u, feed')) :
    feed'.sent = feed.sent ++ events := by
  induction events generalizing feed with
  | nil =>
    cases h
    rw [List.append_nil]
  | cons event events ih =>
    obtain ⟨_, _, hsend, h⟩ := exec_bind_ok.mp h
    rw [ih h, send_ok hsend, List.append_assoc]
    rfl

theorem sendAll_error {sink : Nat → Bool} {events : List ProviderEvent} {feed feed' : Feed}
    {e : SecureClientError} (h : (events.forM (send sink)).exec feed = (.error e, feed')) :
    e = .stopped := by
  induction events generalizing feed with
  | nil => cases h
  | cons event events ih =>
    rcases exec_bind_error.mp h with h | ⟨_, _, _, h⟩
    · exact send_error h
    · exact ih h

variable {session : Session} {sink : Nat → Bool} {feed : Feed}

theorem acceptAll_ok {u : PUnit} (h : (session.events.forM (accept session.primitives sink)).exec
    session.feed = (.ok u, feed)) :
    FeedInvariant session.primitives session.expected session.events feed := by
  have hwp : (session.events.forM (accept session.primitives sink)).Wp _ _ _ :=
    wp_acceptAll session.expected session.events
  unfold Wp at hwp
  unfold Session.feed at h
  rwa [h] at hwp

theorem acceptAll_error {e : SecureClientError}
    (h : (session.events.forM (accept session.primitives sink)).exec session.feed =
      (.error e, feed)) : Quiet feed := by
  have hwp : (session.events.forM (accept session.primitives sink)).Wp _ _ _ :=
    wp_acceptAll session.expected session.events
  unfold Wp at hwp
  unfold Session.feed at h
  rwa [h] at hwp

/-- The events that are held back wait for the verification. -/
theorem heldGated {P : Primitives} {x : Expected} {done : List RelayEvent}
    (h : FeedInvariant P x done feed) : ∀ e ∈ feed.state.verifiedEvents, gated e = true := by
  obtain ⟨deltas, -, hheld⟩ := h.held
  rw [hheld, List.forall_mem_append]
  constructor
  · intro e he
    obtain ⟨delta, -, rfl⟩ := List.mem_map.mp he
    rfl
  · unfold terminalEvents
    split
    · rintro e (_ | ⟨_, _ | ⟨_, h⟩⟩) <;> first | rfl | cases h
    · exact fun _ he => absurd he List.not_mem_nil

/-- **An attempt that succeeds** sends the reply that it returns, and then its verification. -/
theorem call_ok {response : InferenceResponse}
    (h : (session.call sink).exec session.feed = (.ok response, feed)) :
    Carries response.assistant.text (response.reasoning.getD "") feed.sent := by
  obtain ⟨_, _, hopened, h⟩ := exec_bind_ok.mp h
  obtain ⟨-, rfl⟩ := exec_ofResult_ok.mp hopened
  obtain ⟨_, accepted, haccepted, h⟩ := exec_bind_ok.mp h
  obtain ⟨_, _, hending, h⟩ := exec_bind_ok.mp h
  obtain ⟨-, rfl⟩ := exec_ofResult_ok.mp hending
  obtain ⟨_, _, hget, h⟩ := exec_bind_ok.mp h
  cases hget
  obtain ⟨⟨response', held⟩, _, hfinished, h⟩ := exec_bind_ok.mp h
  obtain ⟨hfinish, rfl⟩ := exec_ofResult_ok.mp hfinished
  obtain ⟨_, emitted, hemit, h⟩ := exec_bind_ok.mp h
  cases h
  obtain ⟨_, held', hheld, hverified⟩ := exec_bind_ok.mp hemit
  have hinvariant := acceptAll_ok haccepted
  obtain ⟨-, hheldEvents, reason, -, hresponse⟩ := finish_ok hfinish
  obtain ⟨toolCalls, -, hresponse⟩ := provisionalResponse_ok hresponse
  have hgated := heldGated hinvariant
  rw [send_ok hverified, sendAll_ok hheld, hheldEvents, hresponse]
  refine ⟨accepted.sent, accepted.state.verifiedEvents ++ [.responseVerified],
    List.append_assoc .., ?_, ?_, hinvariant.text.symm, ?_⟩
  · exact fun e he => not_isVerification_of_open e (hinvariant.quiet e he)
  · rw [List.forall_mem_append]
    refine ⟨fun e he => not_isReply_of_gated e (hgated e he), fun e he => ?_⟩
    rw [List.mem_singleton.mp he]
    rfl
  · rw [getD_nonempty, hinvariant.reasoning]

/-- **An attempt that is repeated** has sent no verification. -/
theorem call_refused {e : SecureClientError}
    (h : (session.call sink).exec session.feed = (.error e, feed))
    (hchanged : e.requiresReattestAndReencrypt = true) :
    ∀ event ∈ feed.sent, isVerification event = false := by
  have hstopped : e ≠ .stopped := by
    rintro rfl
    cases hchanged
  have hquiet {feed : Feed} (h : Quiet feed) : ∀ event ∈ feed.sent, isVerification event = false :=
    fun event hevent => not_isVerification_of_open event (h event hevent)
  rcases exec_bind_error.mp h with h | ⟨_, _, hopened, h⟩
  · rw [← ofResult_error h]
    exact fun _ hevent => absurd hevent List.not_mem_nil
  obtain ⟨-, rfl⟩ := exec_ofResult_ok.mp hopened
  rcases exec_bind_error.mp h with h | ⟨_, accepted, haccepted, h⟩
  · exact hquiet (acceptAll_error h)
  have hinvariant := acceptAll_ok haccepted
  rcases exec_bind_error.mp h with h | ⟨_, _, hending, h⟩
  · rw [← ofResult_error h]
    exact hquiet hinvariant.quiet
  obtain ⟨-, rfl⟩ := exec_ofResult_ok.mp hending
  rcases exec_bind_error.mp h with h | ⟨_, _, hget, h⟩
  · cases h
  cases hget
  rcases exec_bind_error.mp h with h | ⟨⟨response, held⟩, _, hfinish, h⟩
  · rw [← ofResult_error h]
    exact hquiet hinvariant.quiet
  obtain ⟨-, rfl⟩ := exec_ofResult_ok.mp hfinish
  -- what fails from here on is a send, and that stops the call
  rcases exec_bind_error.mp h with h | ⟨_, _, _, h⟩
  · rcases exec_bind_error.mp h with h | ⟨_, _, _, h⟩
    · exact absurd (sendAll_error h) hstopped
    · exact absurd (send_error h) hstopped
  · cases h

/-! ## The operation -/

/-- What the first attempt had sent, where it is repeated. -/
def abandoned (env : StreamEnvironment) : List ProviderEvent :=
  match env.establish with
  | .error _ => []
  | .ok session =>
    match (session.call fun n => env.open_ (5 + n)).exec session.feed with
    | (.error e, feed) => if e.requiresReattestAndReencrypt then feed.sent else []
    | (.ok _, _) => []

variable {sent sent' : List ProviderEvent}

theorem sendProviderEvent_ok {event : ProviderEvent} {u : PUnit}
    (h : (sendProviderEvent env event).exec sent = (.ok u, sent')) : sent' = sent ++ [event] := by
  obtain ⟨_, _, hget, h⟩ := exec_bind_ok.mp h
  cases hget
  obtain ⟨_, _, hopen, h⟩ := exec_bind_ok.mp h
  obtain ⟨-, rfl⟩ := exec_failIf_ok.mp hopen
  cases h
  rfl

theorem announce_ok {session : Session} {u : PUnit}
    (h : (announce env session).exec sent = (.ok u, sent')) :
    sent' = sent ++ [.securityState session.state, .securityEvidence session.evidence] := by
  obtain ⟨_, _, hstate, h⟩ := exec_bind_ok.mp h
  rw [sendProviderEvent_ok h, sendProviderEvent_ok hstate, List.append_assoc]
  rfl

/-- A failure is returned. -/
theorem secureStreamFailure_error {α : Type} {error : ProviderError} {a : α} :
    (secureStreamFailure env error : Fallible ProviderError (List ProviderEvent) α).exec sent ≠
      (.ok a, sent') := by
  intro h
  unfold secureStreamFailure at h
  split at h
  · cases h
  · split at h
    · obtain ⟨_, _, -, h⟩ := exec_bind_ok.mp h
      cases h
    · cases h

/-- What is sent before the second attempt. -/
def messages (refreshed : Session) : List ProviderEvent :=
  [.securityState .verifying,
    .status true "Provider key rotated; re-verifying and re-encrypting once",
    .securityState refreshed.state, .securityEvidence refreshed.evidence]

/-- **The second attempt**: between what was sent and its reply only the states of the sessions and
a message are sent. -/
theorem retry_ok {response : InferenceResponse}
    (h : (retry env).exec sent = (.ok response, sent')) :
    ∃ refreshed reply, sent' = sent ++ messages refreshed ++ reply ∧
      Carries response.assistant.text (response.reasoning.getD "") reply := by
  obtain ⟨_, _, hinvalidate, h⟩ := exec_bind_ok.mp h
  obtain ⟨-, rfl⟩ := exec_ofResult_ok.mp hinvalidate
  obtain ⟨_, _, hverifying, h⟩ := exec_bind_ok.mp h
  obtain ⟨_, _, hstatus, h⟩ := exec_bind_ok.mp h
  obtain ⟨refreshed, announcing, hestablish, h⟩ := exec_bind_ok.mp h
  obtain ⟨-, rfl⟩ := exec_ofResult_ok.mp hestablish
  obtain ⟨_, announced, hannounce, h⟩ := exec_bind_ok.mp h
  obtain ⟨result, streamed, hstream, h⟩ := exec_bind_ok.mp h
  obtain ⟨hresult, rfl⟩ := exec_ofResult_ok.mp h
  have hresult := mapError_ok hresult
  have hannounced : announced = sent ++ messages refreshed := by
    rw [announce_ok hannounce, sendProviderEvent_ok hstatus, sendProviderEvent_ok hverifying]
    simp [messages]
  cases hstream
  exact ⟨refreshed, _, by rw [← hannounced], call_ok (Prod.ext hresult rfl)⟩

/-- **The first attempt and what follows it.** -/
theorem response_ok {session : Session} {response : InferenceResponse}
    (hestablish : env.establish = .ok session) (hfive : sent.length = 5)
    (h : (SecureAxiomProvider.response env session).exec sent = (.ok response, sent')) :
    ∃ reply, sent' = sent ++ reply ∧
      Carries (collect textDelta? (abandoned env) ++ response.assistant.text)
        (collect reasoningDelta? (abandoned env) ++ response.reasoning.getD "") reply := by
  obtain ⟨result, streamed, hstream, h⟩ := exec_bind_ok.mp h
  cases hstream
  rcases hcall : (session.call fun n => env.open_ (sent.length + n)).exec session.feed with
    ⟨error | response', feed⟩
  · rw [hcall] at h
    have habandoned : error.requiresReattestAndReencrypt = true → abandoned env = feed.sent := by
      intro hchanged
      rw [hfive] at hcall
      simp [abandoned, hestablish, hcall, hchanged]
    dsimp only at h
    split at h
    · next hchanged =>
      obtain ⟨refreshed, reply, hsent', hreply⟩ := retry_ok h
      have hfront : ∀ e ∈ feed.sent ++ messages refreshed, isVerification e = false := by
        rw [List.forall_mem_append]
        exact ⟨call_refused hcall hchanged, by simp [messages, isVerification]⟩
      rw [habandoned hchanged]
      refine ⟨feed.sent ++ messages refreshed ++ reply, ?_, hreply.after _ hfront ?_ ?_⟩
      · rw [hsent']
        simp only [List.append_assoc]
      · rw [collect_append, show collect textDelta? (messages refreshed) = "" from rfl,
          String.append_empty]
      · rw [collect_append, show collect reasoningDelta? (messages refreshed) = "" from rfl,
          String.append_empty]
    · cases h
  · rw [hcall] at h
    cases h
    have habandoned : abandoned env = [] := by
      rw [hfive] at hcall
      simp [abandoned, hestablish, hcall]
    rw [habandoned]
    exact ⟨feed.sent, rfl, by simpa [collect] using call_ok hcall⟩

/-- **The operation.** What it sends carries what the attempt that is repeated had sent, and then
the reply. -/
theorem operation_ok {turn : AssistantTurn} (h : (operation env).exec [] = (.ok turn, sent)) :
    Carries (collect textDelta? (abandoned env) ++ turn.text)
      (collect reasoningDelta? (abandoned env) ++ turn.reasoning.getD "") sent := by
  obtain ⟨_, _, hverifying, h⟩ := exec_bind_ok.mp h
  obtain ⟨_, _, hstatus, h⟩ := exec_bind_ok.mp h
  cases hestablish : env.establish with
  | error error =>
    rw [hestablish] at h
    exact absurd h secureStreamFailure_error
  | ok session =>
    rw [hestablish] at h
    obtain ⟨_, _, hannounce, h⟩ := exec_bind_ok.mp h
    obtain ⟨_, prepared, haccounting, h⟩ := exec_bind_ok.mp h
    obtain ⟨result, answered, hattempt, h⟩ := exec_bind_ok.mp h
    have hprepared : ∃ front, prepared = front ∧ front.length = 5 ∧
        (∀ e ∈ front, isVerification e = false) ∧ (∀ e ∈ front, isReply e = false) := by
      refine ⟨_, sendProviderEvent_ok haccounting, ?_⟩
      rw [announce_ok hannounce, sendProviderEvent_ok hstatus, sendProviderEvent_ok hverifying]
      simp [isVerification, isReply]
    obtain ⟨_, rfl, hfive, hquiet, hsilent⟩ := hprepared
    rcases hresponse : (SecureAxiomProvider.response env session).exec prepared with
      ⟨error | response, after⟩
    · rw [exec_attempt, hresponse] at hattempt
      cases hattempt
      exact absurd h secureStreamFailure_error
    · rw [exec_attempt, hresponse] at hattempt
      cases hattempt
      obtain ⟨_, _, hverified, h⟩ := exec_bind_ok.mp h
      cases h
      obtain ⟨reply, rfl, hreply⟩ := response_ok hestablish hfive hresponse
      rw [sendProviderEvent_ok hverified]
      have hcarries := (hreply.after _ hquiet (collect_silent textDelta?_silent hsilent)
        (collect_silent reasoningDelta?_silent hsilent)).before [.responseVerified]
        (by simp [isReply])
      simpa using hcarries

/-! ## The call -/

/-- What was forwarded is the reply that is returned, and nothing of it comes behind a
verification. -/
structure VerifiedOnly (turn : AssistantTurn) (forwarded : List ProviderEvent) : Prop where
  text : collect textDelta? forwarded = turn.text
  reasoning : collect reasoningDelta? forwarded = turn.reasoning.getD ""
  sealed : ∀ before after, forwarded = before ++ .responseVerified :: after →
    ∀ e ∈ after, isReply e = false

theorem append_eq_right {s t : String} : s ++ t = t ↔ s = "" := by
  constructor
  · intro h
    have hlength := congrArg String.length h
    rw [String.length_append] at hlength
    exact String.length_eq_zero_iff.mp (by omega)
  · rintro rfl
    exact String.empty_append

theorem settle_ok {record : RequestUsage} {result : Except ProviderError AssistantTurn}
    {turn : AssistantTurn} (h : (settle env record result).2 = .ok turn) : result = .ok turn := by
  cases result with
  | error error => cases h
  | ok turn' =>
    unfold settle at h
    dsimp only at h
    split at h
    · exact h
    · cases h

/-- What a successful call forwards: the first record, what the operation sends, the last record. -/
theorem streamed_ok {moves : List (Pipe.Move ProviderError)} {first last : Bool}
    {turn : AssistantTurn} (h : (streamed env moves first last).1 = some (.ok turn)) :
    ∃ sent record, (operation env).exec [] = (.ok turn, sent) ∧
      (streamed env moves first last).2 =
        .accounting (initialAccounting env) :: (sent ++ [.accounting record]) := by
  unfold streamed at h ⊢
  split at h
  · cases h
  · next hfirst =>
    rw [if_neg hfirst]
    have hpassed := (Pipe.passed CHANNEL_CAPACITY (updateRequestAccounting env)
      ((operation env).exec []).2 (initialAccounting env) moves).2
    dsimp only at h ⊢
    rcases hphase : (forwarding env moves).1.phase with _ | _ | _ | error <;> rw [hphase] at h
    · cases h
    · cases h
    · obtain ⟨hforwarded, -⟩ := hpassed hphase
      dsimp only at h ⊢
      split at h
      · next hlast =>
        rw [if_pos hlast]
        refine ⟨_, (settle env (forwarding env moves).1.state ((operation env).exec []).1).1,
          Prod.ext (settle_ok (Option.some.inj h)) rfl, ?_⟩
        have hforwarded : (forwarding env moves).2 = ((operation env).exec []).2 := hforwarded
        dsimp only
        rw [hforwarded]
        rfl
      · cases h
    · cases h

/-- **A verified reply** is all that a successful call forwards, exactly where the attempt that it
repeated had sent no text and no reasoning. -/
theorem forwarded_verified (env : StreamEnvironment) (moves : List (Pipe.Move ProviderError))
    (first last : Bool) (turn : AssistantTurn)
    (h : (streamed env moves first last).1 = some (.ok turn)) :
    VerifiedOnly turn (streamed env moves first last).2 ↔
      collect textDelta? (abandoned env) = "" ∧ collect reasoningDelta? (abandoned env) = "" := by
  obtain ⟨sent, record, hoperation, hforwarded⟩ := streamed_ok h
  have hcarries := ((operation_ok hoperation).before [.accounting record]
    (by simp [isReply])).after [.accounting (initialAccounting env)] (by simp [isVerification])
    (collect_silent textDelta?_silent (by simp [isReply]))
    (collect_silent reasoningDelta?_silent (by simp [isReply]))
  rw [String.empty_append, String.empty_append, List.singleton_append] at hcarries
  rw [hforwarded]
  constructor
  · intro hverified
    exact ⟨append_eq_right.mp (hcarries.text.symm.trans hverified.text),
      append_eq_right.mp (hcarries.reasoning.symm.trans hverified.reasoning)⟩
  · rintro ⟨htext, hreasoning⟩
    refine ⟨hcarries.text.trans (append_eq_right.mpr htext),
      hcarries.reasoning.trans (append_eq_right.mpr hreasoning), fun _ _ => hcarries.sealed⟩


/-! ## A reply after a key that changed -/

namespace Sample

/-- A ciphertext that its sender can make. -/
def ciphertext : CiphertextHex := ⟨String.ofList (List.replicate 144 'a'), by decide +kernel⟩

/-- A session over a stream. -/
def sessionOver (primitives : Primitives) (events : List RelayEvent) : Session where
  degraded := false
  evidence := .obj []
  providerId := "near"
  contextWindowTokens := 4096
  autoCompactThresholdTokens := 2048
  primitives := primitives
  expected := Reply.expected
  opened := .ok ⟨⟩
  events := events
  ending := .ok ⟨⟩

/-- The relay sends a delta before it says that the key has changed. -/
def changed : Session :=
  sessionOver { Reply.primitives with decryptHex := fun _ => .ok (Text.bytes "stale") }
    [.runCreated ⟨"r", INFERENCE_ENCRYPTION⟩,
      .delta { runId := "r", sequence := 1, encryptedDelta := some ciphertext },
      .failed ⟨"r", some "ATTESTATION_KEY_CHANGED"⟩]

/-- The relay sends a signed reply without a text. -/
def replied : Session := sessionOver Reply.primitives (Reply.events Reply.three)

def environment (first : Session) : StreamEnvironment where
  requestId := "0123456789abcdef0123456789abcdef"
  model := "model"
  startedAtMs := "0"
  finishedAtMs := "1"
  finishReasonText _ := "stop"
  formatRetryAt _ := none
  establish := .ok first
  reestablish := .ok replied
  invalidate := .ok ⟨⟩
  open_ _ := true
  cancelledOnFailure := false
  failureSent := true

/-- The operation sends a number of events, each of which is passed on at once. -/
def moves (events : Nat) : List (Pipe.Move ProviderError) :=
  (List.replicate events [.send, .receive (.ok ⟨⟩)]).flatten ++ [.returns, .empty]

end Sample

open Sample in
/-- A call that repeats nothing. -/
theorem forwarded_verified_once :
    VerifiedOnly {} (streamed (environment replied) (moves 10) true true).2 :=
  (forwarded_verified (environment replied) (moves 10) true true {} (by decide +kernel)).mpr
    ⟨by decide +kernel, by decide +kernel⟩

open Sample in
/-- A delta of the first attempt is forwarded, and the call returns the signed reply of the second,
which has no text. -/
theorem unverified_text_forwarded :
    (streamed (environment changed) (moves 16) true true).1 = some (.ok {}) ∧
      ¬ VerifiedOnly {} (streamed (environment changed) (moves 16) true true).2 := by
  have hstale : collect textDelta? (streamed (environment changed) (moves 16) true true).2 =
      "stale" := by decide +kernel
  refine ⟨by decide +kernel, fun h => ?_⟩
  exact absurd (hstale.symm.trans h.text) (by decide)

end SecureAxiomProvider

end AxiomDesktop
