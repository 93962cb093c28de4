import AxiomDesktop.SecureClient.Payloads

/-!
# Controls that a session drops

Two requests that ask for different things should not be sent as one, and a control that has no
place in what is sent should be refused. `keepsControls_iff` says for which requests the sessions do
this. They all drop the tool choice and the choice of parallel calls; the Chutes session checks no
control it cannot carry, and lowers an output limit above its own.
-/

namespace AxiomDesktop

open PoolProtocol (InlineImage)

/-! ## The sessions -/

namespace VerifiedSession

/-- The limit a session sets for a request that sets none. -/
def defaultOutputTokens : VerifiedSession → Nat
  | .chutes _ _ => Chutes.MAX_OUTPUT_TOKENS
  | .direct _ _ => Direct.MAX_OUTPUT_TOKENS
  | .pool model _ => min model.maxOutputTokens 4096

/-- A message has a field that the payloads have no place for. -/
def SetsMessageFields (r : InferenceRequest) : Prop :=
  ∃ m ∈ r.messages, m.name ≠ none ∨ m.refusal ≠ none ∨ m.reasoningContent ≠ none

/-- A request sets a control that the payload of the session has no place for. -/
def Uncarried (parallel : Bool) : VerifiedSession → InferenceRequest → Prop
  | .chutes _ _, r =>
    SetsToolControls parallel r ∨ r.thinkingMode = .disabled ∨ r.reasoningEffort ≠ .medium ∨
      r.maxOutputTokens.getD Chutes.MAX_OUTPUT_TOKENS > Chutes.MAX_OUTPUT_TOKENS ∨
      SetsMessageFields r ∨ ∃ m ∈ r.messages, m.files ≠ []
  | .direct _ _, r =>
    SetsToolControls parallel r ∨ r.reasoningEffort ≠ .medium ∨
      r.maxOutputTokens.getD Direct.MAX_OUTPUT_TOKENS > Direct.MAX_OUTPUT_TOKENS ∨
      SetsMessageFields r ∨ ∃ m ∈ r.messages, m.files ≠ []
  | .pool _ _, r =>
    SetsToolControls parallel r ∨ r.tools ≠ [] ∨ r.thinkingMode = .disabled ∨
      effort? r.reasoningEffort = none ∨ SetsMessageFields r ∨
      ∃ m ∈ r.messages, m.files ≠ [] ∨ m.images ≠ [] ∨ m.toolCalls ≠ [] ∨ m.toolCallId ≠ none

/-- A request sets a control that the session neither carries nor checks. -/
def SetsUnchecked (parallel : Bool) : VerifiedSession → InferenceRequest → Prop
  | .chutes _ _, r =>
    SetsToolControls parallel r ∨ r.thinkingMode = .disabled ∨ r.reasoningEffort ≠ .medium ∨
      r.maxOutputTokens.getD Chutes.MAX_OUTPUT_TOKENS > Chutes.MAX_OUTPUT_TOKENS ∨
      SetsMessageFields r
  | .direct _ _, r => SetsToolControls parallel r ∨ ∃ m ∈ r.messages, m.name ≠ none
  | .pool _ _, r => SetsToolControls parallel r

section
variable (upload : String → String → Option InlineImage)

/-- The requests the session accepts. -/
def Accepted : VerifiedSession → Invocation → Prop
  | .chutes model _, i => Chutes.Accepted model i
  | .direct model policy, i => Direct.Accepted upload model policy i
  | .pool model policy, i => Pool.Accepted model policy i

/-- What is sent has the same of two requests. -/
def SameCarried : VerifiedSession → Invocation → Invocation → Prop
  | .chutes _ hosted, i, i' => Chutes.SameCarried hosted i i'
  | .direct _ _, i, i' => Direct.SameCarried upload i i'
  | .pool model _, i, i' => Pool.SameCarried model i i'

/-- What is not sent is the same of two requests. -/
def SameDropped (parallel : Bool) : VerifiedSession → InferenceRequest → InferenceRequest → Prop
  | .chutes _ _, r, r' => Chutes.SameDropped parallel r r'
  | .direct _ _, r, r' => Direct.SameDropped parallel r r'
  | .pool _ _, r, r' => SameToolControls parallel r r'

/-- No control is dropped silently: two requests that are sent as one ask for the same, and a
request with a control the payload has no place for is not sent. -/
structure KeepsControls (s : VerifiedSession) (parallel : Bool) (i i' : Invocation) : Prop where
  apart : ∀ d, s.dispatch upload i.moment i.request = .ok d →
    s.dispatch upload i'.moment i'.request = .ok d →
    SameControls s.defaultOutputTokens parallel i.request i'.request
  refused : s.Uncarried parallel i.request →
    ∀ d, s.dispatch upload i.moment i.request ≠ .ok d

/-- The requests that a session keeps apart: among those it accepts, the controls it does not send
are the same, and none of those it does not check is set. -/
structure ControlsChecked (s : VerifiedSession) (parallel : Bool) (i i' : Invocation) : Prop where
  dropped : s.Accepted upload i → s.Accepted upload i' → s.SameCarried upload i i' →
    s.SameDropped parallel i.request i'.request
  unchecked : s.Accepted upload i → ¬ s.SetsUnchecked parallel i.request

variable {upload}

/-- A session sends exactly the requests it accepts. -/
theorem dispatch_isOk {s : VerifiedSession} {i : Invocation} :
    (∃ d, s.dispatch upload i.moment i.request = .ok d) ↔ s.Accepted upload i := by
  cases s with
  | chutes model hosted => simp [dispatch, Accepted, Chutes.dispatch_ok]
  | direct model policy => simp [dispatch, Accepted, Direct.dispatch_ok]
  | pool model policy => simp [dispatch, Accepted, Pool.dispatch_ok]

/-- Two requests are sent as one where the session accepts both and sends the same of both. -/
theorem dispatch_same {s : VerifiedSession} {i i' : Invocation} :
    (∃ d, s.dispatch upload i.moment i.request = .ok d ∧
        s.dispatch upload i'.moment i'.request = .ok d) ↔
      s.Accepted upload i ∧ s.Accepted upload i' ∧ s.SameCarried upload i i' := by
  cases s with
  | chutes model hosted =>
    simp only [dispatch, Accepted, SameCarried, Chutes.dispatch_ok]
    constructor
    · rintro ⟨d, ⟨h, rfl⟩, h', hd⟩
      exact ⟨h, h', (Chutes.payload_eq h h').mp (Dispatched.command.inj hd)⟩
    · rintro ⟨h, h', hsame⟩
      exact ⟨_, ⟨h, rfl⟩, h', by rw [(Chutes.payload_eq h h').mpr hsame]⟩
  | direct model policy =>
    simp only [dispatch, Accepted, SameCarried, Direct.dispatch_ok]
    constructor
    · rintro ⟨d, ⟨h, rfl⟩, h', hd⟩
      exact ⟨h, h', Direct.sent_eq.mp (Dispatched.input.inj hd)⟩
    · rintro ⟨h, h', hsame⟩
      obtain ⟨hinput, hlimits⟩ := Direct.sent_eq.mpr hsame
      exact ⟨_, ⟨h, rfl⟩, h', by rw [hinput, hlimits]⟩
  | pool model policy =>
    simp only [dispatch, Accepted, SameCarried, Pool.dispatch_ok]
    constructor
    · rintro ⟨d, ⟨h, rfl⟩, h', hd⟩
      exact ⟨h, h', (Pool.sent_eq h h').mp (Dispatched.input.inj hd)⟩
    · rintro ⟨h, h', hsame⟩
      obtain ⟨hinput, hlimits⟩ := (Pool.sent_eq h h').mpr hsame
      exact ⟨_, ⟨h, rfl⟩, h', by rw [hinput, hlimits]⟩

/-- Accepted requests that are sent as one ask for the same where what is not sent agrees. -/
theorem sameControls_iff {s : VerifiedSession} {parallel : Bool} {i i' : Invocation}
    (h : s.Accepted upload i) (h' : s.Accepted upload i') (hsame : s.SameCarried upload i i') :
    SameControls s.defaultOutputTokens parallel i.request i'.request ↔
      s.SameDropped parallel i.request i'.request := by
  cases s with
  | chutes model hosted => exact Chutes.sameControls_iff h h' hsame
  | direct model policy => exact Direct.sameControls_iff h h' hsame
  | pool model policy => exact Pool.sameControls_iff h h' hsame

/-- Of the controls a payload has no place for, an accepted request sets those that are not
checked. -/
theorem uncarried_iff {s : VerifiedSession} {parallel : Bool} {i : Invocation}
    (h : s.Accepted upload i) :
    s.Uncarried parallel i.request ↔ s.SetsUnchecked parallel i.request := by
  cases s with
  | chutes model hosted =>
    have hfiles : ¬ ∃ m ∈ i.request.messages, m.files ≠ [] := by
      rintro ⟨m, hm, hne⟩
      exact hne (h.messages.files m hm)
    simp only [Uncarried, SetsUnchecked, hfiles, or_false]
  | direct model policy =>
    have hfiles : ¬ ∃ m ∈ i.request.messages, m.files ≠ [] := by
      rintro ⟨m, hm, hne⟩
      exact hne (Direct.unsupported_false (h.messages.supported m hm)).1
    have hfields : SetsMessageFields i.request ↔ ∃ m ∈ i.request.messages, m.name ≠ none := by
      refine exists_congr fun m => and_congr_right fun hm => ?_
      obtain ⟨-, hrefusal, hreasoning⟩ := Direct.unsupported_false (h.messages.supported m hm)
      simp [hrefusal, hreasoning]
    have htokens := Nat.not_lt.mpr h.outputTokens
    simp only [Uncarried, SetsUnchecked, hfiles, hfields, h.reasoningEffort, htokens, ne_eq,
      not_true_eq_false, false_or, or_false]
  | pool model policy =>
    have hfields : ¬ SetsMessageFields i.request := by
      rintro ⟨m, hm, hset⟩
      rw [Pool.unsupported_false (h.messages m hm)] at hset
      simp at hset
    have hmessages : ¬ ∃ m ∈ i.request.messages,
        m.files ≠ [] ∨ m.images ≠ [] ∨ m.toolCalls ≠ [] ∨ m.toolCallId ≠ none := by
      rintro ⟨m, hm, hset⟩
      rw [Pool.unsupported_false (h.messages m hm)] at hset
      simp at hset
    have heffort : effort? i.request.reasoningEffort ≠ none :=
      Option.isSome_iff_ne_none.mp h.reasoningEffort
    simp only [Uncarried, SetsUnchecked, hfields, hmessages, heffort, h.tools, h.thinkingMode,
      ne_eq, not_true_eq_false, or_false]

/-- **The sessions keep the controls** of the requests in which the controls they neither send nor
check are left at their defaults, and of no others. -/
theorem keepsControls_iff (upload : String → String → Option InlineImage) (s : VerifiedSession)
    (parallel : Bool) (i i' : Invocation) :
    s.KeepsControls upload parallel i i' ↔ s.ControlsChecked upload parallel i i' := by
  constructor
  · rintro ⟨hapart, hrefused⟩
    constructor
    · intro h h' hsame
      obtain ⟨d, hd, hd'⟩ := dispatch_same.mpr ⟨h, h', hsame⟩
      exact (sameControls_iff h h' hsame).mp (hapart d hd hd')
    · intro h hset
      obtain ⟨d, hd⟩ := dispatch_isOk.mpr h
      exact hrefused ((uncarried_iff h).mpr hset) d hd
  · rintro ⟨hdropped, hunchecked⟩
    constructor
    · intro d hd hd'
      obtain ⟨h, h', hsame⟩ := dispatch_same.mp ⟨d, hd, hd'⟩
      exact (sameControls_iff h h' hsame).mpr (hdropped h h' hsame)
    · intro hset d hd
      have h := dispatch_isOk.mp ⟨d, hd⟩
      exact hunchecked h ((uncarried_iff h).mp hset)

end

/-! ## A tool that must be called -/

def readTool : ToolDefinition where
  kind := "function"
  function :=
    { name := "read"
      description := "Read a file"
      parameters := .obj [("type", .str "object")] }

/-- A request with a tool, where the model may choose to call it. -/
def mayCall : Invocation where
  moment := { checkedAt := 0, sentAt := 0, drawn := [] }
  request :=
    { model := "chutes/glm"
      requestId := some "0123456789abcdef0123456789abcdef"
      messages := [{ role := .user, content := "What does the file say?" }]
      tools := [readTool] }

/-- The request where the model has to call the tool. -/
def mustCall : Invocation where
  moment := mayCall.moment
  request := { mayCall.request with toolChoice := .required }

def chutesSession : VerifiedSession :=
  .chutes { id := "chutes/glm", contextWindowTokens := 32768, maxOutputTokens := 4096 } true

/-- The Chutes session sends both requests, as one command. -/
theorem tool_choice_dropped :
    ¬ ∀ (upload : String → String → Option InlineImage) (s : VerifiedSession) (parallel : Bool)
      (i i' : Invocation), s.KeepsControls upload parallel i i' := by
  intro h
  obtain ⟨hapart, -⟩ := h (fun _ _ => none) chutesSession false mayCall mustCall
  obtain ⟨d, hd⟩ : ∃ d, chutesSession.dispatch (fun _ _ => none) mayCall.moment mayCall.request =
      .ok d ∧ chutesSession.dispatch (fun _ _ => none) mustCall.moment mustCall.request = .ok d :=
    ⟨_, rfl, rfl⟩
  have hchoice := (hapart d hd.1 hd.2).toolChoice
  cases hchoice

end VerifiedSession

end AxiomDesktop
