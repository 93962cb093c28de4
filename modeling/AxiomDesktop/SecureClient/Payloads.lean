import AxiomDesktop.SecureClient.Dispatch

/-!
# What is sent of a request

The Chutes, direct and pool sessions send exactly the requests they accept (`Chutes.dispatch_ok`,
`Direct.dispatch_ok`, `Pool.dispatch_ok`), and what they send names a part of the request
(`Chutes.payload_eq`, `Direct.sent_eq`, `Pool.sent_eq`). Two accepted requests with the same part
ask for the same where the rest of them agrees (`sameControls_iff` of each session).
-/

namespace AxiomDesktop

open Fallible (result_bind_eq_ok)
open PoolProtocol (InlineImage Message Input Limits)

/-! ## What is serialized -/

theorem Json.ofNat_injective {m n : Nat} (h : Json.ofNat m = Json.ofNat n) : m = n := by
  have hdigits : m.repr.toList = n.repr.toList := congrArg String.toList (Json.num.inj h)
  rw [Nat.toList_repr, Nat.toList_repr] at hdigits
  rw [← Nat.ofDigitChars_ten_toDigits (n := m), hdigits, Nat.ofDigitChars_ten_toDigits]

/-- Two texts with a separator that their first parts do not have. -/
theorem append_separator_inj {c : Char} {as bs xs ys : List Char} (ha : c ∉ as) (hb : c ∉ bs)
    (h : as ++ c :: xs = bs ++ c :: ys) : as = bs ∧ xs = ys := by
  induction as generalizing bs with
  | nil =>
    cases bs with
    | nil =>
      cases h
      exact ⟨rfl, rfl⟩
    | cons b bs =>
      cases h
      simp at hb
  | cons a as ih =>
    cases bs with
    | nil =>
      cases h
      simp at ha
    | cons b bs =>
      simp only [List.cons_append, List.cons.injEq] at h
      obtain ⟨rfl, h⟩ := h
      simp only [List.mem_cons, not_or] at ha hb
      obtain ⟨rfl, rfl⟩ := ih ha.2 hb.2 h
      exact ⟨rfl, rfl⟩

/-- The type of an image that passes its check has no `;`. -/
theorem ImageContent.validate_mimeType {i : ImageContent} (h : i.validate = .ok ()) :
    ';' ∉ i.mimeType.toList := by
  have hmatch : ∃ bytes, matchesType i.mimeType bytes = true := by
    unfold validate validateBounded at h
    split at h
    · cases h
    · split at h
      · cases h
      · next bytes _ =>
        split at h
        · cases h
        · next hok =>
          rw [Bool.not_eq_true, Bool.or_eq_false_iff, Bool.not_eq_false'] at hok
          exact ⟨bytes, hok.2⟩
  obtain ⟨bytes, hmatch⟩ := hmatch
  unfold matchesType at hmatch
  split at hmatch
  · next h => rw [h]; decide
  · split at hmatch
    · next h => rw [h]; decide
    · split at hmatch
      · next h => rw [h]; decide
      · split at hmatch
        · next h => rw [h]; decide
        · cases hmatch

/-- A data URL names its image. -/
theorem ImageContent.dataUrl_injective {i j : ImageContent} (hi : i.validate = .ok ())
    (hj : j.validate = .ok ()) (h : i.dataUrl = j.dataUrl) : i = j := by
  have hseparator : ";base64,".toList = ';' :: "base64,".toList := rfl
  have hchars := congrArg String.toList h
  simp only [dataUrl, String.toList_append, List.append_assoc, hseparator, List.cons_append,
    List.append_cancel_left_eq] at hchars
  obtain ⟨hmime, hdata⟩ := append_separator_inj (validate_mimeType hi) (validate_mimeType hj) hchars
  rcases i with ⟨mimeType, data⟩
  rcases j with ⟨mimeType', data'⟩
  rw [ImageContent.mk.injEq]
  exact ⟨String.toList_inj.mp hmime, String.toList_inj.mp (List.append_cancel_left hdata)⟩

/-! ## Lists that agree in what a function reads -/

/-- Where one function of two lists agrees, so does another that reads no more of an element. -/
theorem map_eq_of_map_eq {α β γ : Type} {P : α → Prop} {f : α → β} {g : α → γ}
    (hfg : ∀ a b, P a → P b → f a = f b → g a = g b) {as bs : List α} (has : ∀ a ∈ as, P a)
    (hbs : ∀ b ∈ bs, P b) (h : as.map f = bs.map f) : as.map g = bs.map g := by
  induction as generalizing bs with
  | nil =>
    rw [List.map_nil, List.nil_eq, List.map_eq_nil_iff] at h
    rw [h]
  | cons a as ih =>
    cases bs with
    | nil => cases h
    | cons b bs =>
      rw [List.forall_mem_cons] at has hbs
      simp only [List.map_cons, List.cons.injEq] at h ⊢
      exact ⟨hfg a b has.1 hbs.1 h.1, ih has.2 hbs.2 h.2⟩

/-- Two lists are the same where a function that is injective on their elements agrees. -/
theorem eq_of_map_eq {α β : Type} {P : α → Prop} {f : α → β}
    (hf : ∀ a b, P a → P b → f a = f b → a = b) {as bs : List α} (has : ∀ a ∈ as, P a)
    (hbs : ∀ b ∈ bs, P b) (h : as.map f = bs.map f) : as = bs := by
  simpa using map_eq_of_map_eq (g := id) hf has hbs h

theorem map_pair_eq {α β γ : Type} {f : α → β} {g : α → γ} {as bs : List α}
    (hf : as.map f = bs.map f) (hg : as.map g = bs.map g) :
    as.map (fun a => (f a, g a)) = bs.map fun a => (f a, g a) := by
  induction as generalizing bs with
  | nil =>
    rw [List.map_nil, List.nil_eq, List.map_eq_nil_iff] at hf
    rw [hf]
  | cons a as ih =>
    cases bs with
    | nil => cases hf
    | cons b bs =>
      simp only [List.map_cons, List.cons.injEq] at hf hg ⊢
      exact ⟨by rw [hf.1, hg.1], ih hf.2 hg.2⟩

/-! ## What a session should keep apart -/

/-- One run of a session: what it reads besides its request, and the request. -/
structure Invocation where
  moment : Moment
  request : InferenceRequest

/-- Two values of a control where an absent one stands for its default. -/
def Coincide {α : Type} (default : α) (a b : Option α) : Prop := a.getD default = b.getD default

/-- Two requests ask for the same, with the defaults of the output limit and of parallel calls.
The provider's default of thinking is to think. -/
structure SameControls (outputTokens : Nat) (parallel : Bool) (r r' : InferenceRequest) :
    Prop where
  messages : r.messages = r'.messages
  tools : r.tools = r'.tools
  toolChoice : r.toolChoice = r'.toolChoice
  parallelToolCalls : Coincide parallel r.parallelToolCalls r'.parallelToolCalls
  thinkingMode : r.thinkingMode = .disabled ↔ r'.thinkingMode = .disabled
  reasoningEffort : r.reasoningEffort = r'.reasoningEffort
  maxOutputTokens : Coincide outputTokens r.maxOutputTokens r'.maxOutputTokens

/-- The tool controls a request sets, which none of the sessions carries. -/
def SetsToolControls (parallel : Bool) (r : InferenceRequest) : Prop :=
  r.toolChoice ≠ .auto ∨ ¬ Coincide parallel r.parallelToolCalls none

/-- Two requests have the same tool controls. -/
def SameToolControls (parallel : Bool) (r r' : InferenceRequest) : Prop :=
  r.toolChoice = r'.toolChoice ∧ Coincide parallel r.parallelToolCalls r'.parallelToolCalls

/-! ## The Chutes session -/

namespace Chutes

/-- The messages a Chutes session accepts. -/
structure AcceptedMessages (ms : List ChatMessage) : Prop where
  files : ∀ m ∈ ms, m.files = []
  role : ∀ m ∈ ms, m.images ≠ [] → m.role = .user
  images : ∀ m ∈ ms, ∀ image ∈ m.images, image.validate = .ok ()

/-- The images of the messages. -/
def imageCount (ms : List ChatMessage) : Nat := (ms.map (·.images.length)).sum

theorem acceptedMessages_cons {m : ChatMessage} {ms : List ChatMessage} :
    AcceptedMessages (m :: ms) ↔
      (m.files = [] ∧ (m.images ≠ [] → m.role = .user) ∧
        ∀ image ∈ m.images, image.validate = .ok ()) ∧ AcceptedMessages ms := by
  constructor
  · intro h
    exact ⟨⟨h.files m List.mem_cons_self, h.role m List.mem_cons_self,
      h.images m List.mem_cons_self⟩, fun n hn => h.files n (List.mem_cons_of_mem m hn),
      fun n hn => h.role n (List.mem_cons_of_mem m hn),
      fun n hn => h.images n (List.mem_cons_of_mem m hn)⟩
  · rintro ⟨⟨hfiles, hrole, himages⟩, h⟩
    exact ⟨List.forall_mem_cons.mpr ⟨hfiles, h.files⟩, List.forall_mem_cons.mpr ⟨hrole, h.role⟩,
      List.forall_mem_cons.mpr ⟨himages, h.images⟩⟩

/-- The loop succeeds for the messages the session accepts, while their images are at most ten. -/
theorem messages_ok {n : Nat} {ms : List ChatMessage} {js : List Json} (hn : n ≤ MAX_IMAGES) :
    messages n ms = .ok js ↔
      AcceptedMessages ms ∧ n + imageCount ms ≤ MAX_IMAGES ∧ js = ms.map serialized := by
  induction ms generalizing n js with
  | nil =>
    have hnil : AcceptedMessages [] := ⟨nofun, nofun, nofun⟩
    simp only [messages, imageCount, List.map_nil, List.sum_nil, Nat.add_zero, hn, hnil, true_and]
    exact ⟨fun h => by cases h; rfl, fun h => by rw [h]; rfl⟩
  | cons m ms ih =>
    rw [messages, refuseIf_bind_ok, refuseIf_bind_ok, refuseIf_bind_ok, result_bind_eq_ok,
      acceptedMessages_cons]
    simp only [imageCount, List.map_cons, List.sum_cons, not_not, not_and, not_or, not_exists,
      Nat.not_lt]
    constructor
    · rintro ⟨hfiles, himages, hvalid, others, hothers, h⟩
      cases h
      have hcount : n + m.images.length ≤ MAX_IMAGES := by
        by_cases hnil : m.images = []
        · simpa [hnil] using hn
        · exact (himages hnil).2
      obtain ⟨haccepted, hle, rfl⟩ := (ih hcount).mp hothers
      exact ⟨⟨⟨hfiles, fun hne => (himages hne).1, hvalid⟩, haccepted⟩,
        by rw [← Nat.add_assoc]; exact hle, rfl⟩
    · rintro ⟨⟨⟨hfiles, hrole, hvalid⟩, haccepted⟩, hle, rfl⟩
      have hcount : n + m.images.length ≤ MAX_IMAGES := by omega
      refine ⟨hfiles, fun hne => ⟨hrole hne, hcount⟩, hvalid, ms.map serialized, ?_, rfl⟩
      exact (ih hcount).mpr ⟨haccepted, by rw [Nat.add_assoc]; exact hle, rfl⟩

/-- The fields of a message that a command has. -/
def carried (m : ChatMessage) : ChatRole × String × List ImageContent × List ToolCall ×
    Option String :=
  (m.role, m.content, m.images, m.toolCalls, m.toolCallId)

/-- The fields of a message that a command leaves out. -/
def dropped (m : ChatMessage) : Option String × Option String × Option String :=
  (m.name, m.refusal, m.reasoningContent)

theorem imageBlock_injective {i j : ImageContent} (hi : i.validate = .ok ())
    (hj : j.validate = .ok ()) (h : imageBlock i = imageBlock j) : i = j := by
  simp only [imageBlock, Json.obj.injEq, List.cons.injEq, Prod.mk.injEq, Json.str.injEq, true_and,
    and_true] at h
  exact ImageContent.dataUrl_injective hi hj h

theorem content_injective {m m' : ChatMessage} (hm : ∀ image ∈ m.images, image.validate = .ok ())
    (hm' : ∀ image ∈ m'.images, image.validate = .ok ()) (h : content m = content m') :
    m.content = m'.content ∧ m.images = m'.images := by
  unfold content at h
  split at h <;> split at h
  · next hnil hnil' => exact ⟨Json.str.inj h, by rw [hnil, hnil']⟩
  · cases h
  · cases h
  · simp only [Json.arr.injEq, List.cons.injEq, Json.obj.injEq, Prod.mk.injEq, Json.str.injEq,
      true_and, and_true] at h
    exact ⟨h.1, eq_of_map_eq (fun _ _ => imageBlock_injective) hm hm' h.2⟩

/-- The JSON of tool calls names them. -/
theorem toolCalls_injective {cs ds : List ToolCall}
    (h : cs.map ToolCall.toJson = ds.map ToolCall.toJson) : cs = ds :=
  (List.map_inj_right fun _ _ => ToolCall.toJson_injective).mp h

/-- The JSON of a message names the fields it has. -/
theorem serialized_injective {m m' : ChatMessage}
    (hm : ∀ image ∈ m.images, image.validate = .ok ())
    (hm' : ∀ image ∈ m'.images, image.validate = .ok ()) (h : serialized m = serialized m') :
    carried m = carried m' := by
  have hfields : m.role.asStr = m'.role.asStr ∧ content m = content m' ∧
      m.toolCalls = m'.toolCalls ∧ m.toolCallId = m'.toolCallId := by
    unfold serialized at h
    split at h <;> split at h <;> rcases hid : m.toolCallId with _ | id <;>
      rcases hid' : m'.toolCallId with _ | id' <;> simp_all
    all_goals exact toolCalls_injective (by tauto)
  obtain ⟨hrole, hcontent, hcalls, hid⟩ := hfields
  obtain ⟨htext, himages⟩ := content_injective hm hm' hcontent
  simp [carried, ChatRole.asStr_injective hrole, htext, himages, hcalls, hid]

/-- The requests a Chutes session accepts. -/
structure Accepted (model : ModelInfo) (i : Invocation) : Prop where
  modelId : i.request.model = model.id
  responseFormat : i.request.responseFormat = .text
  sampling : i.request.sampling.isDefault = true
  requestId : isLowerHex 32 (requestId i.moment i.request) = true
  messages : AcceptedMessages i.request.messages
  imageCount : imageCount i.request.messages ≤ MAX_IMAGES

/-- What the command has of a request. -/
structure SameCarried (hosted : Bool) (i i' : Invocation) : Prop where
  messages : i.request.messages.map carried = i'.request.messages.map carried
  tools : i.request.tools = i'.request.tools
  outputTokens : min (i.request.maxOutputTokens.getD MAX_OUTPUT_TOKENS) MAX_OUTPUT_TOKENS =
    min (i'.request.maxOutputTokens.getD MAX_OUTPUT_TOKENS) MAX_OUTPUT_TOKENS
  requestId : hosted = true → requestId i.moment i.request = requestId i'.moment i'.request

/-- The controls of two requests that the command leaves out, or lowers, agree. -/
structure SameDropped (parallel : Bool) (r r' : InferenceRequest) : Prop where
  messages : r.messages.map dropped = r'.messages.map dropped
  toolControls : SameToolControls parallel r r'
  thinkingMode : r.thinkingMode = .disabled ↔ r'.thinkingMode = .disabled
  reasoningEffort : r.reasoningEffort = r'.reasoningEffort
  maxOutputTokens : Coincide MAX_OUTPUT_TOKENS r.maxOutputTokens r'.maxOutputTokens

/-- The command of an accepted request. -/
def payload (hosted : Bool) (i : Invocation) : Json :=
  command hosted (requestId i.moment i.request) (i.request.messages.map serialized) i.request

/-- A Chutes session sends exactly the requests it accepts. -/
theorem dispatch_ok {model : ModelInfo} {hosted : Bool} {i : Invocation} {d : Dispatched} :
    dispatch model hosted i.moment i.request = .ok d ↔
      Accepted model i ∧ d = .command (payload hosted i) := by
  rw [dispatch, refuseIf_bind_ok, refuseIf_bind_ok, result_bind_eq_ok]
  simp only [not_or, not_not, ne_eq, Bool.not_eq_false]
  constructor
  · rintro ⟨⟨hmodel, hformat, hsampling⟩, hid, js, hjs, h⟩
    obtain ⟨haccepted, hcount, rfl⟩ := (messages_ok (Nat.zero_le _)).mp hjs
    cases h
    rw [Nat.zero_add] at hcount
    exact ⟨⟨hmodel, hformat, hsampling, hid, haccepted, hcount⟩, rfl⟩
  · rintro ⟨h, rfl⟩
    refine ⟨⟨h.modelId, h.responseFormat, h.sampling⟩, h.requestId, _, ?_, rfl⟩
    exact (messages_ok (Nat.zero_le _)).mpr ⟨h.messages, by rw [Nat.zero_add]; exact h.imageCount, rfl⟩

theorem messages_injective {ms ms' : List ChatMessage} (h : AcceptedMessages ms)
    (h' : AcceptedMessages ms') (heq : ms.map serialized = ms'.map serialized) :
    ms.map carried = ms'.map carried :=
  map_eq_of_map_eq (fun _ _ => serialized_injective) h.images h'.images heq

theorem serialized_of_carried {m m' : ChatMessage} (h : carried m = carried m') :
    serialized m = serialized m' := by
  simp only [carried, Prod.mk.injEq] at h
  obtain ⟨hrole, hcontent, himages, hcalls, hid⟩ := h
  simp only [serialized, content, hrole, hcontent, himages, hcalls, hid]

theorem messages_of_carried {ms ms' : List ChatMessage} (h : ms.map carried = ms'.map carried) :
    ms.map serialized = ms'.map serialized :=
  map_eq_of_map_eq (P := fun _ => True) (fun _ _ _ _ => serialized_of_carried) (fun _ _ => trivial)
    (fun _ _ => trivial) h

theorem tools_injective {ts ts' : List ToolDefinition}
    (h : ts.map ToolDefinition.toJson = ts'.map ToolDefinition.toJson) : ts = ts' :=
  (List.map_inj_right fun _ _ => ToolDefinition.toJson_injective).mp h

/-- Two commands are the same where all that a command has of a request is the same. -/
theorem payload_eq {model : ModelInfo} {hosted : Bool} {i i' : Invocation}
    (h : Accepted model i) (h' : Accepted model i') :
    payload hosted i = payload hosted i' ↔ SameCarried hosted i i' := by
  constructor
  · intro heq
    have hfields : i.request.messages.map serialized = i'.request.messages.map serialized ∧
        Json.ofNat (min (i.request.maxOutputTokens.getD MAX_OUTPUT_TOKENS) MAX_OUTPUT_TOKENS) =
          Json.ofNat (min (i'.request.maxOutputTokens.getD MAX_OUTPUT_TOKENS) MAX_OUTPUT_TOKENS) ∧
        i.request.tools = i'.request.tools ∧
        (hosted = true → requestId i.moment i.request = requestId i'.moment i'.request) := by
      unfold payload command at heq
      by_cases ht : i.request.tools = [] <;> by_cases ht' : i'.request.tools = [] <;>
        rcases hosted with _ | _ <;> simp [ht, ht'] at heq ⊢
      · exact heq
      · exact heq
      · exact ⟨heq.1, heq.2.1, tools_injective heq.2.2⟩
      · exact ⟨heq.1, heq.2.1, tools_injective heq.2.2.1, heq.2.2.2⟩
    obtain ⟨hmessages, htokens, htools, hid⟩ := hfields
    exact ⟨messages_injective h.messages h'.messages hmessages, htools,
      Json.ofNat_injective htokens, hid⟩
  · rintro ⟨hmessages, htools, htokens, hid⟩
    unfold payload command
    rw [messages_of_carried hmessages, htools, htokens]
    rcases hosted with _ | _
    · rfl
    · rw [hid rfl]

theorem messages_eq {ms ms' : List ChatMessage} (h : AcceptedMessages ms)
    (h' : AcceptedMessages ms') (hcarried : ms.map carried = ms'.map carried)
    (hdropped : ms.map dropped = ms'.map dropped) : ms = ms' := by
  refine eq_of_map_eq (fun m m' hm hm' heq => ?_) h.files h'.files (map_pair_eq hcarried hdropped)
  rcases m with ⟨⟩
  rcases m' with ⟨⟩
  simp_all [carried, dropped]

/-- Accepted requests with one command ask for the same where the controls it drops agree. -/
theorem sameControls_iff {model : ModelInfo} {hosted parallel : Bool} {i i' : Invocation}
    (h : Accepted model i) (h' : Accepted model i') (hsame : SameCarried hosted i i') :
    SameControls MAX_OUTPUT_TOKENS parallel i.request i'.request ↔
      SameDropped parallel i.request i'.request := by
  constructor
  · intro hc
    exact ⟨by rw [hc.messages], ⟨hc.toolChoice, hc.parallelToolCalls⟩, hc.thinkingMode,
      hc.reasoningEffort, hc.maxOutputTokens⟩
  · intro hd
    exact ⟨messages_eq h.messages h'.messages hsame.messages hd.messages, hsame.tools,
      hd.toolControls.1, hd.toolControls.2, hd.thinkingMode, hd.reasoningEffort,
      hd.maxOutputTokens⟩

end Chutes

/-! ## The direct session -/

namespace Direct

section
variable (upload : String → String → Option InlineImage)

/-- The normalized images of a message. -/
def normalized (m : ChatMessage) : List InlineImage :=
  m.images.filterMap fun image => upload image.mimeType image.data

/-- The images of the messages. -/
def imageCount (ms : List ChatMessage) : Nat := (ms.map fun m => (normalized upload m).length).sum

/-- The pixels of the images of the messages. -/
def inputPixels (ms : List ChatMessage) : Nat :=
  (ms.map fun m => ((normalized upload m).map InlineImage.pixels).sum).sum

/-- The messages a direct session accepts. -/
structure AcceptedMessages (model : ModelInfo) (ms : List ChatMessage) : Prop where
  supported : ∀ m ∈ ms, unsupported model m = false
  images : ∀ m ∈ ms, ∀ image ∈ m.images, (upload image.mimeType image.data).isSome

/-- The requests a direct session accepts. -/
structure Accepted (model : ModelInfo) (policy : TrustPolicy) (i : Invocation) : Prop where
  validate : i.request.validate = .ok ()
  modelId : i.request.model = model.id
  policy : policy.isValidAt i.moment.checkedAt = true
  tools : i.request.tools ≠ [] → model.supportsTools = true
  thinkingMode : i.request.thinkingMode ∈ model.supportedThinkingModes
  sampling : i.request.sampling.isDefault = true
  responseFormat : i.request.responseFormat = .text
  reasoningEffort : i.request.reasoningEffort = .medium
  messages : AcceptedMessages upload model i.request.messages
  imageCount : imageCount upload i.request.messages ≤ PoolProtocol.MAX_IMAGES
  inputPixels : inputPixels upload i.request.messages < 2 ^ 64
  outputTokens : i.request.maxOutputTokens.getD MAX_OUTPUT_TOKENS ≤ MAX_OUTPUT_TOKENS

/-- The fields of a message that an input has. -/
def carried (m : ChatMessage) : ChatRole × String × List InlineImage × List ToolCall ×
    Option String :=
  (m.role, m.content, normalized upload m, m.toolCalls, m.toolCallId)

/-- What the input and the limits have of a request. -/
structure SameCarried (i i' : Invocation) : Prop where
  messages : i.request.messages.map (carried upload) = i'.request.messages.map (carried upload)
  tools : i.request.tools = i'.request.tools
  thinkingMode : i.request.thinkingMode = .disabled ↔ i'.request.thinkingMode = .disabled
  maxOutputTokens :
    Coincide MAX_OUTPUT_TOKENS i.request.maxOutputTokens i'.request.maxOutputTokens
  sentAt : i.moment.sentAt = i'.moment.sentAt

/-- The controls of two requests that the input leaves out agree. The images agree where the
requests have the same before they are normalized. -/
structure SameDropped (parallel : Bool) (r r' : InferenceRequest) : Prop where
  names : r.messages.map (·.name) = r'.messages.map (·.name)
  images : r.messages.map (·.images) = r'.messages.map (·.images)
  toolControls : SameToolControls parallel r r'

/-- The input of an accepted request. -/
def input (r : InferenceRequest) : Input where
  messages := r.messages.map fun m => message m (normalized upload m)
  maxTokens := r.maxOutputTokens.getD MAX_OUTPUT_TOKENS
  reasoningEffort := if r.thinkingMode = .disabled then "none" else "medium"
  tools := r.tools.map ToolDefinition.toJson

/-- The limits of an accepted request. -/
def limits (i : Invocation) : Limits where
  contextTokens := 32768
  outputTokens := i.request.maxOutputTokens.getD MAX_OUTPUT_TOKENS
  inputBytes := PoolProtocol.MAX_REQUEST
  outputBytes := 32 * 1024 * 1024
  inputImagePixels := inputPixels upload i.request.messages
  deadline := i.moment.sentAt + 180

variable {upload}

theorem uploads_ok {is : List ImageContent} {js : List InlineImage} :
    uploads upload is = .ok js ↔
      (∀ image ∈ is, (upload image.mimeType image.data).isSome) ∧
        js = is.filterMap fun image => upload image.mimeType image.data := by
  induction is generalizing js with
  | nil =>
    simp only [uploads, List.not_mem_nil, false_implies, implies_true, true_and,
      List.filterMap_nil]
    exact ⟨fun h => by cases h; rfl, fun h => by rw [h]; rfl⟩
  | cons i is ih =>
    rw [uploads, List.forall_mem_cons]
    rcases hi : upload i.mimeType i.data with _ | inline
    · simp
    · simp only [result_bind_eq_ok, ih, List.filterMap_cons, hi, Option.isSome_some, true_and]
      constructor
      · rintro ⟨others, ⟨hall, rfl⟩, h⟩
        cases h
        exact ⟨hall, rfl⟩
      · rintro ⟨hall, rfl⟩
        exact ⟨_, ⟨hall, rfl⟩, rfl⟩

theorem addPixels_ok {total t : Nat} {images : List InlineImage} (htotal : total < 2 ^ 64) :
    addPixels total images = .ok t ↔
      total + (images.map InlineImage.pixels).sum < 2 ^ 64 ∧
        t = total + (images.map InlineImage.pixels).sum := by
  induction images generalizing total with
  | nil =>
    simp only [addPixels, List.map_nil, List.sum_nil, Nat.add_zero, htotal, true_and]
    exact ⟨fun h => by cases h; rfl, fun h => by rw [h]; rfl⟩
  | cons image images ih =>
    rw [addPixels, refuseIf_bind_ok, List.map_cons, List.sum_cons, ← Nat.add_assoc, ge_iff_le,
      Nat.not_le]
    constructor
    · rintro ⟨hlt, h⟩
      exact (ih hlt).mp h
    · rintro ⟨hlt, h⟩
      have hfirst : total + image.pixels < 2 ^ 64 := by omega
      exact ⟨hfirst, (ih hfirst).mpr ⟨hlt, h⟩⟩

theorem acceptedMessages_cons {model : ModelInfo} {m : ChatMessage} {ms : List ChatMessage} :
    AcceptedMessages upload model (m :: ms) ↔
      (unsupported model m = false ∧
        ∀ image ∈ m.images, (upload image.mimeType image.data).isSome) ∧
      AcceptedMessages upload model ms := by
  constructor
  · rintro ⟨hsupported, himages⟩
    rw [List.forall_mem_cons] at hsupported himages
    exact ⟨⟨hsupported.1, himages.1⟩, hsupported.2, himages.2⟩
  · rintro ⟨⟨hsupported, himages⟩, h⟩
    exact ⟨List.forall_mem_cons.mpr ⟨hsupported, h.supported⟩,
      List.forall_mem_cons.mpr ⟨himages, h.images⟩⟩

/-- The loop succeeds for the messages the session accepts, while their images are at most eight
and the count of their pixels stays below its bound. -/
theorem messages_ok {model : ModelInfo} {n p t : Nat} {ms : List ChatMessage}
    {out : List Message} (hn : n ≤ PoolProtocol.MAX_IMAGES) (hp : p < 2 ^ 64) :
    messages upload model n p ms = .ok (out, t) ↔
      AcceptedMessages upload model ms ∧ n + imageCount upload ms ≤ PoolProtocol.MAX_IMAGES ∧
        p + inputPixels upload ms < 2 ^ 64 ∧
        out = ms.map (fun m => message m (normalized upload m)) ∧
        t = p + inputPixels upload ms := by
  induction ms generalizing n p out t with
  | nil =>
    have hnil : AcceptedMessages upload model [] := ⟨nofun, nofun⟩
    simp only [messages, imageCount, inputPixels, List.map_nil, List.sum_nil, Nat.add_zero, hn, hp,
      hnil, true_and]
    constructor
    · intro h
      cases h
      exact ⟨rfl, rfl⟩
    · rintro ⟨rfl, rfl⟩
      rfl
  | cons m ms ih =>
    rw [messages, refuseIf_bind_ok, result_bind_eq_ok, acceptedMessages_cons]
    simp only [imageCount, inputPixels, List.map_cons, List.sum_cons, Bool.not_eq_true, uploads_ok,
      refuseIf_ok, result_bind_eq_ok, Nat.not_lt, exists_and_left, exists_const]
    constructor
    · rintro ⟨hsupported, images, ⟨hsome, rfl⟩, hcount, pixels, hpixels, ⟨others, total⟩, hothers,
        h⟩
      obtain ⟨hlt, rfl⟩ := (addPixels_ok hp).mp hpixels
      obtain ⟨haccepted, hcounts, hlts, rfl, rfl⟩ := (ih hcount hlt).mp hothers
      cases h
      refine ⟨⟨⟨hsupported, hsome⟩, haccepted⟩, ?_, ?_, rfl, ?_⟩
      · rw [← Nat.add_assoc]
        exact hcounts
      · rw [← Nat.add_assoc]
        exact hlts
      · rw [← Nat.add_assoc]
        rfl
    · rintro ⟨⟨⟨hsupported, hsome⟩, haccepted⟩, hcounts, hlts, rfl, rfl⟩
      have hcount : n + (normalized upload m).length ≤ PoolProtocol.MAX_IMAGES := by omega
      have hlt : p + ((normalized upload m).map InlineImage.pixels).sum < 2 ^ 64 := by omega
      refine ⟨hsupported, _, ⟨hsome, rfl⟩, hcount, _, (addPixels_ok hp).mpr ⟨hlt, rfl⟩, _,
        (ih hcount hlt).mpr ⟨haccepted, ?_, ?_, rfl, rfl⟩, ?_⟩
      · rw [Nat.add_assoc]
        exact hcounts
      · rw [Nat.add_assoc]
        exact hlts
      · rw [Nat.add_assoc]
        rfl

theorem effort_ok (upload : String → String → Option InlineImage) {r : InferenceRequest}
    (h : r.reasoningEffort = .medium) :
    effort r = .ok (input upload r).reasoningEffort := by
  unfold effort input
  rw [h]
  split <;> rfl

/-- A direct session sends exactly the requests it accepts. -/
theorem dispatch_ok {model : ModelInfo} {policy : TrustPolicy} {i : Invocation}
    {d : Dispatched} :
    dispatch upload model policy i.moment i.request = .ok d ↔
      Accepted upload model policy i ∧ d = .input (input upload i.request) (limits upload i) := by
  rw [dispatch, refuseIf_bind_ok, refuseIf_bind_ok, result_bind_eq_ok]
  simp only [not_or, not_and, not_not, ne_eq, Bool.not_eq_false]
  constructor
  · rintro ⟨hvalidate, ⟨hmodel, hpolicy, htools, hthinking, hsampling, hformat, heffort⟩,
      ⟨out, pixels⟩, hmessages, h⟩
    obtain ⟨haccepted, hcount, hlt, rfl, rfl⟩ :=
      (messages_ok (Nat.zero_le _) (Nat.two_pow_pos 64)).mp hmessages
    rw [Nat.zero_add] at hcount hlt h
    rw [effort_ok upload heffort] at h
    obtain ⟨htokens, h⟩ := refuseIf_bind_ok.mp h
    cases h
    exact ⟨⟨hvalidate, hmodel, hpolicy, htools, hthinking, hsampling, hformat, heffort, haccepted,
      hcount, hlt, Nat.not_lt.mp htokens⟩, rfl⟩
  · rintro ⟨h, rfl⟩
    refine ⟨h.validate, ⟨h.modelId, h.policy, h.tools, h.thinkingMode, h.sampling,
      h.responseFormat, h.reasoningEffort⟩, _,
      (messages_ok (Nat.zero_le _) (Nat.two_pow_pos 64)).mpr
        ⟨h.messages, by rw [Nat.zero_add]; exact h.imageCount,
          by rw [Nat.zero_add]; exact h.inputPixels, rfl, rfl⟩, ?_⟩
    rw [effort_ok upload h.reasoningEffort]
    refine refuseIf_bind_ok.mpr ⟨Nat.not_lt.mpr h.outputTokens, ?_⟩
    rw [Nat.zero_add]
    rfl

theorem message_injective {m m' : ChatMessage}
    (h : message m (normalized upload m) = message m' (normalized upload m')) :
    carried upload m = carried upload m' := by
  simp only [message, Message.mk.injEq] at h
  obtain ⟨hrole, hcontent, himages, hcalls, hid⟩ := h
  simp [carried, ChatRole.asStr_injective hrole, hcontent, himages, hcalls, hid]

theorem message_of_carried {m m' : ChatMessage} (h : carried upload m = carried upload m') :
    message m (normalized upload m) = message m' (normalized upload m') := by
  simp only [carried, Prod.mk.injEq] at h
  obtain ⟨hrole, hcontent, himages, hcalls, hid⟩ := h
  simp only [message, hrole, hcontent, himages, hcalls, hid]

theorem inputPixels_of_carried {ms ms' : List ChatMessage}
    (h : ms.map (carried upload) = ms'.map (carried upload)) :
    inputPixels upload ms = inputPixels upload ms' := by
  have himages := congrArg (List.map fun c => (c.2.2.1.map InlineImage.pixels).sum) h
  simp only [List.map_map] at himages
  exact congrArg List.sum himages

/-- Two inputs with their limits are the same where all that they have of a request is. -/
theorem sent_eq {i i' : Invocation} :
    (input upload i.request = input upload i'.request ∧ limits upload i = limits upload i') ↔
      SameCarried upload i i' := by
  constructor
  · rintro ⟨hinput, hlimits⟩
    simp only [input, Input.mk.injEq] at hinput
    simp only [limits, Limits.mk.injEq] at hlimits
    obtain ⟨hmessages, htokens, heffort, htools⟩ := hinput
    refine ⟨map_eq_of_map_eq (P := fun _ => True) (fun _ _ _ _ => message_injective)
      (fun _ _ => trivial) (fun _ _ => trivial) hmessages, Chutes.tools_injective htools, ?_, htokens, by omega⟩
    split at heffort <;> split at heffort <;> simp_all
  · rintro ⟨hmessages, htools, hthinking, htokens, hsent⟩
    have htokens' : i.request.maxOutputTokens.getD MAX_OUTPUT_TOKENS =
      i'.request.maxOutputTokens.getD MAX_OUTPUT_TOKENS := htokens
    constructor
    · simp only [input, htools, htokens', hthinking]
      rw [map_eq_of_map_eq (P := fun _ => True) (fun _ _ _ _ => message_of_carried)
        (fun _ _ => trivial) (fun _ _ => trivial) hmessages]
    · simp only [limits, htokens', hsent, inputPixels_of_carried hmessages]

theorem unsupported_false {model : ModelInfo} {m : ChatMessage}
    (h : unsupported model m = false) :
    m.files = [] ∧ m.refusal = none ∧ m.reasoningContent = none := by
  simp only [unsupported, Bool.or_eq_false_iff] at h
  obtain ⟨⟨⟨⟨⟨-, hfiles⟩, -⟩, -⟩, hrefusal⟩, hreasoning⟩ := h
  exact ⟨by simpa using hfiles, by simpa using hrefusal, by simpa using hreasoning⟩

theorem messages_eq {model : ModelInfo} {ms ms' : List ChatMessage}
    (h : AcceptedMessages upload model ms) (h' : AcceptedMessages upload model ms')
    (hcarried : ms.map (carried upload) = ms'.map (carried upload))
    (hnames : ms.map (·.name) = ms'.map (·.name))
    (himages : ms.map (·.images) = ms'.map (·.images)) : ms = ms' := by
  refine eq_of_map_eq (fun m m' hm hm' heq => ?_) h.supported h'.supported
    (map_pair_eq hcarried (map_pair_eq hnames himages))
  obtain ⟨hfiles, hrefusal, hreasoning⟩ := unsupported_false hm
  obtain ⟨hfiles', hrefusal', hreasoning'⟩ := unsupported_false hm'
  rcases m with ⟨⟩
  rcases m' with ⟨⟩
  simp_all [carried]

/-- Accepted requests with one input ask for the same where the controls it drops agree. -/
theorem sameControls_iff {model : ModelInfo} {policy : TrustPolicy} {parallel : Bool}
    {i i' : Invocation} (h : Accepted upload model policy i)
    (h' : Accepted upload model policy i') (hsame : SameCarried upload i i') :
    SameControls MAX_OUTPUT_TOKENS parallel i.request i'.request ↔
      SameDropped parallel i.request i'.request := by
  constructor
  · intro hc
    exact ⟨by rw [hc.messages], by rw [hc.messages], hc.toolChoice, hc.parallelToolCalls⟩
  · intro hd
    exact ⟨messages_eq h.messages h'.messages hsame.messages hd.names hd.images, hsame.tools,
      hd.toolControls.1, hd.toolControls.2, hsame.thinkingMode,
      by rw [h.reasoningEffort, h'.reasoningEffort], hsame.maxOutputTokens⟩

end

end Direct

/-! ## The pool session -/

namespace Pool

/-- The requests a pool session accepts. -/
structure Accepted (model : ModelInfo) (policy : TrustPolicy) (i : Invocation) : Prop where
  validate : i.request.validate = .ok ()
  modelId : i.request.model = model.id
  policy : policy.isValidAt i.moment.checkedAt = true
  tools : i.request.tools = []
  thinkingMode : i.request.thinkingMode ≠ .disabled
  sampling : i.request.sampling.isDefault = true
  responseFormat : i.request.responseFormat = .text
  messages : ∀ m ∈ i.request.messages, unsupported m = false
  reasoningEffort : (effort? i.request.reasoningEffort).isSome
  requestId : ∀ id, i.request.requestId = some id → ∃ wire, wireRequestId id = .ok wire

/-- The fields of a message that an input has. -/
def carried (m : ChatMessage) : ChatRole × String := (m.role, m.content)

/-- What the input and the limits have of a request. -/
structure SameCarried (model : ModelInfo) (i i' : Invocation) : Prop where
  messages : i.request.messages.map carried = i'.request.messages.map carried
  reasoningEffort : i.request.reasoningEffort = i'.request.reasoningEffort
  maxOutputTokens : Coincide (min model.maxOutputTokens 4096) i.request.maxOutputTokens
    i'.request.maxOutputTokens
  sentAt : i.moment.sentAt = i'.moment.sentAt

/-- The input of an accepted request. -/
def input (model : ModelInfo) (r : InferenceRequest) : Input where
  messages := r.messages.map fun m => { role := m.role.asStr, content := m.content }
  maxTokens := outputTokens model r
  reasoningEffort := (effort? r.reasoningEffort).getD ""
  tools := []

/-- The limits of an accepted request. -/
def limits (model : ModelInfo) (i : Invocation) : Limits where
  contextTokens := model.contextWindowTokens
  outputTokens := outputTokens model i.request
  inputBytes := 3 * 1024 * 1024
  outputBytes := 16 * 1024 * 1024
  inputImagePixels := 0
  deadline := i.moment.sentAt + 600

theorem messages_ok {ms : List ChatMessage} {out : List Message} :
    messages ms = .ok out ↔
      (∀ m ∈ ms, unsupported m = false) ∧
        out = ms.map fun m => { role := m.role.asStr, content := m.content } := by
  induction ms generalizing out with
  | nil =>
    simp only [messages, List.not_mem_nil, false_implies, implies_true, true_and, List.map_nil]
    exact ⟨fun h => by cases h; rfl, fun h => by rw [h]; rfl⟩
  | cons m ms ih =>
    rw [messages, refuseIf_bind_ok, result_bind_eq_ok, List.forall_mem_cons, Bool.not_eq_true]
    simp only [ih, List.map_cons]
    constructor
    · rintro ⟨hm, others, ⟨hms, rfl⟩, h⟩
      cases h
      exact ⟨⟨hm, hms⟩, rfl⟩
    · rintro ⟨⟨hm, hms⟩, rfl⟩
      exact ⟨hm, _, ⟨hms, rfl⟩, rfl⟩

theorem orCapability_ok {α : Type} {value : Option α} {detail : String} {a : α} :
    orCapability value detail = .ok a ↔ value = some a := by
  rcases value with _ | b
  · simp [orCapability]
  · simp [orCapability, pure, Except.pure]

/-- A pool session sends exactly the requests it accepts. -/
theorem dispatch_ok {model : ModelInfo} {policy : TrustPolicy} {i : Invocation}
    {d : Dispatched} :
    dispatch model policy i.moment i.request = .ok d ↔
      Accepted model policy i ∧ d = .input (input model i.request) (limits model i) := by
  rw [dispatch, refuseIf_bind_ok, refuseIf_bind_ok, result_bind_eq_ok]
  simp only [not_or, not_not, ne_eq, Bool.not_eq_false, messages_ok, result_bind_eq_ok,
    orCapability_ok]
  constructor
  · rintro ⟨hvalidate, ⟨hmodel, hpolicy, htools, hthinking, hsampling, hformat⟩, out,
      ⟨hmessages, rfl⟩, effort, heffort, h⟩
    have hd : (∀ id, i.request.requestId = some id → ∃ wire, wireRequestId id = .ok wire) ∧
        d = .input (input model i.request) (limits model i) := by
      rcases hid : i.request.requestId with _ | id
      · rw [hid] at h
        cases h
        exact ⟨nofun, by simp [input, limits, heffort]⟩
      · rw [hid] at h
        obtain ⟨wire, hwire, h⟩ := result_bind_eq_ok.mp h
        cases h
        refine ⟨fun id' hid' => ⟨wire, ?_⟩, by simp [input, limits, heffort]⟩
        cases hid'
        exact hwire
    exact ⟨⟨hvalidate, hmodel, hpolicy, htools, hthinking, hsampling, hformat, hmessages,
      by rw [heffort]; rfl, hd.1⟩, hd.2⟩
  · rintro ⟨h, rfl⟩
    obtain ⟨effort, heffort⟩ := Option.isSome_iff_exists.mp h.reasoningEffort
    refine ⟨h.validate, ⟨h.modelId, h.policy, h.tools, h.thinkingMode, h.sampling,
      h.responseFormat⟩, _, ⟨h.messages, rfl⟩, effort, heffort, ?_⟩
    rcases hid : i.request.requestId with _ | id
    · simp [input, limits, heffort, pure, Except.pure]
    · obtain ⟨wire, hwire⟩ := h.requestId id hid
      refine result_bind_eq_ok.mpr ⟨wire, hwire, ?_⟩
      simp [input, limits, heffort, pure, Except.pure]

theorem effort_injective {e e' : ReasoningEffort} (he : (effort? e).isSome)
    (he' : (effort? e').isSome) (h : (effort? e).getD "" = (effort? e').getD "") : e = e' := by
  cases e <;> cases e' <;> simp_all [effort?]

/-- Two inputs with their limits are the same where all that they have of a request is. -/
theorem sent_eq {model : ModelInfo} {policy : TrustPolicy} {i i' : Invocation}
    (h : Accepted model policy i) (h' : Accepted model policy i') :
    (input model i.request = input model i'.request ∧ limits model i = limits model i') ↔
      SameCarried model i i' := by
  constructor
  · rintro ⟨hinput, hlimits⟩
    simp only [input, Input.mk.injEq] at hinput
    simp only [limits, Limits.mk.injEq] at hlimits
    obtain ⟨hmessages, htokens, heffort, -⟩ := hinput
    refine ⟨map_eq_of_map_eq (fun m m' _ _ hm => ?_) h.messages h'.messages hmessages,
      effort_injective h.reasoningEffort h'.reasoningEffort heffort, htokens, by omega⟩
    obtain ⟨hrole, hcontent, -⟩ := Message.mk.inj hm
    rw [carried, carried, ChatRole.asStr_injective hrole, hcontent]
  · rintro ⟨hmessages, heffort, htokens, hsent⟩
    have htokens' : outputTokens model i.request = outputTokens model i'.request := htokens
    constructor
    · simp only [input, htokens', heffort]
      rw [map_eq_of_map_eq (fun m m' _ _ hm => ?_) h.messages h'.messages hmessages]
      obtain ⟨hrole, hcontent⟩ := Prod.mk.inj hm
      rw [hrole, hcontent]
    · simp only [limits, htokens', hsent]

theorem unsupported_false {m : ChatMessage} (h : unsupported m = false) :
    m = { role := m.role, content := m.content } := by
  rcases m with ⟨⟩
  simp only [unsupported, Bool.or_eq_false_iff] at h
  simp_all

/-- Accepted requests with one input ask for the same where the controls it drops agree. -/
theorem sameControls_iff {model : ModelInfo} {policy : TrustPolicy} {parallel : Bool}
    {i i' : Invocation} (h : Accepted model policy i) (h' : Accepted model policy i')
    (hsame : SameCarried model i i') :
    SameControls (min model.maxOutputTokens 4096) parallel i.request i'.request ↔
      SameToolControls parallel i.request i'.request := by
  constructor
  · intro hc
    exact ⟨hc.toolChoice, hc.parallelToolCalls⟩
  · rintro ⟨hchoice, hparallel⟩
    have hmessages : i.request.messages = i'.request.messages := by
      refine eq_of_map_eq (fun m m' hm hm' heq => ?_) h.messages h'.messages hsame.messages
      obtain ⟨hrole, hcontent⟩ := Prod.mk.inj heq
      rw [unsupported_false hm, unsupported_false hm', hrole, hcontent]
    exact ⟨hmessages, by rw [h.tools, h'.tools], hchoice, hparallel,
      by simp [h.thinkingMode, h'.thinkingMode], hsame.reasoningEffort, hsame.maxOutputTokens⟩

end Pool

end AxiomDesktop
