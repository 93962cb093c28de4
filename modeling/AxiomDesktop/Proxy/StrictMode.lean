import AxiomDesktop.Proxy.WireRequest

/-!
# Keys that strict mode refuses

`unmodelled` walks the JSON of a request and gives every key for which the wire has no field, with
the path of its object. What a request captures is all of it but the keys beside the file of a
content part (`lost`), which the variant of a file has no place for. So strict mode accepts a
request with an unmodelled key exactly where it is lost, and lenient mode leaves a key out of its
report exactly where a lost key has a name that no captured key has (`modes_honor`).
-/

namespace AxiomDesktop.Compat

/-! ## The keys of a request -/

/-- A key with the path of its object. -/
abbrev Place := String × String

/-- The keys of an object that are none of its fields. -/
def beyond (path : String) (known : List String) : Json → List Place
  | .obj entries => (others known entries).map fun key => (path, key)
  | _ => []

/-- A walk of the value at a field. -/
def below (key : String) (walk : Json → List Place) (v : Json) : List Place :=
  (v.get? key).toList.flatMap walk

/-- A walk of the values of the list at a field. -/
def each (key : String) (walk : Json → List Place) (v : Json) : List Place :=
  ((v.get? key).bind Json.arr?).toList.flatMap fun vs => vs.flatMap walk

/-- The type of a part that is an object. -/
def typeOf? (part : Json) : Option PartType := (part.get? "type").bind PartType.ofJson?

/-- The unmodelled keys of a part that captures them. -/
def caughtInPart (part : Json) : List Place :=
  match typeOf? part with
  | some .text => beyond "messages.content" (PartType.fields .text) part
  | some .imageUrl =>
    beyond "messages.content" (PartType.fields .imageUrl) part ++
      below "image_url" (beyond "messages.content.image_url" WireImageUrl.fields) part
  | some .file | some .unsupported | none => []

/-- The unmodelled keys beside the file of a part. -/
def lostInPart (part : Json) : List Place :=
  match typeOf? part with
  | some .file => beyond "messages.content" (PartType.fields .file) part
  | _ => []

/-- The unmodelled keys of a part. -/
def unmodelledInPart (part : Json) : List Place :=
  match part, typeOf? part with
  | .arr [_, file], _ => beyond "messages.content.file" WireFile.fields file
  | part, some .text => beyond "messages.content" (PartType.fields .text) part
  | part, some .imageUrl =>
    beyond "messages.content" (PartType.fields .imageUrl) part ++
      below "image_url" (beyond "messages.content.image_url" WireImageUrl.fields) part
  | part, some .file =>
    beyond "messages.content" (PartType.fields .file) part ++
      below "file" (beyond "messages.content.file" WireFile.fields) part
  | part, some .unsupported | part, none => beyond "messages.content" (PartType.fields .unsupported) part

def placesInToolCall (call : Json) : List Place :=
  beyond "messages.tool_calls" WireToolCall.fields call ++
    below "function" (beyond "messages.tool_calls.function" WireFunctionCall.fields) call

/-- The keys of a message, by a walk of its parts. -/
def placesInMessage (walk : Json → List Place) (message : Json) : List Place :=
  beyond "messages" WireMessage.fields message ++ each "content" walk message ++
    each "tool_calls" placesInToolCall message

def placesInTool (tool : Json) : List Place :=
  beyond "tools" WireTool.fields tool ++
    below "function" (beyond "tools.function" WireFunctionDefinition.fields) tool

def placesInToolChoice (choice : Json) : List Place :=
  beyond "tool_choice" WireNamedToolChoice.fields choice ++
    below "function" (beyond "tool_choice.function" WireNamedFunction.fields) choice

def placesInResponseFormat (format : Json) : List Place :=
  if format.string? "type" = some "json_schema" then
    beyond "response_format" ["type", "json_schema"] format ++
      below "json_schema" (beyond "response_format.json_schema" WireJsonSchema.fields) format
  else beyond "response_format" ["type"] format

/-- The keys of a request, by a walk of its parts. -/
def places (walk : Json → List Place) (request : Json) : List Place :=
  beyond "" ChatCompletionRequest.fields request ++
    below "stream_options" (beyond "stream_options" StreamOptions.fields) request ++
    each "messages" (placesInMessage walk) request ++ each "tools" placesInTool request ++
    below "tool_choice" placesInToolChoice request ++
    below "response_format" placesInResponseFormat request

/-- The unmodelled keys of a request. -/
def unmodelled (request : Json) : List Place := places unmodelledInPart request

/-- Those that are captured. -/
def caught (request : Json) : List Place := places caughtInPart request

/-- Those beside the file of a part. -/
def lost (request : Json) : List Place := each "messages" (each "content" lostInPart) request

/-- The name a key is reported by. -/
def reportedName (place : Place) : Option String :=
  if place.1 = "" then sanitizeParameterName place.2
  else sanitizeParameterName (place.1 ++ "." ++ place.2)

/-- The keys that cannot change the answer. -/
def Inert (place : Place) : Prop := place.1 = "" ∧ place.2 ∈ INERT_PARAMETERS

instance (place : Place) : Decidable (Inert place) := inferInstanceAs (Decidable (_ ∧ _))

/-- The names of the keys that are not inert. -/
def reportedNames (places : List Place) : List String :=
  (places.filter fun place => ¬ Inert place).filterMap reportedName

/-! ## Fields that were read -/

section Fields

variable {α : Type} {known : List String} {entries : List (String × Json)} {key path : String}
  {read : Json → Option α} {walk : Json → List Place} {places : α → List Place} {v : Json}

theorem entries?_some (h : entries? known v = some entries) : v = .obj entries := by
  cases v with
  | obj fields =>
    rw [entries?] at h
    split at h
    · rw [Option.some.inj h]
    · cases h
  | null | bool | num | str | arr => cases h

theorem required_some {a : α} (h : required entries key read = some a) :
    ∃ w, Json.lookup key entries = some w ∧ read w = some a := Option.bind_eq_some_iff.mp h

/-- What is read from a field is what a walk of the field finds. -/
theorem below_required (hwalk : ∀ w a, read w = some a → walk w = places a) {a : α}
    (h : required entries key read = some a) : below key walk (.obj entries) = places a := by
  obtain ⟨w, hlookup, hread⟩ := required_some h
  rw [below, Json.get?, hlookup, Option.toList_some, List.flatMap_singleton, hwalk w a hread]

theorem below_optional (hwalk : ∀ w a, read w = some a → walk w = places a) (hnull : walk .null = [])
    {o : Option α} (h : optional entries key read = some o) :
    below key walk (.obj entries) = o.toList.flatMap places := by
  rw [below, Json.get?]
  unfold optional at h
  split at h
  · next hnone =>
    cases h
    rw [hnone]
    rfl
  · next hlookup =>
    cases h
    rw [hlookup, Option.toList_some, List.flatMap_singleton, hnull]
    rfl
  · next w _ hlookup =>
    obtain ⟨a, hread, rfl⟩ := Option.map_eq_some_iff.mp h
    rw [hlookup, Option.toList_some, List.flatMap_singleton, Option.toList_some, List.flatMap_singleton,
      hwalk w a hread]

theorem arr?_some {vs : List Json} (h : v.arr? = some vs) : v = .arr vs := by
  cases v with
  | arr => rw [Option.some.inj h]
  | null | bool | num | str | obj => cases h

theorem flatMap_listOf (hwalk : ∀ w a, read w = some a → walk w = places a) {as : List α}
    (h : listOf? read v = some as) : ∃ vs, v = .arr vs ∧ vs.flatMap walk = as.flatMap places := by
  obtain ⟨vs, harr, hmap⟩ := Option.bind_eq_some_iff.mp h
  refine ⟨vs, arr?_some harr, ?_⟩
  clear harr h
  induction vs generalizing as with
  | nil =>
    cases hmap
    rfl
  | cons w rest ih =>
    rw [List.mapM_cons] at hmap
    obtain ⟨a, hread, hmap⟩ := Option.bind_eq_some_iff.mp hmap
    obtain ⟨more, hmore, hmap⟩ := Option.bind_eq_some_iff.mp hmap
    cases hmap
    rw [List.flatMap_cons, List.flatMap_cons, hwalk w a hread, ih hmore]

theorem each_required (hwalk : ∀ w a, read w = some a → walk w = places a) {as : List α}
    (h : required entries key (listOf? read) = some as) :
    each key walk (.obj entries) = as.flatMap places := by
  obtain ⟨w, hlookup, hread⟩ := required_some h
  obtain ⟨vs, rfl, hvs⟩ := flatMap_listOf hwalk hread
  rw [each, Json.get?, hlookup, Option.bind_some, Json.arr?, Option.toList_some, List.flatMap_singleton, hvs]

theorem each_defaulted (hwalk : ∀ w a, read w = some a → walk w = places a) {as : List α}
    (h : defaulted entries key (listOf? read) [] = some as) :
    each key walk (.obj entries) = as.flatMap places := by
  unfold defaulted at h
  split at h
  · next hnone =>
    cases h
    rw [each, Json.get?, hnone]
    rfl
  · next w hlookup =>
    exact each_required hwalk (by rw [required, hlookup]; exact h)

end Fields

/-! ## What is captured -/

/-- The keys a struct captured, with the path of its object. -/
def placed (path : String) (keys : List String) : List Place := keys.map fun key => (path, key)

def WireContentPart.captured : WireContentPart → List Place
  | .text _ keys => placed "messages.content" keys
  | .imageUrl image keys =>
    placed "messages.content" keys ++ placed "messages.content.image_url" image.unsupported
  | .file _ | .unsupported => []

def WireContent.captured : WireContent → List Place
  | .text _ => []
  | .parts ps => ps.flatMap (·.captured)

def WireToolCall.captured (call : WireToolCall) : List Place :=
  placed "messages.tool_calls" call.unsupported ++
    placed "messages.tool_calls.function" call.function.unsupported

def WireMessage.captured (message : WireMessage) : List Place :=
  placed "messages" message.unsupported ++ message.content.toList.flatMap (·.captured) ++
    message.toolCalls.flatMap (·.captured)

def WireTool.captured (tool : WireTool) : List Place :=
  placed "tools" tool.unsupported ++ placed "tools.function" tool.function.unsupported

def WireToolChoice.captured : WireToolChoice → List Place
  | .mode _ => []
  | .named choice =>
    placed "tool_choice" choice.unsupported ++ placed "tool_choice.function" choice.function.unsupported

def WireResponseFormat.captured : WireResponseFormat → List Place
  | .text keys | .jsonObject keys => placed "response_format" keys
  | .jsonSchema schema keys =>
    placed "response_format" keys ++ placed "response_format.json_schema" schema.unsupported

/-- The keys captured below the top level. -/
def ChatCompletionRequest.nested (r : ChatCompletionRequest) : List Place :=
  r.streamOptions.toList.flatMap (fun options => placed "stream_options" options.unsupported) ++
    r.messages.flatMap (·.captured) ++ r.tools.flatMap (·.captured) ++
    r.toolChoice.toList.flatMap (·.captured) ++ r.responseFormat.toList.flatMap (·.captured)

/-- What a struct captured are the keys beyond its fields. -/
theorem beyond_eq {known : List String} {entries : List (String × Json)} {v : Json} (path : String)
    (h : entries? known v = some entries) : beyond path known v = placed path (others known entries) := by
  rw [entries?_some h]
  rfl

theorem StreamOptions.places_eq (w : Json) (options : StreamOptions) (h : ofJson? w = some options) :
    beyond "stream_options" fields w = placed "stream_options" options.unsupported := by
  obtain ⟨entries, hentries, h⟩ := Option.bind_eq_some_iff.mp h
  obtain ⟨_, _, h⟩ := Option.bind_eq_some_iff.mp h
  cases h
  exact beyond_eq _ hentries

theorem WireImageUrl.places_eq (path : String) (w : Json) (image : WireImageUrl)
    (h : ofJson? w = some image) : beyond path fields w = placed path image.unsupported := by
  obtain ⟨entries, hentries, h⟩ := Option.bind_eq_some_iff.mp h
  obtain ⟨_, _, h⟩ := Option.bind_eq_some_iff.mp h
  cases h
  exact beyond_eq _ hentries

/-- A file denies unknown keys. -/
theorem WireFile.places_eq (path : String) (w : Json) (file : WireFile) (h : ofJson? w = some file) :
    beyond path fields w = [] := by
  unfold ofJson? at h
  split at h
  · rfl
  · obtain ⟨entries, hentries, h⟩ := Option.bind_eq_some_iff.mp h
    obtain ⟨_, _, h⟩ := Option.bind_eq_some_iff.mp h
    obtain ⟨_, _, h⟩ := Option.bind_eq_some_iff.mp h
    split at h
    · next hothers =>
      rw [beyond_eq _ hentries, hothers]
      rfl
    · cases h

theorem WireFunctionCall.places_eq (path : String) (w : Json) (call : WireFunctionCall)
    (h : ofJson? w = some call) : beyond path fields w = placed path call.unsupported := by
  obtain ⟨entries, hentries, h⟩ := Option.bind_eq_some_iff.mp h
  obtain ⟨_, _, h⟩ := Option.bind_eq_some_iff.mp h
  obtain ⟨_, _, h⟩ := Option.bind_eq_some_iff.mp h
  cases h
  exact beyond_eq _ hentries

theorem WireFunctionDefinition.places_eq (path : String) (w : Json) (f : WireFunctionDefinition)
    (h : ofJson? w = some f) : beyond path fields w = placed path f.unsupported := by
  obtain ⟨entries, hentries, h⟩ := Option.bind_eq_some_iff.mp h
  iterate 4 obtain ⟨_, _, h⟩ := Option.bind_eq_some_iff.mp h
  cases h
  exact beyond_eq _ hentries

theorem WireNamedFunction.places_eq (path : String) (w : Json) (f : WireNamedFunction)
    (h : ofJson? w = some f) : beyond path fields w = placed path f.unsupported := by
  obtain ⟨entries, hentries, h⟩ := Option.bind_eq_some_iff.mp h
  obtain ⟨_, _, h⟩ := Option.bind_eq_some_iff.mp h
  cases h
  exact beyond_eq _ hentries

theorem WireJsonSchema.places_eq (path : String) (w : Json) (schema : WireJsonSchema)
    (h : ofJson? w = some schema) : beyond path fields w = placed path schema.unsupported := by
  obtain ⟨entries, hentries, h⟩ := Option.bind_eq_some_iff.mp h
  iterate 3 obtain ⟨_, _, h⟩ := Option.bind_eq_some_iff.mp h
  cases h
  exact beyond_eq _ hentries

theorem WireToolCall.places_eq (w : Json) (call : WireToolCall) (h : ofJson? w = some call) :
    placesInToolCall w = call.captured := by
  obtain ⟨entries, hentries, h⟩ := Option.bind_eq_some_iff.mp h
  obtain ⟨_, _, h⟩ := Option.bind_eq_some_iff.mp h
  obtain ⟨_, _, h⟩ := Option.bind_eq_some_iff.mp h
  obtain ⟨function, hfunction, h⟩ := Option.bind_eq_some_iff.mp h
  cases h
  rw [placesInToolCall, beyond_eq _ hentries, entries?_some hentries,
    below_required (WireFunctionCall.places_eq _) hfunction, captured]

theorem WireTool.places_eq (w : Json) (tool : WireTool) (h : ofJson? w = some tool) :
    placesInTool w = tool.captured := by
  obtain ⟨entries, hentries, h⟩ := Option.bind_eq_some_iff.mp h
  obtain ⟨_, _, h⟩ := Option.bind_eq_some_iff.mp h
  obtain ⟨function, hfunction, h⟩ := Option.bind_eq_some_iff.mp h
  cases h
  rw [placesInTool, beyond_eq _ hentries, entries?_some hentries,
    below_required (WireFunctionDefinition.places_eq _) hfunction, captured]

theorem WireNamedToolChoice.places_eq (w : Json) (choice : WireNamedToolChoice)
    (h : ofJson? w = some choice) :
    placesInToolChoice w = (WireToolChoice.named choice).captured := by
  obtain ⟨entries, hentries, h⟩ := Option.bind_eq_some_iff.mp h
  obtain ⟨_, _, h⟩ := Option.bind_eq_some_iff.mp h
  obtain ⟨function, hfunction, h⟩ := Option.bind_eq_some_iff.mp h
  cases h
  rw [placesInToolChoice, beyond_eq _ hentries, entries?_some hentries,
    below_required (WireNamedFunction.places_eq _) hfunction, WireToolChoice.captured]

theorem WireToolChoice.places_eq (w : Json) (choice : WireToolChoice) (h : ofJson? w = some choice) :
    placesInToolChoice w = choice.captured := by
  unfold ofJson? at h
  split at h
  · cases h
    rfl
  · obtain ⟨named, hnamed, rfl⟩ := Option.map_eq_some_iff.mp h
    exact WireNamedToolChoice.places_eq w named hnamed

theorem WireResponseFormat.places_eq (w : Json) (format : WireResponseFormat)
    (h : ofJson? w = some format) : placesInResponseFormat w = format.captured := by
  unfold ofJson? at h
  unfold placesInResponseFormat
  split at h
  · next htype =>
    obtain ⟨entries, hentries, h⟩ := Option.bind_eq_some_iff.mp h
    cases h
    rw [if_neg (by rw [htype]; decide), beyond_eq _ hentries, captured]
  · next htype =>
    obtain ⟨entries, hentries, h⟩ := Option.bind_eq_some_iff.mp h
    cases h
    rw [if_neg (by rw [htype]; decide), beyond_eq _ hentries, captured]
  · next htype =>
    obtain ⟨entries, hentries, h⟩ := Option.bind_eq_some_iff.mp h
    obtain ⟨schema, hschema, h⟩ := Option.bind_eq_some_iff.mp h
    cases h
    rw [if_pos htype, beyond_eq _ hentries, entries?_some hentries,
      below_required (WireJsonSchema.places_eq _) hschema, captured]
  · cases h

/-- A part that is read has a type, or it is a list. -/
theorem WireContentPart.ofJson?_some {part : Json} {p : WireContentPart} (h : ofJson? part = some p) :
    (∃ type entries, typeOf? part = some type ∧ entries? type.fields part = some entries ∧
      ofEntries? type entries = some p) ∨
    (∃ tag w file, part = .arr [tag, w] ∧ WireFile.ofJson? w = some file ∧ p = .file file) ∨
    (∃ tag, part = .arr [tag]) ∧ p = .unsupported := by
  unfold ofJson? at h
  split at h
  · next tag rest =>
    obtain ⟨type, _, h⟩ := Option.bind_eq_some_iff.mp h
    split at h
    · next w _ _ =>
      obtain ⟨file, hfile, rfl⟩ := Option.map_eq_some_iff.mp h
      exact .inr (.inl ⟨tag, w, file, rfl, hfile, rfl⟩)
    · cases h
      exact .inr (.inr ⟨⟨tag, rfl⟩, rfl⟩)
    · cases h
  · obtain ⟨type, htype, h⟩ := Option.bind_eq_some_iff.mp h
    obtain ⟨entries, hentries, h⟩ := Option.bind_eq_some_iff.mp h
    exact .inl ⟨type, entries, htype, hentries, h⟩

theorem WireContentPart.places_eq (part : Json) (p : WireContentPart) (h : ofJson? part = some p) :
    caughtInPart part = p.captured := by
  rcases ofJson?_some h with ⟨type, entries, htype, hentries, hp⟩ | ⟨tag, w, file, rfl, _, rfl⟩ |
    ⟨⟨tag, rfl⟩, rfl⟩
  · unfold caughtInPart
    rw [htype]
    cases type with
    | file =>
      obtain ⟨file, _, rfl⟩ := Option.map_eq_some_iff.mp hp
      rfl
    | text =>
      obtain ⟨text, _, rfl⟩ := Option.map_eq_some_iff.mp hp
      exact beyond_eq _ hentries
    | imageUrl =>
      obtain ⟨image, himage, rfl⟩ := Option.map_eq_some_iff.mp hp
      dsimp only
      rw [beyond_eq _ hentries, entries?_some hentries,
        below_required (WireImageUrl.places_eq _) himage, captured]
    | unsupported =>
      cases hp
      rfl
  · rfl
  · rfl

/-- What a part that is not refused does not capture is beside its file. -/
theorem WireContentPart.mem_unmodelled {part : Json} {p : WireContentPart} (h : ofJson? part = some p)
    (hp : p ≠ .unsupported) {place : Place} :
    place ∈ unmodelledInPart part ↔ place ∈ caughtInPart part ∨ place ∈ lostInPart part := by
  rcases ofJson?_some h with ⟨type, entries, htype, hentries, hread⟩ | ⟨tag, w, file, rfl, hfile, rfl⟩ |
    ⟨⟨tag, rfl⟩, rfl⟩
  · obtain rfl := entries?_some hentries
    unfold unmodelledInPart caughtInPart lostInPart
    rw [htype]
    cases type with
    | file =>
      obtain ⟨file, hfile, _⟩ := Option.map_eq_some_iff.mp hread
      have hdenied := below_required (WireFile.places_eq "messages.content.file") hfile
      simp [hdenied]
    | text => simp
    | imageUrl => simp
    | unsupported =>
      cases hread
      exact absurd rfl hp
  · have hdenied := WireFile.places_eq "messages.content.file" w file hfile
    simp [unmodelledInPart, caughtInPart, lostInPart, typeOf?, Json.get?, hdenied]
  · exact absurd rfl hp

theorem WireContent.places_eq (w : Json) (content : WireContent) (h : ofJson? w = some content) :
    (w.arr?.toList.flatMap fun parts => parts.flatMap caughtInPart) = content.captured := by
  unfold ofJson? at h
  split at h
  · cases h
    rfl
  · obtain ⟨ps, hps, rfl⟩ := Option.map_eq_some_iff.mp h
    obtain ⟨vs, rfl, hvs⟩ := flatMap_listOf WireContentPart.places_eq hps
    rw [Json.arr?, Option.toList_some, List.flatMap_singleton, hvs, captured]

theorem each_eq_below (key : String) (walk : Json → List Place) (v : Json) :
    each key walk v = below key (fun w => w.arr?.toList.flatMap fun vs => vs.flatMap walk) v := by
  unfold each below
  cases v.get? key with
  | none => rfl
  | some w =>
    rw [Option.bind_some, Option.toList_some, List.flatMap_singleton]

theorem WireMessage.places_eq (w : Json) (message : WireMessage) (h : ofJson? w = some message) :
    placesInMessage caughtInPart w = message.captured := by
  obtain ⟨entries, hentries, h⟩ := Option.bind_eq_some_iff.mp h
  obtain ⟨_, _, h⟩ := Option.bind_eq_some_iff.mp h
  obtain ⟨content, hcontent, h⟩ := Option.bind_eq_some_iff.mp h
  iterate 4 obtain ⟨_, _, h⟩ := Option.bind_eq_some_iff.mp h
  obtain ⟨calls, hcalls, h⟩ := Option.bind_eq_some_iff.mp h
  cases h
  rw [placesInMessage, beyond_eq _ hentries, entries?_some hentries, each_eq_below "content",
    below_optional WireContent.places_eq rfl hcontent, each_defaulted WireToolCall.places_eq hcalls,
    captured]

/-- The entries of a request, with the fields whose objects have keys of their own. -/
theorem ChatCompletionRequest.ofJson?_some {number : String → Option Float} {v : Json}
    {r : ChatCompletionRequest} (h : ofJson? number v = some r) :
    ∃ entries, entries? fields v = some entries ∧ r.unsupported = others fields entries ∧
      required entries "messages" (listOf? WireMessage.ofJson?) = some r.messages ∧
      defaulted entries "tools" (listOf? WireTool.ofJson?) [] = some r.tools ∧
      optional entries "tool_choice" WireToolChoice.ofJson? = some r.toolChoice ∧
      optional entries "response_format" WireResponseFormat.ofJson? = some r.responseFormat ∧
      optional entries "stream_options" StreamOptions.ofJson? = some r.streamOptions := by
  obtain ⟨entries, hentries, h⟩ := Option.bind_eq_some_iff.mp h
  obtain ⟨_, _, h⟩ := Option.bind_eq_some_iff.mp h
  obtain ⟨_, hmessages, h⟩ := Option.bind_eq_some_iff.mp h
  obtain ⟨_, htools, h⟩ := Option.bind_eq_some_iff.mp h
  obtain ⟨_, hchoice, h⟩ := Option.bind_eq_some_iff.mp h
  iterate 7 obtain ⟨_, _, h⟩ := Option.bind_eq_some_iff.mp h
  obtain ⟨_, hformat, h⟩ := Option.bind_eq_some_iff.mp h
  obtain ⟨_, _, h⟩ := Option.bind_eq_some_iff.mp h
  obtain ⟨_, hoptions, h⟩ := Option.bind_eq_some_iff.mp h
  obtain ⟨_, _, h⟩ := Option.bind_eq_some_iff.mp h
  cases h
  exact ⟨entries, hentries, rfl, hmessages, htools, hchoice, hformat, hoptions⟩

/-- What a request captured are its unmodelled keys but those that are lost. -/
theorem caught_eq {number : String → Option Float} {v : Json} {r : ChatCompletionRequest}
    (h : ChatCompletionRequest.ofJson? number v = some r) :
    caught v = placed "" r.unsupported ++ r.nested := by
  obtain ⟨entries, hentries, hunsupported, hmessages, htools, hchoice, hformat, hoptions⟩ :=
    ChatCompletionRequest.ofJson?_some h
  rw [caught, places, beyond_eq _ hentries, hunsupported, entries?_some hentries,
    below_optional StreamOptions.places_eq rfl hoptions, each_required WireMessage.places_eq hmessages,
    each_defaulted WireTool.places_eq htools, below_optional WireToolChoice.places_eq rfl hchoice,
    below_optional WireResponseFormat.places_eq rfl hformat, ChatCompletionRequest.nested]
  simp only [List.append_assoc]

/-! ## What is lost -/

/-- The parts of the messages of a request. -/
def partsOf (v : Json) : List Json :=
  ((v.get? "messages").bind Json.arr?).toList.flatMap fun messages => messages.flatMap fun message =>
    ((message.get? "content").bind Json.arr?).toList.flatten

theorem mem_each {key : String} {walk : Json → List Place} {v : Json} {place : Place} :
    place ∈ each key walk v ↔
      ∃ vs, (v.get? key).bind Json.arr? = some vs ∧ ∃ w ∈ vs, place ∈ walk w := by
  simp only [each, List.mem_flatMap, Option.mem_toList]

theorem mem_each_parts {walk : Json → List Place} {v : Json} {place : Place} :
    place ∈ each "messages" (each "content" walk) v ↔ ∃ part ∈ partsOf v, place ∈ walk part := by
  simp only [mem_each, partsOf, List.mem_flatMap, List.mem_flatten, Option.mem_toList]
  constructor
  · rintro ⟨messages, hmessages, message, hmessage, parts, hparts, part, hpart, hplace⟩
    exact ⟨part, ⟨messages, hmessages, message, hmessage, parts, hparts, hpart⟩, hplace⟩
  · rintro ⟨part, ⟨messages, hmessages, message, hmessage, parts, hparts, hpart⟩, hplace⟩
    exact ⟨messages, hmessages, message, hmessage, parts, hparts, part, hpart, hplace⟩

/-- The walk of the parts is one part of the walk of a request. -/
theorem mem_places {walk : Json → List Place} {v : Json} {place : Place} :
    place ∈ places walk v ↔
      place ∈ places (fun _ => []) v ∨ ∃ part ∈ partsOf v, place ∈ walk part := by
  have hmessages : place ∈ each "messages" (placesInMessage walk) v ↔
      place ∈ each "messages" (placesInMessage fun _ => []) v ∨
        place ∈ each "messages" (each "content" walk) v := by
    rw [mem_each, mem_each, mem_each, ← exists_or]
    refine exists_congr fun messages => ?_
    rw [← and_or_left, ← exists_or]
    refine and_congr_right fun _ => exists_congr fun message => ?_
    rw [← and_or_left]
    refine and_congr_right fun _ => ?_
    have hnone : place ∉ each "content" (fun _ => []) message := by
      rw [mem_each]
      rintro ⟨_, _, _, _, h⟩
      cases h
    simp only [placesInMessage, List.mem_append, hnone, or_false]
    tauto
  rw [← mem_each_parts]
  simp only [places, List.mem_append, hmessages]
  tauto

theorem mem_listOf {α : Type} {read : Json → Option α} {v : Json} {as : List α}
    (h : listOf? read v = some as) : ∃ vs, v = .arr vs ∧ ∀ w ∈ vs, ∃ a ∈ as, read w = some a := by
  obtain ⟨vs, harr, hmap⟩ := Option.bind_eq_some_iff.mp h
  refine ⟨vs, arr?_some harr, ?_⟩
  clear harr h
  induction vs generalizing as with
  | nil => exact fun w hw => nomatch hw
  | cons w rest ih =>
    rw [List.mapM_cons] at hmap
    obtain ⟨a, hread, hmap⟩ := Option.bind_eq_some_iff.mp hmap
    obtain ⟨more, hmore, hmap⟩ := Option.bind_eq_some_iff.mp hmap
    cases hmap
    refine List.forall_mem_cons.mpr ⟨⟨a, List.mem_cons_self, hread⟩, fun w hw => ?_⟩
    obtain ⟨a', ha', hread'⟩ := ih hmore w hw
    exact ⟨a', List.mem_cons_of_mem a ha', hread'⟩

/-- A part of the JSON is a part of a message. -/
theorem mem_partsOf {number : String → Option Float} {v : Json} {r : ChatCompletionRequest}
    (h : ChatCompletionRequest.ofJson? number v = some r) {part : Json} (hpart : part ∈ partsOf v) :
    ∃ message ∈ r.messages, ∃ ps, message.content = some (.parts ps) ∧
      ∃ p ∈ ps, WireContentPart.ofJson? part = some p := by
  obtain ⟨entries, hentries, _, hmessages, _⟩ := ChatCompletionRequest.ofJson?_some h
  obtain rfl := entries?_some hentries
  obtain ⟨w, hlookup, hread⟩ := required_some hmessages
  obtain ⟨vs, rfl, hvs⟩ := mem_listOf hread
  simp only [partsOf, Json.get?, hlookup, Option.bind_some, Json.arr?, Option.toList_some,
    List.flatMap_singleton, List.mem_flatMap, List.mem_flatten, Option.mem_toList] at hpart
  obtain ⟨m, hm, parts, hparts, hpart⟩ := hpart
  obtain ⟨message, hmessage, hstruct⟩ := hvs m hm
  refine ⟨message, hmessage, ?_⟩
  obtain ⟨entries, hentries, hfields⟩ := Option.bind_eq_some_iff.mp hstruct
  obtain ⟨_, _, hfields⟩ := Option.bind_eq_some_iff.mp hfields
  obtain ⟨content, hcontent, hfields⟩ := Option.bind_eq_some_iff.mp hfields
  iterate 5 obtain ⟨_, _, hfields⟩ := Option.bind_eq_some_iff.mp hfields
  cases hfields
  rw [entries?_some hentries] at hparts
  obtain ⟨w, hw, hw'⟩ := Option.bind_eq_some_iff.mp hparts
  cases w with
  | arr values =>
    cases hw'
    unfold optional at hcontent
    rw [show Json.lookup "content" entries = _ from hw] at hcontent
    obtain ⟨read, hread', rfl⟩ := Option.map_eq_some_iff.mp hcontent
    obtain ⟨ps, hps, rfl⟩ := Option.map_eq_some_iff.mp hread'
    obtain ⟨values', hvalues, hmem⟩ := mem_listOf hps
    cases hvalues
    exact ⟨ps, rfl, hmem part hpart⟩
  | null | bool | num | str | obj => cases hw'

/-! ## Names -/

/-- The name of a key below the top level has at least a point. -/
theorem sanitizeParameterName_ne_none (path key : String) :
    sanitizeParameterName (path ++ "." ++ key) ≠ none := by
  have hmem : '.' ∈ (path ++ "." ++ key).toList.filter fun c =>
      c.isAlphanum || c = '_' || c = '-' || c = '.' := by
    rw [List.mem_filter]
    refine ⟨?_, by decide⟩
    rw [String.toList_append, String.toList_append, List.mem_append, List.mem_append]
    exact .inl (.inr (by decide))
  intro h
  unfold sanitizeParameterName at h
  dsimp only at h
  split at h
  · next hnil =>
    rw [List.take_eq_nil_iff] at hnil
    rcases hnil with hzero | hnil
    · exact absurd hzero (by decide)
    · rw [hnil] at hmem
      cases hmem
  · cases h

variable {path : String} {keys : List String}

theorem collectKeys_eq (hpath : path ≠ "") (keys : List String) :
    collectKeys path keys = (placed path keys).filterMap reportedName := by
  rw [collectKeys, placed, List.filterMap_map]
  refine List.filterMap_congr fun key _ => ?_
  rw [Function.comp_apply, reportedName, if_neg hpath]

/-- The names that are collected are those of the keys, which all have a path. -/
structure Names (names : List String) (places : List Place) : Prop where
  hasPath : ∀ place ∈ places, place.1 ≠ ""
  eq : names = places.filterMap reportedName

namespace Names

variable {names names' : List String} {places places' : List Place}

theorem nil : Names [] [] := ⟨fun _ h => (List.not_mem_nil h).elim, rfl⟩

theorem collect (hpath : path ≠ "") : Names (collectKeys path keys) (placed path keys) := by
  refine ⟨fun place hplace => ?_, collectKeys_eq hpath keys⟩
  obtain ⟨key, _, rfl⟩ := List.mem_map.mp hplace
  exact hpath

theorem append (h : Names names places) (h' : Names names' places') :
    Names (names ++ names') (places ++ places') := by
  refine ⟨fun place hplace => ?_, by rw [h.eq, h'.eq, List.filterMap_append]⟩
  rcases List.mem_append.mp hplace with hplace | hplace
  · exact h.hasPath place hplace
  · exact h'.hasPath place hplace

theorem flatMap {α : Type} {f : α → List String} {g : α → List Place} (h : ∀ a, Names (f a) (g a))
    (as : List α) : Names (as.flatMap f) (as.flatMap g) := by
  induction as with
  | nil => exact nil
  | cons a rest ih =>
    rw [List.flatMap_cons, List.flatMap_cons]
    exact (h a).append ih

theorem reportedNames_eq (h : Names names places) : reportedNames places = names := by
  rw [reportedNames, List.filter_eq_self.mpr, h.eq]
  intro place hplace
  exact decide_eq_true fun hinert => h.hasPath place hplace hinert.1

/-- Where nothing is reported below the top level, nothing was captured there. -/
theorem eq_nil_iff (h : Names names places) : names = [] ↔ places = [] := by
  rw [h.eq]
  constructor
  · intro hnil
    cases places with
    | nil => rfl
    | cons place rest =>
      have hnone := List.filterMap_eq_nil_iff.mp hnil place List.mem_cons_self
      rw [reportedName, if_neg (h.hasPath place List.mem_cons_self)] at hnone
      exact absurd hnone (sanitizeParameterName_ne_none _ _)
  · rintro rfl
    rfl

end Names

theorem WireContentPart.names (p : WireContentPart) : Names p.parameters p.captured := by
  cases p with
  | file => exact .nil
  | text => exact .collect (by decide)
  | imageUrl => exact (Names.collect (by decide)).append (.collect (by decide))
  | unsupported => exact .nil

theorem WireContent.names (content : WireContent) : Names content.parameters content.captured := by
  cases content with
  | text => exact .nil
  | parts ps => exact .flatMap WireContentPart.names ps

theorem WireToolCall.names (call : WireToolCall) : Names call.parameters call.captured :=
  (Names.collect (by decide)).append (.collect (by decide))

theorem WireMessage.names (message : WireMessage) : Names message.parameters message.captured :=
  ((Names.collect (by decide)).append (.flatMap WireContent.names _)).append
    (.flatMap WireToolCall.names _)

theorem WireTool.names (tool : WireTool) : Names tool.parameters tool.captured :=
  (Names.collect (by decide)).append (.collect (by decide))

theorem WireToolChoice.names (choice : WireToolChoice) : Names choice.parameters choice.captured := by
  cases choice with
  | mode => exact .nil
  | named => exact (Names.collect (by decide)).append (.collect (by decide))

theorem WireResponseFormat.names (format : WireResponseFormat) :
    Names format.parameters format.captured := by
  cases format with
  | text => exact .collect (by decide)
  | jsonObject => exact .collect (by decide)
  | jsonSchema => exact (Names.collect (by decide)).append (.collect (by decide))

namespace ChatCompletionRequest

variable (r : ChatCompletionRequest)

theorem names : Names r.nestedNames r.nested :=
  ((((Names.flatMap (fun _ => .collect (by decide)) _).append (.flatMap WireMessage.names _)).append
    (.flatMap WireTool.names _)).append (.flatMap WireToolChoice.names _)).append
    (.flatMap WireResponseFormat.names _)

/-- The names of what was captured. -/
theorem reportedNames_captured :
    reportedNames (placed "" r.unsupported ++ r.nested) = r.topNames ++ r.nestedNames := by
  have htop : reportedNames (placed "" r.unsupported) = r.topNames := by
    rw [topNames, reportedNames, placed, List.filter_map, List.filterMap_map]
    congr 1
    refine List.filter_congr fun key _ => ?_
    simp [Inert]
  rw [reportedNames, List.filter_append, List.filterMap_append, ← reportedNames, ← reportedNames, htop,
    r.names.reportedNames_eq]

end ChatCompletionRequest

/-! ## The two modes -/

theorem push_ne_unsupported {ps : List WireContentPart} {parts parts' : ContentParts}
    (h : ps.foldlM ContentParts.push parts = .ok parts') : ∀ p ∈ ps, p ≠ .unsupported := by
  induction ps generalizing parts with
  | nil => exact fun p hp => nomatch hp
  | cons p rest ih =>
    rw [List.foldlM_cons] at h
    obtain ⟨parts₁, hpush, h⟩ := Fallible.result_bind_ok h
    refine List.forall_mem_cons.mpr ⟨?_, ih h⟩
    rintro rfl
    cases hpush

theorem mapM_ok_mem {ε α β : Type} {f : α → Except ε β} {as : List α} {bs : List β}
    (h : as.mapM f = .ok bs) : ∀ a ∈ as, ∃ b, f a = .ok b := by
  induction as generalizing bs with
  | nil => exact fun a ha => nomatch ha
  | cons a rest ih =>
    rw [List.mapM_cons] at h
    obtain ⟨b, hb, h⟩ := Fallible.result_bind_ok h
    obtain ⟨more, hmore, _⟩ := Fallible.result_bind_ok h
    exact List.forall_mem_cons.mpr ⟨⟨b, hb⟩, ih hmore⟩

variable {r : ChatCompletionRequest} {mode : CompatMode} {t : TranslatedRequest}

/-- A request that is translated has no part of an unknown type, and in strict mode it
captured nothing. -/
theorem intoDomain_ok (h : r.intoDomain mode = .ok t) :
    (mode = .strict → r.unsupported = [] ∧ r.nestedParameters = []) ∧
      (∀ message ∈ r.messages, ∀ ps, message.content = some (.parts ps) → ∀ p ∈ ps, p ≠ .unsupported) ∧
      t.ignoredParameters = r.ignoredParameters := by
  unfold ChatCompletionRequest.intoDomain at h
  obtain ⟨_, h⟩ := refuseIf_bind_ok.mp h
  obtain ⟨_, h⟩ := refuseIf_bind_ok.mp h
  obtain ⟨_, h⟩ := refuseIf_bind_ok.mp h
  obtain ⟨hstrict, h⟩ := refuseIf_bind_ok.mp h
  obtain ⟨_, _, h⟩ := Fallible.result_bind_ok h
  obtain ⟨_, _, h⟩ := Fallible.result_bind_ok h
  obtain ⟨messages, hmessages, h⟩ := Fallible.result_bind_ok h
  obtain ⟨_, _, h⟩ := Fallible.result_bind_ok h
  obtain ⟨_, _, h⟩ := Fallible.result_bind_ok h
  cases h
  refine ⟨fun hmode => ?_, fun message hmessage ps hps => ?_, rfl⟩
  · rw [hmode] at hstrict
    exact ⟨by_contra fun hne => hstrict ⟨rfl, .inl hne⟩, by_contra fun hne => hstrict ⟨rfl, .inr hne⟩⟩
  · obtain ⟨domain, hdomain⟩ := mapM_ok_mem hmessages message hmessage
    obtain ⟨_, _, hdomain⟩ := Fallible.result_bind_ok hdomain
    obtain ⟨parts, hparts, _⟩ := Fallible.result_bind_ok hdomain
    rw [hps, Option.map_some, Option.getD_some] at hparts
    exact push_ne_unsupported hparts

variable {number : String → Option Float} {v : Json} {place : Place}

/-- The unmodelled keys of a request that is translated are those it captured and those that
are lost. -/
theorem mem_unmodelled (h : ChatCompletionRequest.ofJson? number v = some r)
    (ht : r.intoDomain mode = .ok t) : place ∈ unmodelled v ↔ place ∈ caught v ∨ place ∈ lost v := by
  have hpart : ∀ part ∈ partsOf v,
      (place ∈ unmodelledInPart part ↔ place ∈ caughtInPart part ∨ place ∈ lostInPart part) := by
    intro part hpart
    obtain ⟨message, hmessage, ps, hps, p, hp, hread⟩ := mem_partsOf h hpart
    exact WireContentPart.mem_unmodelled hread ((intoDomain_ok ht).2.1 message hmessage ps hps p hp)
  rw [unmodelled, caught, lost, mem_each_parts, mem_places, @mem_places caughtInPart]
  constructor
  · rintro (hplace | ⟨part, hmem, hplace⟩)
    · exact .inl (.inl hplace)
    · rcases (hpart part hmem).mp hplace with hcaught | hlost
      · exact .inl (.inr ⟨part, hmem, hcaught⟩)
      · exact .inr ⟨part, hmem, hlost⟩
  · rintro ((hplace | ⟨part, hmem, hplace⟩) | ⟨part, hmem, hplace⟩)
    · exact .inl hplace
    · exact .inr ⟨part, hmem, (hpart part hmem).mpr (.inl hplace)⟩
    · exact .inr ⟨part, hmem, (hpart part hmem).mpr (.inr hplace)⟩

/-- In strict mode a request that is translated captured nothing. -/
theorem caught_of_strict (h : ChatCompletionRequest.ofJson? number v = some r)
    (ht : r.intoDomain .strict = .ok t) : caught v = [] := by
  obtain ⟨htop, hnested⟩ := (intoDomain_ok ht).1 rfl
  have hnames : r.nestedNames = [] := (Firsts.firsts_eq_nil (by decide)).mp hnested
  rw [caught_eq h, htop, r.names.eq_nil_iff.mp hnames]
  rfl

theorem mem_reportedNames {places : List Place} {name : String} :
    name ∈ reportedNames places ↔
      ∃ place ∈ places, ¬ Inert place ∧ reportedName place = some name := by
  simp only [reportedNames, List.mem_filterMap, List.mem_filter, decide_eq_true_eq, and_assoc]

/-- **What the modes honor.** Strict mode accepts a request without unmodelled keys exactly where
none is lost. Lenient mode reports the names of all unmodelled keys that are not inert, or its list
is full, exactly where every name of a lost key is the name of a captured one, or those alone fill
the list. -/
theorem modes_honor (h : ChatCompletionRequest.ofJson? number v = some r) :
    (∀ t, r.intoDomain .strict = .ok t → (unmodelled v = [] ↔ lost v = [])) ∧
    ∀ t, r.intoDomain .lenient = .ok t →
      ((t.ignoredParameters.length = MAX_REPORTED_PARAMETERS ∨
          ∀ name ∈ reportedNames (unmodelled v), name ∈ t.ignoredParameters) ↔
        (MAX_REPORTED_PARAMETERS ≤ (reportedNames (caught v)).toFinset.card ∨
          ∀ name ∈ reportedNames (lost v), name ∈ reportedNames (caught v))) := by
  refine ⟨fun t ht => ?_, fun t ht => ?_⟩
  · have hcaught := caught_of_strict h ht
    constructor
    · intro hnone
      refine List.eq_nil_iff_forall_not_mem.mpr fun place hplace => ?_
      have hmem := (mem_unmodelled h ht).mpr (.inr hplace)
      rw [hnone] at hmem
      cases hmem
    · intro hnone
      refine List.eq_nil_iff_forall_not_mem.mpr fun place hplace => ?_
      have hmem := (mem_unmodelled h ht).mp hplace
      rw [hcaught, hnone] at hmem
      rcases hmem with hmem | hmem <;> cases hmem
  · have hnames : reportedNames (caught v) = r.topNames ++ r.nestedNames := by
      rw [caught_eq h, r.reportedNames_captured]
    have hignored : t.ignoredParameters = Firsts.firsts MAX_REPORTED_PARAMETERS
        (Firsts.firsts MAX_REPORTED_PARAMETERS r.topNames ++
          Firsts.firsts MAX_REPORTED_PARAMETERS r.nestedNames) := (intoDomain_ok ht).2.2
    have hlength := Firsts.length_firsts_append MAX_REPORTED_PARAMETERS r.topNames r.nestedNames
    rw [← hignored, ← hnames] at hlength
    rcases Nat.lt_or_ge (reportedNames (caught v)).toFinset.card MAX_REPORTED_PARAMETERS with hlt | hge
    · -- the list is not full, so it has every name that was captured
      have hmem : ∀ name, name ∈ t.ignoredParameters ↔ name ∈ reportedNames (caught v) := by
        intro name
        rw [hignored, hnames]
        exact Firsts.mem_firsts_append (by rw [← hnames]; exact hlt)
      have hshort : t.ignoredParameters.length ≠ MAX_REPORTED_PARAMETERS := by omega
      rw [or_iff_right hshort, or_iff_right (Nat.not_le.mpr hlt)]
      constructor
      · intro hall name hname
        obtain ⟨place, hplace, hnamed⟩ := mem_reportedNames.mp hname
        exact (hmem name).mp (hall name
          (mem_reportedNames.mpr ⟨place, (mem_unmodelled h ht).mpr (.inr hplace), hnamed⟩))
      · intro hall name hname
        obtain ⟨place, hplace, hnamed⟩ := mem_reportedNames.mp hname
        refine (hmem name).mpr ?_
        rcases (mem_unmodelled h ht).mp hplace with hcaught | hlost
        · exact mem_reportedNames.mpr ⟨place, hcaught, hnamed⟩
        · exact hall name (mem_reportedNames.mpr ⟨place, hlost, hnamed⟩)
    · rw [min_eq_left hge] at hlength
      exact iff_of_true (.inl hlength) (.inl hge)

/-- A request with one file. -/
def fileRequest (beside : List (String × Json)) : Json :=
  .obj [("model", .str "m"),
    ("messages", .arr [.obj [("role", .str "user"),
      ("content", .arr [.obj (("type", .str "file") ::
        ("file", .obj [("filename", .str "a.txt"), ("file_data", .str "data:text/plain;base64,aGk=")]) ::
        beside)])]])]

/-- Whether a mode accepts a request. -/
def accepts (v : Json) (mode : CompatMode) : Bool :=
  ((ChatCompletionRequest.ofJson? (fun _ => none) v).map fun r => (r.intoDomain mode).toBool).getD false

theorem accepts_ok {mode : CompatMode} (h : accepts v mode = true) :
    ∃ r t, ChatCompletionRequest.ofJson? (fun _ => none) v = some r ∧ r.intoDomain mode = .ok t := by
  unfold accepts at h
  cases hr : ChatCompletionRequest.ofJson? (fun _ => none) v with
  | none =>
    rw [hr] at h
    cases h
  | some r =>
    rw [hr, Option.map_some, Option.getD_some] at h
    cases ht : r.intoDomain mode with
    | error e =>
      rw [ht] at h
      cases h
    | ok t => exact ⟨r, t, rfl, ht⟩

/-- Beside a file nothing is lost: strict mode accepts no unmodelled key. -/
theorem file_honored : ∃ r t, ChatCompletionRequest.ofJson? (fun _ => none) (fileRequest []) = some r ∧
    r.intoDomain .strict = .ok t ∧ unmodelled (fileRequest []) = [] := by
  have haccepts : accepts (fileRequest []) .strict = true := by decide +kernel
  obtain ⟨r, t, hr, ht⟩ := accepts_ok haccepts
  exact ⟨r, t, hr, ht, ((modes_honor hr).1 t ht).mpr (by decide)⟩

/-- Beside a file a key is lost: strict mode accepts it, and lenient mode does not report it. -/
theorem file_key_lost : ∃ r t t',
    ChatCompletionRequest.ofJson? (fun _ => none) (fileRequest [("cache_control", .obj [])]) = some r ∧
      r.intoDomain .strict = .ok t ∧ r.intoDomain .lenient = .ok t' ∧ t'.ignoredParameters = [] ∧
      unmodelled (fileRequest [("cache_control", .obj [])]) = [("messages.content", "cache_control")] := by
  have hstrict : accepts (fileRequest [("cache_control", .obj [])]) .strict = true := by decide +kernel
  have hlenient : accepts (fileRequest [("cache_control", .obj [])]) .lenient = true := by decide +kernel
  obtain ⟨r, t, hr, ht⟩ := accepts_ok hstrict
  obtain ⟨r', t', hr', ht'⟩ := accepts_ok hlenient
  rw [hr] at hr'
  cases hr'
  have hnone : (caught (fileRequest [("cache_control", .obj [])])) = [] := by decide
  have hignored : t'.ignoredParameters = [] := by
    rw [caught_eq hr] at hnone
    obtain ⟨htop, hnested⟩ := List.append_eq_nil_iff.mp hnone
    have hnames : r.topNames ++ r.nestedNames = [] := by
      rw [← r.reportedNames_captured, htop, hnested]
      rfl
    obtain ⟨htop, hnested⟩ := List.append_eq_nil_iff.mp hnames
    have hreport : report [] = [] := (Firsts.firsts_eq_nil (by decide)).mpr rfl
    rw [(intoDomain_ok ht').2.2, ChatCompletionRequest.ignoredParameters,
      ChatCompletionRequest.classifyParameters, ChatCompletionRequest.nestedParameters, htop, hnested,
      hreport, List.append_nil, hreport]
  exact ⟨r, t, t', hr, ht, ht', hignored, by decide⟩

end AxiomDesktop.Compat
