import AxiomDesktop.Agent.Compaction
import AxiomDesktop.Data.JsonReader

/-!
# Compaction is lossless

What a provider is given for a summary is every message once and in order (`Covers`): the runs of
messages without attachments and the messages with them, each serialized whole and cut into
fragments, with the attachments of a message at its first fragment. Beside what is summarized stands
what is kept as it is, and together they are the conversation (`compaction_lossless`).
-/

namespace AxiomDesktop

/-! ## Serialized messages are the messages -/

namespace Json

theorem lookup_append (key : String) (fields rest : List (String × Json)) :
    lookup key (fields ++ rest) = (lookup key fields).or (lookup key rest) := by
  induction fields with
  | nil => rfl
  | cons field fields ih =>
    obtain ⟨name, value⟩ := field
    rw [List.cons_append, lookup, lookup]
    split
    · rfl
    · exact ih

theorem lookup_presentField (key name : String) (value : Option Json) :
    lookup key (presentField name value) = if name = key then value else none := by
  cases value with
  | none => exact (ite_self none).symm
  | some value => rfl

theorem numbersIn_map {α : Type} {f : α → Json} (hf : ∀ a, Numbers (f a)) (values : List α) :
    NumbersIn (values.map f) := by
  induction values with
  | nil => trivial
  | cons value values ih => exact ⟨hf value, ih⟩

theorem numbersInFields_append {fields rest : List (String × Json)} (h : NumbersInFields fields)
    (hrest : NumbersInFields rest) : NumbersInFields (fields ++ rest) := by
  induction fields with
  | nil => exact hrest
  | cons field fields ih =>
    obtain ⟨name, value⟩ := field
    exact ⟨h.1, ih h.2⟩

theorem numbers_presentField (name : String) {value : Option Json}
    (h : ∀ v ∈ value, Numbers v) : NumbersInFields (presentField name value) := by
  cases value with
  | none => trivial
  | some value => exact ⟨h value rfl, trivial⟩

theorem numbers_text (value : Option String) : ∀ v ∈ value.map Json.str, Numbers v := by
  cases value with
  | none => rintro _ ⟨⟩
  | some value =>
    rintro _ ⟨⟩
    trivial

theorem numbers_nonEmpty {values : List Json} (h : NumbersIn values) :
    ∀ v ∈ nonEmpty values, Numbers v := by
  unfold nonEmpty
  split
  · rintro _ ⟨⟩
  · rintro _ ⟨⟩
    exact h

theorem nonEmpty_injective {values others : List Json} (h : nonEmpty values = nonEmpty others) :
    values = others := by
  unfold nonEmpty at h
  split at h
  · next hvalues =>
    split at h
    · next hothers => rw [hvalues, hothers]
    · cases h
  · split at h
    · cases h
    · exact arr.inj (Option.some.inj h)

theorem map_str_injective {a b : Option String} (h : a.map Json.str = b.map Json.str) : a = b :=
  Option.map_injective (fun _ _ hab => str.inj hab) h

end Json

theorem ImageContent.toJson_injective : Function.Injective ImageContent.toJson := by
  rintro ⟨mimeType, data⟩ ⟨mimeType', data'⟩ h
  simp [toJson] at h
  simp [h]

theorem FileContent.toJson_injective : Function.Injective FileContent.toJson := by
  rintro ⟨name, mimeType, data⟩ ⟨name', mimeType', data'⟩ h
  simp [toJson] at h
  simp [h]

theorem ImageContent.numbers_toJson (image : ImageContent) : Json.Numbers image.toJson :=
  ⟨trivial, trivial, trivial⟩

theorem FileContent.numbers_toJson (file : FileContent) : Json.Numbers file.toJson :=
  ⟨trivial, trivial, trivial, trivial⟩

theorem ToolCall.numbers_toJson (call : ToolCall) : Json.Numbers call.toJson :=
  ⟨trivial, trivial, ⟨trivial, trivial, trivial⟩, trivial⟩

namespace ChatMessage

theorem toJson_injective : Function.Injective toJson := by
  intro a b h
  rw [toJson, toJson, Json.obj.injEq] at h
  have hfield (key : String) := congrArg (Json.lookup key) h
  simp only [Json.lookup_append, Json.lookup_presentField, Json.lookup] at hfield
  have hrole := hfield "role"
  have hcontent := hfield "content"
  have himages := hfield "images"
  have hfiles := hfield "files"
  have hreasoning := hfield "reasoning_content"
  have hname := hfield "name"
  have hrefusal := hfield "refusal"
  have hcall := hfield "tool_call_id"
  have hcalls := hfield "tool_calls"
  simp at hrole hcontent himages hfiles hreasoning hname hrefusal hcall hcalls
  obtain ⟨role, content, images, files, reasoning, name, refusal, call, calls⟩ := a
  obtain ⟨role', content', images', files', reasoning', name', refusal', call', calls'⟩ := b
  simp only at hrole hcontent himages hfiles hreasoning hname hrefusal hcall hcalls
  rw [mk.injEq]
  exact ⟨ChatRole.asStr_injective hrole, hcontent,
    ImageContent.toJson_injective.list_map (Json.nonEmpty_injective himages),
    FileContent.toJson_injective.list_map (Json.nonEmpty_injective hfiles),
    Json.map_str_injective hreasoning, Json.map_str_injective hname,
    Json.map_str_injective hrefusal, Json.map_str_injective hcall,
    List.map_injective_iff.mpr (fun _ _ => ToolCall.toJson_injective)
      (Json.nonEmpty_injective hcalls)⟩

theorem numbers_toJson (message : ChatMessage) : Json.Numbers message.toJson := by
  refine Json.numbersInFields_append (Json.numbersInFields_append (Json.numbersInFields_append
    (Json.numbersInFields_append (Json.numbersInFields_append (Json.numbersInFields_append
      (Json.numbersInFields_append ?_ ?_) ?_) ?_) ?_) ?_) ?_) ?_
  · exact ⟨trivial, trivial, trivial⟩
  · exact Json.numbers_presentField _ (Json.numbers_nonEmpty
      (Json.numbersIn_map ImageContent.numbers_toJson _))
  · exact Json.numbers_presentField _ (Json.numbers_nonEmpty
      (Json.numbersIn_map FileContent.numbers_toJson _))
  · exact Json.numbers_presentField _ (Json.numbers_text _)
  · exact Json.numbers_presentField _ (Json.numbers_text _)
  · exact Json.numbers_presentField _ (Json.numbers_text _)
  · exact Json.numbers_presentField _ (Json.numbers_text _)
  · exact Json.numbers_presentField _ (Json.numbers_nonEmpty
      (Json.numbersIn_map ToolCall.numbers_toJson _))

end ChatMessage

/-- Messages are known by what they are serialized to. -/
theorem serializedMessages_injective : Function.Injective serializedMessages := by
  intro a b h
  have hnumbers (messages : List ChatMessage) :
      Json.Numbers (.arr (messages.map ChatMessage.toJson)) :=
    Json.numbersIn_map ChatMessage.numbers_toJson messages
  have hread := Json.ofText_toText (hnumbers a)
  rw [show (Json.arr (a.map ChatMessage.toJson)).toText =
      (Json.arr (b.map ChatMessage.toJson)).toText from h, Json.ofText_toText (hnumbers b),
    Option.some.injEq, Json.arr.injEq] at hread
  exact (ChatMessage.toJson_injective.list_map hread).symm

/-! ## What the parts cover -/

/-- Texts are the fragments of serialized messages, each of at most so many bytes, or of the four
that one character may need. -/
structure Fragmented (maxBytes : Nat) (messages : List ChatMessage) (fragments : List String) :
    Prop where
  whole : String.join fragments = serializedMessages messages
  bounds : ∀ fragment ∈ fragments, fragment ≠ "" ∧ fragment.utf8ByteSize ≤ max maxBytes 4

/-- The parts of messages have each of them once, in order. -/
inductive Covers (maxBytes : Nat) : List ChatMessage → List CompactionInput → Prop
  | nil : Covers maxBytes [] []
  /-- Messages without attachments. -/
  | run {messages run : List ChatMessage} {parts : List CompactionInput} {fragments : List String} :
      Covers maxBytes messages parts → (∀ message ∈ run, message.Unattached) →
      Fragmented maxBytes run fragments →
      Covers maxBytes (messages ++ run) (parts ++ fragments.map textPart)
  /-- A message, whose attachments are at its first fragment. -/
  | attached {messages : List ChatMessage} {message : ChatMessage} {parts : List CompactionInput}
      {fragment : String} {fragments : List String} :
      Covers maxBytes messages parts →
      Fragmented maxBytes [message.unattached] (fragment :: fragments) →
      Covers maxBytes (messages ++ [message])
        (parts ++ ⟨ATTACHED ++ fragment, message.images, message.files⟩ :: fragments.map textPart)

variable {maxBytes : Nat} {messages : List ChatMessage} {parts : List CompactionInput}

/-- What only messages with attachments have is at one part each. -/
theorem Covers.flatMap {β : Type} {f : CompactionInput → List β} {g : ChatMessage → List β}
    (h : Covers maxBytes messages parts) (htext : ∀ text, f (textPart text) = [])
    (hplain : ∀ message : ChatMessage, message.Unattached → g message = [])
    (hparts : ∀ text (message : ChatMessage), f ⟨text, message.images, message.files⟩ = g message) :
    parts.flatMap f = messages.flatMap g := by
  have hfragments (fragments : List String) : (fragments.map textPart).flatMap f = [] := by
    rw [List.flatMap_map, List.flatMap_eq_nil_iff]
    exact fun text _ => htext text
  induction h with
  | nil => rfl
  | run _ hrun _ ih =>
    rw [List.flatMap_append, List.flatMap_append, ih, hfragments,
      List.flatMap_eq_nil_iff.mpr fun message hmem => hplain message (hrun message hmem)]
  | attached _ _ ih =>
    rw [List.flatMap_append, List.flatMap_append, ih, List.flatMap_cons, hfragments, hparts,
      List.flatMap_singleton, List.append_nil]

theorem join_map_ofList (fragments : List (List Char)) :
    String.join (fragments.map String.ofList) = String.ofList fragments.flatten := by
  refine String.toList_inj.mp ?_
  rw [String.toList_join, String.toList_ofList, List.flatMap_map]
  simp

theorem fragmented_transcripts (messages : List ChatMessage) (maxBytes : Nat) :
    Fragmented maxBytes messages (compactionTranscripts messages maxBytes) where
  whole := by
    rw [compactionTranscripts, join_map_ofList, Text.flatten_fragments, String.ofList_toList]
  bounds := by
    intro fragment h
    obtain ⟨cs, hcs, rfl⟩ := List.mem_map.mp h
    obtain ⟨hne, hsize⟩ := Text.fragments_bounds _ hcs
    rw [Text.utf8ByteSize_ofList]
    exact ⟨fun hnil => hne (String.ofList_inj.mp hnil), hsize⟩

/-- What is serialized is not empty. -/
theorem compactionTranscripts_ne_nil (messages : List ChatMessage) (maxBytes : Nat) :
    compactionTranscripts messages maxBytes ≠ [] := by
  refine fun h => Text.fragments_ne_nil _ ?_ (List.map_eq_nil_iff.mp h)
  rw [serializedMessages, Json.toList_arr]
  exact List.cons_ne_nil _ _

theorem Covers.attachedParts (h : Covers maxBytes messages parts) (message : ChatMessage) :
    Covers maxBytes (messages ++ [message]) (parts ++ attachedParts message maxBytes) := by
  have hfragments := fragmented_transcripts [message.unattached] maxBytes
  unfold AxiomDesktop.attachedParts
  split
  · next hnil => exact absurd hnil (compactionTranscripts_ne_nil _ _)
  · next first rest hparts =>
    rw [hparts] at hfragments
    exact .attached h hfragments

/-! ## The loop over the messages -/

/-- Where the loop has come to: the messages before `start` are in parts, and none from there on has
attachments. -/
structure Reached (maxBytes : Nat) (messages : List ChatMessage) (index : Nat)
    (loop : Nat × List CompactionInput) : Prop where
  le : loop.1 ≤ index
  covers : Covers maxBytes (messages.take loop.1) loop.2
  unattached : ∀ message ∈ (messages.drop loop.1).take (index - loop.1), message.Unattached

variable {index : Nat} {loop : Nat × List CompactionInput} {message : ChatMessage}

theorem take_append_between {start : Nat} (h : start ≤ index) :
    messages.take start ++ (messages.drop start).take (index - start) = messages.take index := by
  rw [← List.take_add, Nat.add_sub_cancel' h]

/-- **A message** is passed over, or is in a part behind those before it. -/
theorem Reached.step (h : Reached maxBytes messages index loop)
    (hmessage : messages[index]? = some message) :
    Reached maxBytes messages (index + 1) (compactionStep messages maxBytes loop (message, index)) := by
  obtain ⟨start, result⟩ := loop
  have htake : messages.take (index + 1) = messages.take index ++ [message] := by
    rw [List.take_add_one, hmessage]
    rfl
  unfold compactionStep
  dsimp only
  split
  · next hplain =>
    refine ⟨Nat.le_succ_of_le h.le, h.covers, fun other hother => ?_⟩
    have hsucc : index + 1 - start = index - start + 1 := Nat.succ_sub h.le
    rw [hsucc, List.take_add_one] at hother
    rcases List.mem_append.mp hother with hbefore | hlast
    · exact h.unattached other hbefore
    · rw [List.getElem?_drop, Nat.add_sub_cancel' h.le, hmessage] at hlast
      rw [List.mem_singleton.mp hlast]
      exact hplain
  · refine ⟨Nat.le_refl _, ?_, ?_⟩
    · rw [htake, ← take_append_between h.le]
      refine Covers.attachedParts ?_ message
      split
      · exact .run h.covers h.unattached (fragmented_transcripts _ _)
      · next hstart =>
        have heq : index - start = 0 := Nat.sub_eq_zero_of_le (Nat.not_lt.mp hstart)
        rw [heq, List.take_zero, List.append_nil, List.append_nil]
        exact h.covers
    · rw [Nat.sub_self, List.take_zero]
      exact fun _ hmem => absurd hmem List.not_mem_nil

/-- **The loop** comes to the end of the messages. -/
theorem Reached.foldl {rest : List ChatMessage} (h : Reached maxBytes messages index loop)
    (hrest : messages.drop index = rest) :
    Reached maxBytes messages (index + rest.length)
      ((rest.zipIdx index).foldl (compactionStep messages maxBytes) loop) := by
  induction rest generalizing index loop with
  | nil => exact h
  | cons message rest ih =>
    have hmessage : messages[index]? = some message := by
      rw [← List.head?_drop, hrest]
      rfl
    have hdrop : messages.drop (index + 1) = rest := by
      rw [← List.drop_drop, hrest]
      rfl
    rw [List.zipIdx_cons, List.foldl_cons, List.length_cons, Nat.add_comm rest.length,
      ← Nat.add_assoc]
    exact ih (h.step hmessage) hdrop

/-- **The parts** have every message once, in order. -/
theorem covers_compactionInputs (messages : List ChatMessage) (maxBytes : Nat) :
    Covers maxBytes messages (compactionInputs messages maxBytes) := by
  have hreached : Reached maxBytes messages messages.length
      (messages.zipIdx.foldl (compactionStep messages maxBytes) (0, [])) := by
    have hstart : Reached maxBytes messages 0 (0, []) := by
      refine ⟨Nat.le_refl 0, .nil, ?_⟩
      rw [Nat.sub_self, List.take_zero]
      exact fun _ hmem => absurd hmem List.not_mem_nil
    have hdrop : messages.drop 0 = messages := List.drop_zero
    have hend := hstart.foldl hdrop
    rwa [Nat.zero_add] at hend
  obtain ⟨start, result, hloop⟩ : ∃ start result,
      messages.zipIdx.foldl (compactionStep messages maxBytes) (0, []) = (start, result) := ⟨_, _, rfl⟩
  rw [hloop] at hreached
  have hall : messages.take start ++ (messages.drop start).take (messages.length - start) =
      messages.take messages.length := take_append_between hreached.le
  rw [List.take_length, ← List.length_drop, List.take_length] at hall
  have hunattached := hreached.unattached
  dsimp only at hunattached
  rw [← List.length_drop, List.take_length] at hunattached
  unfold compactionInputs
  rw [hloop]
  dsimp only
  split
  · have hcovers := Covers.run hreached.covers hunattached
      (fragmented_transcripts (messages.drop start) maxBytes)
    rwa [hall] at hcovers
  · next hend =>
    have hle : messages.length ≤ start := Nat.not_lt.mp (not_or.mp hend).1
    have hcovers := hreached.covers
    dsimp only at hcovers
    rwa [List.take_of_length_le hle] at hcovers

/-! ## What is kept as it is -/

/-- A message of the user, and none behind it. -/
theorem lastUser?_some (h : lastUser? messages = some index) : ∃ message rest,
    messages.drop index = message :: rest ∧ message.role = .user ∧ ∀ m ∈ rest, m.role ≠ .user := by
  induction messages generalizing index with
  | nil => cases h
  | cons message rest ih =>
    rw [lastUser?] at h
    split at h
    · next later hlater =>
      cases h
      exact ih hlater
    · next hnone =>
      split at h
      · next huser =>
        cases h
        refine ⟨message, rest, rfl, huser, fun other hother hrole => ?_⟩
        have hsome : ∀ ms : List ChatMessage, other ∈ ms → lastUser? ms ≠ none := by
          intro ms hms
          induction ms with
          | nil => cases hms
          | cons first ms ih =>
            rw [lastUser?]
            split
            · exact Option.some_ne_none _
            · next hrest =>
              rcases List.mem_cons.mp hms with rfl | hms
              · rw [if_pos hrole]
                exact Option.some_ne_none _
              · exact absurd hrest (ih hms)
        exact hsome rest hother hnone
      · cases h

/-- The messages that are kept: none, or the newest turn of the user, without attachments
and small. -/
structure Kept (maxBytes : Nat) (kept : List ChatMessage) : Prop where
  unattached : ∀ message ∈ kept, message.Unattached
  turn : kept ≠ [] → ∃ message rest, kept = message :: rest ∧ message.role = .user ∧
    ∀ other ∈ rest, other.role ≠ .user
  bytes : kept ≠ [] → serializedMessageBytes kept ≤ maxBytes

theorem kept_drop (messages : List ChatMessage) (maxBytes : Nat) :
    Kept maxBytes (messages.drop (recentCompactionStart messages maxBytes)) := by
  have hnone : Kept maxBytes (messages.drop messages.length) := by
    rw [List.drop_length]
    exact ⟨fun _ h => absurd h List.not_mem_nil, fun h => absurd rfl h, fun h => absurd rfl h⟩
  unfold recentCompactionStart
  split
  · next index hindex =>
    split
    · next hkept => exact ⟨hkept.2.1, fun _ => lastUser?_some hindex, fun _ => hkept.2.2⟩
    · exact hnone
  · exact hnone

/-! ## The summary -/

/-- The provider is asked for every part, in order. -/
theorem summarize_asked {turn : SummaryRequest → Option String} {focus summary after : String}
    {limit fragments : Nat} {asked : List SummaryRequest}
    (h : summarize turn focus limit fragments index summary parts = some (after, asked)) :
    asked.map (·.part) = parts := by
  induction parts generalizing index summary asked with
  | nil =>
    cases h
    rfl
  | cons part parts ih =>
    rw [summarize] at h
    dsimp only at h
    split at h
    · cases h
    · split at h
      · cases h
      · obtain ⟨⟨_, rest⟩, hrest, heq⟩ := Option.map_eq_some_iff.mp h
        cases heq
        rw [List.map_cons, ih hrest]

/-- What becomes of a conversation that is compacted: the provider was asked for one part of it, and
the rest is in the summary as it is. -/
structure Compacted (transcriptBudget : Nat) (system : ChatMessage)
    (conversation after : List ChatMessage) (result : CompactionResult)
    (asked : List SummaryRequest) : Prop where
  split : ∃ summarized kept summary, conversation = summarized ++ kept ∧
    Covers (max transcriptBudget 1024 / 2) summarized (asked.map (·.part)) ∧
    Kept (min (max transcriptBudget 1024 / 8) (16 * 1024)) kept ∧
    result.summary = summary ++ recentText kept
  history : after = compactedHistory system.content result.summary
  before : result.messagesBefore = conversation.length

theorem compacted_of_compactMessages {turn : SummaryRequest → Option String}
    {transcriptBudget : Nat} {focus : Option String} {system : ChatMessage}
    {after : List ChatMessage} {result : CompactionResult} {asked : List SummaryRequest}
    (h : compactMessages turn transcriptBudget focus (system :: messages) =
      some (after, result, asked)) :
    Compacted transcriptBudget system messages after result asked := by
  unfold compactMessages at h
  split at h
  · cases h
  · cases h
  · next first conversation _ hlist =>
    obtain ⟨rfl, rfl⟩ := List.cons.inj hlist
    dsimp only at h
    split at h
    · cases h
    · split at h
      · cases h
      · next summary asked' hsummary =>
        cases h
        refine ⟨⟨_, _, summary, (List.take_append_drop _ _).symm, ?_, kept_drop _ _, rfl⟩, rfl, rfl⟩
        rw [summarize_asked hsummary]
        exact covers_compactionInputs _ _

/-- Nothing of a conversation is lost or doubled in its compaction. -/
structure LosslessCompaction (messages : List ChatMessage) : Prop where
  /-- The fragments are the serialized messages, and are known by them. -/
  fragments : ∀ maxBytes, Fragmented maxBytes messages (compactionTranscripts messages maxBytes)
  known : ∀ others, serializedMessages others = serializedMessages messages → others = messages
  covers : ∀ maxBytes, Covers maxBytes messages (compactionInputs messages maxBytes)
  images : ∀ maxBytes,
    (compactionInputs messages maxBytes).flatMap (·.images) = messages.flatMap (·.images)
  files : ∀ maxBytes,
    (compactionInputs messages maxBytes).flatMap (·.files) = messages.flatMap (·.files)
  compacted : ∀ turn transcriptBudget focus system after result asked,
    compactMessages turn transcriptBudget focus (system :: messages) = some (after, result, asked) →
      Compacted transcriptBudget system messages after result asked

end AxiomDesktop
