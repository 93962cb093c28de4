import AxiomDesktop.Session.Accounts
import AxiomDesktop.Session.History

/-!
# Verified text

What a row of the timeline that is marked as verified owes to the history of its store
(`verified_text_is_attested`): the report of the request it names marked it, every piece of its text
was persisted while that request ran in its turn, and nothing changes the text any more. The turn
of a request is a parameter of the results: a report may not move a request to another turn, nor
name it by a text that redaction changes (`Write.ReportsAs`).
-/

namespace AxiomDesktop.Store

open Fallible

/-! ## Rows of text -/

/-- The kinds a verification marks. -/
def isText (kind : TimelineItemKind) : Bool := kind = .assistantMessage || kind = .reasoning

/-- `terminal_verified` is set. -/
def isVerified (metadata : Json) : Prop := metadata.get? "terminal_verified" = some (.bool true)

/-- The request a row names. -/
def requestOf (metadata : Json) : Option String :=
  match metadata.get? "request_id" with
  | some (.str r) => some r
  | _ => none

/-- The text a step appended. -/
def Step.text (d : Step) : String :=
  ((d.event.bind fun e => deltaOf e.event).map fun delta => redactText delta.2.2).getD ""

/-- A step that persisted a delta of a row's turn and kind while the request the row names was the
running one of the turn. -/
def Step.Appends (d : Step) (i : TimelineItem) : Prop :=
  ∃ e T text, d.event = some e ∧ e.sessionId.toString = i.threadId ∧ i.turnId = some T ∧
    deltaOf e.event = some (T, i.kind, text) ∧
    d.before.runningRequest i.threadId T = requestOf i.metadata

/-- A step that persisted the verified report of a request, which marked a row. -/
def Step.Marks (d : Step) (R : String) (i : TimelineItem) : Prop :=
  ∃ e usage, d.event = some e ∧ e.sessionId.toString = i.threadId ∧
    e.event = .requestUsageUpdated usage ∧ usage.responseVerified = true ∧ usage.requestId = R ∧
    ∃ j ∈ d.after.timelineItems.rows, j.id = i.id ∧ isVerified j.metadata ∧ j.content = i.content

/-- What the text of a row owes to the history. -/
structure TextRow (turnOf : String → String → Option String) (os : List Step) (s : Database)
    (i : TimelineItem) : Prop where
  object : ∃ fields, i.metadata = .obj fields
  alone : i.externalId = none
  stable : ∀ R, requestOf i.metadata = some R → redactText R = R
  pieces : ∃ ds : List Step, ds.Sublist os ∧ (∀ d ∈ ds, d.Appends i) ∧
    i.content = String.join (ds.map Step.text)
  request : ∀ R, requestOf i.metadata = some R → i.content ≠ "" →
    (∃ r, s.record? i.threadId R = some r) ∧ ∃ T, i.turnId = some T ∧ turnOf i.threadId R = some T
  marked : ∀ R, requestOf i.metadata = some R → isVerified i.metadata → i.content ≠ "" →
    ∃ d ∈ os, d.Marks R i

/-- The records name their turns, by texts redaction leaves. -/
structure RecordsOf (turnOf : String → String → Option String) (s : Database) : Prop where
  keyed : s.Keyed
  turn : ∀ u ∈ s.requestUsage.rows, u.record.turnId = turnOf u.threadId u.requestId
  stable : ∀ u ∈ s.requestUsage.rows, redactText u.requestId = u.requestId

/-- The invariant: the records name their turns, the texts are attested by the history, and no
other row is marked. -/
structure Attested (turnOf : String → String → Option String) (os : List Step) (s : Database) :
    Prop where
  records : RecordsOf turnOf s
  texts : ∀ i ∈ s.timelineItems.rows, isText i.kind = true → TextRow turnOf os s i
  notes : ∀ i ∈ s.timelineItems.rows, isText i.kind = false → Noted i.metadata

section Rules

variable {turnOf : String → String → Option String} {os : List Step} {s s' : Database}
  {t : String}

/-- Two rows that differ in their status and times alone. -/
structure SameText (i i' : TimelineItem) : Prop where
  id : i'.id = i.id
  threadId : i'.threadId = i.threadId
  turnId : i'.turnId = i.turnId
  kind : i'.kind = i.kind
  externalId : i'.externalId = i.externalId
  content : i'.content = i.content
  metadata : i'.metadata = i.metadata

theorem SameText.refl (i : TimelineItem) : SameText i i := ⟨rfl, rfl, rfl, rfl, rfl, rfl, rfl⟩

theorem SameText.trans {i i' i'' : TimelineItem} (h : SameText i i') (h' : SameText i' i'') :
    SameText i i'' :=
  ⟨h'.id.trans h.id, h'.threadId.trans h.threadId, h'.turnId.trans h.turnId, h'.kind.trans h.kind,
    h'.externalId.trans h.externalId, h'.content.trans h.content, h'.metadata.trans h.metadata⟩

/-- The records of a thread are still there. -/
def RecordsKept (t : String) (s s' : Database) : Prop :=
  ∀ R r, s.record? t R = some r → ∃ r', s'.record? t R = some r'

theorem Step.Appends.same {d : Step} {i i' : TimelineItem} (h : d.Appends i) (hi : SameText i i') :
    d.Appends i' := by
  unfold Step.Appends at *
  rw [hi.threadId, hi.turnId, hi.kind, hi.metadata]
  exact h

theorem Step.Marks.same {d : Step} {R : String} {i i' : TimelineItem} (h : d.Marks R i)
    (hi : SameText i i') : d.Marks R i' := by
  unfold Step.Marks at *
  rw [hi.threadId, hi.id, hi.content]
  exact h

theorem TextRow.same {i i' : TimelineItem} (h : TextRow turnOf os s i) (hi : SameText i i')
    (hkept : RecordsKept i.threadId s s') : TextRow turnOf os s' i' := by
  constructor
  · rw [hi.metadata]
    exact h.object
  · rw [hi.externalId]
    exact h.alone
  · rw [hi.metadata]
    exact h.stable
  · obtain ⟨ds, hds, happends, hcontent⟩ := h.pieces
    exact ⟨ds, hds, fun d hd => (happends d hd).same hi, hi.content.trans hcontent⟩
  · intro R hR hne
    rw [hi.metadata] at hR
    rw [hi.content] at hne
    obtain ⟨⟨r, hr⟩, T, hT, hturn⟩ := h.request R hR hne
    rw [hi.threadId, hi.turnId]
    exact ⟨hkept R r hr, T, hT, hturn⟩
  · intro R hR hverified hne
    rw [hi.metadata] at hR hverified
    rw [hi.content] at hne
    obtain ⟨d, hd, hmarks⟩ := h.marked R hR hverified hne
    exact ⟨d, hd, hmarks.same hi⟩

/-- More history attests what the history attested. -/
theorem Attested.extend (h : Attested turnOf os s) (e : Step) : Attested turnOf (os ++ [e]) s := by
  refine ⟨h.records, ?_, h.notes⟩
  intro i hi htext
  have hrow := h.texts i hi htext
  refine ⟨hrow.object, hrow.alone, hrow.stable, ?_, hrow.request, ?_⟩
  · obtain ⟨ds, hds, hrest⟩ := hrow.pieces
    exact ⟨ds, hds.trans (List.sublist_append_left os [e]), hrest⟩
  · intro R hR hverified hne
    obtain ⟨d, hd, hmarks⟩ := hrow.marked R hR hverified hne
    exact ⟨d, List.mem_append_left _ hd, hmarks⟩

/-- **The transfer rule.** A change of the tables keeps the invariant if it keeps the records, and
every row is an old one, a note, or a text that is attested. -/
theorem Attested.transfer (h : Attested turnOf os s) (hrecords : RecordsOf turnOf s')
    (hkept : ∀ i' ∈ s'.timelineItems.rows, RecordsKept i'.threadId s s')
    (hrows : ∀ i' ∈ s'.timelineItems.rows, (∃ i ∈ s.timelineItems.rows, SameText i i') ∨
      isText i'.kind = false ∧ Noted i'.metadata ∨
      isText i'.kind = true ∧ TextRow turnOf os s' i') : Attested turnOf os s' := by
  refine ⟨hrecords, ?_, ?_⟩
  · intro i' hi' htext
    obtain ⟨i, hi, hsame⟩ | ⟨hnot, -⟩ | ⟨-, hrow⟩ := hrows i' hi'
    · refine (h.texts i hi (hsame.kind ▸ htext)).same hsame ?_
      rw [← hsame.threadId]
      exact hkept i' hi'
    · rw [hnot] at htext
      cases htext
    · exact hrow
  · intro i' hi' hnot
    obtain ⟨i, hi, hsame⟩ | ⟨-, hnoted⟩ | ⟨htext, -⟩ := hrows i' hi'
    · rw [hsame.metadata]
      exact h.notes i hi (hsame.kind ▸ hnot)
    · exact hnoted
    · rw [hnot] at htext
      cases htext

/-! ### Records -/

theorem recordsKept_of_eq (h : s'.requestUsage = s.requestUsage) : RecordsKept t s s' := by
  intro R r hr
  exact ⟨r, by rw [Database.record?, h]; exact hr⟩

theorem RecordsOf.of_eq (hs : RecordsOf turnOf s) (h : s'.requestUsage = s.requestUsage) :
    RecordsOf turnOf s' :=
  ⟨fun u hu => hs.keyed u (h ▸ hu), fun u hu => hs.turn u (h ▸ hu),
    fun u hu => hs.stable u (h ▸ hu)⟩

theorem recordsKept_update {p : StoredUsage → Bool} {f : StoredUsage → StoredUsage}
    (hf : ∀ u, (f u).requestId = u.requestId) (hthread : ∀ u, (f u).threadId = u.threadId) :
    RecordsKept t s { s with requestUsage := s.requestUsage.update p f hf } := by
  intro R r hr
  obtain ⟨u, hu, hid, hut, rfl⟩ := record?_eq_some.mp hr
  have hid' : (Rows.edit p f u).requestId = u.requestId := Rows.edit_keeps hf u
  have hut' : (Rows.edit p f u).threadId = u.threadId := Rows.edit_keeps hthread u
  refine ⟨(Rows.edit p f u).record, record?_eq_some.mpr ⟨Rows.edit p f u, ?_, ?_, ?_, rfl⟩⟩
  · exact List.mem_map_of_mem hu
  · rw [hid', hid]
  · rw [hut', hut]

theorem recordsKept_putUsage {t' : String} (usage : RequestUsage) :
    RecordsKept t s (s.putUsage t' usage) := by
  unfold Database.putUsage
  split
  · rename_i rows hinsert
    intro R r hr
    obtain ⟨u, hu, hid, hut, hrecord⟩ := record?_eq_some.mp hr
    exact ⟨r, record?_eq_some.mpr ⟨u, (Rows.mem_insert? hinsert).mpr (.inl hu), hid, hut, hrecord⟩⟩
  · exact recordsKept_update _ fun _ => rfl

/-- A change of records that keeps their requests and turns. -/
theorem RecordsOf.update (hs : RecordsOf turnOf s) {p : StoredUsage → Bool}
    {f : RequestUsage → RequestUsage} (hid : ∀ r, (f r).requestId = r.requestId)
    (hturn : ∀ u ∈ s.requestUsage.rows, p u = true → (f u.record).turnId = u.record.turnId) :
    RecordsOf turnOf { s with
      requestUsage := s.requestUsage.update p (fun u => { u with record := f u.record })
        fun _ => rfl } := by
  refine ⟨keyed_update hs.keyed hid, ?_, ?_⟩
  · intro u' hu'
    obtain ⟨u, hu, rfl⟩ := List.mem_map.mp hu'
    unfold Rows.edit
    split
    · rename_i hp
      exact (hturn u hu hp).trans (hs.turn u hu)
    · exact hs.turn u hu
  · intro u' hu'
    obtain ⟨u, hu, rfl⟩ := List.mem_map.mp hu'
    unfold Rows.edit
    split
    · exact hs.stable u hu
    · exact hs.stable u hu

theorem RecordsOf.putUsage (hs : RecordsOf turnOf s) {usage : RequestUsage}
    (hstable : redactText usage.requestId = usage.requestId)
    (hturn : usage.turnId = turnOf t usage.requestId) :
    RecordsOf turnOf (s.putUsage t usage) := by
  refine ⟨putUsage_keyed hs.keyed usage, ?_, ?_⟩
  · intro u' hu'
    unfold Database.putUsage at hu'
    dsimp only at hu'
    split at hu'
    · rename_i rows hinsert
      obtain hu | rfl := (Rows.mem_insert? hinsert).mp hu'
      · exact hs.turn u' hu
      · exact hturn
    · obtain ⟨u, hu, rfl⟩ := Rows.mem_update.mp hu'
      unfold Rows.edit
      split
      · rename_i hp
        simp only [Bool.and_eq_true, decide_eq_true_eq] at hp
        show usage.turnId = turnOf u.threadId u.requestId
        rw [hp.1, hp.2, hturn]
      · exact hs.turn u hu
  · intro u' hu'
    unfold Database.putUsage at hu'
    dsimp only at hu'
    split at hu'
    · rename_i rows hinsert
      obtain hu | rfl := (Rows.mem_insert? hinsert).mp hu'
      · exact hs.stable u' hu
      · exact hstable
    · obtain ⟨u, hu, rfl⟩ := Rows.mem_update.mp hu'
      unfold Rows.edit
      split
      · exact hs.stable u hu
      · exact hs.stable u hu

theorem RecordsOf.finishTurn (hs : RecordsOf turnOf s) (T : String) (status : TurnStatus)
    (error : Option String) (now finished : String) :
    RecordsOf turnOf (s.finishTurn t T status error now finished) := by
  have hupdate := hs.update
    (p := fun u => u.threadId = t && u.record.turnId = some T && u.record.state = .running)
    (f := endRequest status finished) (fun _ => rfl) (fun _ _ _ => rfl)
  unfold Database.finishTurn
  dsimp only
  split
  · exact hupdate.of_eq rfl
  · exact hs.of_eq rfl

theorem recordsKept_finishTurn {t' : String} (T : String) (status : TurnStatus)
    (error : Option String) (now finished : String) :
    RecordsKept t' s (s.finishTurn t T status error now finished) := by
  have hupdate := recordsKept_update (s := s) (t := t')
    (p := fun u => u.threadId = t && u.record.turnId = some T && u.record.state = .running)
    (f := fun u => { u with record := endRequest status finished u.record })
    (fun _ => rfl) (fun _ => rfl)
  unfold Database.finishTurn
  dsimp only
  split
  · exact fun R r hr => hupdate R r hr
  · exact recordsKept_of_eq rfl

theorem RecordsOf.settleStored (hs : RecordsOf turnOf s) (snapshot : RequestUsage) :
    RecordsOf turnOf (settleStored t s snapshot) ∧
      ∀ t', RecordsKept t' s (settleStored t s snapshot) := by
  refine ⟨⟨settleStored_keyed hs.keyed snapshot, ?_, ?_⟩, ?_⟩
  · intro u hu
    obtain ⟨v, hv, rfl⟩ := (mem_settleStored hs.keyed).mp hu
    split
    · exact hs.turn v hv
    · exact hs.turn v hv
  · intro u hu
    obtain ⟨v, hv, rfl⟩ := (mem_settleStored hs.keyed).mp hu
    split
    · exact hs.stable v hv
    · exact hs.stable v hv
  · intro t'
    unfold Store.settleStored
    split
    · exact recordsKept_of_eq rfl
    · split
      · exact recordsKept_of_eq rfl
      · exact recordsKept_update _ fun _ => rfl

theorem RecordsOf.settleAll (hs : RecordsOf turnOf s) (snapshots : List RequestUsage) :
    RecordsOf turnOf (snapshots.foldl (Store.settleStored t) s) ∧
      ∀ t', RecordsKept t' s (snapshots.foldl (Store.settleStored t) s) := by
  induction snapshots generalizing s with
  | nil => exact ⟨hs, fun _ => recordsKept_of_eq rfl⟩
  | cons snapshot rest ih =>
    obtain ⟨hfirst, hkept⟩ := hs.settleStored snapshot
    obtain ⟨hall, hkept'⟩ := ih hfirst
    refine ⟨hall, fun t' R r hr => ?_⟩
    obtain ⟨r', hr'⟩ := hkept t' R r hr
    exact hkept' t' R r' hr'

/-! ### Metadata -/

theorem requestOf_of_is {m : Json} {q : Option String} (h : requestIdIs m q = true) :
    requestOf m = q := by
  unfold requestIdIs at h
  unfold requestOf
  split at h
  · rename_i hget
    rw [hget]
  · rename_i hget
    rw [hget]
  · rename_i hget
    rw [hget, of_decide_eq_true h]
  · cases h

theorem requestOf_congr {m m' : Json} (h : m'.get? "request_id" = m.get? "request_id") :
    requestOf m' = requestOf m := by
  unfold requestOf
  rw [h]

theorem requestOf_redact {m : Json} (h : ∀ R, requestOf m = some R → redactText R = R) :
    requestOf (redactValue m) = requestOf m := by
  unfold requestOf at h ⊢
  rw [get?_redactValue_plain (by decide +kernel)]
  cases hm : m.get? "request_id" with
  | none => rfl
  | some v =>
    cases v with
    | str r =>
      rw [hm] at h
      show some (redactText r) = some r
      rw [h r rfl]
    | null | bool | num | arr | obj => rfl

/-- A deletion of keys and a change of values keep an object one. -/
theorem object_set {m : Json} (h : ∃ fields, m = .obj fields) (key : String) (v : Json) :
    ∃ fields, m.set key v = .obj fields := by
  obtain ⟨fields, rfl⟩ := h
  exact ⟨_, rfl⟩

theorem object_remove {m : Json} (h : ∃ fields, m = .obj fields) (key : String) :
    ∃ fields, m.remove key = .obj fields := by
  obtain ⟨fields, rfl⟩ := h
  exact ⟨_, rfl⟩

theorem object_redact {m : Json} (h : ∃ fields, m = .obj fields) :
    ∃ fields, redactValue m = .obj fields := by
  obtain ⟨fields, rfl⟩ := h
  exact ⟨_, rfl⟩

/-- The metadata of a new row of text names the request it is made for. -/
theorem requestOf_segment {q : Option String} (h : ∀ R, q = some R → redactText R = R) :
    requestOf (redactValue (.obj [("request_id", .ofOption q)])) = q := by
  rw [requestOf_redact]
  · cases q <;> rfl
  · intro R hR
    refine h R ?_
    cases q with
    | none => cases hR
    | some r => exact hR

theorem not_verified_of_notVerified {m : Json} (h : notVerified m = true) : ¬ isVerified m := by
  intro hverified
  unfold notVerified at h
  rw [hverified] at h
  cases h

theorem not_verified_of_noted {m : Json} (h : Noted m) : ¬ isVerified m := by
  intro hverified
  rw [isVerified, h.unverified] at hverified
  cases hverified

/-! ### Rows -/

theorem TextRow.of_usage {i : TimelineItem} (h : TextRow turnOf os s i)
    (husage : s'.requestUsage = s.requestUsage) : TextRow turnOf os s' i :=
  h.same (.refl i) (recordsKept_of_eq husage)

/-- A row of text without text. -/
theorem TextRow.empty {i : TimelineItem} (hobject : ∃ fields, i.metadata = .obj fields)
    (halone : i.externalId = none) (hcontent : i.content = "")
    (hstable : ∀ R, requestOf i.metadata = some R → redactText R = R) : TextRow turnOf os s i := by
  refine ⟨hobject, halone, hstable, ⟨[], List.nil_sublist _, fun _ h => absurd h List.not_mem_nil, ?_⟩, ?_, ?_⟩
  · rw [hcontent]
    rfl
  · exact fun _ _ hne => absurd hcontent hne
  · exact fun _ _ _ hne => absurd hcontent hne

theorem Attested.same_tables (h : Attested turnOf os s)
    (hitems : s'.timelineItems = s.timelineItems) (husage : s'.requestUsage = s.requestUsage) :
    Attested turnOf os s' :=
  h.transfer (h.records.of_eq husage) (fun _ _ => recordsKept_of_eq husage)
    fun i hi => .inl ⟨i, hitems ▸ hi, .refl i⟩

theorem Attested.inserted {w : TimelineItemWrite} {i : TimelineItem} (h : Attested turnOf os s)
    (hi : Inserted t w s i s') (hrow : isText i.kind = false ∧ Noted i.metadata ∨
      isText i.kind = true ∧ TextRow turnOf os s i) : Attested turnOf os s' := by
  have husage := hi.requestUsage
  refine h.transfer (h.records.of_eq husage) (fun _ _ => recordsKept_of_eq husage) ?_
  intro j hj
  cases hi with
  | intro thread items hthread hitems hfields hclient =>
    obtain hj | rfl := (Rows.mem_insert? hitems).mp hj
    · exact .inl ⟨j, hj, .refl j⟩
    · obtain hnote | ⟨htext, hrow⟩ := hrow
      · exact .inr (.inl hnote)
      · exact .inr (.inr ⟨htext, hrow.of_usage husage⟩)

theorem Attested.updated {p : TimelineItem → Bool} {f : TimelineItem → TimelineItem}
    {hf : ∀ i, (f i).id = i.id} (h : Attested turnOf os s)
    (hrows : ∀ i ∈ s.timelineItems.rows, p i = true → SameText i (f i) ∨
      isText (f i).kind = false ∧ Noted (f i).metadata ∨
      isText (f i).kind = true ∧ TextRow turnOf os s (f i)) :
    Attested turnOf os { s with timelineItems := s.timelineItems.update p f hf } := by
  refine h.transfer (h.records.of_eq rfl) (fun _ _ => recordsKept_of_eq rfl) ?_
  intro j hj
  obtain ⟨i, hi, rfl⟩ := List.mem_map.mp hj
  unfold Rows.edit
  split
  · rename_i hp
    obtain hsame | hnote | ⟨htext, hrow⟩ := hrows i hi hp
    · exact .inl ⟨i, hi, hsame⟩
    · exact .inr (.inl hnote)
    · exact .inr (.inr ⟨htext, hrow.of_usage rfl⟩)
  · exact .inl ⟨i, hi, .refl i⟩

/-! ### Events -/

theorem Attested.annotations {N A : String → Prop} (h : Attested turnOf os s)
    (ha : Annotations t N A s s') : Attested turnOf os s' := by
  induction ha with
  | refl => exact h
  | tail _ hstep ih =>
    cases hstep with
    | thread f hf => exact ih.same_tables rfl rfl
    | newRow _ w i hi hkind hnoted =>
      refine ih.inserted hi (.inl ⟨?_, hnoted⟩)
      rw [hi.fields.2.2.1]
      simpa [isText] using hkind
    | row id f hf hrow hnoted =>
      refine ih.updated fun i hi hp => ?_
      have hid : i.id = id := of_decide_eq_true hp
      cases htext : isText i.kind with
      | true => exact absurd (ih.texts i hi htext).alone (hrow i hi hid).2
      | false =>
        refine .inr (.inl ⟨?_, hnoted i hi hid (ih.notes i hi htext)⟩)
        rw [(hf i).kind]
        exact htext
    | counts => exact ih.same_tables rfl rfl

/-- No external name leads to a row of text. -/
def TextAlone (s : Database) : Prop :=
  ∀ i ∈ s.timelineItems.rows, isText i.kind = true → i.externalId = none

theorem TextAlone.update (h : TextAlone s) {p : TimelineItem → Bool}
    {f : TimelineItem → TimelineItem}
    (hitems : s'.timelineItems.rows = s.timelineItems.rows.map (Rows.edit p f))
    (hkind : ∀ i, (f i).kind = i.kind) (hexternal : ∀ i, (f i).externalId = i.externalId) :
    TextAlone s' := by
  intro j hj htext
  rw [hitems] at hj
  obtain ⟨i, hi, rfl⟩ := List.mem_map.mp hj
  have hkind' : (Rows.edit p f i).kind = i.kind := Rows.edit_keeps hkind i
  have hexternal' : (Rows.edit p f i).externalId = i.externalId := Rows.edit_keeps hexternal i
  rw [hexternal']
  exact h i hi (hkind' ▸ htext)

/-- The rows of text before a note are those after it. -/
theorem Annotates.text_mem {N A : String → Prop} (halone : TextAlone s) (h : Annotates t N A s s')
    {i : TimelineItem} (htext : isText i.kind = true) :
    i ∈ s'.timelineItems.rows ↔ i ∈ s.timelineItems.rows := by
  cases h with
  | thread | counts => exact Iff.rfl
  | newRow _ w j hj hkind =>
    obtain ⟨-, -, hjkind, -⟩ := hj.fields
    cases hj with
    | intro thread items hthread hitems hfields hclient =>
      refine (Rows.mem_insert? hitems).trans (or_iff_left ?_)
      rintro rfl
      rw [hjkind] at htext
      exact absurd htext (by simpa [isText] using hkind)
  | row id f hf hrow =>
    have skipped : ∀ j ∈ s.timelineItems.rows, isText j.kind = true →
        Rows.edit (fun k => k.id = id) f j = j := by
      intro j hj hjtext
      refine Rows.edit_neg (decide_eq_false fun hid => ?_)
      exact (hrow j hj hid).2 (halone j hj hjtext)
    constructor
    · intro hi
      obtain ⟨j, hj, rfl⟩ := List.mem_map.mp hi
      have hkind : (Rows.edit (fun k => k.id = id) f j).kind = j.kind :=
        Rows.edit_keeps (fun k => (hf k).kind) j
      rw [skipped j hj (hkind ▸ htext)]
      exact hj
    · intro hi
      exact List.mem_map.mpr ⟨i, hi, skipped i hi htext⟩

/-- Notes leave the rows of text. -/
theorem Annotations.text_mem {N A : String → Prop} (halone : TextAlone s)
    (h : Annotations t N A s s') {i : TimelineItem} (htext : isText i.kind = true) :
    i ∈ s'.timelineItems.rows ↔ i ∈ s.timelineItems.rows := by
  have hall : ∀ j, isText j.kind = true →
      (j ∈ s'.timelineItems.rows ↔ j ∈ s.timelineItems.rows) := by
    induction h with
    | refl => exact fun _ _ => Iff.rfl
    | tail _ hstep ih =>
      intro j hj
      refine (Annotates.text_mem ?_ hstep hj).trans (ih j hj)
      exact fun k hk hktext => halone k ((ih k hktext).mp hk) hktext
  exact hall i htext

theorem Attested.textAlone (h : Attested turnOf os s) : TextAlone s :=
  fun i hi htext => (h.texts i hi htext).alone

/-- A report of a step names its request as the others do. -/
def ReportsAs (turnOf : String → String → Option String) (t : String) (e : AppEvent) : Prop :=
  ∀ usage, e = .requestUsageUpdated usage →
    redactText usage.requestId = usage.requestId ∧ usage.turnId = turnOf t usage.requestId

/-- The request a turn's conversation runs has a record that names the turn. -/
theorem runningRequest_some {T R : String} (h : s.runningRequest t T = some R) :
    ∃ u ∈ s.requestUsage.rows, u.requestId = R ∧ u.threadId = t ∧ u.record.turnId = some T := by
  obtain ⟨u, hu, rfl⟩ := Option.map_eq_some_iff.mp h
  have hmem := List.mem_of_getLast? hu
  obtain ⟨hmem, hp⟩ := List.mem_filter.mp hmem
  obtain ⟨hmem, hthread⟩ := List.mem_filter.mp hmem
  simp only [Bool.and_eq_true, decide_eq_true_eq] at hp
  exact ⟨u, hmem, rfl, of_decide_eq_true hthread, hp.1.1⟩

theorem hasRequests_of_record {T R : String} {r : RequestUsage} (h : s.record? t R = some r)
    (hturn : r.turnId = some T) : s.hasRequests t T = true := by
  obtain ⟨u, hu, -, hthread, rfl⟩ := record?_eq_some.mp h
  refine List.any_eq_true.mpr ⟨u, List.mem_filter.mpr ⟨hu, decide_eq_true hthread⟩, ?_⟩
  exact decide_eq_true hturn

/-- What a delta does to the row it goes to. -/
theorem TextRow.append {d : Step} {e : EventEnvelope} {i : TimelineItem} {T text now : String}
    (hrecords : RecordsOf turnOf s) (hrow : TextRow turnOf os s i)
    (hbefore : d.before = s) (hevent : d.event = some e)
    (hthread : e.sessionId.toString = i.threadId) (hT : i.turnId = some T)
    (hdelta : deltaOf e.event = some (T, i.kind, text))
    (hrequest : requestOf i.metadata = s.runningRequest i.threadId T) :
    TextRow turnOf (os ++ [d]) s (appendDelta (redactText text) now i) := by
  have hmeta : requestOf ((i.metadata.remove "terminal_verified").remove "terminalVerified") =
      requestOf i.metadata :=
    requestOf_congr (by rw [Json.get?_remove_ne (by decide), Json.get?_remove_ne (by decide)])
  have happends : ∀ {d : Step}, d.Appends i → d.Appends (appendDelta (redactText text) now i) := by
    rintro d ⟨e, T, text, h⟩
    refine ⟨e, T, text, ?_⟩
    rw [appendDelta, hmeta]
    exact h
  constructor
  · exact object_remove (object_remove hrow.object _) _
  · exact hrow.alone
  · intro R hR
    exact hrow.stable R (hmeta ▸ hR)
  · obtain ⟨ds, hds, hall, hcontent⟩ := hrow.pieces
    refine ⟨ds ++ [d], hds.append (.refl [d]), ?_, ?_⟩
    · intro d' hd'
      obtain hd' | hd' := List.mem_append.mp hd'
      · exact happends (hall d' hd')
      · rw [List.mem_singleton.mp hd']
        refine happends ⟨e, T, text, hevent, hthread, hT, hdelta, ?_⟩
        rw [hbefore, hrequest]
    · have htext : d.text = redactText text := by
        rw [Step.text, hevent, Option.bind_some, hdelta]
        rfl
      show i.content ++ redactText text = _
      rw [hcontent, List.map_append, String.join, String.join, List.foldl_append]
      show _ = List.foldl (· ++ ·) "" (ds.map Step.text) ++ d.text
      rw [htext]
  · intro R hR _
    have hR' : s.runningRequest i.threadId T = some R := hrequest.symm.trans (hmeta.symm.trans hR)
    obtain ⟨u, hu, rfl, hut, huT⟩ := runningRequest_some hR'
    refine ⟨⟨u.record, record?_eq_some.mpr ⟨u, hu, rfl, hut, rfl⟩⟩, T, hT, ?_⟩
    show turnOf i.threadId u.requestId = some T
    rw [← hut, ← hrecords.turn u hu, huT]
  · intro R _ hverified
    exfalso
    rw [isVerified, appendDelta, Json.get?_remove_ne (by decide), Json.get?_remove_self] at hverified
    cases hverified

theorem isText_of_delta {e : AppEvent} {T text : String} {kind : TimelineItemKind}
    (h : deltaOf e = some (T, kind, text)) : isText kind = true := by
  cases e with
  | textDelta | reasoningDelta =>
    have hkind := congrArg (fun delta => delta.2.1) (Option.some.inj h)
    rw [← show _ = kind from hkind]
    rfl
  | _ => exact absurd h nofun

theorem openSegment_some {T : String} {kind : TimelineItemKind} {q : Option String}
    {i : TimelineItem} (h : s.openSegment t T kind q = some i) :
    i ∈ s.timelineItems.rows ∧ i.threadId = t ∧ i.turnId = some T ∧ i.kind = kind ∧
      notVerified i.metadata = true ∧ i.status.isOpen = true ∧ requestIdIs i.metadata q = true := by
  obtain ⟨hmem, hp⟩ := List.mem_filter.mp (mem_of_lastItem h)
  obtain ⟨hmem, hthread⟩ := mem_itemsOf.mp hmem
  simp only [Bool.and_eq_true, decide_eq_true_eq] at hp
  obtain ⟨⟨⟨⟨⟨hT, hkind⟩, hnot⟩, hopen⟩, hrequest⟩, -⟩ := hp
  exact ⟨hmem, hthread, hT, hkind, hnot, hopen, hrequest⟩

theorem Attested.delta {d : Step} {e : EventEnvelope} {T text now : String}
    {kind : TimelineItemKind} {i : TimelineItem} (h : Attested turnOf os s)
    (hbefore : d.before = s) (hevent : d.event = some e) (ht : e.sessionId.toString = t)
    (hdelta : deltaOf e.event = some (T, kind, text)) (hsegment : Segment t T kind now s i s') :
    Attested turnOf (os ++ [d])
      (s'.setItem i.id (appendDelta (redactText text) now) fun _ => rfl) := by
  have htext := isText_of_delta hdelta
  cases hsegment with
  | found hfound =>
    obtain ⟨hmem, hthread, hT, rfl, -, -, hrequest⟩ := openSegment_some hfound
    refine (h.extend d).updated fun j hj hid => .inr (.inr ?_)
    rw [found_unique hmem hj (of_decide_eq_true hid)]
    refine ⟨htext, (h.texts i hmem htext).append h.records hbefore hevent (ht.trans hthread.symm) hT
      hdelta ?_⟩
    rw [hthread]
    exact requestOf_of_is hrequest
  | made _ hnone hi =>
    obtain ⟨hthread, hT, hkind, -, halone, hcontent, hmeta, -⟩ := hi.fields
    have hstable : ∀ R, s.runningRequest t T = some R → redactText R = R := by
      intro R hR
      obtain ⟨u, hu, rfl, -⟩ := runningRequest_some hR
      exact h.records.stable u hu
    have hrequest : requestOf i.metadata = s.runningRequest t T := by
      rw [hmeta]
      exact requestOf_segment hstable
    have htext' : isText i.kind = true := hkind ▸ htext
    have hempty : TextRow turnOf os s i := by
      refine .empty ?_ halone hcontent ?_
      · rw [hmeta]
        exact object_redact ⟨_, rfl⟩
      · rw [hrequest]
        exact hstable
    refine ((h.extend d).inserted hi (.inr ⟨htext', ?_⟩)).updated fun j hj hid => .inr (.inr ?_)
    · exact .empty hempty.object halone hcontent hempty.stable
    · rw [found_unique (mem_inserted hi) hj (of_decide_eq_true hid)]
      refine ⟨htext', TextRow.of_usage ?_ hi.requestUsage⟩
      refine hempty.append h.records hbefore hevent (ht.trans hthread.symm) hT ?_ ?_
      · rw [hdelta, hkind]
        rfl
      · rw [hrequest, hthread]

/-- A mark leaves what a row owes to the history but for the mark itself. -/
theorem TextRow.mark {i i' : TimelineItem} (h : TextRow turnOf os s i)
    (hid : i'.threadId = i.threadId ∧ i'.turnId = i.turnId ∧ i'.kind = i.kind ∧
      i'.externalId = i.externalId ∧ i'.content = i.content)
    (hobject : ∃ fields, i'.metadata = .obj fields)
    (hrequest : requestOf i'.metadata = requestOf i.metadata)
    (hmarked : ∀ R, requestOf i'.metadata = some R → i'.content ≠ "" → ∃ d ∈ os, d.Marks R i') :
    TextRow turnOf os s i' := by
  obtain ⟨hthread, hturn, hkind, halone, hcontent⟩ := hid
  refine ⟨hobject, halone.trans h.alone, ?_, ?_, ?_, fun R hR _ hne => hmarked R hR hne⟩
  · rw [hrequest]
    exact h.stable
  · obtain ⟨ds, hds, hall, hjoin⟩ := h.pieces
    refine ⟨ds, hds, ?_, hcontent.trans hjoin⟩
    intro d hd
    obtain ⟨e, T, text, he⟩ := hall d hd
    refine ⟨e, T, text, ?_⟩
    rw [hthread, hturn, hkind, hrequest]
    exact he
  · rw [hrequest, hcontent, hthread, hturn]
    exact h.request

theorem Attested.verifyTurn {T now : String} (h : Attested turnOf os s)
    (hnone : s.hasRequests t T = false) : Attested turnOf os (s.verifyTurn t T now) := by
  refine h.updated fun i hi hp => .inr (.inr ?_)
  simp only [isTurnText, Bool.and_eq_true, decide_eq_true_eq] at hp
  obtain ⟨⟨hthread, hT⟩, hkind⟩ := hp
  have hrow := h.texts i hi hkind
  have hset : requestOf (i.metadata.set "terminal_verified" (.bool true)) = requestOf i.metadata :=
    requestOf_congr (Json.get?_set_ne (by decide) _ _)
  have hrequest : requestOf (redactValue (i.metadata.set "terminal_verified" (.bool true))) =
      requestOf i.metadata := by
    rw [requestOf_redact, hset]
    rw [hset]
    exact hrow.stable
  refine ⟨hkind, hrow.mark ⟨rfl, rfl, rfl, rfl, rfl⟩ (object_redact (object_set hrow.object _ _))
    hrequest ?_⟩
  -- A row with text that names a request is of a turn with a record.
  intro R hR hne
  exfalso
  obtain ⟨⟨r, hr⟩, T', hT', hturn⟩ := hrow.request R (hrequest ▸ hR) hne
  have hTT' : T' = T := Option.some.inj (hT'.symm.trans hT)
  obtain ⟨u, hu, rfl, hut, rfl⟩ := record?_eq_some.mp hr
  have hrT : u.record.turnId = some T := by
    rw [h.records.turn u hu, hut, hturn, hTT']
  rw [hthread] at hr
  rw [hasRequests_of_record hr hrT] at hnone
  cases hnone

theorem Attested.putUsage {usage : RequestUsage} (h : Attested turnOf os s)
    (hstable : redactText usage.requestId = usage.requestId)
    (hturn : usage.turnId = turnOf t usage.requestId) :
    Attested turnOf os (s.putUsage t usage) :=
  h.transfer (h.records.putUsage hstable hturn) (fun _ _ => recordsKept_putUsage usage)
    fun i hi => .inl ⟨i, hi, .refl i⟩

theorem Attested.bindRequest {usage : RequestUsage} (h : Attested turnOf os s)
    (hstable : redactText usage.requestId = usage.requestId) :
    Attested turnOf os (s.bindRequest t usage) := by
  refine h.updated fun i hi hp => .inr (.inr ?_)
  obtain ⟨T, -, hp⟩ := (Option.any_eq_true _ _).mp hp
  simp only [bindsRequest, Bool.and_eq_true, decide_eq_true_eq] at hp
  obtain ⟨⟨⟨⟨⟨⟨⟨-, -⟩, hkind⟩, -⟩, -⟩, hcontent⟩, -⟩, -⟩ := hp
  have htext : isText i.kind = true := by rw [hkind]; rfl
  have hrow := h.texts i hi htext
  obtain ⟨fields, hfields⟩ := hrow.object
  refine ⟨htext, .empty (object_set hrow.object _ _) hrow.alone hcontent ?_⟩
  intro R hR
  have hget : requestOf (i.metadata.set "request_id" (.str usage.requestId)) =
      some usage.requestId := by
    rw [hfields, requestOf, Json.get?_set_obj]
  rw [← Option.some.inj (hget.symm.trans hR)]
  exact hstable

/-- The rows a verified report marks, where the history has the mark. -/
theorem Attested.verifyRequest {usage : RequestUsage} {now : String} (h : Attested turnOf os s)
    (hmarks : ∀ i ∈ s.timelineItems.rows, isRequestText t usage.requestId i = true →
      ∃ d ∈ os, d.Marks usage.requestId (verifyItem usage.finishReason now i)) :
    Attested turnOf os (s.verifyRequest t usage now) := by
  refine h.updated fun i hi hp => .inr (.inr ?_)
  have hmark := hmarks i hi hp
  simp only [isRequestText, Bool.and_eq_true] at hp
  obtain ⟨⟨-, hrequest⟩, htext⟩ := hp
  have hrow := h.texts i hi htext
  have hset : requestOf (verifyItem usage.finishReason now i).metadata = requestOf i.metadata :=
    requestOf_congr (by
      rw [verifyItem, Json.get?_set_ne (by decide), Json.get?_set_ne (by decide)])
  refine ⟨htext, hrow.mark ⟨rfl, rfl, rfl, rfl, rfl⟩ (object_set (object_set hrow.object _ _) _ _)
    hset ?_⟩
  intro R hR _
  rw [hset, requestOf_of_is hrequest] at hR
  rw [← Option.some.inj hR]
  exact hmark

/-- What a report does before it marks anything. -/
def Database.bindUsage (s : Database) (t : String) (usage : RequestUsage) : Database :=
  if usage.purpose = .conversation ∧ usage.state = .running then
    (s.putUsage t usage).bindRequest t usage
  else s.putUsage t usage

theorem reportUsage_eq (usage : RequestUsage) (now : String) :
    s.reportUsage t usage now =
      if usage.responseVerified then (s.bindUsage t usage).verifyRequest t usage now
      else s.bindUsage t usage := rfl

theorem Attested.bindUsage {usage : RequestUsage} (h : Attested turnOf os s)
    (hstable : redactText usage.requestId = usage.requestId)
    (hturn : usage.turnId = turnOf t usage.requestId) :
    Attested turnOf os (s.bindUsage t usage) := by
  unfold Database.bindUsage
  split
  · exact (h.putUsage hstable hturn).bindRequest hstable
  · exact h.putUsage hstable hturn

/-- The report a step persisted marks the rows of its request. -/
theorem Attested.reportUsage {d : Step} {e : EventEnvelope} {usage : RequestUsage} {now : String}
    {N A : String → Prop} (h : Attested turnOf os s) (hevent : d.event = some e)
    (ht : e.sessionId.toString = t) (he : e.event = .requestUsageUpdated usage)
    (hstable : redactText usage.requestId = usage.requestId)
    (hturn : usage.turnId = turnOf t usage.requestId)
    (htimes : Annotations t N A (s.reportUsage t usage now) d.after) :
    Attested turnOf (os ++ [d]) (s.reportUsage t usage now) := by
  have hbound := h.bindUsage hstable hturn
  rw [reportUsage_eq] at htimes ⊢
  split
  · rename_i hverified
    rw [if_pos hverified] at htimes
    refine (hbound.extend d).verifyRequest fun i hi hp => ⟨d, by simp, ?_⟩
    have halone : TextAlone ((s.bindUsage t usage).verifyRequest t usage now) :=
      hbound.textAlone.update rfl (fun _ => rfl) fun _ => rfl
    have hmem : verifyItem usage.finishReason now i ∈
        ((s.bindUsage t usage).verifyRequest t usage now).timelineItems.rows :=
      List.mem_map.mpr ⟨i, hi, Rows.edit_pos hp⟩
    simp only [isRequestText, Bool.and_eq_true, decide_eq_true_eq] at hp
    obtain ⟨⟨hthread, -⟩, htext⟩ := hp
    obtain ⟨fields, hfields⟩ := (hbound.texts i hi htext).object
    have hafter : verifyItem usage.finishReason now i ∈ d.after.timelineItems.rows :=
      (htimes.text_mem halone (show isText (verifyItem _ _ i).kind = true from htext)).mpr hmem
    refine ⟨e, usage, hevent, ht.trans hthread.symm, he, hverified, rfl, _, hafter, rfl, ?_, rfl⟩
    show ((i.metadata.set "terminal_verified" (.bool true)).set "finish_reason" _).get? _ = _
    rw [Json.get?_set_ne (by decide), hfields, Json.get?_set_obj]
  · exact hbound.extend d

theorem Attested.finishTurn {T : String} {status : TurnStatus} {error : Option String}
    {now finished : String} (h : Attested turnOf os s) :
    Attested turnOf os (s.finishTurn t T status error now finished) := by
  refine h.transfer (h.records.finishTurn T status error now finished)
    (fun _ _ => recordsKept_finishTurn T status error now finished) ?_
  intro j hj
  obtain ⟨i, hi, rfl⟩ := List.mem_map.mp hj
  refine .inl ⟨i, hi, ?_⟩
  unfold Rows.edit
  split
  · exact ⟨rfl, rfl, rfl, rfl, rfl, rfl, rfl⟩
  · exact .refl i

theorem promptWrite_noted (T text : String) (attachments : List PromptAttachment)
    (c : Option String) (now : String) : Noted (promptWrite T text attachments c now).metadata := by
  unfold promptWrite
  dsimp only
  split
  · exact .obj rfl
  · exact .obj rfl

theorem Attested.prompt {T text now : String} {attachments : List PromptAttachment}
    {c : Option String} {i j : TimelineItem} {s₁ s₂ s₃ : Database} (h : Attested turnOf os s)
    (hi : Inserted t (promptWrite T text attachments c now) s i s₁)
    (hattached : Attached text attachments i.id s₁ s₂)
    (hj : Inserted t (answerWrite T now) s₂ j s₃) : Attested turnOf os s₃ := by
  obtain ⟨-, -, hikind, -, -, -, himeta, -⟩ := hi.fields
  obtain ⟨-, -, hjkind, -, hjalone, hjcontent, hjmeta, -⟩ := hj.fields
  have h₁ : Attested turnOf os s₁ := by
    refine h.inserted hi (.inl ⟨by rw [hikind]; rfl, ?_⟩)
    rw [himeta]
    exact (promptWrite_noted T text attachments c now).redact
  have h₂ : Attested turnOf os s₂ := by
    cases hattached with
    | none => exact h₁
    | some => exact h₁.same_tables rfl rfl
  refine h₂.inserted hj (.inr ⟨by rw [hjkind]; rfl, ?_⟩)
  refine .empty ?_ hjalone hjcontent ?_
  · rw [hjmeta]
    exact object_redact ⟨[], rfl⟩
  · rw [hjmeta]
    exact nofun

/-- **An event keeps the texts attested**, by the history with its own step. -/
theorem Attested.persisted {d : Step} {e : EventEnvelope} {c : Option String} {now : String}
    {N A : String → Prop} (h : Attested turnOf os s) (hbefore : d.before = s)
    (hevent : d.event = some e) (ht : e.sessionId.toString = t)
    (hreports : ReportsAs turnOf t e.event) (hpersisted : Persisted e.event t c now s s')
    (htimes : Annotations t N A s' d.after) : Attested turnOf (os ++ [d]) s' := by
  cases hpersisted with
  | notes _ he hnotes => exact (h.extend d).annotations hnotes
  | interaction s₁ l he hnotes => exact ((h.extend d).annotations hnotes).same_tables rfl rfl
  | created | resumed | configured | profiled | closed | started =>
    exact (h.extend d).same_tables rfl rfl
  | prompt s₁ s₂ s₃ turnId text attachments he i j hi hattached hj =>
    exact ((h.extend d).prompt hi hattached hj).same_tables rfl rfl
  | delta s₁ T kind text he i hsegment => exact h.delta hbefore hevent ht he hsegment
  | reported usage he =>
    obtain ⟨hstable, hturn⟩ := hreports usage he
    exact h.reportUsage hevent ht he hstable hturn htimes
  | passed => exact h.extend d
  | verified turnId he hnone => exact (h.extend d).verifyTurn hnone
  | finished _ T status error he hrunning hthread finished hnotes =>
    exact (h.extend d).finishTurn.annotations hnotes

/-! ### Other steps -/

/-- A step that writes no text and no request: its rows were there, with the records they name. -/
structure Quiet (turnOf : String → String → Option String) (s s' : Database) : Prop where
  records : RecordsOf turnOf s'
  kept : ∀ j ∈ s'.timelineItems.rows, RecordsKept j.threadId s s'
  rows : ∀ j ∈ s'.timelineItems.rows, ∃ i ∈ s.timelineItems.rows, SameText i j

theorem Quiet.of_eq (hs : RecordsOf turnOf s) (hitems : s'.timelineItems = s.timelineItems)
    (husage : s'.requestUsage = s.requestUsage) : Quiet turnOf s s' where
  records := hs.of_eq husage
  kept _ _ := recordsKept_of_eq husage
  rows j hj := ⟨j, hitems ▸ hj, .refl j⟩

theorem Quiet.trans {s'' : Database} (h : Quiet turnOf s s') (h' : Quiet turnOf s' s'') :
    Quiet turnOf s s'' := by
  refine ⟨h'.records, ?_, ?_⟩
  · intro j hj R r hr
    obtain ⟨i, hi, hsame⟩ := h'.rows j hj
    obtain ⟨r', hr'⟩ := h.kept i hi R r (hsame.threadId ▸ hr)
    exact h'.kept j hj R r' (hsame.threadId ▸ hr')
  · intro j hj
    obtain ⟨i, hi, hsame⟩ := h'.rows j hj
    obtain ⟨k, hk, hsame'⟩ := h.rows i hi
    exact ⟨k, hk, hsame'.trans hsame⟩

theorem Attested.quiet (h : Attested turnOf os s) (hquiet : Quiet turnOf s s') :
    Attested turnOf os s' :=
  h.transfer hquiet.records hquiet.kept fun j hj => .inl (hquiet.rows j hj)

theorem quiet_truncate (hs : RecordsOf turnOf s) (sequence : Nat) (now : String) :
    Quiet turnOf s (s.truncate t sequence now) where
  records := hs.of_eq rfl
  kept _ _ := recordsKept_of_eq rfl
  rows j hj := ⟨j, (Rows.mem_delete.mp hj).1, .refl j⟩

theorem quiet_deleteThread (hs : RecordsOf turnOf s) (id : String) :
    Quiet turnOf s (deleteThread id s) := by
  have hmem : ∀ u, u ∈ (deleteThread id s).requestUsage.rows ↔
      u ∈ s.requestUsage.rows ∧ decide (u.threadId = id) = false := fun u => Rows.mem_delete
  refine ⟨⟨?_, ?_, ?_⟩, ?_, ?_⟩
  · exact fun u hu => hs.keyed u ((hmem u).mp hu).1
  · exact fun u hu => hs.turn u ((hmem u).mp hu).1
  · exact fun u hu => hs.stable u ((hmem u).mp hu).1
  · intro j hj R r hr
    obtain ⟨-, hthread⟩ := Rows.mem_delete.mp hj
    obtain ⟨u, hu, hid, hut, hrecord⟩ := record?_eq_some.mp hr
    exact ⟨r, record?_eq_some.mpr ⟨u, (hmem u).mpr ⟨hu, hut ▸ hthread⟩, hid, hut, hrecord⟩⟩
  · exact fun j hj => ⟨j, (Rows.mem_delete.mp hj).1, .refl j⟩

theorem quiet_deleteSessions (hs : RecordsOf turnOf s) (ids : List String) :
    Quiet turnOf s (deleteSessions ids s).2 := by
  induction ids generalizing s with
  | nil => exact .of_eq hs rfl rfl
  | cons id rest ih =>
    have hfirst := quiet_deleteThread hs id
    exact hfirst.trans (ih hfirst.records)

theorem quiet_interrupt (hs : RecordsOf turnOf s) (now : String) :
    Quiet turnOf s (interruptIncompleteTurns now s) := by
  have hupdate := hs.update (p := fun u => u.record.state = .running) (f := interruptRequest)
    (fun _ => rfl) fun _ _ _ => rfl
  have hkept : ∀ t', RecordsKept t' s { s with
      requestUsage := s.requestUsage.update (fun u => u.record.state = .running)
        (fun u => { u with record := interruptRequest u.record }) fun _ => rfl } :=
    fun _ => recordsKept_update _ fun _ => rfl
  unfold interruptIncompleteTurns
  dsimp only
  split
  · exact ⟨hupdate.of_eq rfl, fun j _ R r hr => hkept j.threadId R r hr,
      fun j hj => ⟨j, hj, .refl j⟩⟩
  · refine ⟨hupdate.of_eq rfl, fun j _ R r hr => hkept j.threadId R r hr, ?_⟩
    intro j hj
    obtain ⟨i, hi, rfl⟩ := List.mem_map.mp hj
    refine ⟨i, hi, ?_⟩
    unfold Rows.edit
    split
    · exact ⟨rfl, rfl, rfl, rfl, rfl, rfl, rfl⟩
    · exact .refl i

/-- The reports of an operation name their requests as the others do. -/
def Write.ReportsAs (turnOf : String → String → Option String) : Write → Prop
  | .appendBatch envelopes _ _ _ =>
    ∀ e ∈ envelopes, Store.ReportsAs turnOf e.sessionId.toString e.event
  | .recordRequestUsage t usage =>
    redactText usage.requestId = usage.requestId ∧ usage.turnId = turnOf t usage.requestId
  | _ => True

theorem Wrote.quiet {op : Write} (h : Wrote op s s') (hs : RecordsOf turnOf s)
    (hop : op.ReportsAs turnOf) (hbatch : op.isBatch = false) : Quiet turnOf s s' := by
  cases h with
  | same => exact .of_eq hs rfl rfl
  | batch _ t envelopes clientItemId c preferences replacement hop' =>
    rw [hop'] at hbatch
    cases hbatch
  | metadata _ h =>
    induction h with
    | refl => exact .of_eq hs rfl rfl
    | tail _ hstep ih =>
      refine ih.trans (.of_eq ih.records ?_ ?_)
      · cases hstep with
        | aside _ _ hitems => exact hitems
        | count t p hp f hf _ _ hitems => exact hitems
      · cases hstep with
        | aside _ _ _ husage => exact husage
        | count t p hp f hf _ _ _ husage => exact husage
  | recorded t usage hop' =>
    subst hop'
    obtain ⟨hstable, hturn⟩ := hop
    exact ⟨(hs.putUsage hstable hturn).of_eq rfl, fun _ _ => recordsKept_putUsage usage,
      fun j hj => ⟨j, hj, .refl j⟩⟩
  | reconciled t snapshots =>
    obtain ⟨hrecords, hkept⟩ := hs.settleAll (t := t) snapshots
    obtain ⟨-, -, hitems⟩ := settleAll_tables (t := t) (s := s) snapshots
    exact ⟨hrecords, fun j _ => hkept j.threadId, fun j hj => ⟨j, hitems ▸ hj, .refl j⟩⟩
  | interrupted now => exact quiet_interrupt hs now
  | deleted ids => exact quiet_deleteSessions hs ids

/-! ### What a step leaves of a verified row -/

/-- A row of text is there with its text. -/
def HoldsText (i : TimelineItem) (s : Database) : Prop :=
  ∃ j ∈ s.timelineItems.rows, j.id = i.id ∧ j.content = i.content ∧ isText j.kind = true

theorem HoldsText.update {i : TimelineItem} (h : HoldsText i s) {p : TimelineItem → Bool}
    {f : TimelineItem → TimelineItem}
    (hitems : s'.timelineItems.rows = s.timelineItems.rows.map (Rows.edit p f))
    (hid : ∀ j, (f j).id = j.id) (hcontent : ∀ j, (f j).content = j.content)
    (hkind : ∀ j, (f j).kind = j.kind) : HoldsText i s' := by
  obtain ⟨j, hj, hji, htext, hj'⟩ := h
  have hid' : (Rows.edit p f j).id = j.id := Rows.edit_keeps hid j
  have hcontent' : (Rows.edit p f j).content = j.content := Rows.edit_keeps hcontent j
  have hkind' : (Rows.edit p f j).kind = j.kind := Rows.edit_keeps hkind j
  have hmem : Rows.edit p f j ∈ s'.timelineItems.rows := by
    rw [hitems]
    exact List.mem_map_of_mem hj
  exact ⟨Rows.edit p f j, hmem, hid'.trans hji, hcontent'.trans htext, hkind' ▸ hj'⟩

theorem HoldsText.annotations {i : TimelineItem} {N A : String → Prop} (h : HoldsText i s)
    (halone : TextAlone s) (ha : Annotations t N A s s') : HoldsText i s' := by
  obtain ⟨j, hj, hid, hcontent, htext⟩ := h
  exact ⟨j, (ha.text_mem halone htext).mpr hj, hid, hcontent, htext⟩

theorem Inserted.kept {w : TimelineItemWrite} {i j : TimelineItem} (h : Inserted t w s j s')
    (hi : i ∈ s.timelineItems.rows) : i ∈ s'.timelineItems.rows ∧ i.id ≠ j.id := by
  cases h with
  | intro thread items hthread hitems hfields hclient =>
    refine ⟨(Rows.mem_insert? hitems).mpr (.inl hi), ?_⟩
    intro hid
    exact (Rows.insert?_eq_some hitems).2 (List.mem_map.mpr ⟨i, hi, hid⟩)

/-- A verified row keeps its text through every event. -/
theorem Persisted.holdsText {e : AppEvent} {c : Option String} {now : String} {i : TimelineItem}
    (halone : TextAlone s) (h : Persisted e t c now s s') (hi : i ∈ s.timelineItems.rows)
    (htext : isText i.kind = true) (hverified : isVerified i.metadata) : HoldsText i s' := by
  have hhere : HoldsText i s := ⟨i, hi, rfl, rfl, htext⟩
  cases h with
  | notes _ he hnotes => exact hhere.annotations halone hnotes
  | interaction s₁ l he hnotes =>
    obtain hholds := hhere.annotations halone hnotes
    exact hholds
  | created | resumed | configured | profiled | closed | started | passed => exact hhere
  | prompt s₁ s₂ s₃ turnId text attachments he j k hj hattached hk =>
    have h₁ := (hj.kept hi).1
    have h₂ : i ∈ s₂.timelineItems.rows := by cases hattached <;> exact h₁
    exact ⟨i, (hk.kept h₂).1, rfl, rfl, htext⟩
  | delta s₁ T kind text he j hsegment =>
    have hother : i ∈ s₁.timelineItems.rows ∧ i.id ≠ j.id := by
      cases hsegment with
      | found hfound =>
        obtain ⟨hj, -, -, -, hnot, -, -⟩ := openSegment_some hfound
        refine ⟨hi, fun hid => ?_⟩
        rw [s.timelineItems.eq_of_key hi hj hid] at hverified
        exact not_verified_of_notVerified hnot hverified
      | made _ hnone hj => exact hj.kept hi
    exact ⟨i, List.mem_map.mpr ⟨i, hother.1, Rows.edit_neg (decide_eq_false hother.2)⟩, rfl, rfl,
      htext⟩
  | reported usage he =>
    have hbound : HoldsText i (s.bindUsage t usage) := by
      unfold Database.bindUsage
      split
      · exact hhere.update rfl (fun _ => rfl) (fun _ => rfl) fun _ => rfl
      · exact hhere
    rw [reportUsage_eq]
    split
    · exact hbound.update rfl (fun _ => rfl) (fun _ => rfl) fun _ => rfl
    · exact hbound
  | verified turnId => exact hhere.update rfl (fun _ => rfl) (fun _ => rfl) fun _ => rfl
  | finished _ T status error he hrunning hthread finished hnotes =>
    have hends : HoldsText i (s.finishTurn t T status error now finished) :=
      hhere.update rfl (fun _ => rfl) (fun _ => rfl) fun _ => rfl
    have halone' : TextAlone (s.finishTurn t T status error now finished) :=
      halone.update rfl (fun _ => rfl) fun _ => rfl
    exact hends.annotations halone' hnotes

/-- A verified row that stays keeps its text. -/
def Step.KeepsVerified (d : Step) : Prop :=
  ∀ i ∈ d.before.timelineItems.rows, isVerified i.metadata →
    ∀ j ∈ d.after.timelineItems.rows, j.id = i.id → j.content = i.content

/-- The verification of a whole turn marks no row of a turn that has a record. -/
def Step.SparesRequests (d : Step) : Prop :=
  ∀ e turnId, d.event = some e → e.event = .responseVerified turnId →
    ∀ j ∈ d.after.timelineItems.rows, isVerified j.metadata → ∀ T, j.turnId = some T →
      d.before.hasRequests j.threadId T = true → j ∈ d.before.timelineItems.rows

/-- A row that is marked as verified is one of text. -/
theorem Attested.isText_of_verified (h : Attested turnOf os s) {i : TimelineItem}
    (hi : i ∈ s.timelineItems.rows) (hverified : isVerified i.metadata) :
    isText i.kind = true := by
  cases htext : isText i.kind with
  | true => rfl
  | false => exact absurd hverified (not_verified_of_noted (h.notes i hi htext))

theorem Quiet.keepsVerified {d : Step} (h : Quiet turnOf d.before d.after) : d.KeepsVerified := by
  intro i hi _ j hj hid
  obtain ⟨k, hk, hsame⟩ := h.rows j hj
  rw [d.before.timelineItems.eq_of_key hi hk (hid.symm.trans hsame.id)]
  exact hsame.content

theorem Attested.quietStep {d : Step} (h : Attested turnOf os d.before) (hnone : d.event = none)
    (hquiet : Quiet turnOf d.before d.after) :
    Attested turnOf (os ++ [d]) d.after ∧ d.KeepsVerified ∧ d.SparesRequests := by
  refine ⟨(h.extend d).quiet hquiet, hquiet.keepsVerified, ?_⟩
  intro e turnId he
  rw [hnone] at he
  cases he

/-- **The step lemma.** Every step keeps the texts attested and the text of verified rows, and marks
a turn as a whole only where it has no record. -/
theorem Attested.moved {op : Write} {d : Step} (h : Attested turnOf os d.before)
    (hop : op.ReportsAs turnOf) (hd : Moved op d) :
    Attested turnOf (os ++ [d]) d.after ∧ d.KeepsVerified ∧ d.SparesRequests := by
  cases hd with
  | cut s s' t r hcut =>
    cases hcut with
    | intro r i now => exact h.quietStep rfl (quiet_truncate h.records i.sequence now)
  | columns s s' _ _ _ _ _ hitems husage => exact h.quietStep rfl (.of_eq h.records hitems husage)
  | other s s' hbatch hwrote => exact h.quietStep rfl (hwrote.quiet h.records hop hbatch)
  | event s s₁ s' e c he _ _ hevent htimes =>
    have hreports : Store.ReportsAs turnOf e.sessionId.toString e.event := by
      cases op with
      | appendBatch => exact hop e he
      | _ => exact absurd he List.not_mem_nil
    have h₁ := h.persisted (d := ⟨s, some e, s'⟩) rfl rfl rfl hreports hevent htimes
    have hafter := h₁.annotations htimes
    refine ⟨hafter, ?_, ?_⟩
    · intro i hi hverified j hj hid
      obtain ⟨k, hk, hkid, hcontent, -⟩ := (hevent.holdsText h.textAlone hi
        (h.isText_of_verified hi hverified) hverified).annotations h₁.textAlone htimes
      rw [s'.timelineItems.eq_of_key hj hk (hid.trans hkid.symm)]
      exact hcontent
    · intro e' turnId heq he' j hj hverified T hT hrequests
      obtain rfl : e = e' := Option.some.inj heq
      have htext := hafter.isText_of_verified hj hverified
      have hj₁ := (htimes.text_mem h₁.textAlone htext).mp hj
      rw [he'] at hevent
      cases hevent with
      | notes _ hnote => cases hnote
      | interaction s₁ l hl => cases hl
      | delta s₁ T kind text hdelta => cases hdelta
      | finished _ T status error hfinish => cases hfinish
      | passed => exact hj₁
      | verified _ heq hnone =>
        cases heq
        obtain ⟨i, hi, rfl⟩ := List.mem_map.mp hj₁
        by_cases hp : isTurnText e.sessionId.toString turnId.toString i = true
        · exfalso
          rw [Rows.edit_pos hp] at hT hrequests
          simp only [isTurnText, Bool.and_eq_true, decide_eq_true_eq] at hp
          obtain ⟨⟨hthread, hturn⟩, -⟩ := hp
          rw [Option.some.inj (hT.symm.trans hturn), hthread, hnone] at hrequests
          cases hrequests
        · rw [Rows.edit_neg (by simpa using hp)]
          exact hi
      | _ => contradiction

end Rules

/-! ## The history -/

/-- What the history says of a row of verified text: the report of its request marked it, and its
text is what was persisted for it while that request was the running one of its turn. -/
structure Attests (os : List Step) (i : TimelineItem) (R : String) : Prop where
  marked : ∃ d ∈ os, d.Marks R i
  pieces : ∃ ds : List Step, ds.Sublist os ∧ (∀ d ∈ ds, d.Appends i) ∧
    i.content = String.join (ds.map Step.text)

/-- **Verified text is never borrowed.** In every run of the store whose reports name one turn for
each request, by an identifier that redaction leaves as it is: a row of verified text that names a
request was marked by the verified report of that request, and all of its text was persisted while
that request was the running one of its turn; no step changes the text of a row that was verified
before it; and the verification of a turn as a whole marks no row of a turn that has a record. -/
theorem verified_text_is_attested (turnOf : String → String → Option String)
    (ops : List (Environment × Write)) (hops : ∀ op ∈ ops, op.2.ReportsAs turnOf) :
    (∀ i ∈ (store.run {} ops).1.timelineItems.rows, ∀ R, isVerified i.metadata →
      requestOf i.metadata = some R → i.content ≠ "" → Attests (recorder.run {} ops).2 i R) ∧
    ∀ d ∈ (recorder.run {} ops).2, d.KeepsVerified ∧ d.SparesRequests := by
  have start : Attested turnOf [] {} := by
    refine ⟨⟨?_, ?_, ?_⟩, ?_, ?_⟩
    · exact fun _ h => absurd h List.not_mem_nil
    · exact fun _ h => absurd h List.not_mem_nil
    · exact fun _ h => absurd h List.not_mem_nil
    · exact fun _ h => absurd h List.not_mem_nil
    · exact fun _ h => absurd h List.not_mem_nil
  obtain ⟨hattested, hsteps⟩ := history_induction
    (Q := fun d => d.KeepsVerified ∧ d.SparesRequests) start
    (fun op hop os d h hd => h.moved hop hd) ops hops
  refine ⟨?_, hsteps⟩
  intro i hi R hverified hR hne
  rw [← recorder_run] at hi
  have hrow := hattested.texts i hi (hattested.isText_of_verified hi hverified)
  exact ⟨hrow.marked R hR hverified hne, hrow.pieces⟩

instance (m : Json) : Decidable (isVerified m) := inferInstanceAs (Decidable (_ = _))

namespace Sample

/-- A running request of a turn. -/
def asked (requestId : String) (turnId : TurnId) : RequestUsage :=
  { requestId, modelId := "model", providerId := "provider", turnId := some turnId.toString }

/-- A prompt, its request, the text of the answer, and the verified report of the request. -/
def answered : List (Environment × Write) :=
  [create, call "prompt" [.promptAccepted turn "hello" []],
    call "asked" [.requestUsageUpdated (asked "request" turn)],
    call "text" [.textDelta turn "text"],
    call "verified" [.requestUsageUpdated
      { asked "request" turn with state := .completed, responseVerified := true }]]

/-- The turn is verified as a whole before its first request takes its empty answer over. -/
def takenOver : List (Environment × Write) :=
  [create, call "prompt" [.promptAccepted turn "hello" []],
    call "verified" [.responseVerified turn],
    call "asked" [.requestUsageUpdated (asked "request" turn)]]

/-- A report moves the request to another turn before its own turn is verified as a whole. -/
def movedRequest : List (Environment × Write) :=
  [create, call "prompt" [.promptAccepted turn "hello" []],
    call "asked" [.requestUsageUpdated (asked "request" turn)],
    call "text" [.textDelta turn "text"],
    call "moved" [.requestUsageUpdated (asked "request" ⟨2⟩)],
    call "verified" [.responseVerified turn]]

/-- A request whose identifier redaction changes, and another one with the text it is changed to. -/
def renamedRequest : List (Environment × Write) :=
  [create, call "turn" [.turnStarted turn],
    call "asked" [.requestUsageUpdated (asked "sk-1234567890" turn)],
    call "text" [.textDelta turn "text"],
    call "verified" [.requestUsageUpdated
      { asked "[REDACTED]" turn with state := .completed, responseVerified := true }]]

end Sample

/-- `verified_text_is_attested` of the answer of the sample session. -/
theorem verified_text_is_attested_answer :
    ∃ i ∈ (store.run {} Sample.answered).1.timelineItems.rows, i.content = "text" ∧
      Attests (recorder.run {} Sample.answered).2 i "request" := by
  obtain ⟨i, hi, hverified, hR, hcontent⟩ :
      ∃ i ∈ (store.run {} Sample.answered).1.timelineItems.rows, isVerified i.metadata ∧
        requestOf i.metadata = some "request" ∧ i.content = "text" := by
    decide +kernel
  refine ⟨i, hi, hcontent, (verified_text_is_attested (fun _ _ => some Sample.turn.toString)
    Sample.answered ?_).1 i hi "request" hverified hR (by simp [hcontent])⟩
  have hstable : redactText "request" = "request" := by decide +kernel
  simp [Sample.answered, Sample.create, Sample.call, Sample.append, Sample.event, Sample.asked,
    Write.ReportsAs, ReportsAs, hstable]

/-- The request whose verified report a step persisted. -/
def Step.reported (d : Step) : Option String :=
  d.event.bind fun e =>
    match e.event with
    | .requestUsageUpdated usage => if usage.responseVerified then some usage.requestId else none
    | _ => none

theorem Step.Marks.reported {d : Step} {R : String} {i : TimelineItem} (h : d.Marks R i) :
    d.reported = some R := by
  obtain ⟨e, usage, hevent, -, he, hverified, rfl, -⟩ := h
  simp [Step.reported, hevent, he, hverified]

/-- Verified rows that name a request no report of which was ever verified, one without text and one
with text that was persisted for the request, and a verified row no text of which was persisted
while the request it names was running. -/
theorem verified_text_borrowed :
    (∃ i ∈ (store.run {} Sample.takenOver).1.timelineItems.rows, isVerified i.metadata ∧
      requestOf i.metadata = some "request" ∧
      ∀ d ∈ (recorder.run {} Sample.takenOver).2, ¬ d.Marks "request" i) ∧
    (∃ i ∈ (store.run {} Sample.movedRequest).1.timelineItems.rows, isVerified i.metadata ∧
      requestOf i.metadata = some "request" ∧ i.content = "text" ∧
      ∀ d ∈ (recorder.run {} Sample.movedRequest).2, ¬ d.Marks "request" i) ∧
    ∃ i ∈ (store.run {} Sample.renamedRequest).1.timelineItems.rows, isVerified i.metadata ∧
      requestOf i.metadata = some "[REDACTED]" ∧ i.content = "text" ∧
      ∀ d ∈ (recorder.run {} Sample.renamedRequest).2, ¬ d.Appends i := by
  refine ⟨?_, ?_, ?_⟩
  · obtain ⟨⟨i, hi, hverified, hR⟩, hnone⟩ :
        (∃ i ∈ (store.run {} Sample.takenOver).1.timelineItems.rows, isVerified i.metadata ∧
          requestOf i.metadata = some "request") ∧
        ∀ d ∈ (recorder.run {} Sample.takenOver).2, d.reported ≠ some "request" := by
      decide +kernel
    exact ⟨i, hi, hverified, hR, fun d hd hmarks => hnone d hd hmarks.reported⟩
  · obtain ⟨⟨i, hi, hverified, hR, hcontent⟩, hnone⟩ :
        (∃ i ∈ (store.run {} Sample.movedRequest).1.timelineItems.rows, isVerified i.metadata ∧
          requestOf i.metadata = some "request" ∧ i.content = "text") ∧
        ∀ d ∈ (recorder.run {} Sample.movedRequest).2, d.reported ≠ some "request" := by
      decide +kernel
    exact ⟨i, hi, hverified, hR, hcontent, fun d hd hmarks => hnone d hd hmarks.reported⟩
  · obtain ⟨⟨i, hi, hverified, hR, hcontent, hthread, hturn⟩, hnone⟩ :
        (∃ i ∈ (store.run {} Sample.renamedRequest).1.timelineItems.rows, isVerified i.metadata ∧
          requestOf i.metadata = some "[REDACTED]" ∧ i.content = "text" ∧
          i.threadId = Sample.thread ∧ i.turnId = some Sample.turn.toString) ∧
        ∀ d ∈ (recorder.run {} Sample.renamedRequest).2,
          d.before.runningRequest Sample.thread Sample.turn.toString ≠ some "[REDACTED]" := by
      decide +kernel
    refine ⟨i, hi, hverified, hR, hcontent, ?_⟩
    rintro d hd ⟨e, T, text, -, -, hT, -, hrunning⟩
    rw [hthread, hR] at hrunning
    rw [hturn] at hT
    rw [← Option.some.inj hT] at hrunning
    exact hnone d hd hrunning

end AxiomDesktop.Store
