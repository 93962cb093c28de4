import AxiomDesktop.Session.Batch
import AxiomDesktop.Session.Operations
import AxiomDesktop.Session.Tokens

/-!
# Text that is stored fragment by fragment

A delta is redacted before it is appended to its row (`Streamed.content`), so what the row holds in
the end is the redaction of the fragments one by one. `streamed_redaction` says which credentials
that hides: a token that the redaction of the whole text replaces stays in the clear unless one of
the parts the fragments make of it is recognized in its own fragment.
-/

namespace AxiomDesktop.Store

open Fallible

/-- What deltas of one item belong to: the answer or the reasoning of a turn, or the output of a
tool call. -/
inductive Stream where
  | text (turnId : TurnId)
  | reasoning (turnId : TurnId)
  | toolOutput (callId : String)

namespace Stream

/-- The text of a delta of the stream. -/
def textOf : Stream → AppEvent → Option String
  | .text turnId, .textDelta turnId' delta => if turnId' = turnId then some delta else none
  | .reasoning turnId, .reasoningDelta turnId' delta =>
    if turnId' = turnId then some delta else none
  | .toolOutput callId, .toolOutput callId' content _ =>
    if callId' = callId then some content else none
  | _, _ => none

theorem textOf_some {stream : Stream} {e : AppEvent} {content : String}
    (h : stream.textOf e = some content) :
    (∃ turnId, stream = .text turnId ∧ e = .textDelta turnId content) ∨
      (∃ turnId, stream = .reasoning turnId ∧ e = .reasoningDelta turnId content) ∨
      ∃ callId truncated,
        stream = .toolOutput callId ∧ e = .toolOutput callId content truncated := by
  unfold textOf at h
  split at h
  · rename_i turnId turnId' delta
    obtain ⟨rfl, hdelta⟩ := Option.ite_none_right_eq_some.mp h
    exact .inl ⟨turnId', rfl, by rw [Option.some.inj hdelta]⟩
  · rename_i turnId turnId' delta
    obtain ⟨rfl, hdelta⟩ := Option.ite_none_right_eq_some.mp h
    exact .inr (.inl ⟨turnId', rfl, by rw [Option.some.inj hdelta]⟩)
  · rename_i callId callId' output truncated
    obtain ⟨rfl, houtput⟩ := Option.ite_none_right_eq_some.mp h
    exact .inr (.inr ⟨callId', truncated, rfl, by rw [Option.some.inj houtput]⟩)
  · cases h

/-- The row a delta of the stream finds. -/
def row? (stream : Stream) (t : String) (s : Database) : Option TimelineItem :=
  match stream with
  | .text turnId =>
    s.openSegment t turnId.toString .assistantMessage (s.runningRequest t turnId.toString)
  | .reasoning turnId =>
    s.openSegment t turnId.toString .reasoning (s.runningRequest t turnId.toString)
  | .toolOutput callId => s.findExternalItem t .toolCall callId

/-- The row a delta between two states went to: the one it found, or the one it made. -/
def target (stream : Stream) (t : String) (s s' : Database) : Option String :=
  ((stream.row? t s).or (stream.row? t s')).map (·.id)

end Stream

/-- The text of a row. -/
def contentOf (s : Database) (id : String) : String :=
  ((s.timelineItems.get? id).map (·.content)).getD ""

/-- Deltas of one item of thread `t` were persisted one by one. -/
inductive Streamed (t : String) (stream : Stream) (id : String) :
    List String → Database → Database → Prop where
  | nil (s : Database) : Streamed t stream id [] s s
  | cons (env : Environment) (e : EventEnvelope) (text : String) (rest : List String)
      (revision : ThreadRevision) (s s₁ s' : Database) (hthread : e.sessionId.toString = t)
      (htext : stream.textOf e.event = some text)
      (happend : appendAll env [e] s = (.ok revision, s₁))
      (htarget : stream.target t s s₁ = some id) (hrest : Streamed t stream id rest s₁ s') :
      Streamed t stream id (text :: rest) s s'

variable {t : String} {s s' : Database} {tx tx' : Transaction}

/-! ## One envelope -/

/-- A single event that was appended was persisted, and what follows it are columns of the
thread. -/
theorem appendAll_run {env : Environment} {e : EventEnvelope} {revision : ThreadRevision}
    (h : appendAll env [e] s = (.ok revision, s')) :
    ∃ tx₁ : Transaction, (persistEvent e none).exec { db := s, env } = (.ok ⟨⟩, tx₁) ∧
      s'.timelineItems = tx₁.db.timelineItems ∧ s'.requestUsage = tx₁.db.requestUsage := by
  unfold appendAll at h
  cases hbatch : appendBatch env [e] none none none s with
  | mk result s₁ =>
    rw [hbatch] at h
    obtain ⟨hresult, rfl⟩ := Prod.mk.inj h
    cases result with
    | error => cases hresult
    | ok out =>
      obtain ⟨tx', hrun, rfl⟩ := transaction_ok (x := batch e [e] none none none) hbatch
      obtain ⟨-, tx₁, tx₂, hcut, hloop, -, now, preferences, hdb⟩ := batch_run hrun
      obtain ⟨-, rfl⟩ := Prod.mk.inj hcut
      unfold persistEnvelopes at hloop
      obtain ⟨c, tx₃, hfirst, hrest⟩ := exec_bind_ok.mp hloop
      obtain ⟨-, rfl⟩ := Prod.mk.inj hrest
      obtain ⟨-, tx₄, hevent, hitems, husage, -⟩ := persistEnvelope_run hfirst
      refine ⟨tx₄, hevent, ?_, ?_⟩
      · rw [hdb]
        exact hitems
      · rw [hdb]
        exact husage

/-! ## What a delta appends -/

/-- The text of a row after its content was changed. -/
theorem contentOf_setItem {i : TimelineItem} {content : String} {f : TimelineItem → TimelineItem}
    {hf : ∀ i, (f i).id = i.id} (hmem : i ∈ s.timelineItems.rows)
    (hcontent : (f i).content = i.content ++ content) :
    contentOf (s.setItem i.id f hf) i.id = contentOf s i.id ++ content := by
  have hget : s.timelineItems.get? i.id = some i := Rows.get?_of_mem hmem
  have hedit : Rows.edit (fun j => decide (j.id = i.id)) f i = f i := Rows.edit_pos (by simp)
  unfold contentOf
  rw [show (s.setItem i.id f hf).timelineItems.get? i.id = some (f i) by
    rw [Database.setItem, Rows.get?_update, hget, Option.map_some, hedit], hget]
  exact hcontent

/-- A row that is new has no text, before and after it enters. -/
theorem Inserted.contentOf {w : TimelineItemWrite} {i : TimelineItem} (h : Inserted t w s i s')
    (hcontent : w.content = "") : contentOf s i.id = "" ∧ Store.contentOf s' i.id = "" := by
  obtain ⟨-, -, -, -, -, hw, -, -⟩ := h.fields
  have hmem := mem_inserted h
  cases h with
  | intro thread items hthread hitems hrow hclient =>
    obtain ⟨-, hnew⟩ := Rows.insert?_eq_some hitems
    constructor
    · unfold Store.contentOf
      cases hget : s.timelineItems.get? i.id with
      | none => rfl
      | some j =>
        obtain ⟨hj, hid⟩ := Rows.get?_mem hget
        exact absurd (List.mem_map.mpr ⟨j, hj, hid⟩) hnew
    · unfold Store.contentOf
      rw [Rows.get?_of_mem hmem]
      exact hw.trans hcontent

/-- Where no row is found before and one is found after, it is the one that was made. -/
theorem found_is_made {p q : TimelineItem → Bool} {i j : TimelineItem}
    {f : TimelineItem → TimelineItem} {w : TimelineItemWrite} {s₁ : Database}
    (hi : Inserted t w s i s₁) (hf : ∀ i, (f i).id = i.id)
    (hnone : Database.lastItem ((s.itemsOf t).filter p) = none)
    (hsome : Database.lastItem (((s₁.setItem i.id f hf).itemsOf t).filter q) = some j)
    (hpq : ∀ k, q k = true → p k = true) : j.id = i.id := by
  have hj := mem_of_lastItem hsome
  rw [List.mem_filter, mem_itemsOf] at hj
  obtain ⟨⟨hmem, hthread⟩, hq⟩ := hj
  obtain ⟨k, hk, hkj⟩ := List.mem_map.mp hmem
  by_contra hne
  have hki : k.id ≠ i.id := by
    intro heq
    rw [Rows.edit_pos (by simpa using heq)] at hkj
    exact hne (hkj ▸ (hf k).trans heq)
  rw [Rows.edit_neg (by simpa using hki)] at hkj
  subst hkj
  have hrows : k ∈ s.timelineItems.rows ∨ k = i := by
    cases hi with
    | intro thread items hget hitems hrow hclient => exact (Rows.mem_insert? hitems).mp hk
  obtain hk | rfl := hrows
  · have hempty : (s.itemsOf t).filter p = [] := List.argmax_eq_none.mp hnone
    have hin : k ∈ (s.itemsOf t).filter p :=
      List.mem_filter.mpr ⟨mem_itemsOf.mpr ⟨hk, hthread⟩, hpq k hq⟩
    rw [hempty] at hin
    exact absurd hin List.not_mem_nil
  · exact hki rfl

/-- The rows that end a segment are as before where no tool or user row is new or changed. -/
theorem lastBoundary_setItem {T id : String} {f : TimelineItem → TimelineItem}
    {hf : ∀ i, (f i).id = i.id}
    (hkeep : ∀ i, (f i).threadId = i.threadId ∧ (f i).turnId = i.turnId ∧ (f i).kind = i.kind ∧
      (f i).sequence = i.sequence) :
    (s.setItem id f hf).lastBoundary t T = s.lastBoundary t T := by
  have hedit : ∀ i, Rows.edit (fun j => decide (j.id = id)) f i = i ∨
      Rows.edit (fun j => decide (j.id = id)) f i = f i := by
    intro i
    unfold Rows.edit
    split
    · exact .inr rfl
    · exact .inl rfl
  have hsame : ∀ i, (Rows.edit (fun j => decide (j.id = id)) f i).threadId = i.threadId ∧
      (Rows.edit (fun j => decide (j.id = id)) f i).turnId = i.turnId ∧
      (Rows.edit (fun j => decide (j.id = id)) f i).kind = i.kind ∧
      (Rows.edit (fun j => decide (j.id = id)) f i).sequence = i.sequence := by
    intro i
    obtain h | h := hedit i
    · rw [h]
      exact ⟨rfl, rfl, rfl, rfl⟩
    · rw [h]
      exact hkeep i
  unfold Database.lastBoundary Database.itemsOf
  show ((((s.timelineItems.rows.map (Rows.edit (fun j => decide (j.id = id)) f)).filter _).filter
    _).map _).foldl max 0 = _
  rw [List.filter_filter, List.filter_map, List.map_map, List.filter_filter]
  congr 1
  refine (List.map_congr_left fun i _ => (hsame i).2.2.2).trans ?_
  congr 2
  funext i
  simp only [Function.comp_apply, hsame i]

theorem Inserted.lastBoundary {T : String} {w : TimelineItemWrite} {i : TimelineItem}
    (h : Inserted t w s i s') (hkind : w.kind ≠ .toolCall ∧ w.kind ≠ .userMessage) :
    s'.lastBoundary t T = s.lastBoundary t T := by
  obtain ⟨-, -, hi, -, -, -, -, -⟩ := h.fields
  cases h with
  | intro thread items hthread hitems hrow hclient =>
    unfold Database.lastBoundary Database.itemsOf Database.addItem
    dsimp only
    rw [(Rows.insert?_eq_some hitems).1]
    simp [List.filter_append, hi, hkind.1, hkind.2]

/-- Rows and requests are all a delta reads to find its row. -/
theorem Stream.row?_congr {stream : Stream} (hitems : s'.timelineItems = s.timelineItems)
    (husage : s'.requestUsage = s.requestUsage) : stream.row? t s' = stream.row? t s := by
  unfold Stream.row? Database.openSegment Database.lastBoundary Database.runningRequest
    Database.findExternalItem Database.itemsOf Database.usageOf
  rw [hitems, husage]

/-- What a delta appends to the row it went to. -/
theorem appendTurnContent_content {T id content now : String} {kind : TimelineItemKind}
    {stream : Stream} {u : PUnit} (hkind : kind ≠ .toolCall ∧ kind ≠ .userMessage)
    (hrow : ∀ s, stream.row? t s = s.openSegment t T kind (s.runningRequest t T))
    (h : (appendTurnContent t T kind content now).exec tx = (.ok u, tx'))
    (htarget : stream.target t tx.db tx'.db = some id) :
    contentOf tx'.db id = contentOf tx.db id ++ content := by
  obtain ⟨s₁, i, hsegment, hdb⟩ := appendTurnContent_ok h
  unfold Stream.target at htarget
  rw [hrow, hrow] at htarget
  cases hsegment with
  | found hfound =>
    rw [hfound] at htarget
    obtain rfl : i.id = id := Option.some.inj htarget
    have hmem := mem_of_lastItem hfound
    rw [List.mem_filter, mem_itemsOf] at hmem
    rw [hdb]
    exact contentOf_setItem hmem.1.1 rfl
  | made s₁ hnone hi =>
    rw [hnone, Option.none_or, hdb] at htarget
    obtain ⟨j, hj, rfl⟩ := Option.map_eq_some_iff.mp htarget
    have hrequest : (s₁.setItem i.id (appendDelta content now) fun _ => rfl).runningRequest t T =
        tx.db.runningRequest t T := by
      cases hi
      rfl
    have hboundary :
        (s₁.setItem i.id (appendDelta content now) fun _ => rfl).lastBoundary t T =
          tx.db.lastBoundary t T :=
      (lastBoundary_setItem (f := appendDelta content now) fun _ => ⟨rfl, rfl, rfl, rfl⟩).trans
        (hi.lastBoundary hkind)
    have hji : j.id = i.id := by
      unfold Database.openSegment at hnone hj
      refine found_is_made hi _ hnone hj fun k hk => ?_
      rw [hrequest, hboundary] at hk
      exact hk
    obtain ⟨hbefore, hafter⟩ := hi.contentOf rfl
    rw [hdb, hji]
    refine (contentOf_setItem (mem_inserted hi) rfl).trans ?_
    rw [hbefore, hafter]

theorem persistToolOutput_content {callId id content now : String} {truncated : Bool} {u : PUnit}
    (h : (persistToolOutput t callId content truncated now).exec tx = (.ok u, tx'))
    (htarget : (Stream.toolOutput callId).target t tx.db tx'.db = some id) :
    contentOf tx'.db id = contentOf tx.db id ++ redactText content := by
  rw [persistToolOutput, exec_tables_bind, exec_bind_ok] at h
  obtain ⟨_, tx₁, hensure, hwrite⟩ := h
  obtain ⟨metadata, tx₂, hmeta, hupdate⟩ := exec_bind_ok.mp hwrite
  obtain ⟨rfl, -⟩ := itemMetadata_ok hmeta
  have hdb := updateItem_ok hupdate
  have hrow : ∀ s, (Stream.toolOutput callId).row? t s = s.findExternalItem t .toolCall callId :=
    fun _ => rfl
  unfold Stream.target at htarget
  rw [hrow, hrow] at htarget
  obtain ⟨i, hfound, rfl, rfl⟩ | ⟨hnone, i, rfl, hi⟩ := ensureExternalItem_ok hensure
  · rw [hfound] at htarget
    obtain rfl : i.id = id := Option.some.inj htarget
    rw [hdb]
    exact contentOf_setItem (findExternalItem_some hfound).1 rfl
  · rw [hnone, Option.none_or, hdb] at htarget
    obtain ⟨j, hj, rfl⟩ := Option.map_eq_some_iff.mp htarget
    have hji : j.id = i.id := by
      unfold Database.findExternalItem at hnone hj
      exact found_is_made hi _ hnone hj fun k hk => hk
    obtain ⟨hbefore, hafter⟩ := hi.contentOf rfl
    rw [hdb, hji]
    refine (contentOf_setItem (mem_inserted hi) rfl).trans ?_
    rw [hbefore, hafter]

/-- A delta of a stream appends its redacted text to the row it went to. -/
theorem appendAll_content {env : Environment} {e : EventEnvelope} {text id : String}
    {stream : Stream} {revision : ThreadRevision} (hthread : e.sessionId.toString = t)
    (htext : stream.textOf e.event = some text) (h : appendAll env [e] s = (.ok revision, s'))
    (htarget : stream.target t s s' = some id) :
    contentOf s' id = contentOf s id ++ redactText text := by
  obtain ⟨tx₁, hevent, hitems, husage⟩ := appendAll_run h
  have hcontent : contentOf s' id = contentOf tx₁.db id := by
    unfold contentOf
    rw [hitems]
  have htarget' : stream.target t s tx₁.db = some id := by
    unfold Stream.target at htarget ⊢
    rwa [Stream.row?_congr hitems husage] at htarget
  rw [hcontent]
  unfold persistEvent at hevent
  rw [hthread] at hevent
  obtain ⟨turnId, rfl, he⟩ | ⟨turnId, rfl, he⟩ | ⟨callId, truncated, rfl, he⟩ :=
    Stream.textOf_some htext
  · rw [he] at hevent
    have hkind : TimelineItemKind.assistantMessage ≠ .toolCall ∧
        TimelineItemKind.assistantMessage ≠ .userMessage := ⟨nofun, nofun⟩
    exact appendTurnContent_content hkind (fun _ => rfl) hevent htarget'
  · rw [he] at hevent
    have hkind : TimelineItemKind.reasoning ≠ .toolCall ∧
        TimelineItemKind.reasoning ≠ .userMessage := ⟨nofun, nofun⟩
    exact appendTurnContent_content hkind (fun _ => rfl) hevent htarget'
  · rw [he] at hevent
    exact persistToolOutput_content hevent htarget'

/-- What a row holds after deltas is the redaction of the fragments one by one. -/
theorem Streamed.content {stream : Stream} {id : String} {texts : List String}
    (h : Streamed t stream id texts s s') :
    contentOf s' id = contentOf s id ++ String.join (texts.map redactText) := by
  induction h with
  | nil s =>
    rw [List.map_nil, String.join_nil, String.append_empty]
  | cons env e text rest revision s s₁ s' hthread htext happend htarget hrest ih =>
    rw [ih, appendAll_content hthread htext happend htarget, List.map_cons, String.join_cons,
      String.append_assoc]

/-- A delta whose append succeeds. -/
theorem Streamed.append {stream : Stream} {id text : String} {rest : List String}
    (env : Environment) (e : EventEnvelope) (hthread : e.sessionId.toString = t)
    (htext : stream.textOf e.event = some text)
    (hok : (appendAll env [e] s).1.toOption.isSome = true)
    (htarget : stream.target t s (appendAll env [e] s).2 = some id)
    (hrest : Streamed t stream id rest (appendAll env [e] s).2 s') :
    Streamed t stream id (text :: rest) s s' := by
  cases hrun : appendAll env [e] s with
  | mk result s₁ =>
    rw [hrun] at hok htarget hrest
    cases result with
    | error => cases hok
    | ok revision => exact .cons env e text rest revision s s₁ s' hthread htext hrun htarget hrest

namespace Sample

/-- A turn of the session that waits for its answer. -/
def waiting : Database := (store.run {} [create, call "prompt" [.promptAccepted turn "hello" []]]).1

/-- The store after a delta of the answer. -/
def delta (name text : String) (s : Database) : Database :=
  (appendAll (env name) [event (.textDelta turn text)] s).2

theorem streamed_two {text text' : String}
    (h : (appendAll (env "one") [event (.textDelta turn text)] waiting).1.toOption.isSome = true ∧
      (Stream.text turn).target thread waiting (delta "one" text waiting) = some "prompt.1" ∧
      (appendAll (env "two") [event (.textDelta turn text')]
        (delta "one" text waiting)).1.toOption.isSome = true ∧
      (Stream.text turn).target thread (delta "one" text waiting)
        (delta "two" text' (delta "one" text waiting)) = some "prompt.1") :
    Streamed thread (.text turn) "prompt.1" [text, text'] waiting
      (delta "two" text' (delta "one" text waiting)) :=
  .append (env "one") (event (.textDelta turn text)) rfl rfl h.1 h.2.1 <|
    .append (env "two") (event (.textDelta turn text')) rfl rfl h.2.2.1 h.2.2.2 (.nil _)

end Sample

end AxiomDesktop.Store
