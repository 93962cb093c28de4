import AxiomDesktop.SecureClient.Tinfoil

/-!
# The cuts of a Tinfoil stream

A parser reads the lines of its stream however the stream is cut (`feedAll_push`), but at the end of
each chunk it counts what it holds back: the bytes of the line that has not ended and the data of
the message that has not (`Held`). So the cuts of a stream whose lines are accepted decide whether a
chunk ends where too much is held (`Fits`).
-/

namespace AxiomDesktop

namespace Tinfoil

open Feeding (Outcome andThen readFrom feedAll)
open SecureClientError (invalid)
open StreamParser (acceptByte acceptLine checkHeld push)

/-! ## What is held back -/

/-- What is held back of a stream at some place. -/
structure Held where
  line : List UInt8 := []
  data : String := ""
  deriving DecidableEq, Repr

namespace Held

def size (held : Held) : Nat := held.line.length + held.data.utf8ByteSize

/-- The data after a line, and the message that ends there. -/
def afterLine (data : String) (line : List UInt8) : String × List String :=
  match Text.fromUtf8 line with
  | none => (data, [])
  | some line =>
    let line := StreamParser.lineText line
    if line = [] then
      if data.isEmpty then (data, []) else ("", [StreamParser.messageText data])
    else
      match StreamParser.lineData? line with
      | some more => (data ++ more ++ "\n", [])
      | none => (data, [])

/-- A byte of the stream, and the message that ends there. -/
def next (held : Held) (byte : UInt8) : Held × List String :=
  if byte = 10 then
    let (data, messages) := afterLine held.data held.line
    ({ line := [], data }, messages)
  else ({ held with line := held.line ++ [byte] }, [])

/-- Bytes of the stream, and the messages that end in them. -/
def read (held : Held) : List UInt8 → Held × List String
  | [] => (held, [])
  | byte :: bytes =>
    let (after, messages) := held.next byte
    let (last, more) := after.read bytes
    (last, messages ++ more)

/-- What is held back where each of the chunks ends. -/
def atEnds (held : Held) : List (List UInt8) → List Held
  | [] => []
  | chunk :: chunks => (held.read chunk).1 :: atEnds (held.read chunk).1 chunks

end Held

/-- No chunk ends where more is held back than the limit. -/
def Fits (limit : Nat) (held : Held) (chunks : List (List UInt8)) : Prop :=
  ∀ h ∈ held.atEnds chunks, h.size ≤ limit

instance (limit : Nat) (held : Held) (chunks : List (List UInt8)) :
    Decidable (Fits limit held chunks) :=
  inferInstanceAs (Decidable (∀ h ∈ held.atEnds chunks, h.size ≤ limit))

theorem fits_cons (limit : Nat) (held : Held) (chunk : List UInt8) (chunks : List (List UInt8)) :
    Fits limit held (chunk :: chunks) ↔
      (held.read chunk).1.size ≤ limit ∧ Fits limit (held.read chunk).1 chunks :=
  List.forall_mem_cons

/-! ## What the parser holds back -/

/-- What a parser holds back. -/
def StreamParser.held (p : StreamParser) : Held := ⟨p.buffer, p.data⟩

section
variable {D : TinfoilDecoders} {p p' : StreamParser} {events : List ProviderEvent}

/-- What a message leaves alone. -/
structure SameFrame (p p' : StreamParser) : Prop where
  held : p'.held = p.held
  limit : p'.limit = p.limit
  model : p'.model = p.model

theorem SameFrame.refl (p : StreamParser) : SameFrame p p := ⟨rfl, rfl, rfl⟩

theorem SameFrame.trans {q : StreamParser} (h : SameFrame p p') (h' : SameFrame p' q) :
    SameFrame p q :=
  ⟨h'.held.trans h.held, h'.limit.trans h.limit, h'.model.trans h.model⟩

theorem sameFrame_readFrom {α : Type} {step : StreamParser → α → StreamParser.Parsed}
    (hstep : ∀ p a p' events, step p a = .ok (p', events) → SameFrame p p') {as : List α}
    (h : readFrom step p as = .ok (p', events)) : SameFrame p p' :=
  Feeding.readFrom_invariant step (J := SameFrame p)
    (fun q a q' os hq hs => hq.trans (hstep q a q' os hs)) (SameFrame.refl p) h

theorem sameFrame_acceptText {part : Option Json × StreamParser.Target}
    (h : p.acceptText part = .ok (p', events)) : SameFrame p p' := by
  unfold StreamParser.acceptText at h
  split at h
  · cases h
    exact .refl p
  · split at h
    · cases h
    · split at h
      · cases h
        exact .refl p
      · split at h
        · cases h
        · cases h
          exact ⟨rfl, rfl, rfl⟩

theorem sameFrame_acceptToolCall {call : Json} (h : p.acceptToolCall call = .ok (p', events)) :
    SameFrame p p' := by
  unfold StreamParser.acceptToolCall at h
  split at h
  · cases h
  · split at h
    · cases h
    · cases h
      exact ⟨rfl, rfl, rfl⟩

theorem sameFrame_acceptToolCalls {delta : Json} (h : p.acceptToolCalls delta = .ok (p', events)) :
    SameFrame p p' := by
  unfold StreamParser.acceptToolCalls at h
  split at h
  · cases h
    exact .refl p
  · split at h
    · cases h
    · split at h
      · cases h
      · exact sameFrame_readFrom (fun _ _ _ _ => sameFrame_acceptToolCall) h

theorem sameFrame_acceptDelta {delta : Json} (h : p.acceptDelta delta = .ok (p', events)) :
    SameFrame p p' := by
  unfold StreamParser.acceptDelta at h
  split at h
  · cases h
  · split at h
    · cases h
    · obtain ⟨q, _, _, htexts, hcalls, _⟩ := Feeding.andThen_eq_ok h
      have hq : SameFrame p q := sameFrame_readFrom (fun _ _ _ _ => sameFrame_acceptText) htexts
      exact hq.trans (sameFrame_acceptToolCalls hcalls)

theorem sameFrame_acceptFinishReason {choice : Json}
    (h : p.acceptFinishReason choice = .ok (p', events)) : SameFrame p p' := by
  unfold StreamParser.acceptFinishReason at h
  split at h
  · cases h
    exact .refl p
  · split at h
    · cases h
    · cases h
      exact ⟨rfl, rfl, rfl⟩

theorem sameFrame_acceptChoice {choice : Json} (h : p.acceptChoice choice = .ok (p', events)) :
    SameFrame p p' := by
  unfold StreamParser.acceptChoice at h
  split at h
  · cases h
  · split at h
    · cases h
    · obtain ⟨q, _, _, hdelta, hreason, _⟩ := Feeding.andThen_eq_ok h
      exact (sameFrame_acceptDelta hdelta).trans (sameFrame_acceptFinishReason hreason)

theorem sameFrame_acceptHeader {value : Json} (h : p.acceptHeader value = .ok p') :
    SameFrame p p' := by
  unfold StreamParser.acceptHeader at h
  iterate 4 obtain ⟨_, _, h⟩ := Fallible.result_bind_ok h
  cases h
  exact ⟨rfl, rfl, rfl⟩

/-- A message does not change what is held back. -/
theorem sameFrame_event {data : String} (h : p.event D data = .ok (p', events)) :
    SameFrame p p' := by
  unfold StreamParser.event at h
  split at h
  · cases h
  · split at h
    · split at h
      · cases h
      · cases h
        exact ⟨rfl, rfl, rfl⟩
    · split at h
      · cases h
      · unfold StreamParser.acceptValue at h
        split at h
        · cases h
        · next q hheader =>
          have hq := sameFrame_acceptHeader hheader
          split at h
          · cases h
          · cases h
            exact hq
          · exact hq.trans (sameFrame_acceptChoice h)
          · cases h

/-- A line either only changes what is held back, or ends a message. -/
theorem acceptLine_cases {line : List UInt8} (h : p.acceptLine D line = .ok (p', events)) :
    (∃ data, Held.afterLine p.data line = (data, []) ∧ p' = { p with data } ∧ events = []) ∨
      ∃ message, Held.afterLine p.data line = ("", [message]) ∧
        { p with data := "" }.event D message = .ok (p', events) := by
  unfold StreamParser.acceptLine at h
  unfold Held.afterLine
  rcases htext : Text.fromUtf8 line with _ | text
  · simp only [htext] at h
    cases h
  · simp only [htext] at h ⊢
    split at h
    · next hblank =>
      rw [if_pos hblank]
      split at h
      · next hempty =>
        cases h
        exact .inl ⟨p.data, by rw [if_pos hempty], rfl, rfl⟩
      · next hfull => exact .inr ⟨_, by rw [if_neg hfull], h⟩
    · next hblank =>
      rw [if_neg hblank]
      rcases hdata : StreamParser.lineData? (StreamParser.lineText text) with _ | more
      · simp only [hdata] at h ⊢
        split at h
        · cases h
          exact .inl ⟨_, rfl, rfl, rfl⟩
        · cases h
      · simp only [hdata] at h ⊢
        split at h
        · cases h
        · split at h
          · cases h
          · cases h
            exact .inl ⟨_, rfl, rfl, rfl⟩

/-- So does a byte. -/
theorem acceptByte_cases {byte : UInt8} (h : p.acceptByte D byte = .ok (p', events)) :
    (∃ held, p.held.next byte = (held, []) ∧
        p' = { p with buffer := held.line, data := held.data } ∧ events = []) ∨
      ∃ message, p.held.next byte = ({}, [message]) ∧
        { p with buffer := [], data := "" }.event D message = .ok (p', events) := by
  unfold StreamParser.acceptByte at h
  unfold Held.next
  split at h
  · next hnewline =>
    rw [if_pos hnewline]
    rcases acceptLine_cases h with ⟨data, hline, rfl, rfl⟩ | ⟨message, hline, hevent⟩
    · refine .inl ⟨⟨[], data⟩, ?_, rfl, rfl⟩
      exact congrArg (fun r : String × List String => (Held.mk [] r.1, r.2)) hline
    · refine .inr ⟨message, ?_, hevent⟩
      exact congrArg (fun r : String × List String => (Held.mk [] r.1, r.2)) hline
  · next hnewline =>
    rw [if_neg hnewline]
    cases h
    exact .inl ⟨⟨p.buffer ++ [byte], p.data⟩, rfl, rfl, rfl⟩

theorem held_acceptByte {byte : UInt8} (h : p.acceptByte D byte = .ok (p', events)) :
    p'.held = (p.held.next byte).1 ∧ p'.limit = p.limit := by
  rcases acceptByte_cases h with ⟨held, hnext, rfl, rfl⟩ | ⟨message, hnext, hevent⟩
  · rw [hnext]
    exact ⟨rfl, rfl⟩
  · have hframe := sameFrame_event hevent
    rw [hnext]
    exact ⟨hframe.held, hframe.limit⟩

theorem held_readFrom {bytes : List UInt8} (h : readFrom (acceptByte D) p bytes = .ok (p', events)) :
    p'.held = (p.held.read bytes).1 ∧ p'.limit = p.limit := by
  induction bytes generalizing p events with
  | nil =>
    cases h
    exact ⟨rfl, rfl⟩
  | cons byte bytes ih =>
    obtain ⟨q, _, _, hbyte, hbytes, _⟩ := Feeding.andThen_eq_ok h
    obtain ⟨hheld, hlimit⟩ := held_acceptByte hbyte
    obtain ⟨hheld', hlimit'⟩ := ih hbytes
    rw [hheld', hheld, hlimit', hlimit]
    exact ⟨rfl, rfl⟩

end

/-! ## The chunks of a stream -/

theorem push_eq (D : TinfoilDecoders) (p : StreamParser) (bytes : List UInt8) :
    push D p bytes =
      if (p.held.read bytes).1.size ≤ p.limit then readFrom (acceptByte D) p bytes
      else (readFrom (acceptByte D) p bytes).bind
        fun _ => .error (invalid "Tinfoil stream event is oversized") := by
  unfold push
  cases hread : readFrom (acceptByte D) p bytes with
  | error e => split <;> rfl
  | ok r =>
    obtain ⟨q, events⟩ := r
    obtain ⟨hheld, hlimit⟩ := held_readFrom hread
    rw [Feeding.andThen_ok, ← hheld, ← hlimit]
    unfold checkHeld
    split
    · next hlarge =>
      rw [if_neg (show ¬ q.held.size ≤ q.limit from Nat.not_le.mpr hlarge)]
      rfl
    · next hfits =>
      rw [if_pos (show q.held.size ≤ q.limit from Nat.not_lt.mp hfits)]
      exact congrArg (fun events => Except.ok (q, events)) (List.append_nil events)

/-- The chunks are read as the stream is, where they fit. -/
theorem feedAll_push (D : TinfoilDecoders) (p : StreamParser) (chunks : List (List UInt8)) :
    (feedAll (push D) p chunks).toOption =
      if Fits p.limit p.held chunks then (readFrom (acceptByte D) p chunks.flatten).toOption
      else none := by
  induction chunks generalizing p with
  | nil => rfl
  | cons chunk chunks ih =>
    rw [Feeding.feedAll_cons, push_eq, List.flatten_cons, Feeding.readFrom_append]
    simp only [fits_cons]
    by_cases hchunk : (p.held.read chunk).1.size ≤ p.limit
    · rw [if_pos hchunk]
      simp only [hchunk, true_and]
      cases hread : readFrom (acceptByte D) p chunk with
      | error e => exact (ite_self none).symm
      | ok r =>
        obtain ⟨q, events⟩ := r
        obtain ⟨hheld, hlimit⟩ := held_readFrom hread
        rw [Feeding.andThen_ok, Feeding.andThen_ok, Feeding.toOption_map, ih, hheld, hlimit,
          Feeding.toOption_map]
        split <;> rfl
    · rw [if_neg hchunk, if_neg fun h => hchunk h.1]
      cases readFrom (acceptByte D) p chunk <;> rfl

/-- What a stream gives in the end, with all its events. -/
def outcome (D : TinfoilDecoders) (model : String) (limit : Nat) (chunks : List (List UInt8)) :
    Option (List ProviderEvent × Except SecureClientError InferenceResponse) :=
  (feedAll (push D) { model, limit } chunks).toOption.map fun r => (r.2, r.1.finish D)

/-- A line of the stream is refused, in whatever chunks it comes. -/
def Refused (D : TinfoilDecoders) (model : String) (limit : Nat) (bytes : List UInt8) : Prop :=
  (readFrom (acceptByte D) { model, limit } bytes).toOption = none

/-- **When the cuts of a stream do not matter.** Two cuts of a stream give the same where
each of them, or neither, has a chunk that ends with too much held back, or where a line is
refused anyway. -/
theorem tinfoil_cuts (D : TinfoilDecoders) (model : String) (limit : Nat)
    (chunks chunks' : List (List UInt8)) (h : chunks.flatten = chunks'.flatten) :
    outcome D model limit chunks = outcome D model limit chunks' ↔
      (Fits limit {} chunks ↔ Fits limit {} chunks') ∨ Refused D model limit chunks.flatten := by
  have hread (chunks : List (List UInt8)) : outcome D model limit chunks =
      if Fits limit {} chunks then
        (readFrom (acceptByte D) { model, limit } chunks.flatten).toOption.map
          fun r => (r.2, r.1.finish D)
      else none := by
    unfold outcome
    rw [feedAll_push]
    show Option.map _ (if Fits limit {} chunks then _ else none) = _
    split <;> rfl
  rw [hread, hread, ← h]
  unfold Refused
  cases (readFrom (acceptByte D) { model, limit } chunks.flatten).toOption with
  | none => simp
  | some r =>
    by_cases hf : Fits limit {} chunks <;> by_cases hf' : Fits limit {} chunks' <;> simp [hf, hf']

/-- A comment that comes in two chunks, and bytewise. -/
theorem tinfoil_cuts_comment :
    let D : TinfoilDecoders := ⟨fun _ => none, fun _ => none, fun _ => none⟩
    outcome D "m" 8 [[58, 112], [10]] = outcome D "m" 8 [[58], [112], [10]] ↔
      (Fits 8 {} [[58, 112], [10]] ↔ Fits 8 {} [[58], [112], [10]]) ∨
        Refused D "m" 8 [[58, 112], [10]].flatten :=
  tinfoil_cuts _ "m" 8 [[58, 112], [10]] [[58], [112], [10]] rfl

/-- A comment that is longer than the limit is passed over where it comes in one chunk, and refused
where a chunk ends in it. -/
theorem long_comment_refused :
    ¬ ∀ (D : TinfoilDecoders) (model : String) (limit : Nat) (chunks chunks' : List (List UInt8)),
      chunks.flatten = chunks'.flatten → outcome D model limit chunks = outcome D model limit chunks' := by
  intro h
  let D : TinfoilDecoders := ⟨fun _ => none, fun _ => none, fun _ => none⟩
  have hcuts : outcome D "m" 4 [[58, 112, 105, 110, 103, 10]] =
      outcome D "m" 4 [[58, 112, 105, 110, 103], [10]] := h D "m" 4 _ _ rfl
  have hwhole : (outcome D "m" 4 [[58, 112, 105, 110, 103, 10]]).isSome = true := by decide +kernel
  have hcut : (outcome D "m" 4 [[58, 112, 105, 110, 103], [10]]).isSome = false := by decide +kernel
  rw [hcuts, hcut] at hwhole
  cases hwhole

end Tinfoil

end AxiomDesktop
