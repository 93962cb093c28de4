import AxiomDesktop.Lib.Feed
import AxiomDesktop.SecureClient.Relay

/-!
# The decoder of a relay stream

`SseDecoder`: lines of a byte stream that make events, whose data are decoded as payloads
(`RelayDecoders`, the deserializers of `serde_json`). Chunks of a receipt are put together in
between, and go into the proof of the completed message that names their count (`acceptProof`).
The messages that were received are kept beside the decoder (`SseDecoder.received`); the code does
not keep them.
-/

namespace AxiomDesktop

/-- A part of the body of a receipt. -/
structure ProofChunk where
  runId : String
  index : Nat
  data : String
  deriving DecidableEq, Repr

/-- What `serde_json` makes of the data of each event. -/
structure RelayDecoders where
  proofChunk : String → Option ProofChunk
  created : String → Option CreatedPayload
  accounting : String → Option RequestUsage
  delta : String → Option DeltaPayload
  completed : String → Option CompletedPayload
  run : String → Option RunPayload
  cancelled : String → Option CancelledPayload
  failed : String → Option FailedPayload

/-- A message of the stream: a part of a receipt, or an event with the one that is emitted
for it. -/
inductive SseReceived where
  | chunk (chunk : ProofChunk)
  | event (decoded emitted : RelayEvent)

structure SseDecoder where
  eventLimit : Nat
  streamLimit : Nat
  totalBytes : Nat := 0
  eventBytes : Nat := 0
  line : List UInt8 := []
  eventName : Option String := none
  data : List String := []
  proofRunId : Option String := none
  proofParts : Nat := 0
  proofBody : String := ""
  received : List SseReceived := []

namespace SseDecoder

open Feeding (Outcome readFrom)

/-- What a step of the decoder gives. -/
abbrev Decoded : Type := Outcome SecureClientError SseDecoder RelayEvent

def tooLarge : SecureClientError :=
  .withCode .invalidResponse .responseTooLarge "Response exceeded the allowed size." false

/-- The first `c` splits a text in two. -/
def splitOnce (c : Char) (cs : List Char) : List Char × List Char :=
  (cs.takeWhile (· ≠ c), (cs.dropWhile (· ≠ c)).tail)

def MAX_PROOF_CHUNK_BYTES : Nat := 256 * 1024
def MAX_PROOF_BODY_BYTES : Nat := (32 * 1024 * 1024 / 3 + 1) * 4

section
variable (D : RelayDecoders)

/-- `parse_event`. -/
def parseEvent (name data : String) : Except SecureClientError (Option RelayEvent) :=
  let decode {α : Type} (payload : Option α) (variant : α → RelayEvent) :
      Except SecureClientError (Option RelayEvent) :=
    match payload with
    | some payload => .ok (some (variant payload))
    | none => .error (.invalid "relay SSE event schema is invalid")
  match name with
  | "run.created" => decode (D.created data) .runCreated
  | "run.accounting" => decode (D.accounting data) .accounting
  | "message.encrypted_delta" => decode (D.delta data) .delta
  | "message.encrypted_completed" => decode (D.completed data) .messageCompleted
  | "run.completed" => decode (D.run data) .runCompleted
  | "run.finalizing" => decode (D.run data) .finalizing
  | "run.cancelled" => decode (D.cancelled data) .cancelled
  | "run.failed" => decode (D.failed data) .failed
  | _ => .ok none

/-- An event is emitted. -/
def emit (d : SseDecoder) (decoded emitted : RelayEvent) : Decoded :=
  .ok ({ d with received := d.received ++ [.event decoded emitted] }, [emitted])

/-- A `message.proof_chunk`. -/
def acceptChunk (d : SseDecoder) (data : String) : Decoded :=
  match D.proofChunk data with
  | none => .error (.invalid "invalid receipt chunk")
  | some part =>
    if part.runId = "" ∨ 256 < part.runId.utf8ByteSize ∨ part.index ≠ d.proofParts ∨ part.data = "" ∨
        MAX_PROOF_CHUNK_BYTES < part.data.utf8ByteSize ∨
        MAX_PROOF_BODY_BYTES < d.proofBody.utf8ByteSize + part.data.utf8ByteSize ∨
        d.proofRunId.any (· ≠ part.runId) then
      .error (.invalid "receipt chunk sequence or size is invalid")
    else
      .ok ({ d with
        proofRunId := some part.runId
        proofParts := d.proofParts + 1
        proofBody := d.proofBody ++ part.data
        received := d.received ++ [.chunk part] }, [])

/-- A completed message takes the chunks that its proof names. -/
def acceptProof (d : SseDecoder) (payload : CompletedPayload) : Decoded :=
  match payload.proof with
  | some (.obj fields) =>
    let count := (Json.obj fields).get? "response_body_chunk_count"
    let proof := (Json.obj fields).remove "response_body_chunk_count"
    if 0 < d.proofParts ∨ count.isSome then
      if count.bind Json.nat? ≠ some d.proofParts ∨ d.proofParts = 0 ∨
          d.proofRunId ≠ some payload.runId ∨ (proof.get? "response_body_base64").isSome then
        .error (.invalid "incomplete or duplicated receipt chunks")
      else
        { d with proofBody := "", proofParts := 0, proofRunId := none }.emit (.messageCompleted payload)
          (.messageCompleted
            { payload with proof := some (proof.set "response_body_base64" (.str d.proofBody)) })
    else d.emit (.messageCompleted payload) (.messageCompleted { payload with proof := some proof })
  | _ =>
    if 0 < d.proofParts then .error (.invalid "receipt chunks have no terminal proof")
    else d.emit (.messageCompleted payload) (.messageCompleted payload)

/-- A message of the stream. -/
def acceptMessage (d : SseDecoder) (name data : String) : Decoded :=
  if name = "message.proof_chunk" then d.acceptChunk D data
  else
    match parseEvent D name data with
    | .error e => .error e
    | .ok none => .ok (d, [])
    | .ok (some (.messageCompleted payload)) => d.acceptProof payload
    | .ok (some event) => d.emit event event

/-- `accept_line`. -/
def acceptLine (d : SseDecoder) (line : List UInt8) : Decoded :=
  match Text.fromUtf8 line with
  | none => .error (.invalid "relay SSE control data is not UTF-8")
  | some line =>
    let cs := line.toList
    match cs with
    | [] =>
      if d.eventName = none ∧ d.data = [] then .ok ({ d with eventBytes := 0 }, [])
      else if d.data = [] then .error (.invalid "relay SSE event data is missing")
      else
        { d with eventName := none, data := [], eventBytes := 0 }.acceptMessage D
          (d.eventName.getD "message") ("\n".intercalate d.data)
    | ':' :: _ => .ok (d, [])
    | _ =>
      let (field, value) := splitOnce ':' cs
      let value := String.ofList ((Text.stripPrefix [' '] value).getD value)
      if field = "event".toList then
        if d.eventName = none then .ok ({ d with eventName := some value }, [])
        else .error (.invalid "relay SSE event name is duplicated")
      else if field = "data".toList then .ok ({ d with data := d.data ++ [value] }, [])
      else .ok (d, [])

/-- A byte of the stream. -/
def acceptByte (d : SseDecoder) (byte : UInt8) : Decoded :=
  let line := d.line ++ [byte]
  if d.eventLimit < d.eventBytes + line.length then .error tooLarge
  else if byte = 10 then
    let line := line.dropLast
    let line := if line.getLast? = some 13 then line.dropLast else line
    { d with line := [], eventBytes := d.eventBytes + (line.length + 1) }.acceptLine D line
  else .ok ({ d with line }, [])

/-- `SseDecoder::feed`. -/
def feed (d : SseDecoder) (bytes : List UInt8) : Decoded :=
  let totalBytes := d.totalBytes + bytes.length
  if d.streamLimit < totalBytes then .error tooLarge
  else readFrom (acceptByte D) { d with totalBytes } bytes

end

/-- `SseDecoder::finish`. -/
def finish (d : SseDecoder) : Except SecureClientError Unit :=
  if d.line = [] ∧ d.eventName = none ∧ d.data = [] ∧ d.eventBytes = 0 ∧ d.proofParts = 0 then .ok ()
  else .error (.invalid "relay SSE stream ended inside an event")

end SseDecoder

end AxiomDesktop

/-!
## A relay stream may be cut anywhere

The decoder takes one byte at a time, but for the number of all bytes, which it counts by chunks and
which no line looks at (`SseDecoder.withCount`). So what it makes of a stream does not depend on the
chunks that the stream comes in (`sse_cuts`).
-/

namespace AxiomDesktop

namespace SseDecoder

open Feeding (Outcome andThen readFrom feedAll)

variable {D : RelayDecoders}

/-- The number of bytes and its limit are others. -/
def withCount (n m : Nat) (r : Decoded) : Decoded :=
  r.map fun r => ({ r.1 with totalBytes := n, streamLimit := m }, r.2)

@[simp] theorem withCount_error (n m : Nat) (e : SecureClientError) : withCount n m (.error e) = .error e :=
  rfl

@[simp] theorem withCount_ok (n m : Nat) (d : SseDecoder) (events : List RelayEvent) :
    withCount n m (.ok (d, events)) = .ok ({ d with totalBytes := n, streamLimit := m }, events) := rfl

section
variable (n m : Nat) (d : SseDecoder)

theorem acceptChunk_count (data : String) :
    acceptChunk D { d with totalBytes := n, streamLimit := m } data = withCount n m (acceptChunk D d data) := by
  unfold acceptChunk
  split
  · rfl
  · dsimp only
    split <;> rfl

theorem acceptProof_count (payload : CompletedPayload) :
    acceptProof { d with totalBytes := n, streamLimit := m } payload = withCount n m (acceptProof d payload) := by
  unfold acceptProof
  split
  · dsimp only
    split
    · split <;> rfl
    · rfl
  · dsimp only
    split <;> rfl

theorem acceptMessage_count (name data : String) :
    acceptMessage D { d with totalBytes := n, streamLimit := m } name data = withCount n m (acceptMessage D d name data) := by
  unfold acceptMessage
  split
  · exact acceptChunk_count n m d data
  · split
    · rfl
    · rfl
    · exact acceptProof_count n m d _
    · rfl

theorem acceptLine_count (line : List UInt8) :
    acceptLine D { d with totalBytes := n, streamLimit := m } line = withCount n m (acceptLine D d line) := by
  unfold acceptLine
  split
  · rfl
  · dsimp only
    split
    · split
      · rfl
      · split
        · rfl
        · exact acceptMessage_count n m { d with eventName := none, data := [], eventBytes := 0 } _ _
    · rfl
    · split
      · split <;> rfl
      · split <;> rfl

theorem acceptByte_count (byte : UInt8) :
    acceptByte D { d with totalBytes := n, streamLimit := m } byte = withCount n m (acceptByte D d byte) := by
  unfold acceptByte
  dsimp only
  split
  · rfl
  · split
    · exact acceptLine_count n m { d with line := [], eventBytes := _ } _
    · rfl

theorem readFrom_count (bytes : List UInt8) :
    readFrom (acceptByte D) { d with totalBytes := n, streamLimit := m } bytes =
      withCount n m (readFrom (acceptByte D) d bytes) := by
  induction bytes generalizing d with
  | nil => rfl
  | cons byte bytes ih =>
    rw [Feeding.readFrom_cons, Feeding.readFrom_cons, acceptByte_count]
    cases acceptByte D d byte with
    | error e => rfl
    | ok r =>
      obtain ⟨d', events⟩ := r
      rw [withCount_ok, Feeding.andThen_ok, Feeding.andThen_ok, ih]
      cases readFrom (acceptByte D) d' bytes <;> rfl

end

theorem feed_eq (d : SseDecoder) (bytes : List UInt8) :
    feed D d bytes = if d.streamLimit < d.totalBytes + bytes.length then .error tooLarge
      else withCount (d.totalBytes + bytes.length) d.streamLimit (readFrom (acceptByte D) d bytes) := by
  rw [← readFrom_count]
  rfl

/-- The chunks are read as the stream is. -/
theorem feedAll_toOption (d : SseDecoder) (hd : d.totalBytes ≤ d.streamLimit)
    (chunks : List (List UInt8)) :
    (feedAll (feed D) d chunks).toOption = (feed D d chunks.flatten).toOption := by
  induction chunks generalizing d with
  | nil =>
    have hfits : ¬ d.streamLimit < d.totalBytes + 0 := Nat.not_lt.mpr hd
    rw [List.flatten_nil, feed_eq, List.length_nil, if_neg hfits]
    rfl
  | cons chunk chunks ih =>
    rw [List.flatten_cons, Feeding.feedAll_cons, feed_eq, feed_eq, List.length_append]
    by_cases hchunk : d.streamLimit < d.totalBytes + chunk.length
    · have hstream : d.streamLimit < d.totalBytes + (chunk.length + chunks.flatten.length) := by omega
      rw [if_pos hchunk, if_pos hstream]
      rfl
    · rw [if_neg hchunk, Feeding.readFrom_append]
      cases readFrom (acceptByte D) d chunk with
      | error e => split <;> rfl
      | ok r =>
        obtain ⟨d', events⟩ := r
        let next : SseDecoder :=
          { d' with totalBytes := d.totalBytes + chunk.length, streamLimit := d.streamLimit }
        have hrest := ih next (Nat.not_lt.mp hchunk)
        have hnext := readFrom_count (D := D) (d.totalBytes + chunk.length) d.streamLimit d' chunks.flatten
        rw [withCount_ok, Feeding.andThen_ok, Feeding.andThen_ok, Feeding.toOption_map, hrest, feed_eq,
          hnext]
        dsimp only [next]
        rw [Nat.add_assoc]
        split
        · rfl
        · cases readFrom (acceptByte D) d' chunks.flatten <;> rfl

/-- **A relay stream may be cut anywhere.** Two cuts of a stream both fail, or give the same events
and the same end. -/
theorem sse_cuts (D : RelayDecoders) (eventLimit streamLimit : Nat) (chunks chunks' : List (List UInt8))
    (h : chunks.flatten = chunks'.flatten) :
    let outcome (chunks : List (List UInt8)) :=
      (feedAll (feed D) { eventLimit, streamLimit } chunks).toOption.map fun r => (r.2, r.1.finish)
    outcome chunks = outcome chunks' := by
  have hstart (chunks : List (List UInt8)) := feedAll_toOption (D := D)
    { eventLimit, streamLimit } (Nat.zero_le _) chunks
  dsimp only
  rw [hstart, hstart, h]

/-- A heartbeat that comes in two chunks, and bytewise. -/
theorem sse_cuts_heartbeat :
    let D : RelayDecoders := ⟨fun _ => none, fun _ => none, fun _ => none, fun _ => none, fun _ => none,
      fun _ => none, fun _ => none, fun _ => none⟩
    let outcome (chunks : List (List UInt8)) :=
      (feedAll (feed D) { eventLimit := 8, streamLimit := 8 } chunks).toOption.map fun r =>
        (r.2, r.1.finish)
    outcome [[58, 13], [10, 10]] = outcome [[58], [13], [10], [10]] :=
  sse_cuts _ 8 8 [[58, 13], [10, 10]] [[58], [13], [10], [10]] rfl

end SseDecoder

end AxiomDesktop
