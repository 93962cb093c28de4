import AxiomDesktop.Lib.Machine
import AxiomDesktop.SecureClient.SseDecoder

/-!
# The receipts of a relay stream

The chunks that are pending after what was received (`pendingChunks`) are the ones that the
decoder has put together (`SseDecoder.Holds`). A completed message that declares their count is
emitted with all of them, in the order of their indices, and no other message is emitted while a
chunk is pending (`receipts_are_exact`).
-/

namespace AxiomDesktop

theorem Json.remove_of_none {key : String} {v : Json} (h : v.get? key = none) : v.remove key = v := by
  cases v with
  | obj fields =>
    refine congrArg Json.obj (List.filter_eq_self.mpr ?_)
    have hlookup : Json.lookup key fields = none := h
    clear h
    induction fields with
    | nil => exact fun _ hmem => absurd hmem List.not_mem_nil
    | cons field rest ih =>
      obtain ⟨k, value⟩ := field
      unfold Json.lookup at hlookup
      split at hlookup
      · cases hlookup
      · next hk =>
        exact List.forall_mem_cons.mpr ⟨by simpa using hk, ih hlookup⟩
  | _ => rfl

/-- The count of chunks that a proof declares. -/
def CompletedPayload.declaredCount (payload : CompletedPayload) : Option Json :=
  match payload.proof with
  | some (.obj fields) => (Json.obj fields).get? "response_body_chunk_count"
  | _ => none

/-- The event that is emitted for a message. -/
def SseReceived.emitted? : SseReceived → Option RelayEvent
  | .chunk _ => none
  | .event _ emitted => some emitted

/-- What a message makes of the chunks that are pending. -/
def SseReceived.pend (pending : List ProofChunk) : SseReceived → List ProofChunk
  | .chunk part => pending ++ [part]
  | .event (.messageCompleted payload) _ => if payload.declaredCount.isSome then [] else pending
  | .event _ _ => pending

/-- The chunks since the last completed message that took chunks. -/
def pendingChunks (received : List SseReceived) : List ProofChunk := received.foldl SseReceived.pend []

/-- The completed message is emitted with the body of the chunks in its proof, in place of
their count. -/
structure Reassembled (chunks : List ProofChunk) (payload : CompletedPayload) (count : Json)
    (emitted : RelayEvent) : Prop where
  nonempty : chunks ≠ []
  count : count.nat? = some chunks.length
  runs : ∀ chunk ∈ chunks, chunk.runId = payload.runId
  indices : chunks.map (·.index) = List.range chunks.length
  emitted : ∃ proof proof', payload.proof = some proof ∧
    emitted = .messageCompleted { payload with proof := some proof' } ∧
    proof'.get? "response_body_base64" = some (.str (String.join (chunks.map (·.data)))) ∧
    proof'.get? "response_body_chunk_count" = none ∧
    ∀ key, key ≠ "response_body_base64" → key ≠ "response_body_chunk_count" →
      proof'.get? key = proof.get? key

/-- What is emitted for a message is right beside what was received before it. -/
def SseReceived.Right (before : List SseReceived) : SseReceived → Prop
  | .chunk _ => True
  | .event (.messageCompleted payload) emitted =>
    match payload.declaredCount with
    | some count => Reassembled (pendingChunks before) payload count emitted
    | none => emitted = .messageCompleted payload ∧ pendingChunks before = []
  | .event decoded emitted => emitted = decoded

@[simp] theorem pendingChunks_snoc (received : List SseReceived) (item : SseReceived) :
    pendingChunks (received ++ [item]) = item.pend (pendingChunks received) := by
  simp [pendingChunks]

namespace SseDecoder

open Feeding (readFrom feedAll)

/-- The decoder has put together the chunks that are pending, and has emitted what is right. -/
structure Holds (events : List RelayEvent) (d : SseDecoder) : Prop where
  parts : d.proofParts = (pendingChunks d.received).length
  body : d.proofBody = String.join ((pendingChunks d.received).map (·.data))
  runs : ∀ chunk ∈ pendingChunks d.received, d.proofRunId = some chunk.runId
  fresh : pendingChunks d.received = [] → d.proofRunId = none
  indices : (pendingChunks d.received).map (·.index) = List.range (pendingChunks d.received).length
  right : Always SseReceived.Right d.received
  events : events = d.received.filterMap SseReceived.emitted?

section Steps

variable {D : RelayDecoders} {events more : List RelayEvent} {d d' : SseDecoder}

theorem right_snoc {item : SseReceived} (hright : Always SseReceived.Right d.received)
    (hitem : item.Right d.received) : Always SseReceived.Right (d.received ++ [item]) :=
  always_append.mpr ⟨hright, by simpa using hitem⟩

theorem events_snoc (item : SseReceived) (hevents : events = d.received.filterMap SseReceived.emitted?) :
    events ++ item.emitted?.toList = (d.received ++ [item]).filterMap SseReceived.emitted? := by
  rw [hevents, List.filterMap_append]
  cases item <;> rfl

/-- An event is emitted that leaves the chunks pending. -/
theorem Holds.emit {decoded emitted : RelayEvent} (hd : d.Holds events)
    (hitem : SseReceived.Right d.received (.event decoded emitted))
    (hpend : SseReceived.pend (pendingChunks d.received) (.event decoded emitted) =
      pendingChunks d.received) (h : d.emit decoded emitted = .ok (d', more)) :
    d'.Holds (events ++ more) := by
  obtain ⟨rfl, rfl⟩ := Prod.mk.inj (Except.ok.inj h)
  have hsame : pendingChunks (d.received ++ [.event decoded emitted]) = pendingChunks d.received := by
    rw [pendingChunks_snoc, hpend]
  exact
    { parts := hsame ▸ hd.parts
      body := hsame ▸ hd.body
      runs := hsame ▸ hd.runs
      fresh := hsame ▸ hd.fresh
      indices := hsame ▸ hd.indices
      right := right_snoc hd.right hitem
      events := events_snoc (.event decoded emitted) hd.events }

/-- A completed message that declares no count is emitted where no chunk is pending. -/
theorem Holds.emit_completed {payload : CompletedPayload} (hd : d.Holds events)
    (hdeclared : payload.declaredCount = none) (hparts : ¬ 0 < d.proofParts)
    (h : d.emit (.messageCompleted payload) (.messageCompleted payload) = .ok (d', more)) :
    d'.Holds (events ++ more) := by
  refine hd.emit ?_ ?_ h
  · unfold SseReceived.Right
    dsimp only
    rw [hdeclared]
    refine ⟨rfl, List.eq_nil_of_length_eq_zero ?_⟩
    rw [← hd.parts]
    exact Nat.eq_zero_of_not_pos hparts
  · unfold SseReceived.pend
    dsimp only
    rw [hdeclared]
    rfl

theorem Holds.acceptChunk {data : String} (hd : d.Holds events)
    (h : d.acceptChunk D data = .ok (d', more)) : d'.Holds (events ++ more) := by
  unfold SseDecoder.acceptChunk at h
  split at h
  · cases h
  · next part hpart =>
    split at h
    · cases h
    · next hfits =>
      obtain ⟨rfl, rfl⟩ := Prod.mk.inj (Except.ok.inj h)
      simp only [not_or] at hfits
      obtain ⟨-, -, hindex, -, -, -, hrun⟩ := hfits
      have hsnoc : pendingChunks (d.received ++ [.chunk part]) = pendingChunks d.received ++ [part] :=
        pendingChunks_snoc ..
      have hindex : part.index = d.proofParts := not_not.mp hindex
      exact
        { parts := by rw [hsnoc, List.length_append, ← hd.parts]; rfl
          body := by
            rw [hsnoc, List.map_append, String.join_append, ← hd.body]
            simp
          runs := by
            rw [hsnoc]
            intro part' hpart'
            rcases List.mem_append.mp hpart' with hpart' | hpart'
            · have hsome := hd.runs part' hpart'
              rw [hsome, Option.any_some, decide_eq_true_eq, not_not] at hrun
              rw [hrun]
            · rw [List.mem_singleton.mp hpart']
          fresh := fun hnil => by
            rw [hsnoc] at hnil
            exact absurd hnil (List.append_ne_nil_of_right_ne_nil _ (List.cons_ne_nil _ _))
          indices := by
            rw [hsnoc, List.map_append, List.length_append, hd.indices, List.map_singleton, hindex,
              hd.parts]
            exact List.range_succ.symm
          right := right_snoc hd.right trivial
          events := events_snoc (.chunk part) hd.events }

theorem Holds.acceptProof {payload : CompletedPayload} (hd : d.Holds events)
    (h : d.acceptProof payload = .ok (d', more)) : d'.Holds (events ++ more) := by
  unfold SseDecoder.acceptProof at h
  split at h
  · next fields hproof =>
    have hdeclared : payload.declaredCount = (Json.obj fields).get? "response_body_chunk_count" := by
      unfold CompletedPayload.declaredCount
      rw [hproof]
    dsimp only at h
    split at h
    · split at h
      · cases h
      · next htakes =>
        simp only [not_or, not_not] at htakes
        obtain ⟨hcount, hparts, hrun, -⟩ := htakes
        obtain ⟨count, hsome, hcount⟩ := Option.bind_eq_some_iff.mp hcount
        have hdeclared := hdeclared.trans hsome
        obtain ⟨rfl, rfl⟩ := Prod.mk.inj (Except.ok.inj h)
        have hnil (emitted : RelayEvent) :
            pendingChunks (d.received ++ [.event (.messageCompleted payload) emitted]) = [] := by
          rw [pendingChunks_snoc]
          unfold SseReceived.pend
          dsimp only
          rw [hdeclared]
          rfl
        refine ⟨?_, ?_, ?_, ?_, ?_, right_snoc hd.right ?_, events_snoc (.event _ _) hd.events⟩
        · exact (congrArg List.length (hnil _)).symm
        · rw [hnil]
          rfl
        · rw [hnil]
          exact fun _ hmem => absurd hmem List.not_mem_nil
        · exact fun _ => rfl
        · rw [hnil]
          rfl
        · unfold SseReceived.Right
          dsimp only
          rw [hdeclared]
          refine ⟨?_, hcount.trans (congrArg some hd.parts), fun part hpart => ?_, hd.indices,
            _, _, hproof, rfl, ?_, ?_, fun key hbody hname => ?_⟩
          · intro hnone
            rw [hd.parts, hnone] at hparts
            exact hparts rfl
          · exact Option.some.inj ((hd.runs part hpart).symm.trans hrun)
          · rw [hd.body]
            exact Json.get?_set_obj ..
          · rw [Json.get?_set_ne (by decide), Json.get?_remove_self]
          · rw [Json.get?_set_ne hbody, Json.get?_remove_ne hname]
    · next hkeeps =>
      rw [not_or, Option.not_isSome_iff_eq_none] at hkeeps
      obtain ⟨hparts, hnone⟩ := hkeeps
      have hdeclared := hdeclared.trans hnone
      rw [Json.remove_of_none hnone, ← hproof] at h
      exact hd.emit_completed hdeclared hparts h
  · next hnot =>
    have hdeclared : payload.declaredCount = none := by
      unfold CompletedPayload.declaredCount
      split
      · next fields hproof => exact absurd hproof (hnot fields)
      · rfl
    split at h
    · cases h
    · next hparts => exact hd.emit_completed hdeclared hparts h

theorem Holds.acceptMessage {name data : String} (hd : d.Holds events)
    (h : d.acceptMessage D name data = .ok (d', more)) : d'.Holds (events ++ more) := by
  unfold SseDecoder.acceptMessage at h
  split at h
  · exact hd.acceptChunk h
  · split at h
    · cases h
    · cases h
      rw [List.append_nil]
      exact hd
    · exact hd.acceptProof h
    · next event hother _ =>
      cases event with
      | messageCompleted payload => exact absurd rfl (hother payload)
      | _ => refine hd.emit ?_ ?_ h <;> rfl

/-- A step that leaves what the decoder has of the receipts. -/
theorem Holds.same (hd : d.Holds events) (hparts : d'.proofParts = d.proofParts)
    (hbody : d'.proofBody = d.proofBody) (hrun : d'.proofRunId = d.proofRunId)
    (hreceived : d'.received = d.received) : d'.Holds events where
  parts := by rw [hparts, hreceived, hd.parts]
  body := by rw [hbody, hreceived, hd.body]
  runs := by
    rw [hreceived, hrun]
    exact hd.runs
  fresh := by
    rw [hreceived, hrun]
    exact hd.fresh
  indices := by
    rw [hreceived]
    exact hd.indices
  right := by
    rw [hreceived]
    exact hd.right
  events := by rw [hreceived, hd.events]

theorem Holds.acceptLine {line : List UInt8} (hd : d.Holds events)
    (h : d.acceptLine D line = .ok (d', more)) : d'.Holds (events ++ more) := by
  have hquiet {next : SseDecoder} (hok : (Except.ok (next, []) : Decoded) = .ok (d', more))
      (hnext : next.Holds events) : d'.Holds (events ++ more) := by
    obtain ⟨rfl, rfl⟩ := Prod.mk.inj (Except.ok.inj hok)
    rw [List.append_nil]
    exact hnext
  unfold SseDecoder.acceptLine at h
  split at h
  · cases h
  · dsimp only at h
    split at h
    · split at h
      · exact hquiet h (hd.same rfl rfl rfl rfl)
      · split at h
        · cases h
        · have hnext : { d with eventName := none, data := [], eventBytes := 0 }.Holds events :=
            hd.same rfl rfl rfl rfl
          exact hnext.acceptMessage h
    · exact hquiet h hd
    · split at h
      · split at h
        · exact hquiet h (hd.same rfl rfl rfl rfl)
        · cases h
      · split at h
        · exact hquiet h (hd.same rfl rfl rfl rfl)
        · exact hquiet h hd

theorem Holds.acceptByte {byte : UInt8} (hd : d.Holds events)
    (h : d.acceptByte D byte = .ok (d', more)) : d'.Holds (events ++ more) := by
  unfold SseDecoder.acceptByte at h
  dsimp only at h
  split at h
  · cases h
  · split at h
    · have hnext (eventBytes : Nat) : { d with line := [], eventBytes }.Holds events :=
        hd.same rfl rfl rfl rfl
      exact (hnext _).acceptLine h
    · obtain ⟨rfl, rfl⟩ := Prod.mk.inj (Except.ok.inj h)
      rw [List.append_nil]
      exact hd.same rfl rfl rfl rfl

theorem Holds.feed {bytes : List UInt8} (hd : d.Holds events) (h : d.feed D bytes = .ok (d', more)) :
    d'.Holds (events ++ more) := by
  unfold SseDecoder.feed at h
  dsimp only at h
  split at h
  · cases h
  · have hnext : { d with totalBytes := d.totalBytes + bytes.length }.Holds events :=
      hd.same rfl rfl rfl rfl
    exact Feeding.readFrom_induction (SseDecoder.acceptByte D) (I := Holds)
      (fun _ _ _ _ _ hs hstep => hs.acceptByte hstep) hnext h

end Steps

theorem holds_new (eventLimit streamLimit : Nat) :
    SseDecoder.Holds [] { eventLimit, streamLimit } where
  parts := rfl
  body := rfl
  runs _ hmem := absurd hmem List.not_mem_nil
  fresh _ := rfl
  indices := rfl
  right := always_nil
  events := rfl

end SseDecoder

end AxiomDesktop
