import AxiomDesktop.Client.AcpProcess

/-!
# Frames

What the sidecar writes is framed byte by byte (`AcpProcess.framing`): a line ends at its line feed
and is taken then, and nothing is taken behind a line or a frame that was refused. The process reads
chunks and does the same, wherever they are cut, if no chunk follows a line or a frame that was
refused, what follows it in its own chunk is no message, and nothing follows a `null` in its chunk
(`Quiet`; `run_framing`). Behind a line that was refused messages are taken (`message_behind`).
-/

namespace AxiomDesktop.Client

open Text

namespace AcpProcess

variable {J : JavaScript} {p : AcpProcess}

/-! ## The framing -/

/-- One byte of what the sidecar writes. -/
def acceptByte (J : JavaScript) (p : AcpProcess) (b : UInt8) : AcpProcess × List Happening :=
  if p.framingError then (p, [])
  else if b = LF then
    let line := lineText p.stdoutRemainder
    let p := { p with stdoutRemainder := [] }
    if line = "" then (p, [])
    else (acceptLine J p line).getD (p, [])
  else if p.stdoutRemainder.length + 1 > MAX_FRAME_BYTES then
    p.refuse "incoming ACP frame exceeds the 64 MiB limit"
  else ({ p with stdoutRemainder := p.stdoutRemainder ++ [b] }, [])

/-- A byte, or an event that is none. -/
inductive Framed where
  | byte (b : UInt8)
  | event (e : ProcessEvent)

def framing (J : JavaScript) : Machine AcpProcess Framed Happening where
  step
    | p, .byte b => acceptByte J p b
    | p, .event e => (machine J).step p e

/-- An event, its bytes one by one. -/
def bytesOf : ProcessEvent → List Framed
  | .stdout chunk => chunk.map .byte
  | e => [.event e]

/-! ## Chunks -/

/-- A chunk is what is in front of its first line feed and what is behind it. -/
theorem lines_induction {motive : List UInt8 → Prop} (last : ∀ segment, LF ∉ segment → motive segment)
    (line : ∀ segment rest, LF ∉ segment → motive rest → motive (segment ++ LF :: rest)) :
    ∀ chunk, motive chunk := by
  intro chunk
  induction hn : chunk.length using Nat.strongRecOn generalizing chunk with
  | _ n ih =>
    by_cases h : LF ∈ chunk
    · obtain ⟨segment, rest, rfl, hsegment⟩ := List.eq_append_cons_of_mem h
      refine line segment rest hsegment (ih rest.length ?_ rest rfl)
      rw [← hn, List.length_append, List.length_cons]
      omega
    · exact last chunk h

/-- The remainder before a segment, and the segment. -/
def Overlong (p : AcpProcess) (segment : List UInt8) : Prop :=
  p.stdoutRemainder.length + segment.length > MAX_FRAME_BYTES

instance (segment : List UInt8) : Decidable (Overlong p segment) :=
  inferInstanceAs (Decidable (_ > _))

theorem acceptChunk_last {segment : List UInt8} (h : LF ∉ segment) :
    acceptChunk J p segment =
      if segment = [] then (p, [])
      else if Overlong p segment then p.refuse "incoming ACP frame exceeds the 64 MiB limit"
      else ({ p with stdoutRemainder := p.stdoutRemainder ++ segment }, []) := by
  rw [acceptChunk, List.splitOn_eq_singleton h, acceptSegments]
  by_cases hempty : segment = []
  · rw [if_pos ⟨hempty, rfl⟩, if_pos hempty]
  · rw [if_neg fun h => hempty h.1, if_neg hempty]
    rfl

theorem splitOn_line {segment rest : List UInt8} (h : LF ∉ segment) :
    (segment ++ LF :: rest).splitOn LF = segment :: rest.splitOn LF := by
  rw [List.splitOn_append_cons_self, List.splitOn_eq_singleton h, List.singleton_append]

theorem acceptChunk_line {segment : List UInt8} (h : LF ∉ segment) (rest : List UInt8) :
    acceptChunk J p (segment ++ LF :: rest) =
      if Overlong p segment then p.refuse "incoming ACP frame exceeds the 64 MiB limit"
      else if lineText (p.stdoutRemainder ++ segment) = "" then
        acceptChunk J { p with stdoutRemainder := [] } rest
      else
        match acceptLine J { p with stdoutRemainder := [] }
          (lineText (p.stdoutRemainder ++ segment)) with
        | none => ({ p with stdoutRemainder := [] }, [])
        | some r => ((acceptChunk J r.1 rest).1, r.2 ++ (acceptChunk J r.1 rest).2) := by
  rw [acceptChunk, splitOn_line h]
  obtain ⟨first, more, hrest⟩ := List.exists_cons_of_ne_nil (List.splitOn_ne_nil LF rest)
  unfold acceptChunk
  rw [hrest, acceptSegments, if_neg fun h => absurd h.2 (List.cons_ne_nil _ _)]
  by_cases hover : Overlong p segment
  · rw [if_pos hover]
    exact if_pos hover
  · rw [if_neg hover]
    refine (if_neg hover).trans ?_
    dsimp only
    split
    · rfl
    · cases acceptLine J { p with stdoutRemainder := [] }
        (lineText (p.stdoutRemainder ++ segment)) <;> rfl

/-! ## What may follow in a chunk -/

/-- The lines that the segments complete, up to a frame that is too long. -/
def completed (remainder : List UInt8) : List (List UInt8) → List String
  | [] => []
  | segment :: rest =>
    if rest = [] ∨ remainder.length + segment.length > MAX_FRAME_BYTES then []
    else lineText (remainder ++ segment) :: completed [] rest

/-- A line that is no message. -/
def Silent (J : JavaScript) (line : String) : Prop :=
  line ≠ "" → ∀ value, J.parse line = some value → ¬Emits value

/-- In a chunk no message follows a line that is refused, and nothing a `null`. -/
def QuietFrom (J : JavaScript) (remainder : List UInt8) : List (List UInt8) → Prop
  | [] => True
  | segment :: rest =>
    rest = [] ∨ remainder.length + segment.length > MAX_FRAME_BYTES ∨
      (lineText (remainder ++ segment) ≠ "" →
        (J.parse (lineText (remainder ++ segment)) = none →
          ∀ line ∈ completed [] rest, Silent J line) ∧
        (J.parse (lineText (remainder ++ segment)) = some .null → rest = [[]])) ∧
      QuietFrom J [] rest

/-- A chunk comes behind no line and no frame that was refused, in its own chunk or in another. -/
def Quiet (J : JavaScript) (p : AcpProcess) : ProcessEvent → Prop
  | .stdout chunk =>
    p.framingError = false ∧ QuietFrom J p.stdoutRemainder (chunk.splitOn LF)
  | _ => True

theorem completed_line {remainder segment rest : List UInt8} (h : LF ∉ segment)
    (hfits : ¬remainder.length + segment.length > MAX_FRAME_BYTES) :
    completed remainder ((segment ++ LF :: rest).splitOn LF) =
      lineText (remainder ++ segment) :: completed [] (rest.splitOn LF) := by
  rw [splitOn_line h, completed, if_neg]
  exact fun hor => hor.elim (List.splitOn_ne_nil LF rest) hfits

theorem quietFrom_line {remainder segment rest : List UInt8} (h : LF ∉ segment)
    (hfits : ¬remainder.length + segment.length > MAX_FRAME_BYTES)
    (hquiet : QuietFrom J remainder ((segment ++ LF :: rest).splitOn LF)) :
    (lineText (remainder ++ segment) ≠ "" →
      (J.parse (lineText (remainder ++ segment)) = none →
        ∀ line ∈ completed [] (rest.splitOn LF), Silent J line) ∧
      (J.parse (lineText (remainder ++ segment)) = some .null → rest = [])) ∧
    QuietFrom J [] (rest.splitOn LF) := by
  rw [splitOn_line h, QuietFrom] at hquiet
  obtain hrest | hover | ⟨hline, hquiet⟩ := hquiet
  · exact absurd hrest (List.splitOn_ne_nil LF rest)
  · exact absurd hover hfits
  · refine ⟨fun hne => ⟨(hline hne).1, fun hnull => ?_⟩, hquiet⟩
    have hjoin : [LF].intercalate (rest.splitOn LF) = rest := List.intercalate_splitOn LF
    rw [(hline hne).2 hnull] at hjoin
    exact hjoin.symm

/-! ## A closed process -/

/-- Nothing is pending once the process is closed. -/
def Closed (p : AcpProcess) : Prop := p.terminalError ≠ none → ∀ id, p.pending id = none

theorem finish_closed (h : Closed p) (error : ProcessError) :
    Closed (p.finish error).1 ∧ (p.finish error).1.terminalError ≠ none := by
  unfold finish
  cases hterminal : p.terminalError with
  | none => exact ⟨fun _ _ => rfl, Option.some_ne_none _⟩
  | some e => exact ⟨h, by rw [hterminal]; exact Option.some_ne_none _⟩

theorem refuse_closed (h : Closed p) (message : String) :
    Closed (p.refuse message).1 ∧ (p.refuse message).1.terminalError ≠ none :=
  finish_closed h (.protocol message)

@[simp] theorem refuse_framingError (message : String) :
    (p.refuse message).1.framingError = true := rfl

theorem acceptValue_keeps (value : Json) (h : Closed p) :
    Closed (acceptValue J p value).1 ∧
      (acceptValue J p value).1.framingError = p.framingError ∧
      (acceptValue J p value).1.stdoutRemainder = p.stdoutRemainder := by
  unfold acceptValue
  split
  · split
    · exact ⟨h, rfl, rfl⟩
    · next id _ =>
      unfold acceptResponse
      dsimp only
      split
      · exact ⟨h, rfl, rfl⟩
      · refine ⟨fun hterminal other => ?_, rfl, rfl⟩
        have hnone := h hterminal other
        by_cases hother : other = id
        · rw [hother]
          exact Function.update_self id none p.pending
        · exact (Function.update_of_ne hother none p.pending).trans hnone
  · split <;> exact ⟨h, rfl, rfl⟩

/-- A closed process does nothing with a value that is no message. -/
theorem acceptValue_silent (h : Closed p) (hterminal : p.terminalError ≠ none) {value : Json}
    (hvalue : ¬Emits value) : acceptValue J p value = (p, []) := by
  unfold acceptValue
  split
  · split
    · rfl
    · next id _ =>
      unfold acceptResponse
      rw [h hterminal id]
      dsimp only
      rw [if_pos (Option.isSome_iff_ne_none.mpr hterminal)]
  · next hresponse =>
    split
    · next method hmethod =>
      exact absurd ⟨Bool.eq_false_iff.mpr hresponse, method, hmethod⟩ hvalue
    · rfl

theorem refuse_refused (herror : p.framingError = true) (hterminal : p.terminalError ≠ none)
    (message : String) : p.refuse message = (p, []) := by
  obtain ⟨e, he⟩ := Option.ne_none_iff_exists'.mp hterminal
  unfold refuse finish
  rw [he]
  dsimp only
  rw [if_pos herror]
  obtain ⟨_, _, _, _, _, _⟩ := p
  cases herror
  rfl

/-- What is left of a chunk behind a line that is refused. -/
theorem acceptChunk_silent (chunk : List UInt8) (h : Closed p) (herror : p.framingError = true)
    (hterminal : p.terminalError ≠ none)
    (hsilent : ∀ line ∈ completed p.stdoutRemainder (chunk.splitOn LF), Silent J line) :
    ∃ remainder, acceptChunk J p chunk = ({ p with stdoutRemainder := remainder }, []) := by
  induction chunk using lines_induction generalizing p with
  | last segment hsegment =>
    rw [acceptChunk_last hsegment]
    split
    · exact ⟨p.stdoutRemainder, rfl⟩
    · split
      · exact ⟨p.stdoutRemainder, refuse_refused herror hterminal _⟩
      · exact ⟨_, rfl⟩
  | line segment rest hsegment ih =>
    rw [acceptChunk_line hsegment]
    by_cases hover : Overlong p segment
    · rw [if_pos hover]
      exact ⟨p.stdoutRemainder, refuse_refused herror hterminal _⟩
    · rw [completed_line hsegment hover, List.forall_mem_cons] at hsilent
      have hrest := @ih { p with stdoutRemainder := [] } h herror hterminal hsilent.2
      rw [if_neg hover]
      split
      · exact hrest
      · next hne =>
        unfold acceptLine
        cases hparse : J.parse (lineText (p.stdoutRemainder ++ segment)) with
        | none =>
          have hrefuse : ({ p with stdoutRemainder := [] } : AcpProcess).refuse
            "AxiomCLI emitted malformed JSON on stdout" = ({ p with stdoutRemainder := [] }, []) :=
            refuse_refused (p := { p with stdoutRemainder := [] }) herror hterminal _
          dsimp only
          rw [hrefuse]
          exact hrest
        | some value =>
          have hvalue : acceptValue J { p with stdoutRemainder := [] } value =
              ({ p with stdoutRemainder := [] }, []) :=
            acceptValue_silent (p := { p with stdoutRemainder := [] }) h hterminal
              (hsilent.1 hne value hparse)
          cases value with
          | null => exact ⟨[], rfl⟩
          | _ =>
            dsimp only
            rw [hvalue]
            exact hrest

/-! ## Chunks are framed -/

/-- The same process, but for what it holds of a line once one was refused. -/
def Alike (p q : AcpProcess) : Prop :=
  q = { p with stdoutRemainder := q.stdoutRemainder } ∧ (p.framingError = false → q = p)

theorem Alike.refl (p : AcpProcess) : Alike p p := ⟨rfl, fun _ => rfl⟩

theorem Alike.of_error {remainder : List UInt8} (h : p.framingError = true) :
    Alike p { p with stdoutRemainder := remainder } :=
  ⟨rfl, fun hfalse => absurd (h.symm.trans hfalse) (by simp)⟩

theorem Alike.framingError {q : AcpProcess} (h : Alike p q) : q.framingError = p.framingError := by
  rw [h.1]

theorem Alike.terminalError {q : AcpProcess} (h : Alike p q) :
    q.terminalError = p.terminalError := by
  rw [h.1]

theorem refuse_remainder (p : AcpProcess) (remainder : List UInt8) (message : String) :
    ({ p with stdoutRemainder := remainder } : AcpProcess).refuse message =
      ({ (p.refuse message).1 with stdoutRemainder := remainder }, (p.refuse message).2) := by
  obtain ⟨nextId, pending, terminalError, stdoutRemainder, calls, framingError⟩ := p
  unfold refuse finish
  cases terminalError <;> rfl

/-- Nothing is read behind a line or a frame that was refused. -/
theorem framing_refused (h : p.framingError = true) (bs : List UInt8) :
    (framing J).run p (bs.map .byte) = (p, []) := by
  induction bs with
  | nil => rfl
  | cons b bs ih =>
    have hstep : (framing J).step p (.byte b) = (p, []) := if_pos h
    rw [List.map_cons, Machine.run_cons, hstep, ih, List.append_nil]

/-- The bytes of a segment. -/
theorem framing_segment {segment : List UInt8} (h : p.framingError = false) (hsegment : LF ∉ segment) :
    (¬Overlong p segment →
      (framing J).run p (segment.map .byte) =
        ({ p with stdoutRemainder := p.stdoutRemainder ++ segment }, [])) ∧
      (p.stdoutRemainder.length ≤ MAX_FRAME_BYTES → Overlong p segment →
        ∃ remainder, (framing J).run p (segment.map .byte) =
          ({ (p.refuse "incoming ACP frame exceeds the 64 MiB limit").1 with
            stdoutRemainder := remainder },
          (p.refuse "incoming ACP frame exceeds the 64 MiB limit").2)) := by
  induction segment generalizing p with
  | nil =>
    refine ⟨fun _ => ?_, fun hfits hover => ?_⟩
    · rw [List.append_nil]
      rfl
    · unfold Overlong at hover
      rw [List.length_nil] at hover
      omega
  | cons b segment ih =>
    obtain ⟨hb, hsegment⟩ := List.ne_and_not_mem_of_not_mem_cons hsegment
    have hstep : (framing J).step p (.byte b) =
        if p.stdoutRemainder.length + 1 > MAX_FRAME_BYTES then
          p.refuse "incoming ACP frame exceeds the 64 MiB limit"
        else ({ p with stdoutRemainder := p.stdoutRemainder ++ [b] }, []) := by
      refine (if_neg (by rw [h]; exact Bool.false_ne_true)).trans ?_
      exact if_neg (Ne.symm hb)
    rw [List.map_cons, Machine.run_cons, hstep]
    by_cases hone : p.stdoutRemainder.length + 1 > MAX_FRAME_BYTES
    · rw [if_pos hone]
      refine ⟨fun hover => ?_, fun _ _ =>
        ⟨(p.refuse "incoming ACP frame exceeds the 64 MiB limit").1.stdoutRemainder, ?_⟩⟩
      · unfold Overlong at hover
        rw [List.length_cons] at hover
        omega
      · rw [framing_refused (refuse_framingError _), List.append_nil]
    · rw [if_neg hone]
      have hrest := @ih { p with stdoutRemainder := p.stdoutRemainder ++ [b] } h hsegment
      have hiff : Overlong { p with stdoutRemainder := p.stdoutRemainder ++ [b] } segment ↔
          Overlong p (b :: segment) := by
        unfold Overlong
        rw [List.length_append, List.length_singleton, List.length_cons]
        omega
      rw [hiff] at hrest
      refine ⟨fun hover => ?_, fun hfits hover => ?_⟩
      · rw [hrest.1 hover, List.append_assoc]
        rfl
      · obtain ⟨remainder, hrun⟩ := hrest.2 (by
          rw [List.length_append, List.length_singleton]
          omega) hover
        rw [hrun, refuse_remainder]
        exact ⟨remainder, rfl⟩

/-- A remainder that may be taken further. -/
def Fits (p : AcpProcess) : Prop :=
  p.framingError = false → p.stdoutRemainder.length ≤ MAX_FRAME_BYTES

/-- A line feed. -/
theorem framing_line (h : p.framingError = false) :
    acceptByte J p LF =
      if lineText p.stdoutRemainder = "" then ({ p with stdoutRemainder := [] }, [])
      else
        (acceptLine J { p with stdoutRemainder := [] } (lineText p.stdoutRemainder)).getD
          ({ p with stdoutRemainder := [] }, []) := by
  refine (if_neg (by rw [h]; exact Bool.false_ne_true)).trans ?_
  exact if_pos rfl

/-- A chunk is taken as its bytes are. -/
theorem framing_chunk (chunk : List UInt8) (h : Closed p) (herror : p.framingError = false)
    (hfits : p.stdoutRemainder.length ≤ MAX_FRAME_BYTES)
    (hquiet : QuietFrom J p.stdoutRemainder (chunk.splitOn LF)) :
    ((framing J).run p (chunk.map .byte)).2 = (acceptChunk J p chunk).2 ∧
      Alike (acceptChunk J p chunk).1 ((framing J).run p (chunk.map .byte)).1 ∧
      Fits ((framing J).run p (chunk.map .byte)).1 := by
  induction chunk using lines_induction generalizing p with
  | last segment hsegment =>
    obtain ⟨hpush, hrefuse⟩ := framing_segment (J := J) herror hsegment
    rw [acceptChunk_last hsegment]
    split
    · next hempty =>
      subst hempty
      exact ⟨rfl, .refl p, fun _ => hfits⟩
    · split
      · next hover =>
        obtain ⟨remainder, hrun⟩ := hrefuse hfits hover
        rw [hrun]
        exact ⟨rfl, .of_error rfl, fun hfalse => absurd hfalse (by simp)⟩
      · next hover =>
        rw [hpush hover]
        refine ⟨rfl, .refl _, fun _ => ?_⟩
        unfold Overlong at hover
        rw [List.length_append]
        omega
  | line segment rest hsegment ih =>
    obtain ⟨hpush, hrefuse⟩ := framing_segment (J := J) herror hsegment
    rw [acceptChunk_line hsegment, List.map_append, List.map_cons, Machine.run_append]
    by_cases hover : Overlong p segment
    · obtain ⟨remainder, hrun⟩ := hrefuse hfits hover
      rw [if_pos hover, hrun, ← List.map_cons, framing_refused rfl, List.append_nil]
      exact ⟨rfl, .of_error rfl, fun hfalse => absurd hfalse (by simp)⟩
    · obtain ⟨hline, hrest⟩ := quietFrom_line hsegment hover hquiet
      have hstep : (framing J).step { p with stdoutRemainder := p.stdoutRemainder ++ segment }
          (.byte LF) = if lineText (p.stdoutRemainder ++ segment) = "" then
            ({ p with stdoutRemainder := [] }, [])
          else
            (acceptLine J { p with stdoutRemainder := [] }
              (lineText (p.stdoutRemainder ++ segment))).getD
                ({ p with stdoutRemainder := [] }, []) :=
        framing_line (p := { p with stdoutRemainder := p.stdoutRemainder ++ segment }) herror
      rw [if_neg hover, hpush hover, Machine.run_cons, hstep, List.nil_append]
      by_cases hempty : lineText (p.stdoutRemainder ++ segment) = ""
      · rw [if_pos hempty, if_pos hempty, List.nil_append]
        exact ih (p := { p with stdoutRemainder := [] }) h herror (Nat.zero_le _) hrest
      · rw [if_neg hempty, if_neg hempty]
        obtain ⟨hrefused, hnull⟩ := hline hempty
        unfold acceptLine
        cases hparse : J.parse (lineText (p.stdoutRemainder ++ segment)) with
        | none =>
          dsimp only [Option.getD_some]
          obtain ⟨hclosed, hterminal⟩ := refuse_closed (p := { p with stdoutRemainder := [] }) h
            "AxiomCLI emitted malformed JSON on stdout"
          have hremainder : (({ p with stdoutRemainder := [] } : AcpProcess).refuse
              "AxiomCLI emitted malformed JSON on stdout").1.stdoutRemainder = [] := by
            rw [refuse_remainder p []]
          obtain ⟨remainder, hsilent⟩ := acceptChunk_silent (J := J) rest hclosed rfl hterminal
            (hremainder.symm ▸ hrefused hparse)
          rw [framing_refused rfl, hsilent]
          exact ⟨rfl, .of_error rfl, fun hfalse => absurd hfalse (by simp)⟩
        | some value =>
          obtain ⟨hclosed, hsame, hremainder⟩ :=
            acceptValue_keeps (J := J) (p := { p with stdoutRemainder := [] }) value h
          have hmore := ih hclosed (hsame.trans herror) (by rw [hremainder]; exact Nat.zero_le _)
            (by rw [hremainder]; exact hrest)
          cases value with
          | null =>
            -- nothing is behind the `null`
            rw [hnull hparse]
            exact ⟨rfl, .refl _, fun _ => Nat.zero_le _⟩
          | _ => exact ⟨congrArg (_ ++ ·) hmore.1, hmore.2⟩

/-! ## Runs -/

/-- What an event that is no chunk does: nothing to the framing, and nothing is read. -/
structure Apart (p : AcpProcess) (r : AcpProcess × List Happening) : Prop where
  closed : Closed p → Closed r.1
  framingError : r.1.framingError = p.framingError
  remainder : r.1.stdoutRemainder = p.stdoutRemainder
  happenings : ∀ o ∈ r.2, o ≠ .framingError ∧ ¬o.IsMessage

theorem Apart.refl : Apart p (p, []) := ⟨id, rfl, rfl, fun _ h => absurd h List.not_mem_nil⟩

theorem finish_happenings (error : ProcessError) :
    ∀ o ∈ (p.finish error).2, o ≠ .framingError ∧ ¬o.IsMessage := by
  unfold finish
  split
  · exact fun _ h => absurd h List.not_mem_nil
  · exact List.forall_mem_singleton.mpr ⟨by simp, id⟩

theorem Apart.finish (error : ProcessError) : Apart p (p.finish error) := by
  refine ⟨fun h => (finish_closed h error).1, ?_, ?_, finish_happenings error⟩
  · unfold AcpProcess.finish
    split <;> rfl
  · unfold AcpProcess.finish
    split <;> rfl

theorem Apart.startWrite (write : WriteStart) : Apart p (p.startWrite write).1 := by
  unfold AcpProcess.startWrite
  split
  · exact .refl
  · cases write with
    | accepted => exact .refl
    | notWritable => exact .finish _
    | tooLarge => exact .refl

/-- The process that fewer are pending in. -/
theorem Closed.of_pending {q : AcpProcess} (h : Closed p)
    (hterminal : q.terminalError = p.terminalError)
    (hpending : ∀ id, p.pending id = none → q.pending id = none) : Closed q :=
  fun hclosed id => hpending id (h (hterminal ▸ hclosed) id)

theorem Closed.deletePending (h : Closed p) (id : Nat) : Closed (p.deletePending id) := by
  refine h.of_pending rfl fun other hnone => ?_
  by_cases hother : other = id
  · rw [hother]
    exact Function.update_self id none p.pending
  · exact (Function.update_of_ne hother none p.pending).trans hnone

theorem step_apart {e : ProcessEvent} (he : ∀ chunk, e ≠ .stdout chunk) :
    Apart p ((machine J).step p e) := by
  cases e with
  | stdout chunk => exact absurd rfl (he chunk)
  | notify write => exact .startWrite write
  | failed error => exact .finish error
  | request method timeoutMs write =>
    show Apart p (p.request method timeoutMs write)
    have hcases := p.request_cases method timeoutMs write
    generalize p.request method timeoutMs write = r at hcases ⊢
    cases hcases with
    | refused h error =>
      exact ⟨fun h => h, rfl, rfl, List.forall_mem_singleton.mpr ⟨by simp, fun h => h⟩⟩
    | sent h =>
      exact ⟨fun _ hclosed => absurd h hclosed, rfl, rfl,
        List.forall_mem_singleton.mpr ⟨by simp, fun h => h⟩⟩
    | notWritable h error =>
      have hfinish := Apart.finish (p := p.issue method timeoutMs) error
      have hissue : Closed (p.issue method timeoutMs) := fun hclosed => absurd h hclosed
      exact ⟨fun _ => (hfinish.closed hissue).deletePending _, hfinish.framingError,
        hfinish.remainder, List.forall_mem_cons.mpr ⟨⟨by simp, fun h => h⟩, hfinish.happenings⟩⟩
    | tooLarge h error =>
      exact ⟨fun _ hclosed => absurd h hclosed, rfl, rfl,
        List.forall_mem_singleton.mpr ⟨by simp, fun h => h⟩⟩
  | written id error =>
    show Apart p (p.written id error)
    unfold AcpProcess.written
    split
    · exact ⟨fun h => h, rfl, rfl, fun _ h => absurd h List.not_mem_nil⟩
    · next detail _ =>
      have hfinish := Apart.finish (p := p) (writeError detail)
      exact ⟨fun h => (hfinish.closed h).deletePending _, hfinish.framingError, hfinish.remainder,
        hfinish.happenings⟩
    · exact .refl
  | timeout id write =>
    show Apart p (p.timeout id write)
    unfold AcpProcess.timeout
    split
    · have hstart := Apart.startWrite (p := p.deletePending id) write
      exact ⟨fun h => hstart.closed (h.deletePending id), hstart.framingError, hstart.remainder,
        List.forall_mem_cons.mpr ⟨⟨by simp, fun h => h⟩, hstart.happenings⟩⟩
    · exact .refl

/-- What is held of a line makes no difference to an event that is no chunk. -/
theorem step_remainder {e : ProcessEvent} (he : ∀ chunk, e ≠ .stdout chunk) (remainder : List UInt8) :
    (machine J).step { p with stdoutRemainder := remainder } e =
      ({ ((machine J).step p e).1 with stdoutRemainder := remainder },
        ((machine J).step p e).2) := by
  obtain ⟨nextId, pending, terminalError, stdoutRemainder, calls, framingError⟩ := p
  cases e with
  | stdout chunk => exact absurd rfl (he chunk)
  | notify write => cases terminalError <;> cases write <;> rfl
  | failed error => cases terminalError <;> rfl
  | request method timeoutMs write => cases terminalError <;> cases write <;> rfl
  | written id error =>
    have hcases : ∀ call, calls id = call →
        AcpProcess.written ⟨nextId, pending, terminalError, remainder, calls, framingError⟩ id error =
          ({ (AcpProcess.written ⟨nextId, pending, terminalError, stdoutRemainder, calls,
              framingError⟩ id error).1 with stdoutRemainder := remainder },
            (AcpProcess.written ⟨nextId, pending, terminalError, stdoutRemainder, calls,
              framingError⟩ id error).2) := by
      intro call hcall
      unfold AcpProcess.written
      dsimp only
      rw [hcall]
      cases call with
      | none => rfl
      | some c =>
        obtain ⟨write, response⟩ := c
        cases write <;> cases error <;> cases terminalError <;> rfl
    exact hcases _ rfl
  | timeout id write =>
    have hcases : ∀ waiting, pending id = waiting →
        AcpProcess.timeout ⟨nextId, pending, terminalError, remainder, calls, framingError⟩ id write =
          ({ (AcpProcess.timeout ⟨nextId, pending, terminalError, stdoutRemainder, calls,
              framingError⟩ id write).1 with stdoutRemainder := remainder },
            (AcpProcess.timeout ⟨nextId, pending, terminalError, stdoutRemainder, calls,
              framingError⟩ id write).2) := by
      intro waiting hwaiting
      unfold AcpProcess.timeout
      dsimp only
      rw [hwaiting]
      cases waiting with
      | none => rfl
      | some r =>
        obtain ⟨method, timer⟩ := r
        cases timer <;> cases terminalError <;> cases write <;> rfl
    exact hcases _ rfl

/-- What a chunk leaves: nothing pending where the process is closed, and a remainder that fits. -/
theorem acceptChunk_keeps (h : Closed p) (chunk : List UInt8) :
    Closed (acceptChunk J p chunk).1 ∧
      (p.stdoutRemainder.length ≤ MAX_FRAME_BYTES →
        (acceptChunk J p chunk).1.stdoutRemainder.length ≤ MAX_FRAME_BYTES) := by
  have hrefuse : ∀ {p : AcpProcess} (message : String),
      (p.refuse message).1.stdoutRemainder = p.stdoutRemainder := fun {p} message =>
    (Apart.finish (p := p) (.protocol message)).remainder
  induction chunk using lines_induction generalizing p with
  | last segment hsegment =>
    rw [acceptChunk_last hsegment]
    split
    · exact ⟨h, id⟩
    · split
      · exact ⟨(refuse_closed h _).1, fun hfits => (hrefuse _).symm ▸ hfits⟩
      · next hover =>
        refine ⟨h, fun _ => ?_⟩
        unfold Overlong at hover
        rw [List.length_append]
        omega
  | line segment rest hsegment ih =>
    rw [acceptChunk_line hsegment]
    split
    · exact ⟨(refuse_closed h _).1, fun hfits => (hrefuse _).symm ▸ hfits⟩
    · have hcleared : Closed { p with stdoutRemainder := [] } := h
      split
      · obtain ⟨hclosed, hfits⟩ := ih hcleared
        exact ⟨hclosed, fun _ => hfits (Nat.zero_le _)⟩
      · unfold acceptLine
        cases J.parse (lineText (p.stdoutRemainder ++ segment)) with
        | none =>
          obtain ⟨hclosed, hfits⟩ := ih (refuse_closed hcleared _).1
          exact ⟨hclosed, fun _ => hfits ((hrefuse _).symm ▸ Nat.zero_le _)⟩
        | some value =>
          obtain ⟨hvalue, -, hremainder⟩ := acceptValue_keeps (J := J) value hcleared
          obtain ⟨hclosed, hfits⟩ := ih hvalue
          cases value with
          | null => exact ⟨hcleared, fun _ => Nat.zero_le _⟩
          | _ => exact ⟨hclosed, fun _ => hfits (hremainder.symm ▸ Nat.zero_le _)⟩

theorem Alike.event {q : AcpProcess} (h : Alike p q) {e : ProcessEvent}
    (he : ∀ chunk, e ≠ .stdout chunk) :
    ((machine J).step q e).2 = ((machine J).step p e).2 ∧
      Alike ((machine J).step p e).1 ((machine J).step q e).1 := by
  have hstep := step_remainder (J := J) (p := p) he q.stdoutRemainder
  rw [← h.1] at hstep
  rw [hstep]
  refine ⟨rfl, rfl, fun hfalse => ?_⟩
  have hsame : q = p := h.2 ((step_apart he).framingError.symm.trans hfalse)
  have hremainder : ((machine J).step p e).1.stdoutRemainder = q.stdoutRemainder :=
    (step_apart he).remainder.trans (congrArg stdoutRemainder hsame).symm
  dsimp only
  rw [← hremainder]

/-- **Runs.** A run reads what the framing reads, byte by byte, if its chunks are quiet. -/
theorem run_framing {is : List ProcessEvent} (h : (machine J).Meets (Quiet J) {} is) :
    ((framing J).run {} (is.flatMap bytesOf)).2 = ((machine J).run {} is).2 ∧
      Alike ((machine J).run {} is).1 ((framing J).run {} (is.flatMap bytesOf)).1 ∧
      Fits ((framing J).run {} (is.flatMap bytesOf)).1 ∧ Closed ((machine J).run {} is).1 := by
  refine (machine J).run_induction (C := Quiet J)
    (motive := fun is os p => ((framing J).run {} (is.flatMap bytesOf)).2 = os ∧
      Alike p ((framing J).run {} (is.flatMap bytesOf)).1 ∧
      Fits ((framing J).run {} (is.flatMap bytesOf)).1 ∧ Closed p)
    ⟨rfl, .refl _, fun _ => Nat.zero_le _, fun hterminal => absurd rfl hterminal⟩ ?_ is h
  rintro is os p e ⟨hos, hsame, hfits, hclosed⟩ hquiet
  rw [List.flatMap_append, List.flatMap_singleton, Machine.run_append, hos]
  generalize ((framing J).run {} (is.flatMap bytesOf)).1 = q at hsame hfits ⊢
  by_cases he : ∃ chunk, e = .stdout chunk
  · obtain ⟨chunk, rfl⟩ := he
    obtain ⟨herror, hquiet⟩ := hquiet
    obtain rfl := hsame.2 herror
    have hchunk := framing_chunk chunk hclosed herror (hfits herror) hquiet
    exact ⟨congrArg (os ++ ·) hchunk.1, hchunk.2.1, hchunk.2.2, (acceptChunk_keeps hclosed chunk).1⟩
  · have he : ∀ chunk, e ≠ .stdout chunk := fun chunk heq => he ⟨chunk, heq⟩
    have hbytes : bytesOf e = [.event e] := by
      cases e with
      | stdout chunk => exact absurd rfl (he chunk)
      | _ => rfl
    have hevent := hsame.event (J := J) he
    rw [hbytes, Machine.run_cons, Machine.run_nil, List.append_nil]
    have hapart := step_apart (J := J) (p := q) he
    refine ⟨congrArg (os ++ ·) hevent.1, hevent.2, fun hfalse => ?_,
      (step_apart he).closed hclosed⟩
    have hremainder := hapart.remainder
    exact hremainder ▸ hfits (hapart.framingError.symm.trans hfalse)

/-! ## No message behind a refusal -/

/-- No message stands behind a line or a frame that was refused. -/
def NoneBehind (before : List Happening) (o : Happening) : Prop :=
  .framingError ∈ before → ¬o.IsMessage

/-- What one byte does where nothing was refused yet. -/
theorem acceptByte_happenings (b : UInt8) (h : p.framingError = false) :
    .framingError ∉ (acceptByte J p b).2 ∨
      (acceptByte J p b).1.framingError = true ∧ ∀ o ∈ (acceptByte J p b).2, ¬o.IsMessage := by
  have hrefuse : ∀ (q : AcpProcess) (message : String),
      (q.refuse message).1.framingError = true ∧ ∀ o ∈ (q.refuse message).2, ¬o.IsMessage := by
    intro q message
    refine ⟨rfl, ?_⟩
    unfold refuse
    dsimp only
    split
    · exact fun o ho => (finish_happenings _ o ho).2
    · exact List.forall_mem_append.mpr
        ⟨fun o ho => (finish_happenings _ o ho).2, List.forall_mem_singleton.mpr fun h => h⟩
  unfold acceptByte
  rw [if_neg (by rw [h]; exact Bool.false_ne_true)]
  split
  · dsimp only
    split
    · exact .inl List.not_mem_nil
    · unfold acceptLine
      split
      · exact .inr (hrefuse _ _)
      · exact .inl List.not_mem_nil
      · refine .inl fun hmem => ?_
        unfold acceptValue at hmem
        rw [Option.getD_some] at hmem
        split at hmem
        · split at hmem
          · cases hmem
          · unfold acceptResponse at hmem
            dsimp only at hmem
            split at hmem <;> split at hmem <;> simp at hmem
        · split at hmem
          · rw [List.mem_singleton] at hmem
            split at hmem <;> cases hmem
          · cases hmem
  · split
    · exact .inr (hrefuse _ _)
    · exact .inl List.not_mem_nil

theorem framing_none_behind (is : List ProcessEvent) :
    Always NoneBehind ((framing J).run {} (is.flatMap bytesOf)).2 := by
  have hmeets : (framing J).Meets (fun _ i => ∀ chunk, i ≠ .event (.stdout chunk)) {}
      (is.flatMap bytesOf) := by
    refine (framing J).meets_of_forall (fun i hi _ chunk heq => ?_) {}
    obtain ⟨e, -, hi⟩ := List.mem_flatMap.mp hi
    subst heq
    cases e with
    | stdout bytes =>
      obtain ⟨b, -, hb⟩ := List.mem_map.mp hi
      cases hb
    | _ => cases List.mem_singleton.mp hi
  refine ((framing J).run_induction
    (motive := fun _ os q => (.framingError ∈ os → q.framingError = true) ∧ Always NoneBehind os)
    ⟨fun h => absurd h List.not_mem_nil, always_nil⟩ ?_ _ hmeets).2
  rintro - os q i ⟨hflag, hos⟩ hi
  cases i with
  | event e =>
    have hapart := step_apart (J := J) (p := q) fun chunk heq => hi chunk (congrArg Framed.event heq)
    refine ⟨fun hmem => ?_, always_append.mpr ⟨hos, ?_⟩⟩
    · obtain hmem | hmem := List.mem_append.mp hmem
      · exact hapart.framingError.trans (hflag hmem)
      · exact absurd rfl (hapart.happenings _ hmem).1
    · exact fun before o after heq _ => (hapart.happenings o (by
        rw [show ((framing J).step q (.event e)).2 = ((machine J).step q e).2 from rfl] at heq
        rw [heq]
        exact List.mem_append_right _ List.mem_cons_self)).2
  | byte b =>
    show (.framingError ∈ os ++ (acceptByte J q b).2 → (acceptByte J q b).1.framingError = true) ∧
      Always NoneBehind (os ++ (acceptByte J q b).2)
    cases herror : q.framingError with
    | true =>
      have hstop : acceptByte J q b = (q, []) := if_pos herror
      rw [hstop, List.append_nil]
      exact ⟨hflag, hos⟩
    | false =>
      have hnone : .framingError ∉ os := fun hmem => by
        rw [herror] at hflag
        exact Bool.false_ne_true (hflag hmem)
      obtain hnew | ⟨hrefused, hnew⟩ := acceptByte_happenings (J := J) b herror
      · refine ⟨fun hmem => ?_, always_append.mpr ⟨hos, fun before o after heq hmem => ?_⟩⟩
        · exact absurd hmem (fun h => (List.mem_append.mp h).elim hnone hnew)
        · refine absurd hmem fun h => (List.mem_append.mp h).elim hnone fun hbefore => hnew ?_
          rw [heq]
          exact List.mem_append_left _ hbefore
      · refine ⟨fun _ => hrefused, always_append.mpr ⟨hos, fun before o after heq _ => hnew o ?_⟩⟩
        rw [heq]
        exact List.mem_append_right _ List.mem_cons_self

/-- What is held of a line never exceeds the limit. -/
theorem run_fits (is : List ProcessEvent) :
    Closed ((machine J).run {} is).1 ∧
      ((machine J).run {} is).1.stdoutRemainder.length ≤ MAX_FRAME_BYTES := by
  refine (machine J).run_invariant' (P := fun p => Closed p ∧
    p.stdoutRemainder.length ≤ MAX_FRAME_BYTES) (fun p e h => ?_)
    ⟨fun hterminal => absurd rfl hterminal, Nat.zero_le _⟩ is
  by_cases he : ∃ chunk, e = .stdout chunk
  · obtain ⟨chunk, rfl⟩ := he
    obtain ⟨hclosed, hfits⟩ := acceptChunk_keeps (J := J) h.1 chunk
    exact ⟨hclosed, hfits h.2⟩
  · have hapart := step_apart (J := J) (p := p) fun chunk heq => he ⟨chunk, heq⟩
    exact ⟨hapart.closed h.1, hapart.remainder.symm ▸ h.2⟩

/-- The remainder behind a line feed is empty. -/
theorem acceptChunk_lf (hclosed : Closed p) (h : p.stdoutRemainder.length ≤ MAX_FRAME_BYTES) :
    (acceptChunk J p [LF]).1.stdoutRemainder = [] := by
  have hline := acceptChunk_line (J := J) (p := p) (List.not_mem_nil (a := LF)) []
  have hfits : ¬Overlong p [] := by
    unfold Overlong
    rw [List.length_nil]
    omega
  have hlast : ∀ q : AcpProcess, acceptChunk J q [] = (q, []) := fun q => by
    rw [acceptChunk_last List.not_mem_nil, if_pos rfl]
  rw [List.nil_append, if_neg hfits, List.append_nil] at hline
  rw [hline]
  split
  · rw [hlast]
  · unfold acceptLine
    cases J.parse (lineText p.stdoutRemainder) with
    | none =>
      dsimp only
      rw [hlast, refuse_remainder p []]
    | some value =>
      have hvalue := (acceptValue_keeps (J := J) (p := { p with stdoutRemainder := [] }) value
        hclosed).2.2
      cases value with
      | null => rfl
      | _ =>
        dsimp only
        rw [hlast]
        exact hvalue

/-- Where no line is held, a line that is a message is passed on. -/
theorem acceptChunk_message {line : List UInt8} {value : Json} (hempty : p.stdoutRemainder = [])
    (hline : LF ∉ line) (hfits : line.length ≤ MAX_FRAME_BYTES) (hne : lineText line ≠ "")
    (hparse : J.parse (lineText line) = some value) (hemits : Emits value) :
    ∃ o ∈ (acceptChunk J p (line ++ [LF])).2, o.IsMessage := by
  obtain ⟨hresponse, method, hmethod⟩ := hemits
  have hover : ¬Overlong p line := by
    unfold Overlong
    rw [hempty, List.length_nil]
    omega
  have haccept : acceptLine J { p with stdoutRemainder := [] } (lineText line) =
      some (acceptValue J { p with stdoutRemainder := [] } value) := by
    unfold acceptLine
    rw [hparse]
    cases value with
    | null => cases hmethod
    | _ => rfl
  rw [acceptChunk_line hline, if_neg hover, hempty, List.nil_append, if_neg hne, haccept]
  unfold acceptValue
  rw [if_neg (by rw [hresponse]; exact Bool.false_ne_true), hmethod]
  refine ⟨_, List.mem_append_left _ (List.mem_singleton.mpr rfl), ?_⟩
  split
  · exact trivial
  · exact trivial

/-- **Behind a refusal.** After a line or a frame was refused, whatever is held of a line, a line
feed and a line that is a message: it is passed on. -/
theorem message_behind (is : List ProcessEvent) {line : List UInt8} {value : Json}
    (hline : LF ∉ line) (hfits : line.length ≤ MAX_FRAME_BYTES) (hne : lineText line ≠ "")
    (hparse : J.parse (lineText line) = some value) (hemits : Emits value) :
    ∃ o ∈ ((machine J).run ((machine J).run {} is).1
      [.stdout [LF], .stdout (line ++ [LF])]).2, o.IsMessage := by
  obtain ⟨hclosed, hheld⟩ := run_fits (J := J) is
  obtain ⟨o, ho, hmessage⟩ := acceptChunk_message (J := J) (acceptChunk_lf hclosed hheld) hline
    hfits hne hparse hemits
  rw [Machine.run_cons, Machine.run_cons, Machine.run_nil, List.append_nil]
  exact ⟨o, List.mem_append_right _ ho, hmessage⟩

end AcpProcess

end AxiomDesktop.Client
