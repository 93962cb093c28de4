import AxiomDesktop.Data.LossyUtf8
import Mathlib.Logic.Function.Basic

/-!
# The output of a background process

Two readers take what a process writes, in chunks and within one budget. Each keeps the bytes, whose
text it returns at the end, and shows each chunk when it comes: decoded and without terminal escape
sequences, for itself. The text shown is the text of the bytes so far in every run whose reads begin
where no character and no escape sequence is open; where one is open, some next chunk is shown wrong
(`live_text_iff`).
-/

namespace AxiomDesktop

open Text

/-! ## Terminal escape sequences -/

/-- Behind `ESC [`. -/
def skipCsi : List Char → List Char
  | [] => []
  | next :: cs => if '@' ≤ next ∧ next ≤ '~' then cs else skipCsi cs

/-- Behind `ESC ]`. -/
def skipOsc : List Char → List Char
  | [] => []
  | next :: cs =>
    if next = '\u0007' then cs
    else if next = '\u001b' ∧ cs.head? = some '\\' then cs.tail
    else skipOsc cs

theorem length_skipCsi (cs : List Char) : (skipCsi cs).length ≤ cs.length := by
  induction cs with
  | nil => exact Nat.le_refl _
  | cons next cs ih =>
    rw [skipCsi, List.length_cons]
    split <;> omega

theorem length_skipOsc (cs : List Char) : (skipOsc cs).length ≤ cs.length := by
  induction cs with
  | nil => exact Nat.le_refl _
  | cons next cs ih =>
    rw [skipOsc, List.length_cons]
    split
    · omega
    · split
      · rw [List.length_tail]
        omega
      · omega

def sanitizeChars : List Char → List Char
  | [] => []
  | character :: cs =>
    if character = '\u001b' then
      match cs with
      | [] => []
      | next :: rest =>
        if next = '[' then sanitizeChars (skipCsi rest)
        else if next = ']' then sanitizeChars (skipOsc rest)
        else sanitizeChars rest
    else if character = '\n' ∨ character = '\t' ∨ isControl character = false then
      character :: sanitizeChars cs
    else sanitizeChars cs
termination_by cs => cs.length
decreasing_by
  · exact Nat.lt_succ_of_le (Nat.le_succ_of_le (length_skipCsi _))
  · exact Nat.lt_succ_of_le (Nat.le_succ_of_le (length_skipOsc _))
  · exact Nat.lt_succ_of_le (Nat.le_succ _)
  · exact Nat.lt_succ_self _
  · exact Nat.lt_succ_self _

def sanitizeTerminal (input : String) : String := String.ofList (sanitizeChars input.toList)

/-- What is open where a character is read. -/
inductive Scan where
  | text
  | escape
  | csi
  | osc
  /-- In an OSC sequence, behind an `ESC`. -/
  | oscEscape
  deriving DecidableEq

/-- A character of an OSC sequence. -/
def oscStep (c : Char) : Scan :=
  if c = '\u0007' then .text else if c = '\u001b' then .oscEscape else .osc

/-- The characters read one at a time. -/
def terminal : Machine Scan Char Char where
  step
    | .text, c =>
      if c = '\u001b' then (.escape, [])
      else if c = '\n' ∨ c = '\t' ∨ isControl c = false then (.text, [c])
      else (.text, [])
    | .escape, c => (if c = '[' then .csi else if c = ']' then .osc else .text, [])
    | .csi, c => (if '@' ≤ c ∧ c ≤ '~' then .text else .csi, [])
    | .osc, c => (oscStep c, [])
    | .oscEscape, c => (if c = '\\' then .text else oscStep c, [])

/-- What is shown of the characters behind what is open. -/
def shownFrom (scan : Scan) (cs : List Char) : List Char := (terminal.run scan cs).2

theorem shownFrom_cons (scan : Scan) (c : Char) (cs : List Char) :
    shownFrom scan (c :: cs) =
      (terminal.step scan c).2 ++ shownFrom (terminal.step scan c).1 cs := rfl

theorem shownFrom_append (scan : Scan) (cs ds : List Char) :
    shownFrom scan (cs ++ ds) = shownFrom scan cs ++ shownFrom (terminal.run scan cs).1 ds := by
  rw [shownFrom, Machine.run_append]
  rfl

theorem shownFrom_csi (cs : List Char) : shownFrom .csi cs = shownFrom .text (skipCsi cs) := by
  induction cs with
  | nil => rfl
  | cons next cs ih =>
    show shownFrom (if '@' ≤ next ∧ next ≤ '~' then .text else .csi) cs = _
    rw [skipCsi]
    split
    · rfl
    · exact ih

/-- Both states of an OSC sequence; behind its `ESC` a backslash ends it. -/
theorem shownFrom_osc (cs : List Char) :
    shownFrom .osc cs = shownFrom .text (skipOsc cs) ∧
      shownFrom .oscEscape cs =
        shownFrom .text (if cs.head? = some '\\' then cs.tail else skipOsc cs) := by
  induction cs with
  | nil => exact ⟨rfl, rfl⟩
  | cons next cs ih =>
    have hnext : shownFrom (oscStep next) cs = shownFrom .text (skipOsc (next :: cs)) := by
      rw [skipOsc, oscStep]
      by_cases hbell : next = '\u0007'
      · rw [if_pos hbell, if_pos hbell]
      · rw [if_neg hbell, if_neg hbell]
        by_cases hescape : next = '\u001b'
        · rw [if_pos hescape, ih.2]
          simp only [hescape, true_and]
        · rw [if_neg hescape, if_neg fun h => hescape h.1, ih.1]
    refine ⟨hnext, ?_⟩
    show shownFrom (if next = '\\' then .text else oscStep next) cs = _
    by_cases hslash : next = '\\'
    · rw [if_pos hslash, List.head?_cons, if_pos (congrArg some hslash), List.tail_cons]
    · rw [if_neg hslash, List.head?_cons, if_neg fun h => hslash (Option.some.inj h), hnext]

/-- The loop of `sanitize_terminal` reads a character at a time. -/
theorem sanitizeChars_eq (cs : List Char) : sanitizeChars cs = shownFrom .text cs := by
  have hescape : ∀ next rest, shownFrom .text ('\u001b' :: next :: rest) =
      shownFrom (if next = '[' then .csi else if next = ']' then .osc else .text) rest :=
    fun _ _ => rfl
  have htext : ∀ c cs, c ≠ '\u001b' → shownFrom .text (c :: cs) =
      (if c = '\n' ∨ c = '\t' ∨ isControl c = false then [c] else []) ++ shownFrom .text cs := by
    intro c cs hc
    rw [shownFrom_cons]
    show (if c = '\u001b' then _ else if _ then _ else _ : Scan × List Char).2 ++
      shownFrom (if c = '\u001b' then _ else if _ then _ else _ : Scan × List Char).1 cs = _
    rw [if_neg hc]
    split <;> rfl
  fun_induction sanitizeChars cs with
  | case1 => rfl
  | case2 => rfl
  | case3 rest ih => rw [hescape, if_pos rfl, shownFrom_csi, ih]
  | case4 rest hcsi ih => rw [hescape, if_neg hcsi, if_pos rfl, (shownFrom_osc rest).1, ih]
  | case5 next rest hcsi hosc ih => rw [hescape, if_neg hcsi, if_neg hosc, ih]
  | case6 c cs hc hshown ih => rw [htext c cs hc, if_pos hshown, ih, List.singleton_append]
  | case7 c cs hc hshown ih => rw [htext c cs hc, if_neg hshown, ih, List.nil_append]

/-- Only text is shown, and the replacement character is text. -/
theorem length_step (scan : Scan) (c : Char) :
    (terminal.step scan c).2.length ≤ (terminal.step scan REPLACEMENT_CHARACTER).2.length := by
  cases scan with
  | text =>
    show (if _ then _ else if _ then _ else _ : Scan × List Char).2.length ≤ 1
    split
    · exact Nat.zero_le _
    · split
      · exact Nat.le_refl _
      · exact Nat.zero_le _
  | escape => exact Nat.le_refl _
  | csi => exact Nat.le_refl _
  | osc => exact Nat.le_refl _
  | oscEscape => exact Nat.le_refl _

/-! ## What is read and what is shown -/

inductive OutputStream where
  | stdout
  | stderr
  deriving DecidableEq

/-- What one read of the buffer of 8192 bytes returns. -/
structure Chunk where
  bytes : List UInt8
  nonempty : bytes ≠ []
  fits : bytes.length ≤ 8192

/-- What a snapshot has of the output. -/
structure BackgroundSnapshot where
  stdout : List Char := []
  stderr : List Char := []
  truncated : Bool := false

def BackgroundSnapshot.text (snapshot : BackgroundSnapshot) : OutputStream → List Char
  | .stdout => snapshot.stdout
  | .stderr => snapshot.stderr

def BackgroundSnapshot.pushStr (snapshot : BackgroundSnapshot) (stream : OutputStream)
    (chunk : List Char) : BackgroundSnapshot :=
  match stream with
  | .stdout => { snapshot with stdout := snapshot.stdout ++ chunk }
  | .stderr => { snapshot with stderr := snapshot.stderr ++ chunk }

theorem BackgroundSnapshot.text_pushStr (snapshot : BackgroundSnapshot) (stream : OutputStream)
    (chunk : List Char) : (snapshot.pushStr stream chunk).text =
      Function.update snapshot.text stream (snapshot.text stream ++ chunk) := by
  funext other
  cases stream <;> cases other <;> rfl

/-- A `read_bounded`. `accepted` is what it has read and not shown yet. -/
structure Reader where
  retained : List UInt8 := []
  truncated : Bool := false
  accepted : Option (List UInt8 × Bool) := none

/-- What it returns at the end of the stream. -/
def Reader.result (r : Reader) : List Char × Bool :=
  (sanitizeChars (lossyChars r.retained), r.truncated)

structure Output where
  retainedBytes : Nat := 0
  reader : OutputStream → Reader := fun _ => {}
  snapshot : BackgroundSnapshot := {}

/-- A read of a stream, and the update of the snapshot for it, with any steps of the other stream in
between. -/
inductive Received where
  | read (stream : OutputStream) (chunk : Chunk)
  | live (stream : OutputStream)

def reserveOutput (retained maximum requested : Nat) : Nat := min requested (maximum - retained)

def readBounded (maxBytes : Nat) : Machine Output Received Unit where
  step
    | o, .read stream chunk =>
      let r := o.reader stream
      match r.accepted with
      | some _ => (o, [])
      | none =>
        let accepted := reserveOutput o.retainedBytes maxBytes chunk.bytes.length
        let cut := decide (accepted < chunk.bytes.length)
        ({ o with
            retainedBytes := o.retainedBytes + accepted
            reader := Function.update o.reader stream
              { retained := r.retained ++ chunk.bytes.take accepted
                truncated := r.truncated || cut
                accepted := some (chunk.bytes.take accepted, cut) } }, [])
    | o, .live stream =>
      let r := o.reader stream
      match r.accepted with
      | none => (o, [])
      | some (bytes, cut) =>
        ({ o with
            reader := Function.update o.reader stream { r with accepted := none }
            snapshot :=
              { o.snapshot.pushStr stream (sanitizeChars (lossyChars bytes)) with
                truncated := o.snapshot.truncated || cut } }, [])

/-! ## Where a read may begin -/

/-- Behind the bytes no character and no escape sequence is open. -/
def AtBoundary (bytes : List UInt8) : Prop :=
  (lossy.run none bytes).1 = none ∧ (terminal.run .text (lossyChars bytes)).1 = .text

instance (bytes : List UInt8) : Decidable (AtBoundary bytes) :=
  inferInstanceAs (Decidable (_ ∧ _))

/-- A read begins where nothing is open. -/
def ReadsApart (o : Output) : Received → Prop
  | .read stream _ => AtBoundary (o.reader stream).retained
  | .live _ => True

/-- The text of a stream in the snapshot is the text of the bytes that were read. -/
def Output.Right (o : Output) (stream : OutputStream) : Prop :=
  o.snapshot.text stream = (o.reader stream).result.1

section

variable {bytes : List UInt8}

/-- Behind a boundary, bytes have the text they have for themselves. -/
theorem AtBoundary.sanitize_append (h : AtBoundary bytes) (more : List UInt8) :
    sanitizeChars (lossyChars (bytes ++ more)) =
      sanitizeChars (lossyChars bytes) ++ sanitizeChars (lossyChars more) := by
  rw [lossyChars_append h.1, sanitizeChars_eq, sanitizeChars_eq, sanitizeChars_eq,
    shownFrom_append, h.2]

/-- Where something is open, some byte does not. -/
theorem exists_wrong (h : ¬AtBoundary bytes) :
    ∃ b, sanitizeChars (lossyChars (bytes ++ [b])) ≠
      sanitizeChars (lossyChars bytes) ++ sanitizeChars (lossyChars [b]) := by
  simp only [sanitizeChars_eq]
  cases hopen : (lossy.run none bytes).1 with
  | some begun =>
    -- a byte of the character: nothing of its own in the text, but a replacement in the chunk
    obtain ⟨c, hc⟩ := lossyChars_next hopen
    have hbytes : lossyChars bytes = (lossy.run none bytes).2 ++ [REPLACEMENT_CHARACTER] := by
      rw [lossyChars, hopen]
      rfl
    refine ⟨begun.next, fun heq => ?_⟩
    rw [hc, hbytes, lossyChars_tail, shownFrom_append, shownFrom_append, List.append_assoc,
      List.append_cancel_left_eq, shownFrom_cons, shownFrom_cons] at heq
    have hlength := congrArg List.length heq
    have hle := length_step (terminal.run .text (lossy.run none bytes).2).1 c
    have hone : (shownFrom .text [REPLACEMENT_CHARACTER]).length = 1 := rfl
    simp only [shownFrom, Machine.run_nil, List.append_nil, List.length_append] at hlength hone
    omega
  | none =>
    -- a letter: a part of the escape sequence, but text in the chunk
    have hscan : (terminal.run .text (lossyChars bytes)).1 ≠ .text := fun h' => h ⟨hopen, h'⟩
    refine ⟨0x41, fun heq => ?_⟩
    have hletter : lossyChars [0x41] = ['A'] := by decide
    rw [lossyChars_append hopen, hletter, shownFrom_append, List.append_cancel_left_eq,
      shownFrom_cons] at heq
    cases hopen' : (terminal.run .text (lossyChars bytes)).1 with
    | text => exact hscan hopen'
    | escape => rw [hopen'] at heq; cases heq
    | csi => rw [hopen'] at heq; cases heq
    | osc => rw [hopen'] at heq; cases heq
    | oscEscape => rw [hopen'] at heq; cases heq

end

/-! ## Steps -/

section

variable {maxBytes : Nat} {o : Output} {stream other : OutputStream} {chunk : Chunk}

/-- What a read takes of a chunk. -/
def taken (maxBytes : Nat) (o : Output) (chunk : Chunk) : List UInt8 :=
  chunk.bytes.take (reserveOutput o.retainedBytes maxBytes chunk.bytes.length)

/-- A read leaves the snapshot and the other stream. -/
theorem step_read (maxBytes : Nat) (chunk : Chunk) (h : (o.reader stream).accepted = none) :
    ((readBounded maxBytes).step o (.read stream chunk)).1.snapshot = o.snapshot ∧
      (∀ other ≠ stream,
        ((readBounded maxBytes).step o (.read stream chunk)).1.reader other = o.reader other) ∧
      ∃ cut, ((readBounded maxBytes).step o (.read stream chunk)).1.reader stream =
        ⟨(o.reader stream).retained ++ taken maxBytes o chunk, (o.reader stream).truncated || cut,
          some (taken maxBytes o chunk, cut)⟩ := by
  unfold readBounded
  dsimp only
  rw [h]
  exact ⟨rfl, fun other hother => Function.update_of_ne hother _ _, _, Function.update_self _ _ _⟩

/-- An update of the snapshot leaves the other stream and every byte. -/
theorem step_live (maxBytes : Nat) {bytes : List UInt8} {cut : Bool}
    (h : (o.reader stream).accepted = some (bytes, cut)) :
    (∀ other, ((readBounded maxBytes).step o (.live stream)).1.snapshot.text other =
        Function.update o.snapshot.text stream
          (o.snapshot.text stream ++ sanitizeChars (lossyChars bytes)) other) ∧
      ((readBounded maxBytes).step o (.live stream)).1.reader =
        Function.update o.reader stream { o.reader stream with accepted := none } := by
  unfold readBounded
  dsimp only
  rw [h]
  exact ⟨fun other => congrFun (BackgroundSnapshot.text_pushStr _ _ _) other, rfl⟩

theorem right_start (stream : OutputStream) : Output.Right {} stream := by
  have hempty : sanitizeChars (lossyChars []) = [] := sanitizeChars_eq _
  cases stream <;> exact hempty.symm

/-- A stream between two steps: its text is right, or it is right but for the chunk in hand, which
began at a boundary. -/
def Shows (o : Output) (stream : OutputStream) : Prop :=
  match (o.reader stream).accepted with
  | none => o.Right stream
  | some (bytes, _) => ∃ before, (o.reader stream).retained = before ++ bytes ∧
      AtBoundary before ∧ o.snapshot.text stream = sanitizeChars (lossyChars before)

theorem Shows.congr {o' : Output} (h : Shows o other) (hreader : o'.reader other = o.reader other)
    (htext : o'.snapshot.text other = o.snapshot.text other) : Shows o' other := by
  unfold Shows Output.Right at h ⊢
  rwa [hreader, htext]

/-- A read that begins at a boundary. -/
theorem Shows.read (h : ∀ stream, Shows o stream) (hapart : AtBoundary (o.reader stream).retained)
    (other : OutputStream) :
    Shows ((readBounded maxBytes).step o (.read stream chunk)).1 other := by
  cases haccepted : (o.reader stream).accepted with
  | some waiting =>
    have hsame : (readBounded maxBytes).step o (.read stream chunk) = (o, []) := by
      unfold readBounded
      dsimp only
      rw [haccepted]
    rw [hsame]
    exact h other
  | none =>
    obtain ⟨hsnapshot, hothers, cut, hreader⟩ :=
      step_read maxBytes chunk haccepted
    by_cases hother : other = stream
    · subst hother
      have hright := h other
      unfold Shows at hright ⊢
      rw [haccepted] at hright
      rw [hreader, hsnapshot]
      exact ⟨_, rfl, hapart, hright⟩
    · exact (h other).congr (hothers other hother) (by rw [hsnapshot])

/-- The update of the snapshot behind it. -/
theorem Shows.live (h : ∀ stream, Shows o stream) (other : OutputStream) :
    Shows ((readBounded maxBytes).step o (.live stream)).1 other := by
  cases haccepted : (o.reader stream).accepted with
  | none =>
    have hsame : (readBounded maxBytes).step o (.live stream) = (o, []) := by
      unfold readBounded
      dsimp only
      rw [haccepted]
    rw [hsame]
    exact h other
  | some waiting =>
    obtain ⟨bytes, cut⟩ := waiting
    obtain ⟨htext, hreader⟩ := step_live maxBytes haccepted
    by_cases hother : other = stream
    · subst hother
      have hright := h other
      unfold Shows at hright
      rw [haccepted] at hright
      obtain ⟨before, hretained, hbefore, hshown⟩ := hright
      unfold Shows Output.Right
      rw [hreader, Function.update_self, htext, Function.update_self, hshown]
      show _ = sanitizeChars (lossyChars (o.reader other).retained)
      rw [hretained, hbefore.sanitize_append]
    · refine (h other).congr ?_ ?_
      · rw [hreader, Function.update_of_ne hother]
      · rw [htext, Function.update_of_ne hother]

theorem Shows.step (h : ∀ stream, Shows o stream) {i : Received} (hi : ReadsApart o i) :
    ∀ stream, Shows ((readBounded maxBytes).step o i).1 stream := by
  cases i with
  | read stream chunk => exact Shows.read h hi
  | live stream => exact Shows.live h

/-- A read and its update, one after the other, with budget for what is read. -/
theorem right_next (haccepted : (o.reader stream).accepted = none)
    (hbudget : chunk.bytes.length ≤ maxBytes - o.retainedBytes) (hright : o.Right stream) :
    ((readBounded maxBytes).run o [.read stream chunk, .live stream]).1.Right stream ↔
      sanitizeChars (lossyChars ((o.reader stream).retained ++ chunk.bytes)) =
        sanitizeChars (lossyChars (o.reader stream).retained) ++
          sanitizeChars (lossyChars chunk.bytes) := by
  have htaken : taken maxBytes o chunk = chunk.bytes := by
    rw [taken, reserveOutput, Nat.min_eq_left hbudget, List.take_length]
  obtain ⟨hsnapshot, -, cut, hreader⟩ :=
    step_read maxBytes chunk haccepted
  rw [htaken] at hreader
  have hwaiting : (((readBounded maxBytes).step o (.read stream chunk)).1.reader stream).accepted =
      some (chunk.bytes, cut) := by
    rw [hreader]
  obtain ⟨htext, hreader'⟩ := step_live maxBytes hwaiting
  rw [Machine.run_cons, Machine.run_cons, Machine.run_nil]
  unfold Output.Right at hright ⊢
  rw [htext, hreader', Function.update_self, Function.update_self, hreader, hsnapshot, hright]
  exact eq_comm

end

/-- **Live output.** In every run whose reads all begin where no character and no escape sequence is
open, what a snapshot has of a stream with no chunk in hand is the text of the bytes that were read.
Wherever it is, and there is budget left, every next chunk is shown right exactly if nothing is
open. -/
theorem live_text_iff (maxBytes : Nat) (is : List Received) :
    ((readBounded maxBytes).Meets ReadsApart {} is →
      ∀ stream, (((readBounded maxBytes).run {} is).1.reader stream).accepted = none →
        ((readBounded maxBytes).run {} is).1.Right stream) ∧
    ∀ stream, (((readBounded maxBytes).run {} is).1.reader stream).accepted = none →
      ((readBounded maxBytes).run {} is).1.Right stream →
      ((readBounded maxBytes).run {} is).1.retainedBytes < maxBytes →
      ((∀ chunk,
        chunk.bytes.length ≤ maxBytes - ((readBounded maxBytes).run {} is).1.retainedBytes →
        ((readBounded maxBytes).run {} (is ++ [.read stream chunk, .live stream])).1.Right stream) ↔
          AtBoundary (((readBounded maxBytes).run {} is).1.reader stream).retained) := by
  constructor
  · intro hapart stream haccepted
    have hstart : ∀ stream, Shows {} stream := fun stream => right_start stream
    have hshows := (readBounded maxBytes).run_invariant (C := ReadsApart)
      (fun o i h hi => Shows.step h hi) hstart hapart stream
    unfold Shows at hshows
    rwa [haccepted] at hshows
  · intro stream haccepted hright hleft
    simp only [Machine.run_append]
    generalize ((readBounded maxBytes).run {} is).1 = o at haccepted hright hleft ⊢
    constructor
    · intro hall
      by_contra hopen
      obtain ⟨b, hwrong⟩ := exists_wrong hopen
      have hfits : [b].length ≤ maxBytes - o.retainedBytes := by
        rw [List.length_singleton]
        omega
      exact hwrong ((right_next haccepted hfits hright).mp
        (hall ⟨[b], List.cons_ne_nil _ _, by simp⟩ hfits))
    · intro hboundary chunk hfits
      exact (right_next haccepted hfits hright).mpr (hboundary.sanitize_append _)

/-- A read of one byte, and the update behind it. -/
def oneByte (b : UInt8) : List Received :=
  [.read .stdout ⟨[b], List.cons_ne_nil _ _, by simp⟩, .live .stdout]

/-- A letter of two bytes that come in two reads: two replacement characters. -/
theorem split_letter_shown :
    (((readBounded 1048576).run {} (oneByte 0xc3 ++ oneByte 0xa9)).1.reader .stdout).accepted =
        none ∧
      ¬((readBounded 1048576).run {} (oneByte 0xc3 ++ oneByte 0xa9)).1.Right .stdout := by
  refine ⟨by decide, ?_⟩
  have hfirst : ((readBounded 1048576).run {} (oneByte 0xc3)).1.Right .stdout := by
    refine (right_next rfl (by decide) (right_start .stdout)).mpr ?_
    simp only [sanitizeChars_eq]
    decide
  rw [Machine.run_append]
  intro hright
  have hsame := (right_next (by decide) (by decide) hfirst).mp hright
  simp only [sanitizeChars_eq] at hsame
  exact absurd hsame (by decide)

end AxiomDesktop
