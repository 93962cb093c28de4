import AxiomDesktop.Session.Tokens

/-!
# Bearer credentials

`redact_text` takes the word behind `bearer` for a credential. It remembers `bearer` for one piece
of the text only, and a second character of whitespace is a piece with an empty token. So it does
what it is for exactly where at most one character of whitespace is behind every `bearer`
(`redacts_credentials_iff`); where there are more, it puts its mark between them, and the credential
stays. A text that was redacted once stays as it is (`redactText_redactText`).
-/

namespace AxiomDesktop

open Text

/-! ## Words -/

/-- A word of a text, and the whitespace behind it. -/
structure Word where
  text : List Char
  gap : List Char
  text_ne : text ≠ []
  text_plain : ∀ c ∈ text, isWhitespace c = false
  gap_space : ∀ c ∈ gap, isWhitespace c = true

/-- A text as its words, with the whitespace before the first of them. -/
structure Phrase where
  lead : List Char
  words : List Word
  lead_space : ∀ c ∈ lead, isWhitespace c = true
  apart : ∀ w ∈ words.dropLast, w.gap ≠ []

/-- The text of a list of words. -/
def wordsText (words : List Word) : List Char := words.flatMap fun w => w.text ++ w.gap

def Phrase.text (p : Phrase) : String := String.ofList (p.lead ++ wordsText p.words)

/-- The words with every credential replaced, those behind `bearer` and those that look like one. -/
def credentialsRemoved (bearer : Bool) : List Word → List Char
  | [] => []
  | w :: rest =>
    (if bearer || looksLikeSecret w.text then REDACTED.toList else w.text) ++ w.gap ++
      credentialsRemoved (isBearer w.text) rest

/-- A text with every credential replaced, and all else as it is. -/
def Phrase.redacted (p : Phrase) : String :=
  String.ofList (p.lead ++ credentialsRemoved false p.words)

/-- Every text is a list of words. -/
theorem exists_phrase (text : String) : ∃ p : Phrase, p.text = text := by
  suffices h : ∀ cs : List Char, ∃ p : Phrase, p.lead ++ wordsText p.words = cs by
    obtain ⟨p, hp⟩ := h text.toList
    exact ⟨p, by rw [Phrase.text, hp, String.ofList_toList]⟩
  intro cs
  induction cs with
  | nil => exact ⟨⟨[], [], fun _ h => absurd h List.not_mem_nil,
      fun _ h => absurd h List.not_mem_nil⟩, rfl⟩
  | cons c cs ih =>
    obtain ⟨⟨lead, words, hlead, hapart⟩, rfl⟩ := ih
    cases hc : isWhitespace c with
    | true => exact ⟨⟨c :: lead, words, List.forall_mem_cons.mpr ⟨hc, hlead⟩, hapart⟩, rfl⟩
    | false =>
      -- a character of a word starts a word, or goes on with the one that follows at once
      cases lead with
      | cons d lead =>
        refine ⟨⟨[], ⟨[c], d :: lead, List.cons_ne_nil _ _, ?_, hlead⟩ :: words,
          fun _ h => absurd h List.not_mem_nil, ?_⟩, rfl⟩
        · exact fun e he => (List.mem_singleton.mp he).symm ▸ hc
        · cases words with
          | nil => exact fun _ h => absurd h List.not_mem_nil
          | cons w rest => exact List.forall_mem_cons.mpr ⟨List.cons_ne_nil _ _, hapart⟩
      | nil =>
        cases words with
        | nil =>
          refine ⟨⟨[], [⟨[c], [], List.cons_ne_nil _ _, ?_, fun _ h => absurd h List.not_mem_nil⟩],
            fun _ h => absurd h List.not_mem_nil, fun _ h => absurd h List.not_mem_nil⟩, rfl⟩
          exact fun e he => (List.mem_singleton.mp he).symm ▸ hc
        | cons w rest =>
          refine ⟨⟨[], ⟨c :: w.text, w.gap, List.cons_ne_nil _ _,
            List.forall_mem_cons.mpr ⟨hc, w.text_plain⟩, w.gap_space⟩ :: rest,
            fun _ h => absurd h List.not_mem_nil, ?_⟩, rfl⟩
          cases rest with
          | nil => exact fun _ h => absurd h List.not_mem_nil
          | cons next rest =>
            obtain ⟨hw, hrest⟩ := List.forall_mem_cons.mp hapart
            exact List.forall_mem_cons.mpr ⟨hw, hrest⟩

/-! ## What is redacted of a word -/

section Redact

variable {bearer : Bool} {c : Char} {cs gap : List Char}

/-- What is left of a word. -/
def shown (bearer : Bool) (word : List Char) : List Char :=
  if bearer || looksLikeSecret word then REDACTED.toList else word

theorem pieceToken_space (hc : isWhitespace c = true) : pieceToken [c] = [] :=
  @pieceToken_append [] [c] (fun _ h => absurd h List.not_mem_nil)
    fun _ hd => (List.mem_singleton.mp hd).symm ▸ hc

/-- Whitespace is a piece with an empty token, which is redacted behind `bearer`. -/
theorem redactPieces_space (hc : isWhitespace c = true) :
    redactPieces bearer (splitInclusive isWhitespace (c :: cs)) =
      (if bearer then REDACTED.toList ++ [c] else [c]) ++
        redactPieces false (splitInclusive isWhitespace cs) := by
  have hsecret : looksLikeSecret [] = false := by decide
  have hbearer : isBearer [] = false := by decide
  rw [splitInclusive, if_pos hc, redactPieces, pieceSpace, pieceToken_space hc, hsecret, hbearer,
    Bool.or_false]
  rfl

/-- Whitespace is kept. -/
theorem redactPieces_gap (hgap : ∀ c ∈ gap, isWhitespace c = true) :
    redactPieces false (splitInclusive isWhitespace (gap ++ cs)) =
      gap ++ redactPieces false (splitInclusive isWhitespace cs) := by
  induction gap with
  | nil => rfl
  | cons c gap ih =>
    obtain ⟨hc, hgap⟩ := List.forall_mem_cons.mp hgap
    rw [List.cons_append, redactPieces_space hc, ih hgap]
    rfl

/-- The piece of a word, up to the first character of the whitespace behind it. -/
theorem redactPieces_word {word : List Char} (hword : ∀ c ∈ word, isWhitespace c = false)
    (hc : isWhitespace c = true) :
    redactPieces bearer (splitInclusive isWhitespace (word ++ c :: cs)) =
      shown bearer word ++ [c] ++
        redactPieces (isBearer word) (splitInclusive isWhitespace cs) := by
  have hpiece : OnePiece isWhitespace (word ++ [c]) :=
    ⟨by simp, by rw [List.dropLast_concat]; exact hword⟩
  have hends : endsWith isWhitespace (word ++ [c]) = true := by
    rw [endsWith, List.getLast?_concat]
    exact hc
  have htoken : pieceToken (word ++ [c]) = word :=
    pieceToken_append hword fun d hd => (List.mem_singleton.mp hd).symm ▸ hc
  have hspace : pieceSpace (word ++ [c]) = [c] := by
    rw [pieceSpace, htoken, List.drop_left]
  have hsplit : splitInclusive isWhitespace (word ++ c :: cs) =
      (word ++ [c]) :: splitInclusive isWhitespace cs := by
    rw [splitInclusive_eq_pieces, splitInclusive_eq_pieces, List.append_cons, pieces_append hpiece,
      if_pos hends]
  rw [hsplit, redactPieces, htoken, hspace, shown]
  split <;> rfl

/-- The piece of a word at the end of a text. -/
theorem redactPieces_last {word : List Char} (hne : word ≠ [])
    (hword : ∀ c ∈ word, isWhitespace c = false) :
    redactPieces bearer (splitInclusive isWhitespace word) = shown bearer word := by
  have htoken : pieceToken word = word := by
    have happend : pieceToken (word ++ []) = word :=
      pieceToken_append hword fun c hc => absurd hc List.not_mem_nil
    rwa [List.append_nil] at happend
  have hsplit : splitInclusive isWhitespace word = [word] := by
    have hpiece : OnePiece isWhitespace word := ⟨hne, fun c hc => hword c (List.dropLast_subset _ hc)⟩
    have hends : ¬endsWith isWhitespace word = true := by
      rw [endsWith, List.getLast?_eq_some_getLast hne]
      simp [hword _ (List.getLast_mem hne)]
    have hpieces := pieces_append hpiece []
    rw [List.append_nil, if_neg hends] at hpieces
    rw [splitInclusive_eq_pieces, hpieces]
    rfl
  rw [hsplit, redactPieces, htoken, pieceSpace, htoken, List.drop_length, redactPieces,
    List.append_nil, List.append_nil, shown]

end Redact

/-! ## The words of a text -/

/-- No `bearer` has more than one character of whitespace behind it. -/
def NearBearers (words : List Word) : Prop :=
  ∀ w ∈ words, isBearer w.text = true → w.gap.length ≤ 1

/-- **Words.** The words of a text are redacted as they are to be exactly if no `bearer` has more
than one character of whitespace behind it. -/
theorem redactPieces_words {bearer : Bool} {words : List Word}
    (h : ∀ w ∈ words.dropLast, w.gap ≠ []) :
    redactPieces bearer (splitInclusive isWhitespace (wordsText words)) =
      credentialsRemoved bearer words ↔ NearBearers words := by
  induction words generalizing bearer with
  | nil => exact iff_of_true rfl fun _ h => absurd h List.not_mem_nil
  | cons w rest ih =>
    have hrest : ∀ v ∈ rest.dropLast, v.gap ≠ [] := fun v hv =>
      h v (by
        cases rest with
        | nil => exact absurd hv List.not_mem_nil
        | cons next rest => exact List.mem_cons_of_mem w hv)
    have htail : redactPieces (isBearer w.text) (splitInclusive isWhitespace (wordsText rest)) =
        credentialsRemoved (isBearer w.text) rest ↔ NearBearers rest := ih hrest
    rw [wordsText, List.flatMap_cons, List.append_assoc, credentialsRemoved, NearBearers,
      List.forall_mem_cons]
    show redactPieces bearer (splitInclusive isWhitespace (w.text ++ (w.gap ++ wordsText rest))) =
      shown bearer w.text ++ w.gap ++ _ ↔ _
    cases hgap : w.gap with
    | nil =>
      -- nothing is behind a word without whitespace
      have hlast : rest = [] := by
        cases rest with
        | nil => rfl
        | cons next rest => exact absurd hgap (h w List.mem_cons_self)
      subst hlast
      show redactPieces bearer (splitInclusive isWhitespace (w.text ++ [])) =
        shown bearer w.text ++ [] ++ [] ↔ _
      rw [List.append_nil, List.append_nil, List.append_nil,
        redactPieces_last w.text_ne w.text_plain]
      exact iff_of_true rfl ⟨fun _ => Nat.zero_le 1, fun _ h => absurd h List.not_mem_nil⟩
    | cons c gap =>
      have hspace := w.gap_space
      rw [hgap] at hspace
      obtain ⟨hc, hspace⟩ := List.forall_mem_cons.mp hspace
      rw [List.cons_append, redactPieces_word w.text_plain hc, List.append_assoc, List.append_assoc,
        List.append_cancel_left_eq, List.singleton_append, List.cons_append, List.cons.injEq]
      simp only [true_and]
      cases gap with
      | nil =>
        rw [List.nil_append, List.nil_append, htail]
        exact ⟨fun hnear => ⟨fun _ => le_rfl, hnear⟩, fun hnear => hnear.2⟩
      | cons d gap =>
        obtain ⟨hd, hgapSpace⟩ := List.forall_mem_cons.mp hspace
        rw [List.cons_append, redactPieces_space hd]
        cases hbearer : isBearer w.text with
        | false =>
          rw [hbearer] at htail
          rw [if_neg Bool.false_ne_true, redactPieces_gap hgapSpace, List.singleton_append,
            List.cons_append, List.cons.injEq, List.append_cancel_left_eq, htail]
          exact ⟨fun hnear => ⟨nofun, hnear.2⟩, fun hnear => ⟨rfl, hnear.2⟩⟩
        | true =>
          -- the mark stands where the second character of whitespace was
          refine iff_of_false (fun heq => ?_) fun hnear => absurd (hnear.1 rfl) (by simp)
          have hmark : REDACTED.toList = '[' :: REDACTED.toList.tail := by decide
          rw [if_pos rfl, hmark] at heq
          have hhead : '[' = d := (List.cons.inj heq).1
          rw [← hhead] at hd
          exact absurd hd (by decide)

/-! ## Redacting twice -/

/-- What is left of the pieces of a text is redacted to itself. -/
theorem redactPieces_stored {first second : Bool} {ps : List (List Char)}
    (hps : ∀ piece ∈ ps, OnePiece isWhitespace piece) (hfirst : second = true → first = true) :
    redactPieces second ((partsFrom first ps).map Part.stored) =
      (partsFrom first ps).flatMap Part.stored := by
  induction ps generalizing first second with
  | nil => rfl
  | cons piece rest ih =>
    obtain ⟨hpiece, hrest⟩ := List.forall_mem_cons.mp hps
    generalize hpart : (⟨first || looksLikeSecret (pieceToken piece), piece⟩ : Part) = part
    have htext : part.text = piece := by rw [← hpart]
    have hone : OnePiece isWhitespace part.text := htext ▸ hpiece
    obtain ⟨-, -, htoken⟩ := Part.stored_token hone
    have hstored := (Part.stored_piece hone).2.2
    have hspace : pieceSpace part.stored = pieceSpace part.text := by
      rw [pieceSpace, htoken, hstored, List.drop_left]
    rw [partsFrom, hpart, List.map_cons, List.flatMap_cons, redactPieces, htoken, hspace]
    have hmark : isBearer REDACTED.toList = false := by decide
    cases hrecognized : part.recognized with
    | true =>
      have htoken' : part.storedToken = REDACTED.toList := if_pos hrecognized
      rw [ih hrest fun h => by rw [htoken', hmark] at h; cases h]
      rw [htoken'] at hstored
      rw [hstored, ite_self]
    | false =>
      have htoken' : part.storedToken = pieceToken piece := by
        rw [← htext]
        exact if_neg (by rw [hrecognized]; exact Bool.false_ne_true)
      have hboth : first = false ∧ looksLikeSecret (pieceToken piece) = false := by
        rw [← hpart] at hrecognized
        exact Bool.or_eq_false_iff.mp hrecognized
      have hsecond : second = false := by
        cases second with
        | false => rfl
        | true => exact absurd (hfirst rfl) (by rw [hboth.1]; exact Bool.false_ne_true)
      rw [htoken', hboth.2, hsecond, Bool.or_false, if_neg Bool.false_ne_true, ih hrest id]

/-- A text that was redacted is redacted to itself. -/
theorem redactText_redactText (text : String) : redactText (redactText text) = redactText text := by
  have hps : ∀ piece ∈ splitInclusive isWhitespace text.toList, OnePiece isWhitespace piece := by
    rw [splitInclusive_eq_pieces]
    exact fun piece hpiece => onePiece_of_mem hpiece
  have hsplit : splitInclusive isWhitespace (redactText text).toList =
      (partsOf text).map Part.stored := by
    have hends := pieces_partsOf text
    rw [splitInclusive_eq_pieces, toList_redactText, pieces_flatMap fun part hpart =>
      (Part.stored_piece (onePiece_of_partsOf hpart)).1, pieces_congr fun part hpart =>
      (Part.stored_piece (onePiece_of_partsOf hpart)).2.1, hends, List.map_map]
    refine List.map_congr_left fun part _ => ?_
    show List.flatMap Part.stored [part] = _
    rw [List.flatMap_singleton]
  refine String.toList_inj.mp ?_
  rw [redactText, String.toList_ofList, hsplit, toList_redactText]
  exact redactPieces_stored hps id

/-! ## A text -/

/-- **Bearer credentials.** Every text is a list of words. It is redacted to the text with every
credential replaced and all else as it is, and then to itself, exactly if no `bearer` in it has more
than one character of whitespace behind it. -/
theorem redacts_credentials_iff (text : String) (p : Phrase) :
    (∃ words : Phrase, words.text = text) ∧
      ((redactText p.text = p.redacted ∧
        redactText (redactText p.text) = redactText p.text) ↔ NearBearers p.words) := by
  refine ⟨exists_phrase text, ?_⟩
  rw [and_iff_left (redactText_redactText p.text), ← @redactPieces_words false p.words p.apart,
    redactText, Phrase.text, Phrase.redacted, String.toList_ofList, redactPieces_gap p.lead_space]
  constructor
  · intro h
    have hchars := congrArg String.toList h
    rw [String.toList_ofList, String.toList_ofList] at hchars
    exact List.append_cancel_left hchars
  · intro h
    rw [h]

/-- Behind `bearer` and two spaces the credential stays. -/
theorem bearer_two_spaces :
    ∃ p : Phrase, p.text = "Bearer  hunter2" ∧ p.redacted = "Bearer  [REDACTED]" ∧
      redactText p.text = "Bearer [REDACTED] hunter2" := by
  refine ⟨⟨[], [⟨"Bearer".toList, "  ".toList, ?_, ?_, ?_⟩, ⟨"hunter2".toList, [], ?_, ?_, ?_⟩],
    ?_, ?_⟩, ?_, ?_, ?_⟩
  · decide
  · simp [isWhitespace]
  · simp [isWhitespace]
  · decide
  · simp [isWhitespace]
  · simp
  · simp
  · simp
  · decide +kernel
  · decide +kernel
  · decide +kernel

end AxiomDesktop
