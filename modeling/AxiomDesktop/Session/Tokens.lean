import Mathlib.Data.List.Chain
import Mathlib.Data.List.DropRight
import AxiomDesktop.Lib.Pieces
import AxiomDesktop.Session.Redact

/-!
# Redaction of a text in fragments

What `redact_text` leaves of a text when it is applied to the fragments of the text one by one. The
parts the fragments make of a token are redacted or kept one by one, so that a token the redaction
of the whole text replaces stays in the stored text unless one of its parts is recognized in its
fragment (`hides_iff`).
-/

namespace AxiomDesktop

open Text

/-! ## Tokens -/

theorem splitInclusive_eq_pieces (p : Char → Bool) (cs : List Char) :
    splitInclusive p cs = pieces p cs := by
  induction cs with
  | nil => rfl
  | cons c cs ih =>
    cases hrest : pieces p cs with
    | nil => simp [splitInclusive, pieces, ih, hrest]
    | cons piece rest => simp [splitInclusive, pieces, ih, hrest]

/-- The tokens of a text, as `redact_text` takes them. -/
def tokens (text : String) : List (List Char) :=
  (splitInclusive isWhitespace text.toList).map pieceToken

/-- The token of a text that has its whitespace at its end. -/
theorem pieceToken_append {token space : List Char} (htoken : ∀ c ∈ token, isWhitespace c = false)
    (hspace : ∀ c ∈ space, isWhitespace c = true) : pieceToken (token ++ space) = token := by
  show List.rdropWhile isWhitespace (token ++ space) = token
  induction space using List.reverseRecOn with
  | nil =>
    rw [List.append_nil, List.rdropWhile_eq_self_iff]
    intro hne hlast
    rw [htoken _ (List.getLast_mem hne)] at hlast
    cases hlast
  | append_singleton space c ih =>
    rw [← List.append_assoc, List.rdropWhile_concat_pos _ _ _ (hspace c (by simp))]
    exact ih fun d hd => hspace d (List.mem_append_left _ hd)

/-- A piece is a token, and at most one character of whitespace behind it. -/
theorem OnePiece.token {piece : List Char} (h : OnePiece isWhitespace piece) :
    piece = pieceToken piece ++ pieceSpace piece ∧
      (∀ c ∈ pieceToken piece, isWhitespace c = false) ∧
      (pieceSpace piece = [] ∧ endsWith isWhitespace piece = false ∨
        ∃ c, pieceSpace piece = [c] ∧ isWhitespace c = true ∧
          endsWith isWhitespace piece = true) := by
  obtain ⟨hne, hbefore⟩ := h
  have hpiece : piece = piece.dropLast ++ [piece.getLast hne] :=
    (List.dropLast_append_getLast hne).symm
  have hends : endsWith isWhitespace piece = isWhitespace (piece.getLast hne) := by
    rw [endsWith, List.getLast?_eq_some_getLast hne]
    rfl
  cases hlast : isWhitespace (piece.getLast hne) with
  | true =>
    have htoken : pieceToken piece = piece.dropLast := by
      rw [hpiece]
      refine (pieceToken_append hbefore ?_).trans (by simp)
      intro c hc
      rw [List.mem_singleton.mp hc]
      exact hlast
    have hspace : pieceSpace piece = [piece.getLast hne] := by
      rw [pieceSpace, htoken]
      conv_lhs => rw [hpiece]
      rw [List.dropLast_concat, List.drop_left]
    refine ⟨?_, ?_, .inr ⟨piece.getLast hne, hspace, hlast, hends.trans hlast⟩⟩
    · rw [htoken, hspace]
      exact hpiece
    · rw [htoken]
      exact hbefore
  | false =>
    have hall : ∀ c ∈ piece, isWhitespace c = false := by
      rw [hpiece]
      intro c hc
      obtain hc | hc := List.mem_append.mp hc
      · exact hbefore c hc
      · rw [List.mem_singleton.mp hc]
        exact hlast
    have htoken : pieceToken piece = piece := by
      have happend : pieceToken (piece ++ []) = piece :=
        pieceToken_append hall fun c hc => absurd hc List.not_mem_nil
      rwa [List.append_nil] at happend
    have hspace : pieceSpace piece = [] := by
      rw [pieceSpace, htoken, List.drop_length]
    refine ⟨?_, ?_, .inl ⟨hspace, hends.trans hlast⟩⟩
    · rw [htoken, hspace, List.append_nil]
    · rw [htoken]
      exact hall

/-! ## Parts -/

/-- A piece of a fragment, and whether `redact_text` recognizes its token there. -/
structure Part where
  recognized : Bool
  text : List Char
  deriving DecidableEq, Repr

namespace Part

variable (part : Part)

def token : List Char := pieceToken part.text

/-- Whether the part is the last one of its token. -/
def ends : Bool := endsWith isWhitespace part.text

/-- The token `redact_text` leaves. -/
def storedToken : List Char := if part.recognized then REDACTED.toList else part.token

/-- What `redact_text` leaves of the part. -/
def stored : List Char :=
  if part.recognized then REDACTED.toList ++ pieceSpace part.text else part.text

end Part

/-- The parts of the pieces of a fragment, where `redactNext` says whether the last token was
`bearer`. -/
def partsFrom (redactNext : Bool) : List (List Char) → List Part
  | [] => []
  | piece :: rest =>
    ⟨redactNext || looksLikeSecret (pieceToken piece), piece⟩ ::
      partsFrom (isBearer (pieceToken piece)) rest

/-- The parts of a fragment. -/
def partsOf (fragment : String) : List Part :=
  partsFrom false (splitInclusive isWhitespace fragment.toList)

/-- The parts of the fragments of a text, in order. -/
def fragmentParts (fragments : List String) : List Part := fragments.flatMap partsOf

/-- The parts of every token of a text in fragments. -/
def tokenParts (fragments : List String) : List (List Part) :=
  pieces Part.ends (fragmentParts fragments)

theorem texts_partsFrom (redactNext : Bool) (ps : List (List Char)) :
    (partsFrom redactNext ps).map (·.text) = ps := by
  induction ps generalizing redactNext with
  | nil => rfl
  | cons piece rest ih => rw [partsFrom, List.map_cons, ih]

theorem stored_partsFrom (redactNext : Bool) (ps : List (List Char)) :
    (partsFrom redactNext ps).flatMap Part.stored = redactPieces redactNext ps := by
  induction ps generalizing redactNext with
  | nil => rfl
  | cons piece rest ih =>
    rw [partsFrom, List.flatMap_cons, ih]
    rfl

theorem text_partsOf (fragment : String) :
    (partsOf fragment).flatMap Part.text = fragment.toList := by
  rw [List.flatMap_def, partsOf, texts_partsFrom, splitInclusive_eq_pieces, flatten_pieces]

/-- The redacted text is what is left of the parts. -/
theorem toList_redactText (fragment : String) :
    (redactText fragment).toList = (partsOf fragment).flatMap Part.stored := by
  rw [redactText, String.toList_ofList, partsOf, stored_partsFrom]

theorem toList_join (fragments : List String) :
    (String.join fragments).toList = (fragmentParts fragments).flatMap Part.text := by
  rw [String.toList_join, fragmentParts, List.flatMap_assoc]
  exact List.flatMap_congr fun fragment _ => (text_partsOf fragment).symm

theorem toList_join_redacted (fragments : List String) :
    (String.join (fragments.map redactText)).toList =
      (fragmentParts fragments).flatMap Part.stored := by
  rw [String.toList_join, List.flatMap_map, fragmentParts, List.flatMap_assoc]
  exact List.flatMap_congr fun fragment _ => toList_redactText fragment

theorem onePiece_of_partsOf {fragment : String} {part : Part} (h : part ∈ partsOf fragment) :
    OnePiece isWhitespace part.text := by
  have hmem : part.text ∈ (partsOf fragment).map (·.text) := List.mem_map_of_mem h
  rw [partsOf, texts_partsFrom, splitInclusive_eq_pieces] at hmem
  exact onePiece_of_mem hmem

theorem onePiece_of_fragmentParts {fragments : List String} {part : Part}
    (h : part ∈ fragmentParts fragments) : OnePiece isWhitespace part.text := by
  obtain ⟨fragment, -, hpart⟩ := List.mem_flatMap.mp h
  exact onePiece_of_partsOf hpart

theorem mark_not_whitespace : ∀ c ∈ REDACTED.toList, isWhitespace c = false := by
  have hall : REDACTED.toList.all (fun c => !isWhitespace c) = true := by decide
  intro c hc
  simpa using List.all_eq_true.mp hall c hc

/-- What is left of a part is one piece, which ends as the part does. -/
theorem Part.stored_piece {part : Part} (h : OnePiece isWhitespace part.text) :
    OnePiece isWhitespace part.stored ∧ endsWith isWhitespace part.stored = part.ends ∧
      part.stored = part.storedToken ++ pieceSpace part.text := by
  obtain ⟨htext, htoken, hspace⟩ := h.token
  unfold Part.stored Part.storedToken
  split
  · obtain ⟨hspace, hends⟩ | ⟨c, hspace, hc, hends⟩ := hspace
    · rw [hspace, List.append_nil]
      refine ⟨⟨by decide +kernel, fun c hc => mark_not_whitespace c (List.dropLast_subset _ hc)⟩, ?_, rfl⟩
      rw [Part.ends, hends]
      decide
    · rw [hspace]
      refine ⟨⟨by simp, ?_⟩, ?_, rfl⟩
      · rw [List.dropLast_concat]
        exact mark_not_whitespace
      · rw [Part.ends, hends, endsWith, List.getLast?_concat]
        exact hc
  · exact ⟨h, rfl, htext⟩

/-! ## The tokens of the stored text -/

/-- A list of parts all of which but the last go on. -/
theorem pieceToken_flatMap {parts : List Part} {f : Part → List Char} {token : Part → List Char}
    (hparts : OnePiece Part.ends parts)
    (hf : ∀ part ∈ parts, OnePiece isWhitespace (f part) ∧
      endsWith isWhitespace (f part) = part.ends ∧ pieceToken (f part) = token part) :
    pieceToken (parts.flatMap f) = parts.flatMap token := by
  obtain ⟨hne, hbefore⟩ := hparts
  obtain ⟨before, last, rfl⟩ : ∃ before last, parts = before ++ [last] :=
    ⟨parts.dropLast, parts.getLast hne, (List.dropLast_append_getLast hne).symm⟩
  rw [List.dropLast_concat] at hbefore
  have hgo : before.flatMap f = before.flatMap token := by
    refine List.flatMap_congr fun part hpart => ?_
    obtain ⟨hpiece, hends, htoken⟩ := hf part (List.mem_append_left _ hpart)
    obtain ⟨htext, -, ⟨hspace, -⟩ | ⟨c, -, -, hspace⟩⟩ := hpiece.token
    · rw [hspace, List.append_nil, htoken] at htext
      exact htext
    · rw [hends, hbefore part hpart] at hspace
      cases hspace
  have hclean : ∀ part ∈ before ++ [last], ∀ c ∈ token part, isWhitespace c = false := by
    intro part hpart
    obtain ⟨hpiece, -, htoken⟩ := hf part hpart
    rw [← htoken]
    exact hpiece.token.2.1
  obtain ⟨hpiece, -, htoken⟩ := hf last (by simp)
  obtain ⟨htext, -, hspace⟩ := hpiece.token
  rw [List.flatMap_append, List.flatMap_append, hgo, List.flatMap_singleton, List.flatMap_singleton,
    htext, htoken, ← List.append_assoc]
  refine pieceToken_append ?_ ?_
  · intro c hc
    obtain hc | hc := List.mem_append.mp hc
    · obtain ⟨part, hpart, hc⟩ := List.mem_flatMap.mp hc
      exact hclean part (List.mem_append_left _ hpart) c hc
    · exact hclean last (by simp) c hc
  · intro c hc
    obtain ⟨hspace, -⟩ | ⟨d, hspace, hd, -⟩ := hspace
    · rw [hspace] at hc
      cases hc
    · rw [hspace] at hc
      rw [List.mem_singleton.mp hc]
      exact hd

theorem tokens_flatMap {text : String} {parts : List Part} {f token : Part → List Char}
    (htext : text.toList = parts.flatMap f)
    (hf : ∀ part ∈ parts, OnePiece isWhitespace (f part) ∧
      endsWith isWhitespace (f part) = part.ends ∧ pieceToken (f part) = token part) :
    tokens text = (pieces Part.ends parts).map fun group => group.flatMap token := by
  rw [tokens, splitInclusive_eq_pieces, htext, pieces_flatMap fun part hpart => (hf part hpart).1,
    pieces_congr fun part hpart => (hf part hpart).2.1, List.map_map]
  refine List.map_congr_left fun group hgroup => ?_
  refine pieceToken_flatMap (onePiece_of_mem hgroup) fun part hpart => hf part ?_
  rw [← flatten_pieces Part.ends parts]
  exact List.mem_flatten.mpr ⟨group, hgroup, hpart⟩

theorem Part.text_piece {part : Part} (h : OnePiece isWhitespace part.text) :
    OnePiece isWhitespace part.text ∧ endsWith isWhitespace part.text = part.ends ∧
      pieceToken part.text = part.token := ⟨h, rfl, rfl⟩

theorem Part.stored_token {part : Part} (h : OnePiece isWhitespace part.text) :
    OnePiece isWhitespace part.stored ∧ endsWith isWhitespace part.stored = part.ends ∧
      pieceToken part.stored = part.storedToken := by
  obtain ⟨hpiece, hends, hstored⟩ := stored_piece h
  obtain ⟨-, htoken, hspace⟩ := h.token
  refine ⟨hpiece, hends, ?_⟩
  rw [hstored]
  refine pieceToken_append ?_ ?_
  · unfold Part.storedToken
    split
    · exact mark_not_whitespace
    · exact htoken
  · intro c hc
    obtain ⟨hspace, -⟩ | ⟨d, hspace, hd, -⟩ := hspace
    · rw [hspace] at hc
      cases hc
    · rw [hspace] at hc
      rw [List.mem_singleton.mp hc]
      exact hd

/-- The tokens of a text in fragments. -/
theorem tokens_join (fragments : List String) :
    tokens (String.join fragments) =
      (tokenParts fragments).map fun group => group.flatMap Part.token :=
  tokens_flatMap (toList_join fragments) fun _ hpart =>
    Part.text_piece (onePiece_of_fragmentParts hpart)

/-- The tokens of the fragments, each redacted alone. -/
theorem tokens_join_redacted (fragments : List String) :
    tokens (String.join (fragments.map redactText)) =
      (tokenParts fragments).map fun group => group.flatMap Part.storedToken :=
  tokens_flatMap (toList_join_redacted fragments) fun _ hpart =>
    Part.stored_token (onePiece_of_fragmentParts hpart)

/-- The parts of a text that is one fragment are its tokens. -/
theorem pieces_partsOf (text : String) :
    pieces Part.ends (partsOf text) = (partsOf text).map fun part => [part] := by
  refine pieces_of_dropLast fun part hpart => ?_
  have hmem : part.text ∈ ((partsOf text).map (·.text)).dropLast := by
    rw [← List.map_dropLast]
    exact List.mem_map_of_mem hpart
  rw [partsOf, texts_partsFrom, splitInclusive_eq_pieces] at hmem
  exact endsWith_of_mem_dropLast hmem

theorem tokens_partsOf (text : String) : tokens text = (partsOf text).map Part.token := by
  rw [tokens_flatMap (text_partsOf text).symm fun _ hpart =>
    Part.text_piece (onePiece_of_partsOf hpart), pieces_partsOf, List.map_map]
  refine List.map_congr_left fun part _ => ?_
  show List.flatMap Part.token [part] = _
  rw [List.flatMap_singleton]

theorem tokens_redactText (text : String) :
    tokens (redactText text) = (partsOf text).map Part.storedToken := by
  rw [tokens_flatMap (toList_redactText text) fun _ hpart =>
    Part.stored_token (onePiece_of_partsOf hpart), pieces_partsOf, List.map_map]
  refine List.map_congr_left fun part _ => ?_
  show List.flatMap Part.storedToken [part] = _
  rw [List.flatMap_singleton]

/-! ## Recognized tokens -/

/-- Behind a part that goes on, the next one starts its fragment, and is recognized by itself. -/
def Part.Follows (part next : Part) : Prop :=
  part.ends = true ∨ next.recognized = looksLikeSecret next.token

theorem chain_partsFrom {redactNext : Bool} {ps : List (List Char)}
    (h : ∀ piece ∈ ps.dropLast, endsWith isWhitespace piece = true) :
    (partsFrom redactNext ps).IsChain Part.Follows := by
  induction ps generalizing redactNext with
  | nil => exact .nil
  | cons piece rest ih =>
    cases rest with
    | nil => exact .singleton _
    | cons next rest =>
      refine List.isChain_cons_cons.mpr ⟨.inl (h piece List.mem_cons_self), ?_⟩
      exact ih fun p hp => h p (List.mem_cons_of_mem piece hp)

theorem chain_fragmentParts (fragments : List String) :
    (fragmentParts fragments).IsChain Part.Follows := by
  induction fragments with
  | nil => exact .nil
  | cons fragment rest ih =>
    refine List.isChain_append.mpr ⟨chain_partsFrom ?_, ih, ?_⟩
    · rw [splitInclusive_eq_pieces]
      exact fun piece hpiece => endsWith_of_mem_dropLast hpiece
    · intro part _ next hnext
      -- The first part of a fragment follows no `bearer`.
      have first : ∀ fs : List String, ∀ next ∈ (fragmentParts fs).head?,
          next.recognized = looksLikeSecret next.token := by
        intro fs
        induction fs with
        | nil => exact nofun
        | cons f fs ih =>
          intro next hnext
          rw [fragmentParts, List.flatMap_cons, partsOf] at hnext
          cases hps : splitInclusive isWhitespace f.toList with
          | nil =>
            rw [hps] at hnext
            exact ih next hnext
          | cons piece ps =>
            rw [hps] at hnext
            cases hnext
            rfl
      exact .inr (first rest next hnext)

/-- The parts of a token behind its first one are recognized by themselves. -/
theorem recognized_tail {first : Part} {rest : List Part}
    (hgroup : OnePiece Part.ends (first :: rest))
    (hchain : (first :: rest).IsChain Part.Follows) :
    ∀ part ∈ rest, part.recognized = looksLikeSecret part.token := by
  induction rest generalizing first with
  | nil => exact fun _ h => absurd h List.not_mem_nil
  | cons next rest ih =>
    obtain ⟨hfollows, hrest⟩ := List.isChain_cons_cons.mp hchain
    have hgo : first.ends = false := hgroup.2 first List.mem_cons_self
    have hgroup' : OnePiece Part.ends (next :: rest) :=
      ⟨List.cons_ne_nil next rest, fun part hpart =>
        hgroup.2 part (List.mem_cons_of_mem first hpart)⟩
    refine List.forall_mem_cons.mpr ⟨?_, ih hgroup' hrest⟩
    obtain hends | hnext := hfollows
    · rw [hgo] at hends
      cases hends
    · exact hnext

/-- A token that looks like a secret has a lower-case letter, which its mark has not. -/
theorem isLower_of_looksLikeSecret {token : List Char} (h : looksLikeSecret token = true) :
    ∃ c ∈ token, c.isLower = true := by
  have found : ∀ (pre cs found : List Char), findFrom pre cs = some found →
      ∀ c ∈ pre, c ∈ cs := by
    intro pre cs
    induction cs with
    | nil =>
      intro found hfound c hc
      cases pre with
      | nil => exact absurd hc List.not_mem_nil
      | cons => cases hfound
    | cons d cs ih =>
      intro found hfound c hc
      unfold findFrom at hfound
      split at hfound
      · rename_i hpre
        exact (List.isPrefixOf_iff_prefix.mp hpre).subset hc
      · exact List.mem_cons_of_mem d (ih found hfound c hc)
  obtain ⟨pre, hpre, hmatch⟩ := List.any_eq_true.mp h
  split at hmatch
  · rename_i text htext
    have hprefixes : SECRET_PREFIXES.all (fun pre => pre.toList.any Char.isLower) = true := by
      decide
    obtain ⟨c, hc, hlower⟩ := List.any_eq_true.mp (List.all_eq_true.mp hprefixes pre hpre)
    refine ⟨c, ?_, hlower⟩
    have hmem := found _ _ _ htext c hc
    have htrim := (List.rdropWhile_prefix isQuoteMark _).subset
      (show c ∈ List.rdropWhile isQuoteMark (token.dropWhile isQuoteMark) from hmem)
    exact (List.dropWhile_suffix isQuoteMark).subset htrim
  · cases hmatch

theorem storedToken_lower_le (part : Part) :
    part.storedToken.countP Char.isLower ≤ part.token.countP Char.isLower := by
  unfold Part.storedToken
  split
  · have : REDACTED.toList.countP Char.isLower = 0 := by decide
    rw [this]
    exact Nat.zero_le _
  · exact le_rfl

theorem storedToken_lower_lt {part : Part} (hrecognized : part.recognized = true)
    (h : looksLikeSecret part.token = true) :
    part.storedToken.countP Char.isLower < part.token.countP Char.isLower := by
  obtain ⟨c, hc, hlower⟩ := isLower_of_looksLikeSecret h
  have hmark : REDACTED.toList.countP Char.isLower = 0 := by decide
  rw [Part.storedToken, if_pos hrecognized, hmark]
  exact List.countP_pos_iff.mpr ⟨c, hc, hlower⟩

theorem lower_flatMap_le (parts : List Part) :
    (parts.flatMap Part.storedToken).countP Char.isLower ≤
      (parts.flatMap Part.token).countP Char.isLower := by
  induction parts with
  | nil => exact le_rfl
  | cons part rest ih =>
    rw [List.flatMap_cons, List.flatMap_cons, List.countP_append, List.countP_append]
    exact Nat.add_le_add (storedToken_lower_le part) ih

/-- **The parts of a token hide it** exactly if one of them is recognized, and is not the mark
itself. -/
theorem storedToken_ne_iff {group : List Part} (hgroup : OnePiece Part.ends group)
    (hchain : group.IsChain Part.Follows) :
    group.flatMap Part.storedToken ≠ group.flatMap Part.token ↔
      ∃ part ∈ group, part.recognized = true ∧ part.token ≠ REDACTED.toList := by
  constructor
  · intro hne
    by_contra hnone
    refine hne (List.flatMap_congr fun part hpart => ?_)
    unfold Part.storedToken
    split
    · rename_i hrecognized
      by_contra htoken
      exact hnone ⟨part, hpart, hrecognized, fun h => htoken h.symm⟩
    · rfl
  · rintro ⟨part, hpart, hrecognized, htoken⟩ heq
    by_cases hsecret : ∃ part ∈ group, part.recognized = true ∧ looksLikeSecret part.token = true
    · -- A part that looks like a secret takes its lower-case letters with it.
      obtain ⟨part, hpart, hrecognized, hsecret⟩ := hsecret
      obtain ⟨before, after, rfl⟩ := List.append_of_mem hpart
      have hcount := congrArg (List.countP Char.isLower) heq
      simp only [List.flatMap_append, List.flatMap_cons, List.countP_append] at hcount
      have hlt := storedToken_lower_lt hrecognized hsecret
      have hbefore := lower_flatMap_le before
      have hafter := lower_flatMap_le after
      omega
    · -- Otherwise the first part alone is recognized, for it follows `bearer`.
      obtain ⟨first, rest, rfl⟩ := List.exists_cons_of_ne_nil hgroup.1
      have hrest : ∀ part ∈ rest, part.recognized = false := by
        intro part hpart
        rw [recognized_tail hgroup hchain part hpart]
        rw [Bool.eq_false_iff]
        intro hlooks
        refine hsecret ⟨part, List.mem_cons_of_mem first hpart, ?_, hlooks⟩
        rw [recognized_tail hgroup hchain part hpart]
        exact hlooks
      have hkept : rest.flatMap Part.storedToken = rest.flatMap Part.token := by
        refine List.flatMap_congr fun part hpart => ?_
        rw [Part.storedToken, hrest part hpart, if_neg Bool.false_ne_true]
      obtain rfl | hpart := List.mem_cons.mp hpart
      · rw [List.flatMap_cons, List.flatMap_cons, hkept, List.append_cancel_right_eq,
          Part.storedToken, if_pos hrecognized] at heq
        exact htoken heq.symm
      · rw [hrest part hpart] at hrecognized
        cases hrecognized

/-! ## What the stored text hides -/

/-- A token that `redact_text` of the whole text replaces by another text. -/
def Replaced (text : String) (k : Nat) : Prop :=
  (tokens text)[k]? ≠ some [] ∧ (tokens (redactText text))[k]? ≠ (tokens text)[k]?

/-- No token that `redact_text` of the whole text replaces is left in what was stored for it. -/
def Hides (text stored : String) : Prop :=
  ∀ k, Replaced text k → (tokens stored)[k]? ≠ (tokens text)[k]?

/-- One of the parts the fragments make of a token is recognized in its own fragment: it looks like
a secret or follows `bearer` there, and it is not the mark itself. -/
def RecognizedInPart (fragments : List String) (k : Nat) : Prop :=
  ∃ group, (tokenParts fragments)[k]? = some group ∧
    ∃ part ∈ group, part.recognized = true ∧ part.token ≠ REDACTED.toList

/-- **What redaction in fragments hides.** -/
theorem hides_iff (fragments : List String) :
    Hides (String.join fragments) (String.join (fragments.map redactText)) ↔
      ∀ k, Replaced (String.join fragments) k → RecognizedInPart fragments k := by
  refine forall_congr' fun k => imp_congr_right fun hreplaced => ?_
  have hgroup : ∃ group, (tokenParts fragments)[k]? = some group := by
    refine Option.isSome_iff_exists.mp ?_
    by_contra hnone
    rw [Option.not_isSome_iff_eq_none] at hnone
    refine hreplaced.2 ?_
    have htoken : (tokens (String.join fragments))[k]? = none := by
      rw [tokens_join, List.getElem?_map, hnone]
      rfl
    rw [htoken, tokens_redactText, List.getElem?_map]
    rw [tokens_partsOf, List.getElem?_map, Option.map_eq_none_iff] at htoken
    rw [htoken]
    rfl
  obtain ⟨group, hget⟩ := hgroup
  have hmem : group ∈ tokenParts fragments := List.mem_of_getElem? hget
  have hchain : group.IsChain Part.Follows := by
    obtain ⟨before, after, hparts⟩ := List.infix_of_mem_flatten hmem
    have hall := chain_fragmentParts fragments
    rw [tokenParts, flatten_pieces] at hparts
    rw [← hparts] at hall
    exact hall.left_of_append.right_of_append
  rw [tokens_join_redacted, tokens_join, List.getElem?_map, List.getElem?_map, hget,
    Option.map_some, Option.map_some, ne_eq, Option.some_inj,
    ← ne_eq, storedToken_ne_iff (onePiece_of_mem hmem) hchain]
  constructor
  · exact fun h => ⟨group, hget, h⟩
  · rintro ⟨group', hget', h⟩
    rw [← Option.some.inj (hget.symm.trans hget')] at h
    exact h

end AxiomDesktop
