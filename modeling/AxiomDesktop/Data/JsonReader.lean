import AxiomDesktop.Data.Json
import Mathlib.Data.List.TakeDrop
import Mathlib.Tactic.Common

/-!
# Reading JSON

A reader of JSON text (`Json.ofText`): RFC 8259, as `serde_json` reads it, with the literals of its
numbers kept and the fields of an object as they are written, also two of one key. What
`Json.toText` writes is read back (`ofText_toText`), where every number of the value is one.
-/

namespace AxiomDesktop.Json

/-! ## The reader -/

def isSpace (c : Char) : Bool := c = ' ' || c = '\n' || c = '\r' || c = '\t'

def skipSpace (cs : List Char) : List Char := cs.dropWhile isSpace

/-- At least one digit. -/
def readDigits (cs : List Char) : Option (List Char × List Char) :=
  if cs.takeWhile Char.isDigit = [] then none
  else some (cs.takeWhile Char.isDigit, cs.dropWhile Char.isDigit)

def readInteger : List Char → Option (List Char × List Char)
  | '0' :: rest => some (['0'], rest)
  | cs => readDigits cs

def readFraction : List Char → Option (List Char × List Char)
  | '.' :: rest => (readDigits rest).map fun (digits, rest) => ('.' :: digits, rest)
  | cs => some ([], cs)

def readSign : List Char → List Char × List Char
  | '-' :: rest => (['-'], rest)
  | '+' :: rest => (['+'], rest)
  | cs => ([], cs)

def readExponent : List Char → Option (List Char × List Char)
  | c :: rest =>
    if c = 'e' ∨ c = 'E' then
      (readDigits (readSign rest).2).map fun (digits, rest') =>
        (c :: (readSign rest).1 ++ digits, rest')
    else some ([], c :: rest)
  | [] => some ([], [])

def readMinus : List Char → List Char × List Char
  | '-' :: rest => (['-'], rest)
  | cs => ([], cs)

/-- A number's literal and what follows it. -/
def readNumber (cs : List Char) : Option (List Char × List Char) := do
  let (integer, rest) ← readInteger (readMinus cs).2
  let (fraction, rest) ← readFraction rest
  let (exponent, rest) ← readExponent rest
  return ((readMinus cs).1 ++ integer ++ fraction ++ exponent, rest)

/-- The character that an escape of one letter stands for. -/
def unescape (c : Char) : Option Char :=
  if c = '"' ∨ c = '\\' ∨ c = '/' then some c
  else if c = 'n' then some '\n'
  else if c = 'r' then some '\r'
  else if c = 't' then some '\t'
  else if c = 'b' then some (Char.ofNat 8)
  else if c = 'f' then some (Char.ofNat 12)
  else none

/-- The value of a hexadecimal digit. -/
def hexDigit? (c : Char) : Option Nat :=
  if c.toNat < 128 then Text.hexValue? (UInt8.ofNat c.toNat) else none

/-- The value of hexadecimal digits. -/
def codeUnit (digits : List Char) : Option Nat :=
  digits.foldlM (fun n c => (hexDigit? c).map (n * 16 + ·)) 0

/-- The character of an escape, behind its backslash, and what follows it. -/
def readEscape : List Char → Option (Char × List Char)
  | 'u' :: a :: b :: c :: d :: rest =>
    match codeUnit [a, b, c, d] with
    | none => none
    | some high =>
      if high < 0xd800 ∨ 0xdfff < high then some (Char.ofNat high, rest)
      else
        match rest with
        | '\\' :: 'u' :: a :: b :: c :: d :: rest =>
          match codeUnit [a, b, c, d] with
          | none => none
          | some low =>
            if high ≤ 0xdbff ∧ 0xdc00 ≤ low ∧ low ≤ 0xdfff then
              some (Char.ofNat (0x10000 + (high - 0xd800) * 0x400 + (low - 0xdc00)), rest)
            else none
        | _ => none
  | e :: rest => (unescape e).map fun c => (c, rest)
  | [] => none

/-- The rest of a string, behind its opening quotation mark. Every character takes one from the
fuel. -/
def readChars : Nat → List Char → Option (List Char × List Char)
  | 0, _ => none
  | _ + 1, [] => none
  | fuel + 1, c :: cs =>
    if c = '"' then some ([], cs)
    else if c = '\\' then
      match readEscape cs with
      | none => none
      | some (c, cs) => (readChars fuel cs).map fun (read, rest) => (c :: read, rest)
    else if c.toNat < 32 then none
    else (readChars fuel cs).map fun (read, rest) => (c :: read, rest)

def readString (cs : List Char) : Option (List Char × List Char) := readChars cs.length cs

mutual

/-- A value and what follows it. Every level of the text takes one from the fuel. -/
def readValue : Nat → List Char → Option (Json × List Char)
  | 0, _ => none
  | fuel + 1, cs =>
    match skipSpace cs with
    | '"' :: rest => (readString rest).map fun (s, rest) => (str (String.ofList s), rest)
    | '[' :: rest =>
      match skipSpace rest with
      | ']' :: rest => some (arr [], rest)
      | rest => (readValues fuel rest).map fun (values, rest) => (arr values, rest)
    | '\x7b' :: rest =>
      match skipSpace rest with
      | '\x7d' :: rest => some (obj [], rest)
      | rest => (readFields fuel rest).map fun (fields, rest) => (obj fields, rest)
    | 'n' :: 'u' :: 'l' :: 'l' :: rest => some (null, rest)
    | 't' :: 'r' :: 'u' :: 'e' :: rest => some (bool true, rest)
    | 'f' :: 'a' :: 'l' :: 's' :: 'e' :: rest => some (bool false, rest)
    | rest => (readNumber rest).map fun (literal, rest) => (num (String.ofList literal), rest)

/-- The values of an array, at least one, and its closing bracket. -/
def readValues : Nat → List Char → Option (List Json × List Char)
  | 0, _ => none
  | fuel + 1, cs =>
    match readValue fuel cs with
    | none => none
    | some (value, rest) =>
      match skipSpace rest with
      | ',' :: rest => (readValues fuel rest).map fun (values, rest) => (value :: values, rest)
      | ']' :: rest => some ([value], rest)
      | _ => none

/-- The fields of an object, at least one, and its closing brace. -/
def readFields : Nat → List Char → Option (List (String × Json) × List Char)
  | 0, _ => none
  | fuel + 1, cs =>
    match skipSpace cs with
    | '"' :: rest =>
      match readString rest with
      | none => none
      | some (key, rest) =>
        match skipSpace rest with
        | ':' :: rest =>
          match readValue fuel rest with
          | none => none
          | some (value, rest) =>
            match skipSpace rest with
            | ',' :: rest =>
              (readFields fuel rest).map fun (fields, rest) =>
                ((String.ofList key, value) :: fields, rest)
            | '\x7d' :: rest => some ([(String.ofList key, value)], rest)
            | _ => none
        | _ => none
    | _ => none

end

/-- The value of a text. -/
def ofText (text : String) : Option Json :=
  match readValue text.toList.length text.toList with
  | some (value, rest) => if skipSpace rest = [] then some value else none
  | none => none

example : ofText " [1, -0.5e+3, \"a\\u00e9\\n\", \x7b\"k\":null\x7d] " =
    some (arr [num "1", num "-0.5e+3", str "aé\n", obj [("k", null)]]) := by
  decide +kernel

/-! ## Strings are read back -/

theorem hex_control : ∀ n < 32, (Text.hex 4 n).toList =
    ['0', '0', Nat.digitChar (n / 16), Nat.digitChar (n % 16)] ∧
      codeUnit ['0', '0', Nat.digitChar (n / 16), Nat.digitChar (n % 16)] = some n := by
  decide +kernel

/-- **How a character is written**: as it is, by an escape of one letter, or by its code. -/
theorem escape_cases (c : Char) :
    (c ≠ '"' ∧ c ≠ '\\' ∧ ¬ c.toNat < 32 ∧ (escape c).toList = [c]) ∨
    (∃ e, e ≠ 'u' ∧ unescape e = some c ∧ (escape c).toList = ['\\', e]) ∨
    ∃ a b, codeUnit ['0', '0', a, b] = some c.toNat ∧ c.toNat < 32 ∧
      (escape c).toList = ['\\', 'u', '0', '0', a, b] := by
  have hcode (n : Nat) (h : c.toNat = n) : c = Char.ofNat n := by rw [← h, Char.ofNat_toNat]
  unfold escape
  split_ifs with hquote hslash hn hr ht hb hf hcontrol
  · exact .inr (.inl ⟨'"', by decide, by rw [hquote]; rfl, rfl⟩)
  · exact .inr (.inl ⟨'\\', by decide, by rw [hslash]; rfl, rfl⟩)
  · exact .inr (.inl ⟨'n', by decide, by rw [hn]; rfl, rfl⟩)
  · exact .inr (.inl ⟨'r', by decide, by rw [hr]; rfl, rfl⟩)
  · exact .inr (.inl ⟨'t', by decide, by rw [ht]; rfl, rfl⟩)
  · exact .inr (.inl ⟨'b', by decide, by rw [hcode 8 hb]; rfl, rfl⟩)
  · exact .inr (.inl ⟨'f', by decide, by rw [hcode 12 hf]; rfl, rfl⟩)
  · obtain ⟨htext, hunit⟩ := hex_control c.toNat hcontrol
    exact .inr (.inr ⟨_, _, hunit, hcontrol, by rw [String.toList_append, htext]; rfl⟩)
  · exact .inl ⟨hquote, hslash, hcontrol, String.toList_singleton _⟩

/-- An escape of one letter. -/
theorem readEscape_letter {e : Char} (h : e ≠ 'u') (cs : List Char) :
    readEscape (e :: cs) = (unescape e).map fun c => (c, cs) := by
  unfold readEscape
  split
  · next heq => exact absurd (List.cons.inj heq).1 h
  · next heq =>
    cases heq
    rfl
  · next heq => cases heq

/-- A character is read back. -/
theorem readChars_escape (fuel : Nat) (c : Char) (cs : List Char) :
    readChars (fuel + 1) ((escape c).toList ++ cs) =
      (readChars fuel cs).map fun (read, rest) => (c :: read, rest) := by
  rcases escape_cases c with ⟨hquote, hslash, hcontrol, h⟩ | ⟨e, he, hc, h⟩ | ⟨a, b, hunit, hc, h⟩
  · rw [h, List.singleton_append, readChars, if_neg hquote, if_neg hslash, if_neg hcontrol]
  · show readChars (fuel + 1) ((escape c).toList ++ cs) = _
    rw [h, List.cons_append, List.singleton_append, readChars, if_neg (by decide), if_pos rfl,
      readEscape_letter he, hc]
    rfl
  · have hread : readEscape (['u', '0', '0', a, b] ++ cs) = some (c, cs) := by
      have hbelow : c.toNat < 0xd800 := by omega
      simp [readEscape, hunit, hbelow]
    rw [h, List.cons_append, readChars, if_neg (by decide), if_pos rfl, hread]

/-- A string is read back, behind its opening quotation mark. -/
theorem readChars_escaped {fuel : Nat} (cs rest : List Char) (h : cs.length < fuel) :
    readChars fuel (cs.flatMap (fun c => (escape c).toList) ++ '"' :: rest) = some (cs, rest) := by
  induction cs generalizing fuel with
  | nil =>
    obtain ⟨fuel, rfl⟩ := Nat.exists_eq_add_of_lt h
    rfl
  | cons c cs ih =>
    cases fuel with
    | zero => omega
    | succ fuel =>
      rw [List.flatMap_cons, List.append_assoc, readChars_escape,
        ih (by simpa using h)]
      rfl

theorem toList_quote (s : String) :
    (quote s).toList = '"' :: (s.toList.flatMap (fun c => (escape c).toList) ++ ['"']) := by
  simp [quote, String.toList_append, String.toList_join, List.flatMap_map]

/-! ## Numbers are read back -/

/-- No character that a number goes on with. -/
def Follows (rest : List Char) : Prop :=
  ∀ c ∈ rest.head?, ¬ c.isDigit ∧ c ≠ '.' ∧ c ≠ 'e' ∧ c ≠ 'E'

/-- A literal is read as a number, and a number goes no further than its end. -/
def IsNumber (literal : String) : Prop :=
  ∀ rest, Follows rest → readNumber (literal.toList ++ rest) = some (literal.toList, rest)

theorem readDigits_append {digits rest : List Char} (hne : digits ≠ [])
    (hdigits : ∀ c ∈ digits, c.isDigit) (hrest : Follows rest) :
    readDigits (digits ++ rest) = some (digits, rest) := by
  have hstop : rest.takeWhile Char.isDigit = [] ∧ rest.dropWhile Char.isDigit = rest := by
    cases rest with
    | nil => exact ⟨rfl, rfl⟩
    | cons c rest =>
      have hc := (hrest c rfl).1
      exact ⟨List.takeWhile_cons_of_neg hc, List.dropWhile_cons_of_neg hc⟩
  rw [readDigits, List.takeWhile_append_of_pos hdigits, List.dropWhile_append_of_pos hdigits,
    hstop.1, hstop.2, List.append_nil, if_neg hne]

/-- The digits of a natural number begin with no zero, but for those of zero. -/
theorem toDigits_head {n : Nat} (h : 0 < n) : (Nat.toDigits 10 n).head? ≠ some '0' := by
  induction n using Nat.strongRecOn with
  | ind n ih =>
    by_cases hsmall : n < 10
    · rw [Nat.toDigits_of_lt_base hsmall]
      revert h
      have : ∀ n < 10, 0 < n → [n.digitChar].head? ≠ some '0' := by decide
      exact this n hsmall
    · have hten : 10 ≤ n := by omega
      rw [Nat.toDigits_of_base_le (by omega) hten]
      have := ih (n / 10) (by omega) (by omega)
      obtain ⟨c, cs, hcs⟩ := List.exists_cons_of_ne_nil (@Nat.toDigits_ne_nil (n / 10) 10)
      rw [hcs] at this ⊢
      exact this

/-- Where a digit is first, there is no minus. -/
theorem readMinus_digit {cs : List Char} (h : ∀ c ∈ cs.head?, c.isDigit) :
    readMinus cs = ([], cs) := by
  unfold readMinus
  split
  · next rest => exact absurd (h '-' rfl) (by decide)
  · rfl

theorem readFraction_follows {rest : List Char} (h : Follows rest) :
    readFraction rest = some ([], rest) := by
  unfold readFraction
  split
  · next rest => exact absurd rfl (h '.' rfl).2.1
  · rfl

theorem readExponent_follows {rest : List Char} (h : Follows rest) :
    readExponent rest = some ([], rest) := by
  cases rest with
  | nil => rfl
  | cons c rest =>
    obtain ⟨-, -, he, hE⟩ := h c rfl
    rw [readExponent, if_neg (by simp [he, hE])]

/-- **The digits of a natural number are a number.** -/
theorem isNumber_toString (n : Nat) : IsNumber (toString n) := by
  intro rest hrest
  have hdigits : ∀ c ∈ Nat.toDigits 10 n, c.isDigit := fun c hc =>
    Nat.isDigit_of_mem_toDigits (by omega) (by omega) hc
  obtain ⟨c, cs, hcs⟩ := List.exists_cons_of_ne_nil (@Nat.toDigits_ne_nil n 10)
  have hinteger : readInteger (Nat.toDigits 10 n ++ rest) = some (Nat.toDigits 10 n, rest) := by
    by_cases hn : n = 0
    · subst hn
      rfl
    · have hread := readDigits_append Nat.toDigits_ne_nil hdigits hrest
      have hhead : c ≠ '0' := fun hc =>
        toDigits_head (Nat.pos_of_ne_zero hn) (by rw [hcs, hc]; rfl)
      rw [hcs] at hread ⊢
      unfold readInteger
      split
      · next heq => exact absurd (List.cons.inj heq).1 hhead
      · exact hread
  have hminus : readMinus (Nat.toDigits 10 n ++ rest) = ([], Nat.toDigits 10 n ++ rest) := by
    rw [hcs] at hdigits ⊢
    refine readMinus_digit fun d hd => hdigits d ?_
    rw [← Option.some.inj hd]
    exact List.mem_cons_self
  rw [Nat.toString_eq_ofList_toDigits, String.toList_ofList, readNumber, hminus, hinteger]
  simp [readFraction_follows hrest, readExponent_follows hrest]

/-! ## Values are read back -/

mutual

/-- Every number of a value is one. -/
def Numbers : Json → Prop
  | num literal => IsNumber literal
  | arr values => NumbersIn values
  | obj fields => NumbersInFields fields
  | _ => True

def NumbersIn : List Json → Prop
  | [] => True
  | value :: values => Numbers value ∧ NumbersIn values

def NumbersInFields : List (String × Json) → Prop
  | [] => True
  | (_, value) :: fields => Numbers value ∧ NumbersInFields fields

end

/-- A value is not read where there is a space or the end of an array. -/
def Begins (cs : List Char) : Prop :=
  ∃ c rest, cs = c :: rest ∧ isSpace c = false ∧ c ≠ ']' ∧ c ≠ '\x7d'

theorem skipSpace_cons {c : Char} (h : isSpace c = false) (cs : List Char) :
    skipSpace (c :: cs) = c :: cs := List.dropWhile_cons_of_neg (by simp [h])

/-- A number begins with its minus or a digit. -/
theorem IsNumber.head {literal : String} (h : IsNumber literal) :
    ∃ c rest, literal.toList = c :: rest ∧ (c = '-' ∨ c.isDigit) := by
  have hread := h [] fun _ hc => by cases hc
  rw [List.append_nil] at hread
  cases hcs : literal.toList with
  | nil =>
    rw [hcs] at hread
    cases hread
  | cons c rest =>
    refine ⟨c, rest, rfl, or_iff_not_imp_left.mpr fun hminus => ?_⟩
    by_contra hdigit
    have hplain : readMinus (c :: rest) = ([], c :: rest) := by
      unfold readMinus
      split
      · next heq => exact absurd (List.cons.inj heq).1 hminus
      · rfl
    have hnone : readInteger (c :: rest) = none := by
      unfold readInteger
      split
      · next heq => exact absurd ((List.cons.inj heq).1 ▸ rfl) hdigit
      · rw [readDigits, if_pos (List.takeWhile_cons_of_neg hdigit)]
    rw [hcs, readNumber, hplain, hnone] at hread
    cases hread

/-- What begins like a number is read as one. -/
theorem readValue_number {c : Char} (h : c = '-' ∨ c.isDigit) (fuel : Nat) (cs : List Char) :
    readValue (fuel + 1) (c :: cs) =
      (readNumber (c :: cs)).map fun (literal, rest) => (num (String.ofList literal), rest) := by
  have hspace : isSpace c = false := by
    rcases h with rfl | h
    · rfl
    · refine Bool.eq_false_iff.mpr fun hs => ?_
      simp only [isSpace, Bool.or_eq_true, decide_eq_true_eq] at hs
      rcases hs with ((rfl | rfl) | rfl) | rfl <;> revert h <;> decide
  have hhead (d : Char) (hd : ¬ (d = '-' ∨ d.isDigit)) {rest : List Char}
      (heq : c :: cs = d :: rest) : False := hd ((List.cons.inj heq).1 ▸ h)
  rw [readValue, skipSpace_cons hspace]
  split
  · next heq => exact (hhead _ (by decide) heq).elim
  · next heq => exact (hhead _ (by decide) heq).elim
  · next heq => exact (hhead _ (by decide) heq).elim
  · next heq => exact (hhead _ (by decide) heq).elim
  · next heq => exact (hhead _ (by decide) heq).elim
  · next heq => exact (hhead _ (by decide) heq).elim
  · rfl

theorem toList_arr (values : List Json) : (arr values).toText.toList =
    '[' :: ((",".intercalate (toTexts values)).toList ++ [']']) := by
  simp [toText, String.toList_append]

theorem toList_obj (fields : List (String × Json)) : (obj fields).toText.toList =
    '\x7b' :: ((",".intercalate (fieldTexts fields)).toList ++ ['\x7d']) := by
  simp [toText, String.toList_append]

theorem begins_toText {v : Json} (h : Numbers v) (rest : List Char) :
    Begins (v.toText.toList ++ rest) := by
  cases v with
  | null => exact ⟨'n', _, rfl, by decide⟩
  | bool b => cases b <;> exact ⟨_, _, rfl, by decide⟩
  | num literal =>
    obtain ⟨c, cs, hcs, hc⟩ := IsNumber.head h
    refine ⟨c, cs ++ rest, by rw [toText, hcs]; rfl, ?_⟩
    rcases hc with rfl | hc
    · decide
    · refine ⟨Bool.eq_false_iff.mpr fun hs => ?_, fun heq => ?_, fun heq => ?_⟩
      · simp only [isSpace, Bool.or_eq_true, decide_eq_true_eq] at hs
        rcases hs with ((rfl | rfl) | rfl) | rfl <;> revert hc <;> decide
      · subst heq
        revert hc
        decide
      · subst heq
        revert hc
        decide
  | str s => exact ⟨'"', _, by rw [toText, toList_quote]; rfl, by decide⟩
  | arr values => exact ⟨'[', _, by rw [toList_arr]; rfl, by decide⟩
  | obj fields => exact ⟨'\x7b', _, by rw [toList_obj]; rfl, by decide⟩

theorem length_le_escaped (cs : List Char) :
    cs.length ≤ (cs.flatMap fun c => (escape c).toList).length := by
  induction cs with
  | nil => exact Nat.le_refl _
  | cons c cs ih =>
    have hpos : 0 < (escape c).toList.length := by
      rcases escape_cases c with ⟨-, -, -, h⟩ | ⟨e, -, -, h⟩ | ⟨a, b, -, -, h⟩ <;> rw [h] <;>
        exact Nat.succ_pos _
    rw [List.flatMap_cons, List.length_append, List.length_cons]
    omega

/-- A string is read back. -/
theorem readString_quote (s : String) (rest : List Char) :
    ∃ text, (quote s).toList ++ rest = '"' :: text ∧ readString text = some (s.toList, rest) := by
  refine ⟨s.toList.flatMap (fun c => (escape c).toList) ++ '"' :: rest, by simp [toList_quote],
    readChars_escaped _ _ ?_⟩
  have hle := length_le_escaped s.toList
  rw [List.length_append, List.length_cons]
  omega

/-- An array that has values is read by them. -/
theorem readValue_array {cs : List Char} (h : Begins cs) (fuel : Nat) :
    readValue (fuel + 1) ('[' :: cs) =
      (readValues fuel cs).map fun (values, rest) => (arr values, rest) := by
  obtain ⟨c, rest, rfl, hspace, hclose, -⟩ := h
  rw [readValue, skipSpace_cons (by decide)]
  simp only [skipSpace_cons hspace]
  split
  · next heq => exact absurd (List.cons.inj heq).1 hclose
  · rfl

/-- An object that has fields is read by them. -/
theorem readValue_object {cs : List Char} (h : Begins cs) (fuel : Nat) :
    readValue (fuel + 1) ('\x7b' :: cs) =
      (readFields fuel cs).map fun (fields, rest) => (obj fields, rest) := by
  obtain ⟨c, rest, rfl, hspace, -, hclose⟩ := h
  rw [readValue, skipSpace_cons (by decide)]
  simp only [skipSpace_cons hspace]
  split
  · next heq => exact absurd (List.cons.inj heq).1 hclose
  · rfl

theorem begins_toTexts {v : Json} {vs : List Json} (h : NumbersIn (v :: vs)) (rest : List Char) :
    Begins ((",".intercalate (toTexts (v :: vs))).toList ++ rest) := by
  cases vs with
  | nil =>
    rw [toTexts, toTexts, String.intercalate_singleton]
    exact begins_toText h.1 rest
  | cons w vs =>
    rw [toTexts, toTexts, String.intercalate_cons_cons, String.toList_append,
      String.toList_append, List.append_assoc, List.append_assoc]
    exact begins_toText h.1 _

theorem begins_fieldTexts (key : String) (v : Json) (fields : List (String × Json))
    (rest : List Char) :
    Begins ((",".intercalate (fieldTexts ((key, v) :: fields))).toList ++ rest) := by
  have hquote : ∃ text, (",".intercalate (fieldTexts ((key, v) :: fields))).toList =
      '"' :: text := by
    cases fields with
    | nil =>
      rw [fieldTexts, fieldTexts, String.intercalate_singleton, String.toList_append,
        String.toList_append, toList_quote]
      exact ⟨_, rfl⟩
    | cons field fields =>
      rw [fieldTexts, fieldTexts, String.intercalate_cons_cons]
      simp only [String.toList_append, toList_quote]
      exact ⟨_, rfl⟩
  obtain ⟨text, htext⟩ := hquote
  exact ⟨'"', _, by rw [htext]; rfl, by decide⟩

/-- A field is read back, before what follows it. -/
theorem readFields_field {key : String} {v : Json} {fuel : Nat} {tail : List Char}
    (h : readValue fuel (v.toText.toList ++ tail) = some (v, tail)) :
    readFields (fuel + 1) ((quote key ++ ":" ++ v.toText).toList ++ tail) =
      match skipSpace tail with
      | ',' :: rest =>
        (readFields fuel rest).map fun (fields, rest) => ((key, v) :: fields, rest)
      | '\x7d' :: rest => some ([(key, v)], rest)
      | _ => none := by
  obtain ⟨text, htext, hread⟩ := readString_quote key (':' :: (v.toText.toList ++ tail))
  have happend : (quote key ++ ":" ++ v.toText).toList ++ tail = '"' :: text := by
    rw [← htext]
    simp [String.toList_append]
  rw [happend, readFields, skipSpace_cons (by decide)]
  simp only [hread, skipSpace_cons (show isSpace ':' = false from rfl), h, String.ofList_toList]

/-- What separates values is nothing that a number goes on with. -/
theorem follows_cons {c : Char} (h : c = ',' ∨ c = ']' ∨ c = '\x7d') (rest : List Char) :
    Follows (c :: rest) := by
  rintro d ⟨⟩
  rcases h with rfl | rfl | rfl <;> decide

mutual

/-- **What is written is read back**, before what a number does not go on with. -/
theorem readValue_toText : (v : Json) → (fuel : Nat) → ∀ rest, Numbers v → Follows rest →
    v.toText.length ≤ fuel → readValue fuel (v.toText.toList ++ rest) = some (v, rest)
  | v, 0 => fun rest h _ hfuel => by
    obtain ⟨c, cs, hcs, -⟩ := begins_toText h []
    rw [List.append_nil] at hcs
    rw [← String.length_toList, hcs] at hfuel
    cases hfuel
  | null, fuel + 1 => fun rest _ _ _ => rfl
  | bool true, fuel + 1 => fun rest _ _ _ => rfl
  | bool false, fuel + 1 => fun rest _ _ _ => rfl
  | num literal, fuel + 1 => fun rest h hrest _ => by
    obtain ⟨c, cs, hcs, hc⟩ := IsNumber.head h
    have hread := h rest hrest
    rw [toText]
    rw [hcs] at hread ⊢
    rw [List.cons_append] at hread ⊢
    rw [readValue_number hc, hread, ← hcs]
    simp
  | str s, fuel + 1 => fun rest _ _ _ => by
    obtain ⟨text, htext, hread⟩ := readString_quote s rest
    rw [toText, htext, readValue, skipSpace_cons (by decide)]
    simp only [hread, Option.map_some, String.ofList_toList]
  | arr [], fuel + 1 => fun rest _ _ _ => rfl
  | arr (v :: vs), fuel + 1 => fun rest h _ hfuel => by
    have hread := readValues_toTexts v vs fuel rest h (by
      rw [← String.length_toList, toList_arr, List.length_cons, List.length_append,
        String.length_toList] at hfuel
      exact Nat.lt_of_succ_le (Nat.le_of_succ_le_succ hfuel))
    rw [toList_arr, List.cons_append, List.append_assoc, List.singleton_append,
      readValue_array (begins_toTexts h _), hread]
    rfl
  | obj [], fuel + 1 => fun rest _ _ _ => rfl
  | obj ((key, v) :: fields), fuel + 1 => fun rest h _ hfuel => by
    have hread := readFields_fieldTexts key v fields fuel rest h (by
      rw [← String.length_toList, toList_obj, List.length_cons, List.length_append,
        String.length_toList] at hfuel
      exact Nat.lt_of_succ_le (Nat.le_of_succ_le_succ hfuel))
    rw [toList_obj, List.cons_append, List.append_assoc, List.singleton_append,
      readValue_object (begins_fieldTexts key v fields _), hread]
    rfl
termination_by structural _ fuel => fuel

theorem readValues_toTexts : (v : Json) → (vs : List Json) → (fuel : Nat) → ∀ rest,
    NumbersIn (v :: vs) → (",".intercalate (toTexts (v :: vs))).length < fuel →
    readValues fuel ((",".intercalate (toTexts (v :: vs))).toList ++ ']' :: rest) =
      some (v :: vs, rest)
  | _, _, 0 => fun _ _ hfuel => by cases hfuel
  | v, [], fuel + 1 => fun rest h hfuel => by
    have hread := readValue_toText v fuel (']' :: rest) h.1 (follows_cons (by decide) _)
      (by simpa [toTexts] using Nat.lt_succ_iff.mp hfuel)
    rw [toTexts, toTexts, String.intercalate_singleton, readValues]
    simp only [hread, skipSpace_cons (show isSpace ']' = false from rfl)]
  | v, w :: vs, fuel + 1 => fun rest h hfuel => by
    have htext : ",".intercalate (toTexts (v :: w :: vs)) =
        v.toText ++ "," ++ ",".intercalate (toTexts (w :: vs)) := by
      rw [toTexts, toTexts, String.intercalate_cons_cons]
    rw [htext, String.length_append, String.length_append] at hfuel
    have hcomma : ",".length = 1 := rfl
    have hread := readValue_toText v fuel
      (',' :: ((",".intercalate (toTexts (w :: vs))).toList ++ ']' :: rest)) h.1
      (follows_cons (by decide) _) (by omega)
    have hrest := readValues_toTexts w vs fuel rest h.2 (by omega)
    have happend : (v.toText ++ "," ++ ",".intercalate (toTexts (w :: vs))).toList ++ ']' :: rest =
        v.toText.toList ++
          ',' :: ((",".intercalate (toTexts (w :: vs))).toList ++ ']' :: rest) := by
      simp [String.toList_append]
    rw [htext, happend, readValues]
    simp only [hread, skipSpace_cons (show isSpace ',' = false from rfl), hrest, Option.map_some]
termination_by structural _ _ fuel => fuel

theorem readFields_fieldTexts : (key : String) → (v : Json) → (fields : List (String × Json)) →
    (fuel : Nat) → ∀ rest, NumbersInFields ((key, v) :: fields) →
    (",".intercalate (fieldTexts ((key, v) :: fields))).length < fuel →
    readFields fuel ((",".intercalate (fieldTexts ((key, v) :: fields))).toList ++ '\x7d' :: rest) =
      some ((key, v) :: fields, rest)
  | _, _, _, 0 => fun _ _ hfuel => by cases hfuel
  | key, v, [], fuel + 1 => fun rest h hfuel => by
    rw [fieldTexts, fieldTexts, String.intercalate_singleton] at hfuel ⊢
    rw [String.length_append, String.length_append] at hfuel
    rw [readFields_field (readValue_toText v fuel ('\x7d' :: rest) h.1 (follows_cons (by decide) _)
      (by omega)), skipSpace_cons (by decide)]
    rfl
  | key, v, (key', w) :: fields, fuel + 1 => fun rest h hfuel => by
    have htext : ",".intercalate (fieldTexts ((key, v) :: (key', w) :: fields)) =
        quote key ++ ":" ++ v.toText ++ "," ++
          ",".intercalate (fieldTexts ((key', w) :: fields)) := by
      rw [fieldTexts, fieldTexts, String.intercalate_cons_cons]
    have hcomma : ",".length = 1 := rfl
    rw [htext] at hfuel ⊢
    simp only [String.length_append] at hfuel
    have hread := readValue_toText v fuel
      (',' :: ((",".intercalate (fieldTexts ((key', w) :: fields))).toList ++ '\x7d' :: rest)) h.1
      (follows_cons (by decide) _) (by omega)
    have hrest := readFields_fieldTexts key' w fields fuel rest h.2 (by omega)
    have happend : (quote key ++ ":" ++ v.toText ++ "," ++
          ",".intercalate (fieldTexts ((key', w) :: fields))).toList ++ '\x7d' :: rest =
        (quote key ++ ":" ++ v.toText).toList ++
          ',' :: ((",".intercalate (fieldTexts ((key', w) :: fields))).toList ++
            '\x7d' :: rest) := by
      simp [String.toList_append]
    rw [happend, readFields_field hread, skipSpace_cons (by decide)]
    simp only [hrest, Option.map_some]
termination_by structural _ _ _ fuel => fuel

end

/-- **What is written is read back.** -/
theorem ofText_toText {v : Json} (h : Numbers v) : ofText v.toText = some v := by
  have hread := readValue_toText v v.toText.length [] h (fun _ hc => by cases hc) (Nat.le_refl _)
  rw [List.append_nil] at hread
  rw [ofText, String.length_toList, hread]
  rfl

/-! ## Text that needs no escape -/

/-- A character that is written as it is, in one byte. -/
def isPlain (c : Char) : Bool := 32 ≤ c.toNat && c.toNat < 127 && c ≠ '"' && c ≠ '\\'

def Plain (s : String) : Prop := s.toList.all isPlain = true

instance : DecidablePred Plain := fun s => inferInstanceAs (Decidable (s.toList.all isPlain = true))

theorem isPlain_of_toNat {c : Char}
    (h : 32 ≤ c.toNat ∧ c.toNat < 127 ∧ c.toNat ≠ 34 ∧ c.toNat ≠ 92) : isPlain c = true := by
  obtain ⟨hlow, hhigh, hquote, hslash⟩ := h
  have hlit (d : Char) (hd : c.toNat ≠ d.toNat) : c ≠ d := fun heq => hd (by rw [heq])
  simp [isPlain, hlow, hhigh, hlit '"' hquote, hlit '\\' hslash]

theorem escape_plain {c : Char} (h : isPlain c) : escape c = String.singleton c := by
  simp only [isPlain, Bool.and_eq_true, decide_eq_true_eq] at h
  obtain ⟨⟨⟨hlow, -⟩, hquote⟩, hslash⟩ := h
  have hcode (d : Char) (hd : d.toNat < 32) : c ≠ d := fun heq => by
    rw [heq] at hlow
    omega
  rw [escape, if_neg hquote, if_neg hslash, if_neg (hcode '\n' (by decide)),
    if_neg (hcode '\r' (by decide)), if_neg (hcode '\t' (by decide)), if_neg (by omega),
    if_neg (by omega), if_neg (by omega)]

/-- A text of plain characters is written between quotation marks. -/
theorem quote_plain {s : String} (h : Plain s) : quote s = "\"" ++ s ++ "\"" := by
  have hchars : ∀ cs : List Char, cs.all isPlain = true →
      cs.flatMap (fun c => (escape c).toList) = cs := by
    intro cs hcs
    induction cs with
    | nil => rfl
    | cons c cs ih =>
      obtain ⟨hc, hcs⟩ := Bool.and_eq_true_iff.mp (List.all_cons.symm.trans hcs)
      rw [List.flatMap_cons, escape_plain hc, ih hcs, String.toList_singleton]
      rfl
  refine String.toList_inj.mp ?_
  rw [toList_quote, hchars _ h]
  simp [String.toList_append]

theorem utf8ByteSize_plain {s : String} (h : Plain s) : s.utf8ByteSize = s.toList.length := by
  have hchars : ∀ cs : List Char, cs.all isPlain = true →
      (String.ofList cs).utf8ByteSize = cs.length := by
    intro cs hcs
    induction cs with
    | nil => rfl
    | cons c cs ih =>
      obtain ⟨hc, hcs⟩ := Bool.and_eq_true_iff.mp (List.all_cons.symm.trans hcs)
      rw [String.ofList_cons, String.utf8ByteSize_append, ih hcs, String.utf8ByteSize_singleton,
        List.length_cons]
      have hsize : c.utf8Size = 1 := by
        simp only [isPlain, Bool.and_eq_true, decide_eq_true_eq] at hc
        have hlt : c.val.toNat < 127 := hc.1.1.2
        rw [Char.utf8Size_eq_one_iff, UInt32.le_iff_toNat_le]
        exact Nat.le_of_lt hlt
      omega
  rw [← hchars _ h, String.ofList_toList]

theorem size_quote {s : String} (h : Plain s) : (quote s).utf8ByteSize = s.utf8ByteSize + 2 := by
  rw [quote_plain h, String.utf8ByteSize_append, String.utf8ByteSize_append]
  show 1 + s.utf8ByteSize + 1 = s.utf8ByteSize + 2
  omega

theorem plain_append {s t : String} (hs : Plain s) (ht : Plain t) : Plain (s ++ t) := by
  rw [Plain, String.toList_append, List.all_append, hs, ht]
  rfl

/-- The size of texts with a comma between them. -/
theorem size_intercalate (texts : List String) :
    (",".intercalate texts).utf8ByteSize ≤ (texts.map fun text => text.utf8ByteSize + 1).sum := by
  induction texts with
  | nil => exact Nat.le_refl 0
  | cons text texts ih =>
    rw [List.map_cons, List.sum_cons]
    cases texts with
    | nil =>
      rw [String.intercalate_singleton]
      omega
    | cons next texts =>
      have hcomma : ",".utf8ByteSize = 1 := rfl
      rw [String.intercalate_cons_cons, String.utf8ByteSize_append, String.utf8ByteSize_append,
        hcomma]
      omega

theorem size_arr (values : List Json) : (arr values).toText.utf8ByteSize ≤
    2 + (values.map fun value => value.toText.utf8ByteSize + 1).sum := by
  have hmap : (toTexts values).map (fun text => text.utf8ByteSize + 1) =
      values.map fun value => value.toText.utf8ByteSize + 1 := by
    induction values with
    | nil => rfl
    | cons value values ih => rw [toTexts, List.map_cons, List.map_cons, ih]
  have hsize := size_intercalate (toTexts values)
  have hopen : "[".utf8ByteSize = 1 := rfl
  have hclose : "]".utf8ByteSize = 1 := rfl
  rw [toText, String.utf8ByteSize_append, String.utf8ByteSize_append, hopen, hclose]
  rw [hmap] at hsize
  omega

theorem size_obj (fields : List (String × Json)) : (obj fields).toText.utf8ByteSize ≤
    2 + (fields.map fun field =>
      (quote field.1).utf8ByteSize + field.2.toText.utf8ByteSize + 2).sum := by
  have hmap : (fieldTexts fields).map (fun text => text.utf8ByteSize + 1) = fields.map fun field =>
      (quote field.1).utf8ByteSize + field.2.toText.utf8ByteSize + 2 := by
    induction fields with
    | nil => rfl
    | cons field fields ih =>
      have hcolon : ":".utf8ByteSize = 1 := rfl
      rw [fieldTexts, List.map_cons, List.map_cons, ih, String.utf8ByteSize_append,
        String.utf8ByteSize_append, hcolon]
      congr 1
      omega
  have hsize := size_intercalate (fieldTexts fields)
  have hopen : "\x7b".utf8ByteSize = 1 := rfl
  have hclose : "\x7d".utf8ByteSize = 1 := rfl
  rw [toText, String.utf8ByteSize_append, String.utf8ByteSize_append, hopen, hclose]
  rw [hmap] at hsize
  omega

/-- The digits of a number are plain, and as many as its size asks for. -/
theorem size_ofNat {n k : Nat} (h : n < 10 ^ k) (hk : 0 < k) :
    (ofNat n).toText.utf8ByteSize ≤ k := by
  have hplain : Plain (String.ofList (Nat.toDigits 10 n)) := by
    rw [Plain, String.toList_ofList]
    refine List.all_eq_true.mpr fun c hc => ?_
    have hdigit : ∀ d < 10, isPlain (Nat.digitChar d) = true := by decide
    obtain ⟨hlt, hc⟩ := Text.digitChar_isDigit
      (Nat.isDigit_of_mem_toDigits (by omega) (by omega) hc)
    rw [← hc]
    exact hdigit _ hlt
  show (toString n).utf8ByteSize ≤ k
  rw [Nat.toString_eq_ofList_toDigits, utf8ByteSize_plain hplain, String.toList_ofList]
  exact (Nat.length_toDigits_le_iff (by omega) hk).mpr h

end AxiomDesktop.Json
