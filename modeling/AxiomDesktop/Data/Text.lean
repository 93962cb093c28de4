import Mathlib.Algebra.GroupWithZero.Nat
import Mathlib.Data.List.Induction
import Mathlib.Data.List.Infix
import Mathlib.Tactic.Common

/-!
# Text operations of the Rust standard library

The `str` and `char` operations the modelled functions call, at the behaviour their documentation
gives: `char::is_whitespace` is the Unicode property `White_Space`, `char::is_control` the general
category `Cc`, and every length is a length in UTF-8 bytes (`String.utf8ByteSize`).
-/

namespace AxiomDesktop.Text

/-- `char::is_whitespace`. -/
def isWhitespace (c : Char) : Bool :=
  let n := c.toNat
  (9 ≤ n && n ≤ 13) || n == 0x20 || n == 0x85 || n == 0xa0 || n == 0x1680 ||
    (0x2000 ≤ n && n ≤ 0x200a) || n == 0x2028 || n == 0x2029 || n == 0x202f || n == 0x205f ||
    n == 0x3000

/-- `char::is_control`. -/
def isControl (c : Char) : Bool :=
  let n := c.toNat
  n ≤ 0x1f || (0x7f ≤ n && n ≤ 0x9f)

/-- The characters of `str::trim_end_matches`. -/
def dropWhileEnd (p : Char → Bool) (cs : List Char) : List Char :=
  (cs.reverse.dropWhile p).reverse

/-- `str::trim`, of the characters of a string. -/
def trimChars (cs : List Char) : List Char :=
  dropWhileEnd isWhitespace (cs.dropWhile isWhitespace)

/-- `str::trim`. -/
def trim (s : String) : String :=
  String.ofList (trimChars s.toList)

/-- `value.trim().is_empty()`. -/
def isBlank (s : String) : Bool :=
  (trim s).isEmpty

/-- `value.chars().any(char::is_whitespace)`. -/
def hasWhitespace (s : String) : Bool :=
  s.toList.any isWhitespace

/-- `str::strip_prefix`, of the characters of a string. -/
def stripPrefix (p cs : List Char) : Option (List Char) :=
  if p.isPrefixOf cs then some (cs.drop p.length) else none

/-- `str::strip_suffix`, of the characters of a string. -/
def stripSuffix (p cs : List Char) : Option (List Char) :=
  if p.isSuffixOf cs then some (cs.take (cs.length - p.length)) else none

/-- `str::starts_with`. -/
def startsWith (p s : String) : Bool :=
  p.toList.isPrefixOf s.toList

/-- `str::split` at a character: the pieces between its occurrences, one more than there are
occurrences. -/
def splitChar (c : Char) : List Char → List (List Char)
  | [] => [[]]
  | d :: ds =>
    if d = c then [] :: splitChar c ds
    else
      match splitChar c ds with
      | [] => [[d]]
      | piece :: rest => (d :: piece) :: rest

/-- The length of a string in UTF-16 code units, as JavaScript counts it. -/
def utf16Length (s : String) : Nat :=
  (s.toList.map fun c => if c.toNat < 0x10000 then 1 else 2).sum

/-- The UTF-16 code units of a string. -/
def utf16 (s : String) : List Nat :=
  s.toList.flatMap fun c =>
    if c.toNat < 0x10000 then [c.toNat]
    else [0xd800 + (c.toNat - 0x10000) / 0x400, 0xdc00 + (c.toNat - 0x10000) % 0x400]

/-- `<` of JavaScript strings. -/
def jsLess (s t : String) : Bool := utf16 s < utf16 t

/-- The value of a string of ASCII digits, at least one. -/
def digits? (cs : List Char) : Option Nat :=
  if cs ≠ [] ∧ cs.all Char.isDigit then
    some (cs.foldl (fun n c => n * 10 + (c.toNat - 48)) 0)
  else none

/-- Lower-case hexadecimal digits of a number, padded on the left to a width. -/
def hex (width n : Nat) : String :=
  let digits := Nat.toDigits 16 n
  String.ofList (List.replicate (width - digits.length) '0' ++ digits)

/-! ## Bytes -/

/-- `str::as_bytes`. -/
def bytes (s : String) : List UInt8 := s.toByteArray.data.toList

/-- `str::from_utf8`. -/
def fromUtf8 (bs : List UInt8) : Option String := String.fromUTF8? ⟨bs.toArray⟩

/-- A string is read back from its bytes. -/
theorem fromUtf8_bytes (s : String) : fromUtf8 (bytes s) = some s := by
  have hb : (⟨(bytes s).toArray⟩ : ByteArray) = s.toByteArray := rfl
  rw [fromUtf8, hb, String.fromUTF8?, dif_pos s.isValidUTF8]
  rfl

/-- The value of a hexadecimal digit, by its byte. -/
def hexValue? (b : UInt8) : Option Nat :=
  let n := b.toNat
  if 48 ≤ n ∧ n ≤ 57 then some (n - 48)
  else if 97 ≤ n ∧ n ≤ 102 then some (n - 87)
  else if 65 ≤ n ∧ n ≤ 70 then some (n - 55)
  else none

/-- `u8::is_ascii_hexdigit`. -/
def isHexDigit (b : UInt8) : Bool := (hexValue? b).isSome

/-- `u8::is_ascii_uppercase`. -/
def isUppercase (b : UInt8) : Bool := 65 ≤ b.toNat && b.toNat ≤ 90

/-- The two digits of a byte. -/
def hexPair (b : UInt8) : List Char := [Nat.digitChar (b.toNat / 16), Nat.digitChar (b.toNat % 16)]

/-- `hex::encode`. -/
def hexEncode (bs : List UInt8) : String := String.ofList (bs.flatMap hexPair)

/-- `hex::decode`. -/
def hexDecode : List UInt8 → Option (List UInt8)
  | [] => some []
  | high :: low :: rest =>
    match hexValue? high, hexValue? low, hexDecode rest with
    | some h, some l, some bs => some (UInt8.ofNat (h * 16 + l) :: bs)
    | _, _, _ => none
  | [_] => none

/-- The hyphenated form of a UUID, as its `Display` prints it. -/
def uuid (value : BitVec 128) : String :=
  let n := value.toNat
  let group (low : Nat) := hex 4 ((n >>> low) % 2 ^ 16)
  hex 8 (n >>> 96) ++ "-" ++ group 80 ++ "-" ++ group 64 ++ "-" ++ group 48 ++ "-" ++
    hex 12 (n % 2 ^ 48)

example : uuid 0x0123456789abcdef0123456789abcdef#128 = "01234567-89ab-cdef-0123-456789abcdef" := by
  decide

end AxiomDesktop.Text

/-!
## Decimal digits

The digits of a natural number are read back (`Text.digits?_toString`), and digits without a leading
zero are the digits of what is read of them (`Text.toDigits_of_digits?`): two such texts of one
number are one text.
-/

namespace AxiomDesktop.Text

/-- The value of digits, as `Nat` has it. -/
theorem digits?_eq (cs : List Char) : digits? cs =
    if cs ≠ [] ∧ cs.all Char.isDigit then some (Nat.ofDigitChars 10 cs 0) else none := by
  have hfold : ∀ (cs : List Char) (n : Nat),
      cs.foldl (fun n c => n * 10 + (c.toNat - 48)) n = Nat.ofDigitChars 10 cs n := by
    intro cs
    induction cs with
    | nil => exact fun n => Nat.ofDigitChars_nil.symm
    | cons c cs ih =>
      intro n
      rw [List.foldl_cons, ih, Nat.ofDigitChars_cons, Nat.mul_comm n 10]
      rfl
  rw [digits?, hfold]

/-- The digits of a number are read back. -/
theorem digits?_toDigits (n : Nat) : digits? (Nat.toDigits 10 n) = some n := by
  have hdigits : (Nat.toDigits 10 n).all Char.isDigit = true :=
    List.all_eq_true.mpr fun c hc => Nat.isDigit_of_mem_toDigits (by omega) (by omega) hc
  rw [digits?_eq, if_pos ⟨Nat.toDigits_ne_nil, hdigits⟩, Nat.ofDigitChars_ten_toDigits]

theorem digits?_toString (n : Nat) : digits? (toString n).toList = some n := by
  rw [Nat.toString_eq_ofList_toDigits, String.toList_ofList, digits?_toDigits]

/-- A digit is the digit of its value. -/
theorem digitChar_isDigit {c : Char} (h : c.isDigit) :
    c.toNat - 48 < 10 ∧ Nat.digitChar (c.toNat - 48) = c := by
  obtain ⟨hlow, hhigh⟩ := Char.isDigit_iff_toNat.mp h
  have hlow : 48 ≤ c.toNat := hlow
  have hhigh : c.toNat ≤ 57 := hhigh
  have hdigit : ∀ d < 10, Nat.digitChar d = Char.ofNat (d + 48) := by decide
  refine ⟨by omega, ?_⟩
  rw [hdigit _ (by omega), Nat.sub_add_cancel hlow, Char.ofNat_toNat]

/-- **Digits without a leading zero are those of their value.** -/
theorem toDigits_ofDigitChars {cs : List Char} (hne : cs ≠ []) (hdigits : ∀ c ∈ cs, c.isDigit)
    (hzero : cs.length = 1 ∨ cs.head? ≠ some '0') :
    Nat.toDigits 10 (Nat.ofDigitChars 10 cs 0) = cs := by
  induction cs using List.reverseRecOn with
  | nil => exact absurd rfl hne
  | append_singleton cs c ih =>
    obtain ⟨hlt, hc⟩ := digitChar_isDigit (hdigits c (by simp))
    have hvalue : Nat.ofDigitChars 10 (cs ++ [c]) 0 =
        10 * Nat.ofDigitChars 10 cs 0 + (c.toNat - 48) := by
      rw [Nat.ofDigitChars_append, Nat.ofDigitChars_cons, Nat.ofDigitChars_nil]
      rfl
    rw [hvalue]
    cases cs with
    | nil =>
      rw [Nat.ofDigitChars_nil, Nat.mul_zero, Nat.zero_add, Nat.toDigits_of_lt_base hlt, hc]
      rfl
    | cons d cs =>
      have hd : d ≠ '0' := by
        rcases hzero with h | h
        · simp at h
        · simpa using h
      have hprefix := ih (by simp) (fun c hc => hdigits c (List.mem_append_left _ hc))
        (.inr (by simpa using hd))
      have hpos : 0 < Nat.ofDigitChars 10 (d :: cs) 0 := by
        refine Nat.pos_of_ne_zero fun h => hd ?_
        rw [h, Nat.toDigits_zero] at hprefix
        exact (List.cons.inj hprefix).1.symm
      rw [← Nat.toDigits_append_toDigits (by omega) hpos hlt, hprefix,
        Nat.toDigits_of_lt_base hlt, hc]

/-- Two texts of digits without a leading zero that are read alike are one. -/
theorem toDigits_of_digits? {cs : List Char} {n : Nat} (h : digits? cs = some n)
    (hzero : cs.length = 1 ∨ cs.head? ≠ some '0') : Nat.toDigits 10 n = cs := by
  rw [digits?_eq] at h
  split at h
  · next hcs =>
    cases Option.some.inj h
    exact toDigits_ofDigitChars hcs.1 (List.all_eq_true.mp hcs.2) hzero
  · cases h

end AxiomDesktop.Text
