import Mathlib.Tactic.Common

/-!
# Standard base64

The `STANDARD` engine of the `base64` crate: the alphabet of letters, digits, `+` and `/`, with
canonical padding required and non-zero trailing bits refused.
-/

namespace AxiomDesktop.Base64

/-- The value of a digit of the standard alphabet. -/
def digit? (c : Char) : Option Nat :=
  let n := c.toNat
  if 65 ≤ n ∧ n ≤ 90 then some (n - 65)
  else if 97 ≤ n ∧ n ≤ 122 then some (n - 71)
  else if 48 ≤ n ∧ n ≤ 57 then some (n + 4)
  else if n = 43 then some 62
  else if n = 47 then some 63
  else none

/-- The digit of a value below 64. -/
def digit (n : Nat) : Char :=
  if n < 26 then Char.ofNat (n + 65)
  else if n < 52 then Char.ofNat (n + 71)
  else if n < 62 then Char.ofNat (n - 4)
  else if n = 62 then '+'
  else '/'

/-- `STANDARD.encode`, three bytes at a time. -/
def encode : List UInt8 → List Char
  | [] => []
  | [a] =>
    [digit (a.toNat / 4), digit (a.toNat % 4 * 16), '=', '=']
  | [a, b] =>
    [digit (a.toNat / 4), digit (a.toNat % 4 * 16 + b.toNat / 16), digit (b.toNat % 16 * 4), '=']
  | a :: b :: c :: rest =>
    digit (a.toNat / 4) :: digit (a.toNat % 4 * 16 + b.toNat / 16) ::
      digit (b.toNat % 16 * 4 + c.toNat / 64) :: digit (c.toNat % 64) :: encode rest

/-- `STANDARD.decode`, one quantum of four characters at a time; `none` is a decoding error. -/
def decode : List Char → Option (List UInt8)
  | [] => some []
  | [a, b, '=', '='] =>
    match digit? a, digit? b with
    | some a, some b => if b % 16 = 0 then some [UInt8.ofNat (a * 4 + b / 16)] else none
    | _, _ => none
  | [a, b, c, '='] =>
    match digit? a, digit? b, digit? c with
    | some a, some b, some c =>
      if c % 4 = 0 then some [UInt8.ofNat (a * 4 + b / 16), UInt8.ofNat (b % 16 * 16 + c / 4)]
      else none
    | _, _, _ => none
  | a :: b :: c :: d :: rest =>
    match digit? a, digit? b, digit? c, digit? d with
    | some a, some b, some c, some d =>
      match decode rest with
      | some bytes =>
        some (UInt8.ofNat (a * 4 + b / 16) :: UInt8.ofNat (b % 16 * 16 + c / 4) ::
          UInt8.ofNat (c % 4 * 64 + d) :: bytes)
      | none => none
    | _, _, _, _ => none
  | _ => none

example : decode "aGVsbG8=".toList = some [104, 101, 108, 108, 111] := by decide

end AxiomDesktop.Base64

/-!
## Base64 that is safe in URLs

The `URL_SAFE_NO_PAD` engine of the `base64` crate. What it encodes is read back
(`urlSafeNoPad_encode`).
-/

namespace AxiomDesktop.Base64

/-- The value of a digit of the alphabet that is safe in URLs. -/
def urlSafeDigit? (c : Char) : Option Nat :=
  if c = '-' then some 62
  else if c = '_' then some 63
  else if c = '+' ∨ c = '/' then none
  else Base64.digit? c

/-- The bytes of digits of six bits, four digits at a time. -/
def packSextets : List Nat → Option (List UInt8)
  | [] => some []
  | [_] => none
  | [a, b] => if b % 16 = 0 then some [UInt8.ofNat (a * 4 + b / 16)] else none
  | [a, b, c] =>
    if c % 4 = 0 then some [UInt8.ofNat (a * 4 + b / 16), UInt8.ofNat (b % 16 * 16 + c / 4)]
    else none
  | a :: b :: c :: d :: rest =>
    (packSextets rest).map fun bytes =>
      UInt8.ofNat (a * 4 + b / 16) :: UInt8.ofNat (b % 16 * 16 + c / 4) ::
        UInt8.ofNat (c % 4 * 64 + d) :: bytes

/-- `general_purpose::URL_SAFE_NO_PAD.decode`. -/
def urlSafeNoPad (encoded : List Char) : Option (List UInt8) :=
  (encoded.mapM urlSafeDigit?).bind packSextets

/-- The digit of a value below 64 of the alphabet that is safe in URLs. -/
def urlSafeDigit (n : Nat) : Char :=
  if n = 62 then '-' else if n = 63 then '_' else digit n

/-- The digits of six bits of bytes, three bytes at a time. -/
def sextets : List UInt8 → List Nat
  | [] => []
  | [a] => [a.toNat / 4, a.toNat % 4 * 16]
  | [a, b] => [a.toNat / 4, a.toNat % 4 * 16 + b.toNat / 16, b.toNat % 16 * 4]
  | a :: b :: c :: rest =>
    a.toNat / 4 :: (a.toNat % 4 * 16 + b.toNat / 16) :: (b.toNat % 16 * 4 + c.toNat / 64) ::
      c.toNat % 64 :: sextets rest

/-- `general_purpose::URL_SAFE_NO_PAD.encode`. -/
def encodeUrlSafe (bytes : List UInt8) : List Char := (sextets bytes).map urlSafeDigit

theorem urlSafeDigit_read : ∀ n < 64, urlSafeDigit? (urlSafeDigit n) = some n := by decide

theorem sextets_lt (bytes : List UInt8) : ∀ n ∈ sextets bytes, n < 64 := by
  induction bytes using sextets.induct with
  | case1 => simp [sextets]
  | case2 a =>
    have ha := a.toNat_lt
    simp only [sextets, List.mem_cons, List.not_mem_nil, or_false, forall_eq_or_imp, forall_eq]
    omega
  | case3 a b =>
    have ha := a.toNat_lt
    have hb := b.toNat_lt
    simp only [sextets, List.mem_cons, List.not_mem_nil, or_false, forall_eq_or_imp, forall_eq]
    omega
  | case4 a b c rest ih =>
    have ha := a.toNat_lt
    have hb := b.toNat_lt
    have hc := c.toNat_lt
    simp only [sextets, List.mem_cons, forall_eq_or_imp]
    exact ⟨by omega, by omega, by omega, by omega, ih⟩

theorem ofNat_eq {a : UInt8} {n : Nat} (h : n = a.toNat) : UInt8.ofNat n = a := by
  rw [h, UInt8.ofNat_toNat]

theorem packSextets_sextets (bytes : List UInt8) : packSextets (sextets bytes) = some bytes := by
  induction bytes using sextets.induct with
  | case1 => rfl
  | case2 a =>
    have ha := a.toNat_lt
    rw [sextets, packSextets, if_pos (by omega), ofNat_eq (a := a) (by omega)]
  | case3 a b =>
    have ha := a.toNat_lt
    have hb := b.toNat_lt
    rw [sextets, packSextets, if_pos (by omega), ofNat_eq (a := a) (by omega), ofNat_eq (a := b) (by omega)]
  | case4 a b c rest ih =>
    have ha := a.toNat_lt
    have hb := b.toNat_lt
    have hc := c.toNat_lt
    rw [sextets, packSextets, ih, Option.map_some, ofNat_eq (a := a) (by omega),
      ofNat_eq (a := b) (by omega), ofNat_eq (a := c) (by omega)]

/-- **What is encoded is read back.** -/
theorem urlSafeNoPad_encode (bytes : List UInt8) : urlSafeNoPad (encodeUrlSafe bytes) = some bytes := by
  have hdigits : ∀ ns : List Nat, (∀ n ∈ ns, n < 64) →
      (ns.map urlSafeDigit).mapM urlSafeDigit? = some ns := by
    intro ns hns
    induction ns with
    | nil => rfl
    | cons n ns ih =>
      rw [List.map_cons, List.mapM_cons, urlSafeDigit_read n (hns n List.mem_cons_self),
        ih fun m hm => hns m (List.mem_cons_of_mem _ hm)]
      rfl
  rw [urlSafeNoPad, encodeUrlSafe, hdigits _ (sextets_lt bytes), Option.bind_some, packSextets_sextets]

theorem length_encodeUrlSafe (bytes : List UInt8) : (encodeUrlSafe bytes).length ≤ 2 * bytes.length := by
  rw [encodeUrlSafe, List.length_map]
  induction bytes using sextets.induct with
  | case1 => exact Nat.le_refl _
  | case2 a => exact Nat.le_refl _
  | case3 a b => exact Nat.le_succ 3
  | case4 a b c rest ih =>
    simp only [sextets, List.length_cons]
    omega

end AxiomDesktop.Base64
