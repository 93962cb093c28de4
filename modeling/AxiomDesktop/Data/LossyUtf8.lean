import AxiomDesktop.Data.Text
import AxiomDesktop.Lib.Machine

/-!
# Bytes that need not be UTF-8

`String::from_utf8_lossy` reads a character at a time. Bytes that begin a character and are not
followed by what it needs are replaced by one `U+FFFD`, and so is a byte that begins none
(`lossy`). At the end of the bytes a character that was begun is replaced as well, so that bytes are
read apart from those behind them exactly where none is begun (`lossyChars_append`).
-/

namespace AxiomDesktop.Text

/-- `char::REPLACEMENT_CHARACTER`. -/
def REPLACEMENT_CHARACTER : Char := Char.ofNat 0xfffd

/-- A character of which some bytes were read: its bits so far, how many bytes follow the next one,
and where the next one has to lie. -/
structure Begun where
  bits : Nat
  more : Nat
  low : Nat := 0x80
  high : Nat := 0xbf
  tail : 0x80 ≤ low ∧ low ≤ high ∧ high ≤ 0xbf := by decide
  deriving DecidableEq

/-- A byte where no character is begun. -/
def firstByte (b : UInt8) : Option Begun × List Char :=
  let n := b.toNat
  if n < 0x80 then (none, [Char.ofNat n])
  else if 0xc2 ≤ n ∧ n ≤ 0xdf then (some { bits := n - 0xc0, more := 0 }, [])
  -- no overlong spelling, no surrogate
  else if n = 0xe0 then (some { bits := 0x0, more := 1, low := 0xa0 }, [])
  else if n = 0xed then (some { bits := 0xd, more := 1, high := 0x9f }, [])
  else if 0xe1 ≤ n ∧ n ≤ 0xef then (some { bits := n - 0xe0, more := 1 }, [])
  -- no overlong spelling, nothing above `U+10FFFF`
  else if n = 0xf0 then (some { bits := 0x0, more := 2, low := 0x90 }, [])
  else if n = 0xf4 then (some { bits := 0x4, more := 2, high := 0x8f }, [])
  else if 0xf1 ≤ n ∧ n ≤ 0xf3 then (some { bits := n - 0xf0, more := 2 }, [])
  else (none, [REPLACEMENT_CHARACTER])

/-- The reader of one byte. -/
def lossy : Machine (Option Begun) UInt8 Char where
  step
    | none, b => firstByte b
    | some begun, b =>
      let n := b.toNat
      if begun.low ≤ n ∧ n ≤ begun.high then
        let bits := begun.bits * 64 + (n - 0x80)
        match begun.more with
        | 0 => (none, [Char.ofNat bits])
        | more + 1 => (some { bits, more }, [])
      else
        let (next, cs) := firstByte b
        (next, REPLACEMENT_CHARACTER :: cs)

/-- What stands at the end of the bytes for a character that was begun. -/
def unfinished : Option Begun → List Char
  | none => []
  | some _ => [REPLACEMENT_CHARACTER]

def lossyChars (bs : List UInt8) : List Char :=
  (lossy.run none bs).2 ++ unfinished (lossy.run none bs).1

/-- `String::from_utf8_lossy`. -/
def fromUtf8Lossy (bs : List UInt8) : String := String.ofList (lossyChars bs)

example : fromUtf8Lossy [0xe2, 0x82, 0x41, 0xc3, 0xa9, 0x80] = "\uFFFDAé\uFFFD" := by decide

variable {bs : List UInt8}

/-- Where no character is begun, the bytes behind are read for themselves. -/
theorem lossyChars_append (h : (lossy.run none bs).1 = none) (more : List UInt8) :
    lossyChars (bs ++ more) = lossyChars bs ++ lossyChars more := by
  unfold lossyChars
  rw [Machine.run_append, h]
  show ((lossy.run none bs).2 ++ (lossy.run none more).2) ++ _ = ((lossy.run none bs).2 ++ []) ++ _
  rw [List.append_nil, List.append_assoc]

/-- A byte that goes on with a character. -/
def Begun.next (begun : Begun) : UInt8 := UInt8.ofNat begun.low

theorem Begun.toNat_next (begun : Begun) : begun.next.toNat = begun.low := by
  have := begun.tail
  rw [Begun.next, UInt8.toNat_ofNat']
  omega

/-- A byte that goes on with a character is read as a part of it, and not for itself. -/
theorem lossyChars_next {begun : Begun} (h : (lossy.run none bs).1 = some begun) :
    ∃ c, lossyChars (bs ++ [begun.next]) = (lossy.run none bs).2 ++ [c] := by
  have hstep : lossy.step (some begun) begun.next =
      match begun.more with
      | 0 => (none, [Char.ofNat (begun.bits * 64 + (begun.low - 0x80))])
      | more + 1 => (some { bits := begun.bits * 64 + (begun.low - 0x80), more }, []) := by
    show (if begun.low ≤ begun.next.toNat ∧ begun.next.toNat ≤ begun.high then _ else _) = _
    rw [begun.toNat_next, if_pos ⟨Nat.le_refl _, begun.tail.2.1⟩]
  unfold lossyChars
  rw [Machine.run_snoc, h, hstep]
  cases begun.more with
  | zero => exact ⟨_, List.append_nil _⟩
  | succ more => exact ⟨_, congrArg (· ++ _) (List.append_nil _)⟩

/-- Such a byte for itself is no character. -/
theorem lossyChars_tail (begun : Begun) : lossyChars [begun.next] = [REPLACEMENT_CHARACTER] := by
  have htail := begun.tail
  have hfirst : firstByte begun.next = (none, [REPLACEMENT_CHARACTER]) := by
    unfold firstByte
    rw [begun.toNat_next]
    dsimp only
    rw [if_neg (by omega), if_neg (by omega), if_neg (by omega), if_neg (by omega),
      if_neg (by omega), if_neg (by omega), if_neg (by omega), if_neg (by omega)]
  show (firstByte begun.next).2 ++ [] ++ unfinished (firstByte begun.next).1 = _
  rw [hfirst]
  rfl

end AxiomDesktop.Text
