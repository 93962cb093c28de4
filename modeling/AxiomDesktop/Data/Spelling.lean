import AxiomDesktop.Data.Text
import Mathlib.Algebra.Order.Field.Power
import Mathlib.Algebra.Order.Field.Rat
import Mathlib.Data.List.DropRight
import Mathlib.Tactic.FieldSimp
import Mathlib.Tactic.Linarith
import Mathlib.Tactic.NormNum
import Mathlib.Tactic.Ring

/-!
# Spellings of decimal numbers

A decimal number is spelled with a point between its digits, or with a point behind the first digit
and an exponent (`Spelling`). Its value is that of its significant digits at its exponent, the power
of ten of the first of them (`Spelling.value_eq`), which is bounded by that power
(`Spelling.exponent_bounds`). So two spellings with the same significant digits and exponent have
the same value.
-/

namespace AxiomDesktop

open List (replicate)

/-! ## Zeros around digits -/

/-- Digits that neither begin nor end with a zero. -/
structure Trimmed (ds : List Char) : Prop where
  head : ∀ c ∈ ds.head?, c ≠ '0'
  last : ∀ c ∈ ds.getLast?, c ≠ '0'

/-- Digits without the zeros around them. -/
def trimZeros (ds : List Char) : List Char :=
  Text.dropWhileEnd (· = '0') (ds.dropWhile (· = '0'))

theorem dropWhileEnd_zeros (ds : List Char) :
    ∃ j, ds = Text.dropWhileEnd (· = '0') ds ++ replicate j '0' := by
  let p : Char → Bool := fun c => c = '0'
  refine ⟨(ds.reverse.takeWhile p).length, ?_⟩
  have hzeros : (ds.reverse.takeWhile p).reverse =
      replicate (ds.reverse.takeWhile p).length '0' := by
    refine List.eq_replicate_iff.mpr ⟨List.length_reverse, fun c hc => ?_⟩
    have hp := List.mem_takeWhile_imp (List.mem_reverse.mp hc)
    exact of_decide_eq_true hp
  have hsplit := congrArg List.reverse (List.takeWhile_append_dropWhile (p := p) (l := ds.reverse))
  rw [List.reverse_append, List.reverse_reverse, hzeros] at hsplit
  exact hsplit.symm

theorem dropWhile_zeros (ds : List Char) :
    ∃ i, ds = replicate i '0' ++ ds.dropWhile (· = '0') := by
  let p : Char → Bool := fun c => c = '0'
  refine ⟨(ds.takeWhile p).length, ?_⟩
  have hzeros : ds.takeWhile p = replicate (ds.takeWhile p).length '0' := by
    refine List.eq_replicate_iff.mpr ⟨rfl, fun c hc => ?_⟩
    have hp := List.mem_takeWhile_imp hc
    exact of_decide_eq_true hp
  have hsplit := List.takeWhile_append_dropWhile (p := p) (l := ds)
  rw [hzeros] at hsplit
  exact hsplit.symm

theorem dropWhile_zeros_head (ds : List Char) : ∀ c ∈ (ds.dropWhile (· = '0')).head?, c ≠ '0' := by
  intro c hc
  have hhead := List.head?_dropWhile_not (· = '0') ds
  rw [Option.mem_def.mp hc] at hhead
  simpa using hhead

theorem trimmed_trimZeros (ds : List Char) : Trimmed (trimZeros ds) := by
  constructor
  · intro c hc
    have hprefix : trimZeros ds <+: ds.dropWhile (· = '0') :=
      List.rdropWhile_prefix _ _
    refine dropWhile_zeros_head ds c (Option.mem_def.mpr ?_)
    obtain ⟨rest, hrest⟩ := hprefix
    rw [← hrest, List.head?_append, Option.mem_def.mp hc]
    rfl
  · intro c hc
    have hne : trimZeros ds ≠ [] := by
      intro hnil
      rw [hnil] at hc
      cases hc
    have hlast := List.rdropWhile_last_not (p := (· = '0')) (l := ds.dropWhile (· = '0')) hne
    have hc' : (trimZeros ds).getLast hne = c := by
      rw [Option.mem_def, List.getLast?_eq_getLast_of_ne_nil hne] at hc
      exact Option.some.inj hc
    have hlast' : ¬ (decide ((trimZeros ds).getLast hne = '0')) = true := hlast
    rw [hc'] at hlast'
    simpa using hlast'

/-- Digits with zeros around them. -/
theorem dropWhile_replicate {ds : List Char} (hne : ds ≠ []) (h : Trimmed ds) (i j : Nat) :
    (replicate i '0' ++ ds ++ replicate j '0').dropWhile (· = '0') = ds ++ replicate j '0' := by
  rw [List.append_assoc]
  induction i with
  | zero =>
    obtain ⟨d, rest, rfl⟩ := List.exists_cons_of_ne_nil hne
    exact List.dropWhile_cons_of_neg (by simpa using h.head d rfl)
  | succ i ih =>
    rw [List.replicate_succ, List.cons_append, List.dropWhile_cons_of_pos (by rfl)]
    exact ih

theorem dropWhileEnd_replicate {ds : List Char} (h : Trimmed ds) (j : Nat) :
    Text.dropWhileEnd (· = '0') (ds ++ replicate j '0') = ds := by
  show List.rdropWhile (· = '0') (ds ++ replicate j '0') = ds
  induction j with
  | zero =>
    rw [List.replicate_zero, List.append_nil, List.rdropWhile_eq_self_iff]
    intro hl
    simpa using h.last _ (List.getLast?_eq_getLast_of_ne_nil hl)
  | succ j ih =>
    rw [List.replicate_succ', ← List.append_assoc, List.rdropWhile_concat_pos _ _ _ (by rfl)]
    exact ih

theorem trimZeros_replicate {ds : List Char} (hne : ds ≠ []) (h : Trimmed ds) (i j : Nat) :
    trimZeros (replicate i '0' ++ ds ++ replicate j '0') = ds := by
  rw [trimZeros, dropWhile_replicate hne h, dropWhileEnd_replicate h]

/-! ## Spellings -/

/-- A spelling of a decimal number, but for its sign. -/
inductive Spelling where
  | positional (whole fraction : List Char)
  | exponential (head : Char) (tail : List Char) (exponent : Int)
  deriving DecidableEq, Repr

namespace Spelling

/-- All digits of a spelling. -/
def digits : Spelling → List Char
  | positional whole fraction => whole ++ fraction
  | exponential head tail _ => head :: tail

/-- The power of ten of the last digit. -/
def scale : Spelling → Int
  | positional _ fraction => -fraction.length
  | exponential _ tail exponent => exponent - tail.length

def value (s : Spelling) : ℚ := Nat.ofDigitChars 10 s.digits 0 * 10 ^ s.scale

/-- The digits without the zeros around them. -/
def significant (s : Spelling) : List Char := trimZeros s.digits

/-- The power of ten of the first significant digit. -/
def exponent (s : Spelling) : Int := s.scale + (s.digits.dropWhile (· = '0')).length - 1

def IsExponential : Spelling → Prop
  | positional .. => False
  | exponential .. => True

/-- There are digits on both sides of the point, and the digit of an exponent is no zero. -/
def Shaped : Spelling → Prop
  | positional whole fraction => whole ≠ [] ∧ fraction ≠ []
  | exponential head _ _ => head ≠ '0'

/-- A spelling of a number that is not zero. -/
structure Valid (s : Spelling) : Prop where
  digits : ∀ c ∈ s.digits, c.isDigit
  nonzero : s.significant ≠ []
  shaped : s.Shaped

/-- The characters of a spelling, with its exponent as it is written. -/
def chars (exponentChars : Int → List Char) : Spelling → List Char
  | positional whole fraction => whole ++ '.' :: fraction
  | exponential head tail exponent =>
    head :: ((if tail = [] then [] else '.' :: tail) ++ 'e' :: exponentChars exponent)

/-- The digits are the significant ones with zeros around them. -/
theorem digits_eq (s : Spelling) :
    ∃ i j, s.digits = replicate i '0' ++ (s.significant ++ replicate j '0') ∧
      s.digits.dropWhile (· = '0') = s.significant ++ replicate j '0' := by
  obtain ⟨i, hi⟩ := dropWhile_zeros s.digits
  obtain ⟨j, hj⟩ := dropWhileEnd_zeros (s.digits.dropWhile (· = '0'))
  refine ⟨i, j, ?_, hj⟩
  rw [hj] at hi
  exact hi

theorem value_zeros (ds : List Char) (i j : Nat) :
    Nat.ofDigitChars 10 (replicate i '0' ++ (ds ++ replicate j '0')) 0 =
      Nat.ofDigitChars 10 ds 0 * 10 ^ j := by
  rw [Nat.ofDigitChars_append, Nat.ofDigitChars_replicate_zero, Nat.mul_zero, Nat.ofDigitChars_append,
    Nat.ofDigitChars_replicate_zero, Nat.mul_comm]

/-- **The value of a spelling** is that of its significant digits at its exponent. -/
theorem value_eq (s : Spelling) :
    s.value = Nat.ofDigitChars 10 s.significant 0 * 10 ^ (s.exponent + 1 - s.significant.length) := by
  obtain ⟨i, j, hdigits, hdrop⟩ := s.digits_eq
  have hexponent : s.exponent + 1 - s.significant.length = s.scale + j := by
    rw [exponent, hdrop, List.length_append, List.length_replicate]
    push_cast
    ring
  rw [value, hdigits, value_zeros, hexponent, zpow_add₀ (by norm_num), zpow_natCast]
  push_cast
  ring

/-- Spellings with the same significant digits and exponent have the same value. -/
theorem value_congr {s t : Spelling} (hsignificant : s.significant = t.significant)
    (hexponent : s.exponent = t.exponent) : s.value = t.value := by
  rw [value_eq, value_eq, hsignificant, hexponent]

theorem ofDigitChars_lt {ds : List Char} (h : ∀ c ∈ ds, c.isDigit) :
    Nat.ofDigitChars 10 ds 0 < 10 ^ ds.length := by
  induction ds using List.reverseRecOn with
  | nil => decide
  | append_singleton ds c ih =>
    have hc := (Text.digitChar_isDigit (h c (by simp))).1
    have hds := ih fun d hd => h d (List.mem_append_left _ hd)
    have hvalue : Nat.ofDigitChars 10 (ds ++ [c]) 0 =
        10 * Nat.ofDigitChars 10 ds 0 + (c.toNat - 48) := by
      rw [Nat.ofDigitChars_append, Nat.ofDigitChars_cons, Nat.ofDigitChars_nil]
      rfl
    rw [hvalue, List.length_append, List.length_singleton, Nat.pow_succ]
    omega

theorem le_ofDigitChars {d : Char} {ds : List Char} (hd : d.isDigit) (hzero : d ≠ '0') :
    10 ^ ds.length ≤ Nat.ofDigitChars 10 (d :: ds) 0 := by
  have hpos : 1 ≤ d.toNat - 48 := by
    obtain ⟨hlow, _⟩ := Char.isDigit_iff_toNat.mp hd
    have hlow : 48 ≤ d.toNat := hlow
    have hne : d.toNat ≠ 48 := by
      intro heq
      refine hzero (Char.toNat_inj.mp ?_)
      exact heq
    omega
  rw [Nat.ofDigitChars_cons, Nat.ofDigitChars_eq_ofDigitChars_zero]
  have hle : 10 ^ ds.length * 1 ≤ 10 ^ ds.length * (10 * 0 + (d.toNat - '0'.toNat)) :=
    Nat.mul_le_mul_left _ (by simpa using hpos)
  omega

theorem significant_isDigit {s : Spelling} (h : ∀ c ∈ s.digits, c.isDigit) :
    ∀ c ∈ s.significant, c.isDigit := by
  obtain ⟨i, j, hdigits, _⟩ := s.digits_eq
  intro c hc
  refine h c ?_
  rw [hdigits]
  exact List.mem_append_right _ (List.mem_append_left _ hc)

/-- **The value is between two powers of ten.** -/
theorem exponent_bounds {s : Spelling} (h : s.Valid) :
    (10 : ℚ) ^ s.exponent ≤ s.value ∧ s.value < 10 ^ (s.exponent + 1) := by
  obtain ⟨d, rest, hsig⟩ := List.exists_cons_of_ne_nil h.nonzero
  have hmem : ∀ c ∈ s.significant, c.isDigit := significant_isDigit h.digits
  have hhead : d ≠ '0' := (trimmed_trimZeros s.digits).head d (by
    show d ∈ s.significant.head?
    rw [hsig]
    rfl)
  have hlow : 10 ^ rest.length ≤ Nat.ofDigitChars 10 s.significant 0 := by
    rw [hsig]
    exact le_ofDigitChars (hmem d (hsig ▸ List.mem_cons_self)) hhead
  have hhigh := ofDigitChars_lt hmem
  have hlength : s.significant.length = rest.length + 1 := by rw [hsig, List.length_cons]
  have hpos : (0 : ℚ) < 10 ^ (s.exponent + 1 - s.significant.length) := by positivity
  rw [value_eq]
  constructor
  · calc (10 : ℚ) ^ s.exponent
        = ((10 ^ rest.length : Nat) : ℚ) * 10 ^ (s.exponent + 1 - s.significant.length) := by
          rw [hlength]
          push_cast
          rw [← zpow_natCast, ← zpow_add₀ (by norm_num)]
          congr 1
          ring
      _ ≤ _ := mul_le_mul_of_nonneg_right (by exact_mod_cast hlow) hpos.le
  · calc (Nat.ofDigitChars 10 s.significant 0 : ℚ) * 10 ^ (s.exponent + 1 - s.significant.length)
        < ((10 ^ s.significant.length : Nat) : ℚ) * 10 ^ (s.exponent + 1 - s.significant.length) :=
          mul_lt_mul_of_pos_right (by exact_mod_cast hhigh) hpos
      _ = 10 ^ (s.exponent + 1) := by
          push_cast
          rw [← zpow_natCast, ← zpow_add₀ (by norm_num)]
          congr 1
          ring

/-- The exponent of digits with zeros around them. -/
theorem significant_of_zeros {s : Spelling} {ds : List Char} (hne : ds ≠ []) (h : Trimmed ds)
    {i j : Nat} (hdigits : s.digits = replicate i '0' ++ ds ++ replicate j '0') :
    s.significant = ds ∧ s.exponent = s.scale + (ds.length + j) - 1 := by
  constructor
  · rw [significant, hdigits, trimZeros_replicate hne h]
  · rw [exponent, hdigits, dropWhile_replicate hne h, List.length_append, List.length_replicate]
    push_cast
    rfl

end Spelling

end AxiomDesktop
