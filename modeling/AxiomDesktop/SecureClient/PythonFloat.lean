import AxiomDesktop.Data.Spelling
import Mathlib.Data.List.TakeWhile

/-!
# Numbers as Python writes them

`pythonFloatRepr` rewrites the spelling that `ryu` gives of a double (`formatFinite`) to the one of
Python's `repr`: the same significant digits at the same exponent (`python_repr`), with an exponent
where the number is below `10 ^ -4` or at least `10 ^ 16`.
-/

namespace AxiomDesktop

open List (replicate)

/-! ## The function -/

/-- `str::parse::<i32>`. -/
def parseI32 (cs : List Char) : Option Int :=
  match cs with
  | '-' :: cs => (Text.digits? cs).bind fun n => if n ≤ 2 ^ 31 then some (-(n : Int)) else none
  | '+' :: cs => (Text.digits? cs).bind fun n => if n < 2 ^ 31 then some (n : Int) else none
  | cs => (Text.digits? cs).bind fun n => if n < 2 ^ 31 then some (n : Int) else none

/-- The mantissa, and what stands behind an `e`. -/
def splitExponent (unsigned : List Char) : List Char × Option Int :=
  let before := fun c => c ≠ 'e' ∧ c ≠ 'E'
  match unsigned.dropWhile before with
  | [] => (unsigned, none)
  | _ :: exponent => (unsigned.takeWhile before, parseI32 exponent)

/-- The zeros at the end are popped, but for a digit that stands alone; the digits are given from
the last one on. -/
def popZeros : List Char → List Char
  | '0' :: d :: ds => popZeros (d :: ds)
  | ds => ds

/-- `python_float_repr`; `formatFinite` is `ryu::Buffer::format_finite`, of the bits of a double. A
spelling has at most 24 bytes, so its indices are numbers of 32 bits. -/
def pythonFloatRepr (formatFinite : BitVec 64 → String) (value : BitVec 64) : String :=
  if value.setWidth 63 = 0 then if value.msb then "-0.0" else "0.0"
  else
    let rendered := (formatFinite value).toList
    let (negative, unsigned) :=
      match Text.stripPrefix ['-'] rendered with
      | some unsigned => (true, unsigned)
      | none => (false, rendered)
    let (mantissa, explicitExponent) := splitExponent unsigned
    let decimalIndex := (mantissa.takeWhile (· ≠ '.')).length
    let digits := mantissa.filter (· ≠ '.')
    let firstNonzero := (digits.findIdx? (· ≠ '0')).getD 0
    let exponent : Int := explicitExponent.getD (decimalIndex - firstNonzero - 1)
    let digits := (popZeros (digits.drop firstNonzero).reverse).reverse
    let sign := if negative then ['-'] else []
    if ¬ (-4 ≤ exponent ∧ exponent < 16) then
      let absolute := exponent.natAbs
      String.ofList (sign ++ digits.take 1 ++ (if digits.length > 1 then '.' :: digits.drop 1 else []) ++
        ['e', if exponent < 0 then '-' else '+'] ++ (if absolute < 10 then ['0'] else []) ++
        (toString absolute).toList)
    else if exponent < 0 then
      String.ofList (sign ++ ['0', '.'] ++ replicate (-exponent - 1).toNat '0' ++ digits)
    else
      let integerDigits := exponent.toNat + 1
      if digits.length ≤ integerDigits then
        String.ofList (sign ++ digits ++ replicate (integerDigits - digits.length) '0' ++ ['.', '0'])
      else String.ofList (sign ++ digits.take integerDigits ++ '.' :: digits.drop integerDigits)

/-! ## What ryu and Python write -/

namespace Spelling

/-- The sign of a double. -/
def sign (value : BitVec 64) : List Char := if value.msb then ['-'] else []

/-- An exponent as `ryu` writes it. -/
def ryuExponent (exponent : Int) : List Char :=
  (if exponent < 0 then ['-'] else []) ++ (toString exponent.natAbs).toList

/-- An exponent as Python writes it: with a sign, and at least two digits. -/
def pythonExponent (exponent : Int) : List Char :=
  (if exponent < 0 then '-' else '+') ::
    ((if exponent.natAbs < 10 then ['0'] else []) ++ (toString exponent.natAbs).toList)

/-- The exponent of a spelling is a number of 32 bits. -/
def Fits : Spelling → Prop
  | positional .. => True
  | exponential _ _ exponent => -2 ^ 31 ≤ exponent ∧ exponent < 2 ^ 31

/-- `ryu` spells a double. -/
structure Ryu (formatFinite : BitVec 64 → String) (value : BitVec 64) (s : Spelling) : Prop where
  valid : s.Valid
  fits : s.Fits
  text : formatFinite value = String.ofList (sign value ++ s.chars ryuExponent)

/-- Python's spelling of digits at an exponent. -/
def python (ds : List Char) (exponent : Int) : Spelling :=
  if ¬ (-4 ≤ exponent ∧ exponent < 16) then exponential (ds.headD '0') ds.tail exponent
  else if exponent < 0 then positional ['0'] (replicate (-exponent - 1).toNat '0' ++ ds)
  else if ds.length ≤ exponent.toNat + 1 then
    positional (ds ++ replicate (exponent.toNat + 1 - ds.length) '0') ['0']
  else positional (ds.take (exponent.toNat + 1)) (ds.drop (exponent.toNat + 1))

theorem python_isExponential (ds : List Char) (exponent : Int) :
    (python ds exponent).IsExponential ↔ exponent < -4 ∨ 16 ≤ exponent := by
  unfold python
  split
  · next h =>
    refine iff_of_true trivial ?_
    omega
  · next h =>
    have hinside : ¬ (exponent < -4 ∨ 16 ≤ exponent) := by omega
    split
    · exact iff_of_false id hinside
    · split
      · exact iff_of_false id hinside
      · exact iff_of_false id hinside

/-- Python's spelling is the digits with zeros around them, at the exponent. -/
theorem python_digits {ds : List Char} (hne : ds ≠ []) (exponent : Int) :
    ∃ i j : Nat, (python ds exponent).digits = replicate i '0' ++ ds ++ replicate j '0' ∧
      (python ds exponent).scale + (ds.length + j) - 1 = exponent := by
  unfold python
  split
  · obtain ⟨d, rest, rfl⟩ := List.exists_cons_of_ne_nil hne
    refine ⟨0, 0, by simp [digits], ?_⟩
    simp only [scale, List.length_cons, List.tail_cons]
    omega
  · split
    · refine ⟨(-exponent - 1).toNat + 1, 0, by simp [digits, List.replicate_succ], ?_⟩
      simp only [scale, List.length_append, List.length_replicate]
      omega
    · split
      · refine ⟨0, exponent.toNat + 1 - ds.length + 1, by simp [digits, List.replicate_succ'], ?_⟩
        simp only [scale, List.length_singleton]
        omega
      · refine ⟨0, 0, by simp [digits], ?_⟩
        simp only [scale, List.length_drop]
        omega

theorem python_significant {ds : List Char} (hne : ds ≠ []) (h : Trimmed ds) (exponent : Int) :
    (python ds exponent).significant = ds ∧ (python ds exponent).exponent = exponent := by
  obtain ⟨i, j, hdigits, hscale⟩ := python_digits hne exponent
  obtain ⟨hsig, hexp⟩ := significant_of_zeros hne h hdigits
  exact ⟨hsig, hexp.trans hscale⟩

theorem python_shaped {ds : List Char} (hne : ds ≠ []) (h : Trimmed ds) (exponent : Int) :
    (python ds exponent).Shaped := by
  unfold python
  split
  · obtain ⟨d, rest, rfl⟩ := List.exists_cons_of_ne_nil hne
    exact h.head d rfl
  · split
    · exact ⟨by simp, by simp [hne]⟩
    · split
      · exact ⟨by simp [hne], by simp⟩
      · next hlong =>
        refine ⟨by simp [hne], fun hnil => hlong ?_⟩
        exact List.drop_eq_nil_iff.mp hnil

theorem python_valid {ds : List Char} (hne : ds ≠ []) (h : Trimmed ds)
    (hdigits : ∀ c ∈ ds, c.isDigit) (exponent : Int) : (python ds exponent).Valid where
  digits := by
    obtain ⟨i, j, heq, _⟩ := python_digits hne exponent
    intro c hc
    rw [heq, List.mem_append, List.mem_append] at hc
    rcases hc with (hzero | hmem) | hzero
    · rw [List.eq_of_mem_replicate hzero]
      rfl
    · exact hdigits c hmem
    · rw [List.eq_of_mem_replicate hzero]
      rfl
  nonzero := by
    rw [(python_significant hne h exponent).1]
    exact hne
  shaped := python_shaped hne h exponent

/-! ## What is read of a spelling -/

/-- What stands before the exponent. -/
def mantissa : Spelling → List Char
  | positional whole fraction => whole ++ '.' :: fraction
  | exponential head tail _ => head :: if tail = [] then [] else '.' :: tail

/-- The exponent that is written. -/
def explicit : Spelling → Option Int
  | positional .. => none
  | exponential _ _ exponent => some exponent

/-- The digits before the point. -/
def point : Spelling → Nat
  | positional whole _ => whole.length
  | exponential .. => 1

theorem ne_of_isDigit {c d : Char} (hc : c.isDigit) (hd : d.isDigit = false) : c ≠ d := by
  rintro rfl
  rw [hd] at hc
  cases hc

theorem parseI32_ryuExponent {exponent : Int} (h : -2 ^ 31 ≤ exponent ∧ exponent < 2 ^ 31) :
    parseI32 (ryuExponent exponent) = some exponent := by
  have hdigits : Text.digits? (toString exponent.natAbs).toList = some exponent.natAbs :=
    Text.digits?_toString _
  unfold ryuExponent
  split
  · next hneg =>
    show (Text.digits? (toString exponent.natAbs).toList).bind _ = some exponent
    rw [hdigits, Option.bind_some, if_pos (by omega)]
    exact congrArg some (by omega)
  · next hpos =>
    show parseI32 (toString exponent.natAbs).toList = some exponent
    have hmem : ∀ c ∈ (toString exponent.natAbs).toList, c.isDigit := by
      rw [Nat.toString_eq_ofList_toDigits, String.toList_ofList]
      exact fun c hc => Nat.isDigit_of_mem_toDigits (by omega) (by omega) hc
    unfold parseI32
    split
    · next heq => exact absurd (hmem '-' (by rw [heq]; exact List.mem_cons_self)) (by decide)
    · next heq => exact absurd (hmem '+' (by rw [heq]; exact List.mem_cons_self)) (by decide)
    · rw [hdigits, Option.bind_some, if_pos (by omega)]
      exact congrArg some (by omega)

theorem mem_mantissa {s : Spelling} {c : Char} (h : c ∈ s.mantissa) : c ∈ s.digits ∨ c = '.' := by
  cases s with
  | positional whole fraction =>
    simp only [mantissa, List.mem_append, List.mem_cons] at h
    simp only [digits, List.mem_append]
    tauto
  | exponential head tail exponent =>
    simp only [mantissa, List.mem_cons] at h
    simp only [digits, List.mem_cons]
    rcases h with heq | hrest
    · exact .inl (.inl heq)
    · by_cases htail : tail = []
      · rw [if_pos htail] at hrest
        cases hrest
      · rw [if_neg htail, List.mem_cons] at hrest
        rcases hrest with heq | hmem
        · exact .inr heq
        · exact .inl (.inr hmem)

/-- The exponent of a spelling is split off. -/
theorem splitExponent_chars {s : Spelling} (hdigits : ∀ c ∈ s.digits, c.isDigit) (hfits : s.Fits) :
    splitExponent (s.chars ryuExponent) = (s.mantissa, s.explicit) := by
  have hplain : ∀ c ∈ s.mantissa, decide (c ≠ 'e' ∧ c ≠ 'E') = true := by
    intro c hc
    rw [decide_eq_true_eq]
    rcases mem_mantissa hc with hmem | rfl
    · exact ⟨ne_of_isDigit (hdigits c hmem) rfl, ne_of_isDigit (hdigits c hmem) rfl⟩
    · decide
  cases s with
  | positional whole fraction =>
    have hdrop : (whole ++ '.' :: fraction).dropWhile (fun c => c ≠ 'e' ∧ c ≠ 'E') = [] :=
      List.dropWhile_eq_nil_iff.mpr hplain
    unfold splitExponent
    simp only [chars, hdrop]
    rfl
  | exponential head tail exponent =>
    have hchars : (exponential head tail exponent).chars ryuExponent =
        (exponential head tail exponent).mantissa ++ 'e' :: ryuExponent exponent := rfl
    have hdrop : ((exponential head tail exponent).mantissa ++ 'e' :: ryuExponent exponent).dropWhile
        (fun c => c ≠ 'e' ∧ c ≠ 'E') = 'e' :: ryuExponent exponent := by
      rw [List.dropWhile_append_of_pos hplain]
      rfl
    have htake : ((exponential head tail exponent).mantissa ++ 'e' :: ryuExponent exponent).takeWhile
        (fun c => c ≠ 'e' ∧ c ≠ 'E') = (exponential head tail exponent).mantissa := by
      rw [List.takeWhile_append_of_pos hplain]
      exact List.append_nil _
    unfold splitExponent
    rw [hchars]
    simp only [hdrop, htake, parseI32_ryuExponent hfits]
    rfl

/-- The point of a mantissa is behind the first digits, and is left out of them. -/
theorem mantissa_digits {s : Spelling} (hdigits : ∀ c ∈ s.digits, c.isDigit) :
    s.mantissa.filter (· ≠ '.') = s.digits ∧
      (s.mantissa.takeWhile (· ≠ '.')).length = s.point := by
  have hall : ∀ ds : List Char, (∀ c ∈ ds, c.isDigit) → ∀ c ∈ ds, decide (c ≠ '.') = true :=
    fun ds h c hc => decide_eq_true (ne_of_isDigit (h c hc) rfl)
  cases s with
  | positional whole fraction =>
    have hwhole := hall whole fun c hc => hdigits c (List.mem_append_left _ hc)
    have hfraction := hall fraction fun c hc => hdigits c (List.mem_append_right _ hc)
    constructor
    · simp only [mantissa, List.filter_append, List.filter_eq_self.mpr hwhole]
      rw [List.filter_cons_of_neg (by decide), List.filter_eq_self.mpr hfraction]
      rfl
    · simp only [mantissa, point]
      rw [List.takeWhile_append_of_pos hwhole]
      simp
  | exponential head tail exponent =>
    have hhead := hall [head] fun c hc => hdigits c (List.mem_cons.mpr (.inl (List.mem_singleton.mp hc)))
    have htail := hall tail fun c hc => hdigits c (List.mem_cons_of_mem _ hc)
    have hfirst : head ≠ '.' := of_decide_eq_true (hhead head (List.mem_singleton.mpr rfl))
    by_cases hnil : tail = []
    · simp [mantissa, point, digits, hnil, hfirst]
    · have hkept : tail.filter (fun c => !decide (c = '.')) = tail :=
        List.filter_eq_self.mpr fun c hc => by simpa using htail c hc
      simp [mantissa, point, digits, hnil, hfirst, hkept]

theorem findIdx_zeros {d : Char} (h : d ≠ '0') (rest : List Char) (i : Nat) :
    (replicate i '0' ++ d :: rest).findIdx? (· ≠ '0') = some i := by
  induction i with
  | zero =>
    rw [List.replicate_zero, List.nil_append, List.findIdx?_cons, if_pos (decide_eq_true h)]
  | succ i ih =>
    rw [List.replicate_succ, List.cons_append, List.findIdx?_cons, ih]
    rfl

theorem popZeros_replicate {ds : List Char} (h : ∀ c ∈ ds.head?, c ≠ '0') (hne : ds ≠ []) (j : Nat) :
    popZeros (replicate j '0' ++ ds) = ds := by
  induction j with
  | zero =>
    obtain ⟨d, rest, rfl⟩ := List.exists_cons_of_ne_nil hne
    have hd := h d rfl
    show popZeros (d :: rest) = d :: rest
    unfold popZeros
    split
    · next heq => exact absurd (List.cons.inj heq).1 hd
    · rfl
  | succ j ih =>
    obtain ⟨d, rest, heq⟩ := List.exists_cons_of_ne_nil
      (show replicate j '0' ++ ds ≠ [] by simp [hne])
    rw [List.replicate_succ, List.cons_append, heq]
    rw [heq] at ih
    exact ih

/-- The first digit that is no zero, and the digits from there to the last that is none. -/
theorem digits_read {s : Spelling} (hne : s.significant ≠ []) :
    ∃ i : Nat, s.digits.findIdx? (· ≠ '0') = some i ∧
      (popZeros (s.digits.drop i).reverse).reverse = s.significant ∧
      (s.digits.length : Int) = i + (s.digits.dropWhile (· = '0')).length := by
  obtain ⟨i, j, hdigits, hdrop⟩ := s.digits_eq
  have htrim : Trimmed s.significant := trimmed_trimZeros s.digits
  refine ⟨i, ?_, ?_, ?_⟩
  · obtain ⟨d, rest, hsig⟩ := List.exists_cons_of_ne_nil hne
    rw [hdigits, hsig]
    exact findIdx_zeros (htrim.head d (by rw [hsig]; rfl)) _ i
  · have hrest : s.digits.drop i = s.significant ++ replicate j '0' := by
      rw [hdigits]
      exact List.drop_left' List.length_replicate
    rw [hrest, List.reverse_append, List.reverse_replicate, popZeros_replicate _ (by simpa using hne),
      List.reverse_reverse]
    intro c hc
    rw [List.head?_reverse] at hc
    exact htrim.last c hc
  · have hcount := congrArg List.length hdigits
    rw [List.length_append, List.length_replicate] at hcount
    rw [hdrop, hcount]
    push_cast
    rfl

/-- The exponent of a spelling is the one written, or that of the first digit that is no zero. -/
theorem exponent_read {s : Spelling} (hshaped : s.Shaped) {i : Nat}
    (h : (s.digits.length : Int) = i + (s.digits.dropWhile (· = '0')).length) :
    s.explicit.getD (s.point - i - 1) = s.exponent := by
  cases s with
  | positional whole fraction =>
    have hlength : (positional whole fraction).digits.length = whole.length + fraction.length :=
      List.length_append
    show (whole.length : Int) - i - 1 = -fraction.length +
      (List.length (List.dropWhile (· = '0') (positional whole fraction).digits) : Int) - 1
    omega
  | exponential head tail exponent =>
    have hnonzero : head ≠ '0' := hshaped
    have hhead : ¬ decide (head = '0') = true := by simpa using hnonzero
    have hdrop : (exponential head tail exponent).digits.dropWhile (· = '0') = head :: tail :=
      List.dropWhile_cons_of_neg hhead
    show exponent = exponent - tail.length +
      (List.length (List.dropWhile (· = '0') (exponential head tail exponent).digits) : Int) - 1
    rw [hdrop, List.length_cons]
    push_cast
    ring

theorem chars_head {s : Spelling} (h : s.Valid) (f : Int → List Char) :
    ∃ d rest, s.chars f = d :: rest ∧ d.isDigit := by
  cases s with
  | positional whole fraction =>
    obtain ⟨d, rest, rfl⟩ := List.exists_cons_of_ne_nil h.shaped.1
    exact ⟨d, rest ++ '.' :: fraction, rfl, h.digits d List.mem_cons_self⟩
  | exponential head tail exponent =>
    exact ⟨head, _, rfl, h.digits head List.mem_cons_self⟩

/-- The sign is stripped off. -/
theorem strip_sign {s : Spelling} (h : s.Valid) (value : BitVec 64) :
    (match Text.stripPrefix ['-'] (sign value ++ s.chars ryuExponent) with
      | some unsigned => (true, unsigned)
      | none => (false, sign value ++ s.chars ryuExponent)) = (value.msb, s.chars ryuExponent) := by
  obtain ⟨d, rest, hchars, hdigit⟩ := chars_head h ryuExponent
  have hd : d ≠ '-' := ne_of_isDigit hdigit rfl
  cases hmsb : value.msb with
  | true => simp [sign, hmsb, Text.stripPrefix]
  | false => simp [sign, hmsb, Text.stripPrefix, hchars, hd.symm]

/-- What the function writes of digits at an exponent is Python's spelling of them. -/
theorem python_chars (value : BitVec 64) {ds : List Char} (hne : ds ≠ []) (exponent : Int) :
    (if ¬ (-4 ≤ exponent ∧ exponent < 16) then
      String.ofList (sign value ++ ds.take 1 ++ (if ds.length > 1 then '.' :: ds.drop 1 else []) ++
        ['e', if exponent < 0 then '-' else '+'] ++ (if exponent.natAbs < 10 then ['0'] else []) ++
        (toString exponent.natAbs).toList)
    else if exponent < 0 then
      String.ofList (sign value ++ ['0', '.'] ++ replicate (-exponent - 1).toNat '0' ++ ds)
    else
      if ds.length ≤ exponent.toNat + 1 then
        String.ofList (sign value ++ ds ++ replicate (exponent.toNat + 1 - ds.length) '0' ++ ['.', '0'])
      else
        String.ofList (sign value ++ ds.take (exponent.toNat + 1) ++ '.' :: ds.drop (exponent.toNat + 1))) =
      String.ofList (sign value ++ (python ds exponent).chars pythonExponent) := by
  unfold python
  split
  · obtain ⟨d, rest, rfl⟩ := List.exists_cons_of_ne_nil hne
    by_cases hrest : rest = []
    · simp [chars, pythonExponent, hrest]
    · have hlong : 0 < rest.length := List.length_pos_of_ne_nil hrest
      simp [chars, pythonExponent, hrest, hlong]
  · split
    · simp [chars]
    · split
      · simp [chars]
      · simp [chars]

end Spelling

/-- **The function writes Python's spelling.** A zero is written with its sign. What `ryu` spells of
any other double is written with the same value, significant digits and sign, with an exponent
exactly when the number is below `10 ^ -4` or at least `10 ^ 16`, and otherwise with a digit on each
side of the point. -/
theorem python_repr (formatFinite : BitVec 64 → String) (value : BitVec 64) :
    (value.setWidth 63 = 0 →
      pythonFloatRepr formatFinite value = String.ofList (Spelling.sign value ++ ['0', '.', '0'])) ∧
    (value.setWidth 63 ≠ 0 → ∀ s : Spelling, Spelling.Ryu formatFinite value s → ∃ out : Spelling,
      pythonFloatRepr formatFinite value =
        String.ofList (Spelling.sign value ++ out.chars Spelling.pythonExponent) ∧
      out.Valid ∧ out.value = s.value ∧ out.significant = s.significant ∧ out.exponent = s.exponent ∧
      (10 : ℚ) ^ s.exponent ≤ s.value ∧ s.value < 10 ^ (s.exponent + 1) ∧
      (out.IsExponential ↔ s.exponent < -4 ∨ 16 ≤ s.exponent)) := by
  constructor
  · intro hzero
    rw [pythonFloatRepr, if_pos hzero]
    cases hmsb : value.msb with
    | true => simp [Spelling.sign, hmsb]
    | false => simp [Spelling.sign, hmsb]
  · rintro hzero s ⟨hvalid, hfits, htext⟩
    obtain ⟨i, hfirst, hdigits, hlength⟩ := Spelling.digits_read hvalid.nonzero
    obtain ⟨hfilter, hpoint⟩ := Spelling.mantissa_digits hvalid.digits
    have htrim : Trimmed s.significant := trimmed_trimZeros s.digits
    have hmem : ∀ c ∈ s.significant, c.isDigit := Spelling.significant_isDigit hvalid.digits
    obtain ⟨hsignificant, hexponent⟩ := Spelling.python_significant hvalid.nonzero htrim s.exponent
    refine ⟨Spelling.python s.significant s.exponent, ?_, Spelling.python_valid hvalid.nonzero htrim hmem _,
      Spelling.value_congr hsignificant hexponent, hsignificant, hexponent,
      (Spelling.exponent_bounds hvalid).1, (Spelling.exponent_bounds hvalid).2,
      Spelling.python_isExponential _ _⟩
    rw [← Spelling.python_chars value hvalid.nonzero, pythonFloatRepr, if_neg hzero]
    simp only [htext, String.toList_ofList, Spelling.strip_sign hvalid,
      Spelling.splitExponent_chars hvalid.digits hfits, hfilter, hpoint, hfirst, Option.getD_some, hdigits,
      Spelling.exponent_read hvalid.shaped hlength]
    rfl

/-- The number of the spelling `-1.5`. -/
theorem python_repr_negative :
    pythonFloatRepr (fun _ => "-1.5") 0xBFF8000000000000 = "-1.5" ∧
      ∃ out : Spelling, out.Valid ∧ out.value = (Spelling.positional ['1'] ['5']).value := by
  have hryu : Spelling.Ryu (fun _ => "-1.5") 0xBFF8000000000000 (.positional ['1'] ['5']) :=
    ⟨⟨List.all_eq_true.mp rfl, by decide, by simp [Spelling.Shaped]⟩, trivial, rfl⟩
  obtain ⟨out, _, hvalid, hvalue, _⟩ :=
    (python_repr (fun _ => "-1.5") 0xBFF8000000000000).2 (by decide) _ hryu
  exact ⟨by decide +kernel, out, hvalid, hvalue⟩

end AxiomDesktop
