import AxiomDesktop.Data.JsonReader

/-!
# Texts of identifiers

The text of a UUID is plain and has 36 bytes (`Text.uuid_plain`), and different UUIDs have different
ones (`Text.uuid_injective`).
-/

namespace AxiomDesktop.Text

theorem mem_toDigits_hex {n : Nat} {c : Char} (h : c ∈ Nat.toDigits 16 n) :
    ∃ d < 16, c = Nat.digitChar d := by
  induction n using Nat.strongRecOn with
  | ind n ih =>
    rw [Nat.toDigits_eq_if (by omega)] at h
    split at h
    · next hlt => exact ⟨n, hlt, List.mem_singleton.mp h⟩
    · rcases List.mem_append.mp h with hprefix | hlast
      · exact ih (n / 16) (by omega) hprefix
      · exact ⟨n % 16, Nat.mod_lt n (by omega), List.mem_singleton.mp hlast⟩

/-- A text of hexadecimal digits is plain. -/
theorem hex_plain (width n : Nat) : Json.Plain (hex width n) := by
  have hdigit : ∀ d < 16, Json.isPlain (Nat.digitChar d) = true := by decide
  rw [Json.Plain, hex, String.toList_ofList, List.all_append, Bool.and_eq_true]
  constructor
  · exact List.all_eq_true.mpr fun c hc => by
      rw [List.eq_of_mem_replicate hc]
      rfl
  · refine List.all_eq_true.mpr fun c hc => ?_
    obtain ⟨d, hd, rfl⟩ := mem_toDigits_hex hc
    exact hdigit d hd

theorem hex_size {width n : Nat} (hwidth : 0 < width) (h : n < 16 ^ width) :
    (hex width n).utf8ByteSize = width := by
  have hlength := (Nat.length_toDigits_le_iff (b := 16) (by omega) hwidth).mpr h
  rw [Json.utf8ByteSize_plain (hex_plain width n), hex, String.toList_ofList, List.length_append,
    List.length_replicate]
  omega

/-- The text of an identifier is plain, and has 36 bytes. -/
theorem uuid_plain (value : BitVec 128) :
    Json.Plain (uuid value) ∧ (uuid value).utf8ByteSize = 36 := by
  have hdash : Json.Plain "-" ∧ "-".utf8ByteSize = 1 := by decide
  have hgroup : ∀ low, (hex 4 ((value.toNat >>> low) % 2 ^ 16)).utf8ByteSize = 4 := fun low =>
    hex_size (by omega) (Nat.mod_lt _ (by decide))
  have hfirst : (hex 8 (value.toNat >>> 96)).utf8ByteSize = 8 := by
    refine hex_size (by omega) ?_
    have hlt := value.isLt
    rw [Nat.shiftRight_eq_div_pow]
    omega
  have hlast : (hex 12 (value.toNat % 2 ^ 48)).utf8ByteSize = 12 :=
    hex_size (by omega) (Nat.mod_lt _ (by decide))
  constructor
  · have hjoin := fun {s t : String} => Json.plain_append (s := s) (t := t)
    exact hjoin (hjoin (hjoin (hjoin (hjoin (hjoin (hjoin (hjoin (hex_plain _ _) hdash.1) (hex_plain _ _))
      hdash.1) (hex_plain _ _)) hdash.1) (hex_plain _ _)) hdash.1) (hex_plain _ _)
  · simp only [uuid, String.utf8ByteSize_append, hgroup, hfirst, hlast, hdash.2]

/-! ## Different numbers -/

/-- The number of hexadecimal digits. -/
def ofHex (cs : List Char) : Nat :=
  cs.foldl (fun n c => 16 * n + (if c.toNat < 58 then c.toNat - 48 else c.toNat - 87)) 0

theorem ofHex_concat {cs : List Char} {d : Nat} (h : d < 16) :
    ofHex (cs ++ [Nat.digitChar d]) = 16 * ofHex cs + d := by
  have hdigit : ∀ d < 16, (if (Nat.digitChar d).toNat < 58 then (Nat.digitChar d).toNat - 48
      else (Nat.digitChar d).toNat - 87) = d := by decide
  rw [ofHex, List.foldl_append, List.foldl_cons, List.foldl_nil, hdigit d h]
  rfl

theorem ofHex_hex (zeros n : Nat) : ofHex (List.replicate zeros '0' ++ Nat.toDigits 16 n) = n := by
  have hzeros : ofHex (List.replicate zeros '0') = 0 := by
    induction zeros with
    | zero => rfl
    | succ zeros ih =>
      rw [List.replicate_succ']
      exact (ofHex_concat (d := 0) (by omega)).trans (by rw [ih])
  induction n using Nat.strongRecOn with
  | ind n ih =>
    rw [Nat.toDigits_eq_if (by omega)]
    split
    · next hlt =>
      rw [ofHex_concat hlt, hzeros]
      omega
    · rw [← List.append_assoc, ofHex_concat (Nat.mod_lt n (by omega)), ih (n / 16) (by omega)]
      omega

theorem hex_injective {width m n : Nat} (h : hex width m = hex width n) : m = n := by
  have hchars := congrArg String.toList h
  rw [hex, hex, String.toList_ofList, String.toList_ofList] at hchars
  have hvalue := congrArg ofHex hchars
  rwa [ofHex_hex, ofHex_hex] at hvalue

/-- Different identifiers have different texts. -/
theorem uuid_injective {a b : BitVec 128} (h : uuid a = uuid b) : a = b := by
  have hlength : ∀ {width m n : Nat}, 0 < width → m < 16 ^ width → n < 16 ^ width →
      (hex width m).toList.length = (hex width n).toList.length := fun hwidth hm hn => by
    rw [← Json.utf8ByteSize_plain (hex_plain _ _), ← Json.utf8ByteSize_plain (hex_plain _ _),
      hex_size hwidth hm, hex_size hwidth hn]
  have hgroup : ∀ n : Nat, n % 2 ^ 16 < 16 ^ 4 := fun n => Nat.mod_lt _ (by decide)
  have hlast : ∀ n : Nat, n % 2 ^ 48 < 16 ^ 12 := fun n => Nat.mod_lt _ (by decide)
  have hchars := congrArg String.toList h
  simp only [uuid, String.toList_append] at hchars
  obtain ⟨hchars, h0⟩ := List.append_inj' hchars (hlength (by decide) (hlast _) (hlast _))
  obtain ⟨hchars, h48⟩ := List.append_inj' (List.append_inj' hchars rfl).1
    (hlength (by decide) (hgroup _) (hgroup _))
  obtain ⟨hchars, h64⟩ := List.append_inj' (List.append_inj' hchars rfl).1
    (hlength (by decide) (hgroup _) (hgroup _))
  obtain ⟨hchars, h80⟩ := List.append_inj' (List.append_inj' hchars rfl).1
    (hlength (by decide) (hgroup _) (hgroup _))
  have h96 := (List.append_inj' hchars rfl).1
  have h0 := hex_injective (String.toList_inj.mp h0)
  have h48 := hex_injective (String.toList_inj.mp h48)
  have h64 := hex_injective (String.toList_inj.mp h64)
  have h80 := hex_injective (String.toList_inj.mp h80)
  have h96 := hex_injective (String.toList_inj.mp h96)
  simp only [Nat.shiftRight_eq_div_pow] at h48 h64 h80 h96
  exact BitVec.eq_of_toNat_eq (by omega)

/-- Numbers of 48 bits have different texts as identifiers. -/
theorem uuid_ofNat {i j : Nat} (hi : i < 2 ^ 48) (hj : j < 2 ^ 48)
    (h : uuid (BitVec.ofNat 128 i) = uuid (BitVec.ofNat 128 j)) : i = j := by
  have hsame := congrArg BitVec.toNat (uuid_injective h)
  rwa [BitVec.toNat_ofNat, BitVec.toNat_ofNat, Nat.mod_eq_of_lt (by omega),
    Nat.mod_eq_of_lt (by omega)] at hsame

end AxiomDesktop.Text
