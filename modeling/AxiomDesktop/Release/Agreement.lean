import AxiomDesktop.Release.Publish
import AxiomDesktop.Release.ReadBack

/-!
# Two implementations of a release

The scripts that publish releases, and the desktop, check a release in JavaScript
(`Publish.parseRelease`), the native client in Rust (`Manifest.parseRelease`). They accept the same
releases (`parseRelease_agrees`) but for one slip of the native check: it takes a file whose name
ends in `.pacman` for a package of pacman, where the scripts know only `.pkg.tar.xz` and
`.pkg.tar.zst`.
-/

namespace AxiomDesktop

namespace Text

theorem splitChar_append_cons {c : Char} (front rest : List Char) :
    splitChar c (front ++ c :: rest) = splitChar c front ++ splitChar c rest := by
  simp only [splitChar_eq_splitOn, List.splitOn_append_cons_self]

/-- The last piece of a text is what stands behind its last separator. -/
theorem getLast?_splitChar {c : Char} {cs piece : List Char} (hmem : c ∈ cs) (hpiece : c ∉ piece) :
    (splitChar c cs).getLast? = some piece ↔ c :: piece <:+ cs := by
  have hlast : ∀ front rest, c ∉ rest →
      (splitChar c (front ++ c :: rest)).getLast? = some rest := by
    intro front rest hrest
    rw [splitChar_append_cons, splitChar_of_notMem hrest, List.getLast?_concat]
  constructor
  · intro h
    obtain ⟨rest, front, hcs, hrest⟩ := List.eq_append_cons_of_mem (List.mem_reverse.mpr hmem)
    have hcs : cs = front.reverse ++ c :: rest.reverse := by
      rw [← List.reverse_reverse cs, hcs]
      simp
    rw [hcs, hlast _ _ (by simpa using hrest)] at h
    rw [hcs, Option.some.inj h]
    exact List.suffix_append _ _
  · rintro ⟨front, rfl⟩
    exact hlast front piece hpiece

end Text

/-! ## Signatures -/

namespace Base64

theorem isAlphanum_iff {c : Char} : c.isAlphanum = true ↔
    ((65 ≤ c.toNat ∧ c.toNat ≤ 90) ∨ (97 ≤ c.toNat ∧ c.toNat ≤ 122)) ∨
      (48 ≤ c.toNat ∧ c.toNat ≤ 57) := by
  delta Char.isAlphanum Char.isAlpha Char.isUpper Char.isLower Char.isDigit
  simp only [Bool.or_eq_true, Bool.and_eq_true, decide_eq_true_eq, UInt32.le_iff_toNat_le,
    ge_iff_le]
  exact Iff.rfl

/-- The digits are the letters of Base64. -/
theorem digit?_isSome {c : Char} : (digit? c).isSome ↔ Publish.isBase64 c := by
  simp only [Publish.isBase64, Bool.or_eq_true, decide_eq_true_eq, isAlphanum_iff, ← Char.toNat_inj]
  change _ ↔ (_ ∨ c.toNat = 43) ∨ c.toNat = 47
  simp only [digit?]
  split_ifs <;> simp <;> omega

/-- The last letter before the padding has four bits that are zero. -/
theorem digit?_padded {c : Char} :
    (∃ n, digit? c = some n ∧ n % 16 = 0) ↔ "AQgw".toList.contains c := by
  have hletters : "AQgw".toList.contains c ↔
      c.toNat = 65 ∨ c.toNat = 81 ∨ c.toNat = 103 ∨ c.toNat = 119 := by
    simp only [List.contains_eq_mem, decide_eq_true_eq]
    change c ∈ ['A', 'Q', 'g', 'w'] ↔ _
    simp only [List.mem_cons, List.not_mem_nil, or_false, ← Char.toNat_inj]
    exact Iff.rfl
  rw [hletters]
  simp only [digit?]
  split_ifs <;> simp <;> omega

/-- What decodes to a byte more than a multiple of three is letters that end in a padded one. -/
theorem padded_of_decode {cs : List Char} {bytes : List UInt8} {k : Nat}
    (h : decode cs = some bytes) (hlength : bytes.length = 3 * k + 1) :
    ∃ front last, cs = front ++ [last, '=', '='] ∧ front.length = 4 * k + 1 ∧
      front.all Publish.isBase64 ∧ "AQgw".toList.contains last := by
  fun_induction decode cs generalizing bytes k with
  | case2 a b m n hb ha hpad =>
    cases Option.some.inj h
    obtain rfl : k = 0 := by simpa using hlength
    have hletter : Publish.isBase64 a := digit?_isSome.mp (by rw [ha]; rfl)
    exact ⟨[a], b, rfl, rfl, by simpa using hletter, digit?_padded.mp ⟨_, hb, hpad⟩⟩
  | case8 a b c d rest _ _ _ _ _ _ hd hc hb ha bytes' hrest ih =>
    cases Option.some.inj h
    obtain ⟨k, rfl⟩ : ∃ k', k = k' + 1 := by
      refine ⟨k - 1, ?_⟩
      simp only [List.length_cons] at hlength
      omega
    obtain ⟨front, last, rfl, hfront, hall, hlast⟩ := ih hrest (k := k) (by
      simp only [List.length_cons] at hlength
      omega)
    have hletter : ∀ {c n}, digit? c = some n → Publish.isBase64 c := fun h =>
      digit?_isSome.mp (by rw [h]; rfl)
    refine ⟨a :: b :: c :: d :: front, last, rfl, by simp only [List.length_cons]; omega, ?_, hlast⟩
    simp only [List.all_cons, hletter ha, hletter hb, hletter hc, hletter hd, hall, Bool.and_self]
  | case5 =>
    cases Option.some.inj h
    simp only [List.length_cons, List.length_nil] at hlength
    omega
  | case1 =>
    cases Option.some.inj h
    simp only [List.length_nil] at hlength
    omega
  | _ => cases h

/-- Letters that end in a padded one decode. -/
theorem decode_of_padded {k : Nat} {front : List Char} {last : Char}
    (hfront : front.length = 4 * k + 1) (hall : front.all Publish.isBase64)
    (hlast : "AQgw".toList.contains last) :
    ∃ bytes, decode (front ++ [last, '=', '=']) = some bytes ∧ bytes.length = 3 * k + 1 := by
  induction k generalizing front with
  | zero =>
    obtain ⟨a, rfl⟩ := List.length_eq_one_iff.mp hfront
    obtain ⟨m, ha⟩ := Option.isSome_iff_exists.mp (digit?_isSome.mpr (by simpa using hall))
    obtain ⟨n, hn, hpad⟩ := digit?_padded.mpr hlast
    exact ⟨[_], by simp only [List.cons_append, List.nil_append, decode, ha, hn, hpad, if_true]; rfl, rfl⟩
  | succ k ih =>
    match front, hfront with
    | a :: b :: c :: d :: front, hfront =>
      simp only [List.all_cons, Bool.and_eq_true, ← digit?_isSome, Option.isSome_iff_exists] at hall
      obtain ⟨⟨m, ha⟩, ⟨n, hb⟩, ⟨p, hc⟩, ⟨q, hd⟩, hall⟩ := hall
      obtain ⟨bytes, hbytes, hlength⟩ := @ih front (by
        simp only [List.length_cons] at hfront
        omega) hall
      have hmore : front ++ [last, '=', '='] ≠ [] := by simp
      rw [List.cons_append, List.cons_append, List.cons_append, List.cons_append,
        decode.eq_4 _ _ _ _ _ (fun _ _ h => hmore h) fun _ h => hmore h]
      simp only [ha, hb, hc, hd, hbytes]
      refine ⟨_, rfl, ?_⟩
      simp only [List.length_cons, hlength]
      omega

end Base64

namespace Publish

open Manifest

theorem versionNumber?_eq (part : List Char) : versionNumber? part = (versionPart part).toOption := by
  have hsame : (part = ['0'] ∨
      (part.head?.any ('1' ≤ · ) ∧ part.length ≤ 9 ∧ part.all Char.isDigit)) ↔
      (part ≠ [] ∧ part.length ≤ 9 ∧ part.all Char.isDigit ∧
        (part.length = 1 ∨ part.head? ≠ some '0')) := by
    cases part with
    | nil => simp
    | cons c rest =>
      have hzero : c.isDigit → ('1' ≤ c ↔ c ≠ '0') := fun h => by
        delta Char.isDigit at h
        simp only [Bool.and_eq_true, decide_eq_true_eq, ge_iff_le, UInt32.le_iff_toNat_le] at h
        rw [Char.le_def, UInt32.le_iff_toNat_le, ne_eq, ← Char.toNat_inj]
        change 48 ≤ c.toNat ∧ _ at h
        change 49 ≤ c.toNat ↔ ¬ c.toNat = 48
        omega
      by_cases hdigit : c.isDigit
      · by_cases hc : c = '0'
        · subst hc
          cases rest <;> simp
        · simp [hzero hdigit, hdigit, hc]
      · have hne : c ≠ '0' := fun h => hdigit (h ▸ rfl)
        simp [hdigit, hne]
  unfold versionNumber? versionPart
  rw [if_congr hsame rfl rfl]
  split
  · cases Text.digits? part <;> rfl
  · rfl

theorem version?_eq (text : String) : version? text = (versionParts text).toOption := by
  unfold version? versionParts
  rcases Text.splitChar '.' text.toList with _ | ⟨major, _ | ⟨minor, _ | ⟨patch, _ | ⟨_, _⟩⟩⟩⟩
  case cons.cons.cons.nil =>
    simp only [versionNumber?_eq]
    cases versionPart major <;> cases versionPart minor <;> cases versionPart patch <;> rfl
  all_goals rfl

theorem isHex_eq (length : Nat) (text : String) : isHex length text = lowerHex text length := by
  unfold isHex lowerHex
  by_cases hchars : (text.toList.all fun c => c.isDigit || ('a' ≤ c && c ≤ 'f')) = true
  · have hlower : lowerHex text text.utf8ByteSize = true := by simp [lowerHex, hchars]
    rw [Json.utf8ByteSize_plain (plain_lowerHex hlower).1]
    rfl
  · simp only [hchars, Bool.and_false]

theorem isName_iff {name : String} : isName name = true ↔
    name.utf8ByteSize ≤ 200 ∧ name.toList.head?.any Char.isAlphanum ∧ name.toList.all isNameChar := by
  unfold isName
  simp only [Bool.and_eq_true, decide_eq_true_eq]
  have hsize : name.toList.all isNameChar = true → name.utf8ByteSize = name.length := fun hchars =>
    Json.utf8ByteSize_plain (List.all_eq_true.mpr fun c hc =>
      plain_nameChar (List.all_eq_true.mp hchars c hc))
  constructor
  · rintro ⟨⟨hhead, hlength⟩, hchars⟩
    exact ⟨hsize hchars ▸ hlength, hhead, hchars⟩
  · rintro ⟨hlength, hhead, hchars⟩
    exact ⟨⟨hhead, hsize hchars ▸ hlength⟩, hchars⟩

/-! ## Artifacts -/

/-- The name has the extension of a package of pacman. -/
abbrev PkgTar (name : String) : Prop :=
  ".pkg.tar.xz".toList <:+ name.toList ∨ ".pkg.tar.zst".toList <:+ name.toList

/-- The name ends in what the native client alone takes for the extension of pacman. -/
abbrev Slips (name : String) : Prop := ".pacman".toList <:+ name.toList

/-- The extension that a name with a dot has. -/
theorem extension_iff {name format : String} (hdot : '.' ∈ name.toList)
    (hformat : '.' ∉ format.toList) : ("." ++ format).toList <:+ name.toList ↔
      String.ofList ((Text.splitChar '.' name.toList).getLast?.getD []) = format := by
  rw [String.toList_append]
  change '.' :: format.toList <:+ name.toList ↔ _
  rw [← Text.getLast?_splitChar hdot hformat, ← String.toList_inj, String.toList_ofList]
  cases hlast : (Text.splitChar '.' name.toList).getLast? with
  | none =>
    rw [List.getLast?_eq_none_iff, Text.splitChar_eq_splitOn] at hlast
    exact absurd hlast (List.splitOn_ne_nil _ _)
  | some piece => simp

/-- The scripts know the format of a name where the native client takes it for one that they
know. -/
theorem artifactFormat_iff {name format : String} (hdot : '.' ∈ name.toList) :
    artifactFormat name = some format ↔ formatOf name = format ∧
      (PkgTar name ∨ format ∈ ["AppImage", "deb", "dmg", "pkg", "zip", "exe", "sh"]) := by
  unfold artifactFormat formatOf
  by_cases hpkg : PkgTar name
  · rw [if_pos hpkg, if_pos hpkg]
    simp [hpkg]
  · rw [if_neg hpkg, if_neg hpkg]
    have hext : ∀ f ∈ ["AppImage", "deb", "dmg", "pkg", "zip", "exe", "sh"],
        ("." ++ f).toList <:+ name.toList ↔
          String.ofList ((Text.splitChar '.' name.toList).getLast?.getD []) = f :=
      fun f hf => extension_iff hdot (by revert f; decide)
    generalize String.ofList ((Text.splitChar '.' name.toList).getLast?.getD []) = last at hext ⊢
    generalize ["AppImage", "deb", "dmg", "pkg", "zip", "exe", "sh"] = formats at hext ⊢
    simp only [hpkg, false_or]
    constructor
    · intro h
      have hmem := List.mem_of_find?_eq_some h
      exact ⟨(hext format hmem).mp (by simpa using List.find?_some h), hmem⟩
    · rintro ⟨rfl, hmem⟩
      cases hfind : formats.find? fun format => decide (("." ++ format).toList <:+ name.toList) with
      | none => exact absurd ((hext last hmem).mpr rfl) (by simpa using List.find?_eq_none.mp hfind last hmem)
      | some f =>
        have hf := (hext f (List.mem_of_find?_eq_some hfind)).mp (by simpa using List.find?_some hfind)
        rw [hf]

/-- A format of a product is taken for the same one, but for the slip. -/
theorem format_agrees {name product platform format : String} (hdot : '.' ∈ name.toList)
    (hproduct : product = "desktop" ∨ product = "cli") :
    (artifactFormat name = some format ∧ format ∈ formats product platform) ↔
      (format = formatOf name ∧ formatOf name ∈ allowed product platform ∧ ¬ Slips name) := by
  have hformats : formats product platform = allowed product platform := by
    unfold formats allowed
    rcases hproduct with rfl | rfl <;> split_ifs <;> simp_all
  have hknown : ∀ f ∈ allowed product platform, f = "pacman" ∨
      f ∈ ["AppImage", "deb", "dmg", "pkg", "zip", "exe", "sh"] := by
    unfold allowed
    split_ifs <;> decide
  have hslips : Slips name ↔
      String.ofList ((Text.splitChar '.' name.toList).getLast?.getD []) = "pacman" :=
    @extension_iff name "pacman" hdot (by decide)
  rw [artifactFormat_iff hdot, hformats, hslips]
  by_cases hpkg : PkgTar name
  · have hformat : formatOf name = "pacman" := if_pos hpkg
    have hext : String.ofList ((Text.splitChar '.' name.toList).getLast?.getD []) ≠ "pacman" := by
      intro heq
      have hsuffix : ("." ++ "xz").toList <:+ name.toList ∨ ("." ++ "zst").toList <:+ name.toList :=
        hpkg.imp (List.IsSuffix.trans (by decide)) (List.IsSuffix.trans (by decide))
      rcases hsuffix with h | h <;>
        exact absurd ((extension_iff hdot (by decide)).mp h ▸ heq) (by decide)
    simp only [hpkg, true_or, and_true, hext, not_false_eq_true]
    exact ⟨fun ⟨h, hmem⟩ => ⟨h.symm, h ▸ hmem⟩, fun ⟨h, hmem⟩ => ⟨h.symm, h ▸ hmem⟩⟩
  · have hformat : formatOf name =
        String.ofList ((Text.splitChar '.' name.toList).getLast?.getD []) := if_neg hpkg
    rw [← hformat]
    simp only [hpkg, false_or]
    constructor
    · rintro ⟨⟨rfl, hmem⟩, hallowed⟩
      exact ⟨rfl, hallowed, fun heq => absurd (heq ▸ hmem) (by decide)⟩
    · rintro ⟨rfl, hallowed, hne⟩
      exact ⟨⟨rfl, (hknown _ hallowed).resolve_left hne⟩, hallowed⟩

theorem arch_agrees {schemaVersion : Nat} {platform arch name : String} :
    ((archs schemaVersion platform).contains arch ∧ namedArch name = some arch) ↔
      (archAllowed schemaVersion platform arch ∧ archOf name = arch) := by
  have harchs : (archs schemaVersion platform).contains arch = archAllowed schemaVersion platform arch := by
    unfold archs archAllowed
    split_ifs <;> simp_all
  rw [harchs]
  refine and_congr_right fun h => ?_
  have hne : arch ≠ "" := by
    rintro rfl
    unfold archAllowed at h
    split_ifs at h <;> simp at h
  unfold namedArch archOf
  split_ifs <;> simp [Ne.symm hne]

theorem dot_mem {version name : String} {numbers : Version}
    (hversion : versionParts version = .ok numbers) (h : contains name ("-" ++ version ++ "-")) :
    '.' ∈ name.toList := by
  have hdot : '.' ∈ version.toList := by
    by_contra hnot
    rw [versionParts, Text.splitChar_of_notMem hnot] at hversion
    cases hversion
  refine (of_decide_eq_true h : _ <:+: _).subset ?_
  simp [hdot]

/-- An artifact is one for the scripts where it is one for the native client, but for the slip. -/
theorem validArtifact_agrees {release : Release} {product : String} {file : Artifact}
    {numbers : Version} (hversion : versionParts release.version = .ok numbers)
    (hproduct : product = "desktop" ∨ product = "cli") :
    (0 < file.bytes ∧ validArtifact release.schemaVersion release.version product file = true) ↔
      ValidArtifact release product file ∧ ¬ Slips file.name := by
  simp only [validArtifact, Bool.and_eq_true, decide_eq_true_eq, isName_iff, isHex_eq]
  constructor
  · rintro ⟨hpos, ⟨⟨⟨⟨⟨⟨⟨⟨⟨⟨h1, hlength, hhead, hchars⟩, h3⟩, h4⟩, h5⟩, h6⟩, h7⟩, h8⟩, h9⟩, h10⟩, h11⟩⟩
    rw [h6] at h5
    obtain ⟨hformat, hallowed, hslips⟩ :=
      (format_agrees (dot_mem hversion h3) hproduct).mp ⟨h6, by simpa using h5⟩
    obtain ⟨harch, hnamed⟩ := arch_agrees.mp ⟨h4, h7⟩
    exact ⟨⟨h1, hlength, hhead, hchars, h3, harch, hnamed, hallowed, hformat, hpos, h8, h9, h10,
      h11⟩, hslips⟩
  · rintro ⟨⟨h1, hlength, hhead, hchars, h3, harch, hnamed, hallowed, hformat, hpos, h8, h9, h10,
      h11⟩, hslips⟩
    obtain ⟨h6, h5⟩ := (format_agrees (dot_mem hversion h3) hproduct).mpr ⟨hformat, hallowed, hslips⟩
    obtain ⟨h4, h7⟩ := arch_agrees.mpr ⟨harch, hnamed⟩
    rw [h6]
    exact ⟨hpos, ⟨⟨⟨⟨⟨⟨⟨⟨⟨⟨h1, hlength, hhead, hchars⟩, h3⟩, h4⟩, by simpa using h5⟩, rfl⟩, h7⟩, h8⟩,
      h9⟩, h10⟩, h11⟩⟩

/-! ## Releases -/

theorem isSignature_iff {text : String} : isSignature text = true ↔
    ∃ bytes, Base64.decode text.toList = some bytes ∧ bytes.length = 64 := by
  have hpadded : isSignature text = true ↔ ∃ front last, text.toList = front ++ [last, '=', '='] ∧
      front.length = 85 ∧ front.all isBase64 ∧ "AQgw".toList.contains last := by
    unfold isSignature
    constructor
    · intro h
      split at h
      · next last rest heq =>
        simp only [Bool.and_eq_true, decide_eq_true_eq] at h
        refine ⟨rest.reverse, last, ?_, by simpa using h.1.2, by simpa using h.2, h.1.1⟩
        rw [← List.reverse_reverse text.toList, heq]
        simp
      · cases h
    · rintro ⟨front, last, heq, hlength, hall, hlast⟩
      rw [heq]
      simp only [List.reverse_append, List.reverse_cons, List.reverse_nil, List.nil_append,
        List.cons_append, List.length_reverse, hlength, hlast, List.all_reverse, hall]
      rfl
  rw [hpadded]
  constructor
  · rintro ⟨front, last, heq, hlength, hall, hlast⟩
    rw [heq]
    exact Base64.decode_of_padded (k := 21) hlength hall hlast
  · rintro ⟨bytes, hdecode, hlength⟩
    exact Base64.padded_of_decode (k := 21) hdecode hlength

section Values

variable {safeInteger : String → Option Int}

/-- What JavaScript makes of the literal of a natural number: the number, where it is a safe
integer. -/
def ReadsNumbers (safeInteger : String → Option Int) : Prop :=
  ∀ n : Nat, safeInteger (toString n) = if n ≤ 9007199254740991 then some (n : Int) else none

theorem readArtifact_toJson (h : ReadsNumbers safeInteger) (file : Artifact) :
    readArtifact safeInteger file.toJson =
      if 0 < file.bytes ∧ file.bytes ≤ 9007199254740991 then some file else none := by
  have hkeys : keysAre artifactFields file.toJson = true := List.isPerm_iff.mpr (.refl _)
  have hbytes : file.toJson.get? "bytes" = some (.ofNat file.bytes) := rfl
  have hread : safeInteger? safeInteger (some (.ofNat file.bytes)) = _ := h file.bytes
  rw [readArtifact, hbytes, hread, hkeys]
  by_cases hsafe : file.bytes ≤ 9007199254740991 <;> by_cases hpos : 0 < file.bytes <;>
    simp [Artifact.toJson, Json.string?, Json.get?, Json.lookup, Json.asStr?, hsafe, hpos] <;> omega

/-- The artifacts of a product pass where each is valid, and no target is there twice. -/
theorem checkFiles_toJson (h : ReadsNumbers safeInteger) {release : Release} {product : String}
    {numbers : Version} (hversion : versionParts release.version = .ok numbers)
    (hproduct : product = "desktop" ∨ product = "cli") {files read : List Artifact}
    {seen seen' : List (String × String × String × String)} :
    checkFiles safeInteger release.schemaVersion release.version product seen
        (files.map Artifact.toJson) = .ok (read, seen') ↔
      read = files ∧ (∀ file ∈ files, ¬ Slips file.name) ∧
        Manifest.checkFiles release product seen files = .ok seen' := by
  induction files generalizing seen seen' read with
  | nil => simp [checkFiles, Manifest.checkFiles, eq_comm]
  | cons file files ih =>
    rw [List.map_cons, checkFiles, Manifest.checkFiles, readArtifact_toJson h]
    have hvalid := @validArtifact_agrees release product file _ hversion hproduct
    by_cases hgood : ValidArtifact release product file ∧ ¬ Slips file.name
    · obtain ⟨hpos, hpublish⟩ := hvalid.mpr hgood
      have hsafe : file.bytes ≤ 9007199254740991 := hgood.1.bytes.trans (by decide)
      rw [if_pos ⟨hpos, hsafe⟩]
      simp only [hpublish, validArtifact_iff.mpr hgood.1, true_and]
      split
      · rw [Fallible.result_bind_eq_ok]
        constructor
        · rintro ⟨⟨read', seen''⟩, hrest, hread⟩
          obtain ⟨rfl, rfl⟩ := Prod.mk.inj (Except.ok.inj hread)
          obtain ⟨rfl, hslips, hchecked⟩ := ih.mp hrest
          exact ⟨rfl, List.forall_mem_cons.mpr ⟨hgood.2, hslips⟩, hchecked⟩
        · rintro ⟨rfl, hslips, hchecked⟩
          exact ⟨(files, seen'), ih.mpr ⟨rfl, (List.forall_mem_cons.mp hslips).2, hchecked⟩, rfl⟩
      · simp
    · constructor
      · intro hread
        split at hread
        · cases hread
        · next file' hfile =>
          obtain ⟨hbytes, hfile⟩ := Option.ite_none_right_eq_some.mp hfile
          cases hfile
          rw [if_neg fun hpublish => hgood (hvalid.mp ⟨hbytes.1, hpublish.1⟩)] at hread
          cases hread
      · rintro ⟨-, hslips, hchecked⟩
        split at hchecked
        · next hnative =>
          exact absurd ⟨validArtifact_iff.mp hnative.1, (List.forall_mem_cons.mp hslips).1⟩ hgood
        · cases hchecked

/-- The signature passes where the native client lets it pass. -/
theorem checkSignature_agrees {release : Release} (signing : release.signing = "signed" ∨
    release.signing = "unsigned") :
    checkSignature release.signing (release.toJson.get? "signature") = .ok release.signature ↔
      Manifest.checkSignature release = .ok () := by
  have hfield : release.toJson.get? "signature" = release.signature.map (·.toJson) := by
    cases hsignature : release.signature <;>
      simp [Release.toJson, Json.get?, Json.lookup, hsignature]
  rw [hfield]
  unfold checkSignature Manifest.checkSignature
  have hread : ∀ signature : ReleaseSignature, readSignature signature.toJson =
      if isHex 16 signature.keyId ∧ isSignature signature.value then some signature else none := by
    intro signature
    have hkeys : keysAre signatureFields signature.toJson = true := List.isPerm_iff.mpr (.refl _)
    rw [readSignature, hkeys]
    simp [ReleaseSignature.toJson, Json.string?, Json.get?, Json.lookup, Json.asStr?]
  rcases signing with hsigned | hunsigned
  · rw [hsigned]
    cases hsignature : release.signature with
    | none => simp [ensure]
    | some signature =>
      simp only [if_true, Option.map_some, Option.bind_some, hread, isHex_eq, isSignature_iff]
      by_cases hkey : lowerHex signature.keyId 16
      · simp only [hkey, true_and, if_true, Fallible.result_bind_eq_ok, orError_ok, ensure_ok]
        by_cases hvalue : ∃ bytes, Base64.decode signature.value.toList = some bytes ∧
            bytes.length = 64 <;> simp [hvalue]
      · simp [hkey]
  · rw [hunsigned]
    cases hsignature : release.signature with
    | none => simp [ensure]
    | some signature => simp

/-- What is asked of the header of a release. -/
abbrev HeaderPasses (release : Release) : Prop :=
  (release.schemaVersion = 2 ∨ release.schemaVersion = 3) ∧ 0 < release.sequence ∧
    release.sequence ≤ 9007199254740991 ∧ lowerHex release.revision 40 ∧
    (release.signing = "signed" ∨ release.signing = "unsigned") ∧ release.downloads ≠ [] ∧
    release.downloads.length + release.cliDownloads.length ≤ 100

theorem readHeader_toJson (h : ReadsNumbers safeInteger) (release : Release) {header : Header} :
    readHeader safeInteger release.toJson = some header ↔
      (HeaderPasses release ∧ ∃ numbers, versionParts release.version = .ok numbers) ∧ header =
        { schemaVersion := release.schemaVersion, version := release.version,
          revision := release.revision, sequence := release.sequence, signing := release.signing,
          downloads := release.downloads.map Artifact.toJson,
          cliDownloads := release.cliDownloads.map Artifact.toJson } := by
  have hversion : (version? release.version).isSome ↔
      ∃ numbers, versionParts release.version = .ok numbers := by
    rw [version?_eq]
    cases versionParts release.version <;> simp [Except.toOption]
  have hschema : release.toJson.get? "schemaVersion" = some (.ofNat release.schemaVersion) := rfl
  have hsequence : release.toJson.get? "sequence" = some (.ofNat release.sequence) := rfl
  have hread : ∀ n : Nat, safeInteger? safeInteger (some (.ofNat n)) = _ := h
  rw [readHeader, hschema, hsequence, hread, hread]
  have hsame : ∀ n : Nat, ((n : Int) = 2 ∨ (n : Int) = 3) ↔ (n = 2 ∨ n = 3) := by omega
  by_cases h1 : release.schemaVersion ≤ 9007199254740991
  · by_cases h2 : release.sequence ≤ 9007199254740991
    · simp only [h1, h2, if_true]
      show (if _ then some _ else none) = some header ↔ _
      rw [Option.ite_none_right_eq_some, hversion, isHex_eq, Option.some.injEq, hsame]
      simp only [List.length_map, ne_eq, List.map_eq_nil_iff, Int.toNat_natCast]
      constructor
      · rintro ⟨⟨a, b, c, d, e, f, g⟩, rfl⟩
        exact ⟨⟨⟨a, by omega, h2, c, d, f, g⟩, b⟩, rfl⟩
      · rintro ⟨⟨⟨a, e, -, c, d, f, g⟩, b⟩, rfl⟩
        exact ⟨⟨a, b, c, d, by omega, f, g⟩, rfl⟩
    · exact iff_of_false (by simp [h1, h2]) fun hread => h2 hread.1.1.2.2.1
  · exact iff_of_false (by simp [h1]) fun hread => by omega

/-- **The two implementations agree.** The scripts read a release from its JSON as it is exactly
where the native client reads it from its text, and no file slips through the native check of
formats. -/
theorem parseRelease_agrees (h : ReadsNumbers safeInteger) (release : Release) :
    parseRelease safeInteger release.toJson = .ok release ↔
      Manifest.parseRelease (toVec release) = .ok release ∧
        ∀ file ∈ release.downloads ++ release.cliDownloads, ¬ Slips file.name := by
  have hnative : Manifest.parseRelease (toVec release) = .ok release ↔ validate release = .ok () :=
    ⟨fun h => validate_ok.mpr (parseRelease_valid h), fun h => parseRelease_toVec (validate_ok.mp h)⟩
  have hkeys : keysAmong releaseFields release.toJson = true := by
    cases hsignature : release.signature <;> simp [keysAmong, Release.toJson, releaseFields, hsignature]
  rw [hnative, List.forall_mem_append]
  unfold validate
  simp only [Fallible.result_bind_eq_ok, ensure_ok]
  constructor
  · intro hread
    unfold parseRelease at hread
    split at hread
    · cases hread
    · next header hheader =>
      obtain ⟨⟨hpasses, numbers, hversion⟩, rfl⟩ := (readHeader_toJson h release).mp hheader
      rw [if_pos hkeys] at hread
      simp only [Fallible.result_bind_eq_ok] at hread
      obtain ⟨signature, hsignature, ⟨downloads, seen⟩, hdesktop, ⟨cli, seen'⟩, hcli, hrelease⟩ := hread
      have hrelease := Except.ok.inj hrelease
      obtain rfl : signature = release.signature := congrArg Release.signature hrelease
      obtain ⟨-, hslips, hdesktop⟩ := (checkFiles_toJson h hversion (.inl rfl)).mp hdesktop
      obtain ⟨-, hslips', hcli⟩ := (checkFiles_toJson h hversion (.inr rfl)).mp hcli
      have hsigned := (checkSignature_agrees hpasses.2.2.2.2.1).mp hsignature
      exact ⟨⟨(), hpasses, numbers, hversion, (), hsigned, seen, hdesktop, seen', hcli, rfl⟩,
        hslips, hslips'⟩
  · rintro ⟨⟨⟨⟩, hpasses, numbers, hversion, ⟨⟩, hsignature, seen, hdesktop, seen', hcli, -⟩,
      hslips, hslips'⟩
    unfold parseRelease
    rw [(readHeader_toJson h release).mpr ⟨⟨hpasses, numbers, hversion⟩, rfl⟩]
    simp only [hkeys, if_true, Fallible.result_bind_eq_ok]
    exact ⟨release.signature, (checkSignature_agrees hpasses.2.2.2.2.1).mpr hsignature,
      (release.downloads, seen),
      (checkFiles_toJson h hversion (.inl rfl)).mpr ⟨rfl, hslips, hdesktop⟩,
      (release.cliDownloads, seen'),
      (checkFiles_toJson h hversion (.inr rfl)).mpr ⟨rfl, hslips', hcli⟩, rfl⟩

end Values

/-- The integers that JavaScript reads exactly. -/
def exactInteger (literal : String) : Option Int :=
  ((Text.digits? literal.toList).filter (· ≤ 9007199254740991)).map Int.ofNat

theorem readsNumbers_exactInteger : ReadsNumbers exactInteger := by
  intro n
  rw [exactInteger, Text.digits?_toString]
  by_cases hn : n ≤ 9007199254740991 <;> simp [Option.filter, hn]

/-- A release whose file has the name of a package that the scripts do not know. -/
def slipped : Release :=
  let name := "axiom-1.0.0-x64.pacman"
  { schemaVersion := 2, version := "1.0.0", sequence := 1, signing := "unsigned",
    revision := "0123456789012345678901234567890123456789", cliDownloads := [], signature := none,
    downloads :=
      [{ name, product := "desktop", platform := "linux", arch := "x64", format := "pacman",
         bytes := 1, url := placeOf CDN_DOWNLOADS "1.0.0" name,
         githubUrl := placeOf RELEASE_DOWNLOADS "1.0.0" name,
         sha256 := "0123456789012345678901234567890123456789012345678901234567890123" }] }

/-- The native client takes it, and the scripts do not. -/
theorem parseRelease_agrees_slipped :
    Manifest.parseRelease (toVec slipped) = .ok slipped ∧
      parseRelease exactInteger slipped.toJson ≠ .ok slipped :=
  ⟨parseRelease_toVec (validate_ok.mp (by decide +kernel)), fun h =>
    ((parseRelease_agrees readsNumbers_exactInteger slipped).mp h).2 _ List.mem_cons_self
      (by decide)⟩

end Publish

end AxiomDesktop
