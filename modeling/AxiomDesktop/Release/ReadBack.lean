import AxiomDesktop.Data.Lines
import AxiomDesktop.Release.Manifest

/-!
# Releases are read back

What `parse_release` accepts is written in fewer bytes than a feed may have, and read back as it is
(`Manifest.parseRelease_toVec`). A version is one text (`Manifest.versionParts_injective`).
-/

namespace AxiomDesktop

/-! ## Versions -/

namespace Manifest

/-- The characters of a version. -/
def versionChars (version : Version) : List Char :=
  ['.'].intercalate [Nat.toDigits 10 (ofLex version).1, Nat.toDigits 10 (ofLex (ofLex version).2).1,
    Nat.toDigits 10 (ofLex (ofLex version).2).2]

theorem versionPart_ok {part : List Char} {n : Nat} (h : versionPart part = .ok n) :
    part = Nat.toDigits 10 n ∧ part.length ≤ 9 := by
  unfold versionPart at h
  split at h
  · next hpart =>
    obtain ⟨-, hlength, -, hzero⟩ := hpart
    exact ⟨(Text.toDigits_of_digits? (context_ok.mp h) hzero).symm, hlength⟩
  · cases h

/-- **A version is the digits of its parts.** -/
theorem versionParts_ok {text : String} {version : Version} (h : versionParts text = .ok version) :
    text.toList = versionChars version ∧ text.toList.length ≤ 29 := by
  unfold versionParts at h
  split at h
  · next major minor patch hsplit =>
    obtain ⟨a, ha, h⟩ := Fallible.result_bind_ok h
    obtain ⟨b, hb, h⟩ := Fallible.result_bind_ok h
    obtain ⟨c, hc, h⟩ := Fallible.result_bind_ok h
    obtain ⟨hmajor, hmajor'⟩ := versionPart_ok ha
    obtain ⟨hminor, hminor'⟩ := versionPart_ok hb
    obtain ⟨hpatch, hpatch'⟩ := versionPart_ok hc
    have htext := Text.intercalate_splitChar '.' text.toList
    rw [hsplit] at htext
    refine ⟨?_, ?_⟩
    · rw [← htext, ← Except.ok.inj h, versionChars, hmajor, hminor, hpatch]
      rfl
    · rw [← htext, List.intercalate_cons_cons, List.intercalate_cons_cons,
        List.intercalate_singleton]
      simp only [List.length_append, List.length_singleton]
      omega
  · cases h

/-- **A version is one text.** -/
theorem versionParts_injective {a b : String} {version : Version} (ha : versionParts a = .ok version)
    (hb : versionParts b = .ok version) : a = b :=
  String.toList_inj.mp ((versionParts_ok ha).1.trans (versionParts_ok hb).1.symm)

/-! ## Reading JSON -/

theorem unsigned?_ofNat {bits n : Nat} (h : n < 2 ^ bits) :
    unsigned? bits (.ofNat n) = some n := by
  rw [unsigned?, Json.ofNat, Json.nat?, Text.digits?_toString]
  simpa [Option.filter] using h

/-- An object with the names of a struct, in their order. -/
theorem structOf_obj {names : List String} {fields : List (String × Json)}
    (h : (fields.map (·.1)).Sublist names) (hnodup : names.Nodup) :
    structOf names (.obj fields) = some fun name => Json.lookup name fields :=
  if_pos ⟨hnodup.sublist h, fun _ hfield => h.subset (List.mem_map_of_mem hfield)⟩

theorem artifact_fromJson {file : Artifact} (h : file.bytes < 2 ^ 64) :
    Artifact.fromJson file.toJson = some file := by
  rw [Artifact.fromJson, Artifact.toJson, structOf_obj]
  · simp [Json.lookup, Json.asStr?, unsigned?_ofNat h]
  · exact List.Sublist.refl artifactFields
  · decide

theorem signature_fromJson (signature : ReleaseSignature) :
    ReleaseSignature.fromJson signature.toJson = some signature := by
  rw [ReleaseSignature.fromJson, ReleaseSignature.toJson, structOf_obj]
  · simp [Json.lookup, Json.asStr?]
  · exact List.Sublist.refl signatureFields
  · decide

theorem signature_fromField (signature : Option ReleaseSignature) :
    ReleaseSignature.fromField (Json.lookup "signature"
      (signature.toList.map fun signature => ("signature", signature.toJson))) = some signature := by
  cases signature with
  | none => rfl
  | some signature =>
    show (ReleaseSignature.fromJson signature.toJson).map some = _
    rw [signature_fromJson]
    rfl

theorem listOf_toJson {files : List Artifact} (h : ∀ file ∈ files, file.bytes < 2 ^ 64) :
    listOf Artifact.fromJson (.arr (files.map Artifact.toJson)) = some files := by
  show (files.map Artifact.toJson).mapM Artifact.fromJson = some files
  induction files with
  | nil => rfl
  | cons file files ih =>
    rw [List.map_cons, List.mapM_cons, artifact_fromJson (h file List.mem_cons_self),
      ih fun file hfile => h file (List.mem_cons_of_mem _ hfile)]
    rfl

/-- The numbers of a release are those of its types. -/
structure Bounded (release : Release) : Prop where
  schemaVersion : release.schemaVersion < 2 ^ 32
  sequence : release.sequence < 2 ^ 64
  downloads : ∀ file ∈ release.downloads, file.bytes < 2 ^ 64
  cliDownloads : ∀ file ∈ release.cliDownloads, file.bytes < 2 ^ 64

/-- **A release is read back from its JSON.** -/
theorem release_fromJson {release : Release} (h : Bounded release) :
    Release.fromJson release.toJson = some release := by
  obtain ⟨hschema, hsequence, hdownloads, hcli⟩ := h
  have hnames : (release.signature.toList.map fun _ => "signature").Sublist ["signature"] := by
    cases release.signature with
    | none => exact List.nil_sublist _
    | some _ => exact .refl _
  rw [Release.fromJson, Release.toJson, structOf_obj]
  · simp [Json.lookup, Json.asStr?, unsigned?_ofNat hschema, unsigned?_ofNat hsequence,
      listOf_toJson hdownloads, listOf_toJson hcli, signature_fromField]
  · simpa [releaseFields, Function.comp_def] using hnames
  · decide

theorem lt_of_unsigned? {bits n m : Nat} (h : unsigned? bits (.ofNat n) = some m) :
    n < 2 ^ bits := by
  rw [unsigned?, Json.ofNat, Json.nat?, Text.digits?_toString] at h
  obtain ⟨h, hlt⟩ := Option.filter_eq_some_iff.mp h
  cases h
  simpa using hlt

theorem bytes_lt_of_fromJson {file r : Artifact} (h : Artifact.fromJson file.toJson = some r) :
    file.bytes < 2 ^ 64 := by
  rw [Artifact.fromJson, Artifact.toJson, structOf_obj] at h
  · simp only [Json.lookup, Json.asStr?, Option.pure_def, Option.bind_eq_bind, Option.bind_some,
      ↓reduceIte, String.reduceEq, Option.bind_eq_some_iff, Option.some.injEq] at h
    obtain ⟨bytes, hbytes, -⟩ := h
    exact lt_of_unsigned? hbytes
  · exact List.Sublist.refl artifactFields
  · decide

theorem bytes_lt_of_listOf {files read : List Artifact}
    (h : listOf Artifact.fromJson (.arr (files.map Artifact.toJson)) = some read) :
    ∀ file ∈ files, file.bytes < 2 ^ 64 := by
  change (files.map Artifact.toJson).mapM Artifact.fromJson = some read at h
  induction files generalizing read with
  | nil => exact nofun
  | cons file files ih =>
    rw [List.map_cons, List.mapM_cons] at h
    obtain ⟨first, hfirst, h⟩ := Option.bind_eq_some_iff.mp h
    obtain ⟨rest, hrest, -⟩ := Option.bind_eq_some_iff.mp h
    rintro other (_ | ⟨_, hother⟩)
    · exact bytes_lt_of_fromJson hfirst
    · exact ih hrest other hother

/-- Only the numbers of its types are read. -/
theorem bounded_of_fromJson {release read : Release}
    (h : Release.fromJson release.toJson = some read) : Bounded release := by
  have hnames : (release.signature.toList.map fun _ => "signature").Sublist ["signature"] := by
    cases release.signature with
    | none => exact List.nil_sublist _
    | some _ => exact .refl _
  rw [Release.fromJson, Release.toJson, structOf_obj] at h
  · simp only [List.cons_append, List.nil_append, Json.lookup, Json.asStr?, Option.pure_def,
      Option.bind_eq_bind, Option.bind_some, ↓reduceIte, String.reduceEq, Option.bind_eq_some_iff,
      Option.some.injEq] at h
    obtain ⟨schema, hschema, sequence, hsequence, files, hfiles, cli, hcli, -⟩ := h
    exact ⟨lt_of_unsigned? hschema, lt_of_unsigned? hsequence, bytes_lt_of_listOf hfiles,
      bytes_lt_of_listOf hcli⟩
  · simpa [releaseFields, Function.comp_def] using hnames
  · decide

theorem numbers_ofNat (n : Nat) : (Json.ofNat n).Numbers := Json.isNumber_toString n

theorem numbers_artifacts (files : List Artifact) :
    Json.NumbersIn (files.map Artifact.toJson) := by
  induction files with
  | nil => trivial
  | cons file files ih =>
    refine ⟨?_, ih⟩
    simp [Artifact.toJson, Json.Numbers, Json.NumbersInFields, numbers_ofNat]

/-- Every number of the JSON of a release is one. -/
theorem numbers_toJson (release : Release) : release.toJson.Numbers := by
  cases hsignature : release.signature <;>
    simp [Release.toJson, hsignature, ReleaseSignature.toJson, Json.Numbers, Json.NumbersInFields,
      numbers_ofNat, numbers_artifacts]

/-! ## What is asked of a release -/

/-- What is asked of an artifact. -/
structure ValidArtifact (release : Release) (product : String) (file : Artifact) : Prop where
  ofProduct : file.product = product
  length : file.name.utf8ByteSize ≤ 200
  head : file.name.toList.head?.any Char.isAlphanum
  chars : file.name.toList.all isNameChar
  version : contains file.name ("-" ++ release.version ++ "-")
  arch : archAllowed release.schemaVersion file.platform file.arch
  named : archOf file.name = file.arch
  allowed : formatOf file.name ∈ allowed product file.platform
  format : file.format = formatOf file.name
  pos : 0 < file.bytes
  bytes : file.bytes ≤ MAX_ARTIFACT_BYTES
  sha256 : lowerHex file.sha256 64
  url : file.url = placeOf CDN_DOWNLOADS release.version file.name
  githubUrl : file.githubUrl = placeOf RELEASE_DOWNLOADS release.version file.name

variable {release : Release} {product : String} {file : Artifact}

theorem validArtifact_iff :
    validArtifact release product file = true ↔ ValidArtifact release product file := by
  simp only [validArtifact, Bool.and_eq_true, decide_eq_true_eq, List.contains_eq_mem]
  constructor
  · rintro ⟨⟨⟨⟨⟨⟨⟨⟨⟨⟨⟨⟨⟨h1, h2⟩, h3⟩, h4⟩, h5⟩, h6⟩, h7⟩, h8⟩, h9⟩, h10⟩, h11⟩, h12⟩, h13⟩, h14⟩
    exact ⟨h1, h2, h3, h4, h5, h6, h7, h8, h9, h10, h11, h12, h13, h14⟩
  · rintro ⟨h1, h2, h3, h4, h5, h6, h7, h8, h9, h10, h11, h12, h13, h14⟩
    exact ⟨⟨⟨⟨⟨⟨⟨⟨⟨⟨⟨⟨⟨h1, h2⟩, h3⟩, h4⟩, h5⟩, h6⟩, h7⟩, h8⟩, h9⟩, h10⟩, h11⟩, h12⟩, h13⟩, h14⟩

/-- **The artifacts of a product pass** where each is valid and no target is there twice. -/
theorem checkFiles_ok {seen seen' : List (String × String × String × String)}
    {files : List Artifact} : checkFiles release product seen files = .ok seen' ↔
      (∀ file ∈ files, ValidArtifact release product file) ∧
        (files.map (target product)).Nodup ∧ (∀ file ∈ files, target product file ∉ seen) ∧
          seen' = (files.map (target product)).reverse ++ seen := by
  induction files generalizing seen with
  | nil => simp [checkFiles, eq_comm]
  | cons file files ih =>
    rw [checkFiles]
    split
    · next h =>
      obtain ⟨hvalid, hseen⟩ := h
      rw [ih]
      simp only [List.mem_cons, forall_eq_or_imp, validArtifact_iff.mp hvalid, hseen,
        List.map_cons, List.nodup_cons, List.mem_map, not_or, forall_and, List.reverse_cons,
        List.append_assoc, List.singleton_append, true_and, not_exists, not_and, not_false_eq_true]
      tauto
    · next h =>
      constructor
      · exact fun h => by cases h
      · rintro ⟨hvalid, -, hseen, -⟩
        exact absurd ⟨validArtifact_iff.mpr (hvalid file List.mem_cons_self),
          hseen file List.mem_cons_self⟩ h

/-- What is asked of a release. -/
structure Valid (release : Release) : Prop where
  schemaVersion : release.schemaVersion = 2 ∨ release.schemaVersion = 3
  pos : 0 < release.sequence
  sequence : release.sequence ≤ 9007199254740991
  revision : lowerHex release.revision 40
  signing : release.signing = "signed" ∨ release.signing = "unsigned"
  downloads : release.downloads ≠ []
  count : release.downloads.length + release.cliDownloads.length ≤ 100
  version : ∃ version, versionParts release.version = .ok version
  signature : checkSignature release = .ok ()
  desktop : ∀ file ∈ release.downloads, ValidArtifact release "desktop" file
  cli : ∀ file ∈ release.cliDownloads, ValidArtifact release "cli" file
  desktopNodup : (release.downloads.map (target "desktop")).Nodup
  cliNodup : (release.cliDownloads.map (target "cli")).Nodup

theorem validate_ok : validate release = .ok () ↔ Valid release := by
  unfold validate
  simp only [Fallible.result_bind_eq_ok, ensure_ok, checkFiles_ok, List.not_mem_nil]
  constructor
  · rintro ⟨⟨⟩, ⟨h1, h2, h3, h4, h5, h6, h7⟩, version, hversion, ⟨⟩, hsignature, seen,
      ⟨hdesktop, hdesktopNodup, -, -⟩, seen', ⟨hcli, hcliNodup, -, -⟩, -⟩
    exact ⟨h1, h2, h3, h4, h5, h6, h7, ⟨version, hversion⟩, hsignature, hdesktop, hcli,
      hdesktopNodup, hcliNodup⟩
  · rintro ⟨h1, h2, h3, h4, h5, h6, h7, ⟨version, hversion⟩, hsignature, hdesktop, hcli,
      hdesktopNodup, hcliNodup⟩
    refine ⟨(), ⟨h1, h2, h3, h4, h5, h6, h7⟩, version, hversion, (), hsignature, _,
      ⟨hdesktop, hdesktopNodup, fun _ _ => not_false, rfl⟩, _,
      ⟨hcli, hcliNodup, fun file hfile hseen => ?_, rfl⟩, rfl⟩
    -- A target names its product, so those of the two products differ.
    rw [List.append_nil, List.mem_reverse] at hseen
    obtain ⟨other, -, htarget⟩ := List.mem_map.mp hseen
    have hproduct : "desktop" = "cli" := congrArg Prod.fst htarget
    exact absurd hproduct (by decide)

/-! ## The size of a feed -/

open Json (Plain plain_append size_quote isPlain size_ofNat)

theorem plain_alphanum {c : Char} (h : c.isAlphanum) : isPlain c = true := by
  delta Char.isAlphanum Char.isAlpha Char.isUpper Char.isLower Char.isDigit at h
  simp only [Bool.or_eq_true, Bool.and_eq_true, decide_eq_true_eq, UInt32.le_iff_toNat_le,
    ge_iff_le] at h
  change ((65 ≤ c.toNat ∧ c.toNat ≤ 90) ∨ (97 ≤ c.toNat ∧ c.toNat ≤ 122)) ∨
    (48 ≤ c.toNat ∧ c.toNat ≤ 57) at h
  exact Json.isPlain_of_toNat (by omega)

theorem plain_nameChar {c : Char} (h : isNameChar c) : isPlain c = true := by
  simp only [isNameChar, Bool.or_eq_true, decide_eq_true_eq] at h
  rcases h with ((h | rfl) | rfl) | rfl
  · exact plain_alphanum h
  · rfl
  · rfl
  · rfl

/-- A number in hexadecimal is plain. -/
theorem plain_lowerHex {value : String} {length : Nat} (h : lowerHex value length) :
    Plain value ∧ value.utf8ByteSize = length := by
  obtain ⟨hlength, hchars⟩ := Bool.and_eq_true_iff.mp h
  refine ⟨List.all_eq_true.mpr fun c hc => ?_, of_decide_eq_true hlength⟩
  rcases Bool.or_eq_true_iff.mp (List.all_eq_true.mp hchars c hc) with h | h
  · exact plain_alphanum (by simp [Char.isAlphanum, h])
  · simp only [Bool.and_eq_true, decide_eq_true_eq, Char.le_def, UInt32.le_iff_toNat_le] at h
    change 97 ≤ c.toNat ∧ c.toNat ≤ 102 at h
    exact Json.isPlain_of_toNat (by omega)

/-- A version is plain. -/
theorem plain_version {text : String} {version : Version} (h : versionParts text = .ok version) :
    Plain text ∧ text.utf8ByteSize ≤ 29 := by
  obtain ⟨htext, hlength⟩ := versionParts_ok h
  have hdigits (n : Nat) : (Nat.toDigits 10 n).all isPlain = true :=
    List.all_eq_true.mpr fun c hc => plain_alphanum (by
      simp [Char.isAlphanum, Nat.isDigit_of_mem_toDigits (by omega : 0 < 10) (by omega) hc])
  have hplain : Plain text := by
    rw [Plain, htext, versionChars, List.intercalate_cons_cons, List.intercalate_cons_cons,
      List.intercalate_singleton]
    simp [List.all_append, hdigits, isPlain]
  exact ⟨hplain, (Json.utf8ByteSize_plain hplain).trans_le hlength⟩

/-- What is encoded in base64 is plain, and four characters for three bytes. -/
theorem plain_base64 {cs : List Char} {bytes : List UInt8} (h : Base64.decode cs = some bytes) :
    cs.all isPlain = true ∧ cs.length ≤ 4 * ((bytes.length + 2) / 3) := by
  have hdigit {c : Char} {n : Nat} (h : Base64.digit? c = some n) : isPlain c = true := by
    simp only [Base64.digit?] at h
    refine Json.isPlain_of_toNat ?_
    split_ifs at h <;> omega
  have hpad : isPlain '=' = true := rfl
  fun_induction Base64.decode cs generalizing bytes with
  | case1 => exact ⟨rfl, Nat.zero_le _⟩
  | case2 a b m n hb ha =>
    cases Option.some.inj h
    exact ⟨by simp only [List.all_cons, hdigit ha, hdigit hb, hpad]; rfl, by simp⟩
  | case5 a b c _ l m n hc hb ha =>
    cases Option.some.inj h
    exact ⟨by simp only [List.all_cons, hdigit ha, hdigit hb, hdigit hc, hpad]; rfl, by simp⟩
  | case8 a b c d rest _ _ k l m n hd hc hb ha bytes' hrest ih =>
    cases Option.some.inj h
    obtain ⟨hplain, hlength⟩ := ih hrest
    refine ⟨by simp only [List.all_cons, hdigit ha, hdigit hb, hdigit hc, hdigit hd, hplain]; rfl, ?_⟩
    simp only [List.length_cons]
    omega
  | _ => cases h

/-- The words that a product, a platform, an architecture or a format is one of. -/
def words : List String :=
  ["desktop", "cli", "mac", "win", "linux", "universal", "x64", "arm64", "pkg", "exe", "AppImage",
    "deb", "pacman", "sh"]

/-- What the code writes itself is plain, and short. -/
theorem plain_literals :
    (∀ word ∈ words ++ artifactFields, Plain word ∧ word.utf8ByteSize ≤ 9) ∧
      (∀ key ∈ signatureFields, Plain key ∧ key.utf8ByteSize ≤ 5) ∧
      (∀ key ∈ releaseFields, Plain key ∧ key.utf8ByteSize ≤ 13) ∧
      (∀ signing ∈ ["signed", "unsigned"], Plain signing ∧ signing.utf8ByteSize ≤ 8) ∧
      (Plain CDN_DOWNLOADS ∧ CDN_DOWNLOADS.utf8ByteSize ≤ 35) ∧
      (Plain RELEASE_DOWNLOADS ∧ RELEASE_DOWNLOADS.utf8ByteSize ≤ 71) := by
  decide +kernel

theorem plain_words {word : String} (h : word ∈ words) : Plain word ∧ word.utf8ByteSize ≤ 9 :=
  plain_literals.1 word (List.mem_append_left _ h)

theorem allowed_words {product platform format : String} (h : format ∈ allowed product platform) :
    platform ∈ words ∧ format ∈ words := by
  unfold allowed at h
  split_ifs at h with hmac hwin hdesktop hcli
  · exact ⟨hmac ▸ by decide, List.mem_singleton.mp h ▸ by decide⟩
  · exact ⟨hwin ▸ by decide, List.mem_singleton.mp h ▸ by decide⟩
  · refine ⟨hdesktop.2 ▸ by decide, ?_⟩
    exact (by decide : ["AppImage", "deb", "pacman"].Sublist words).subset h
  · exact ⟨hcli.2 ▸ by decide, List.mem_singleton.mp h ▸ by decide⟩
  · cases h

theorem archAllowed_words {schemaVersion : Nat} {platform arch : String}
    (h : archAllowed schemaVersion platform arch) : arch ∈ words := by
  unfold archAllowed at h
  split_ifs at h
  · exact of_decide_eq_true h ▸ by decide
  · exact of_decide_eq_true h ▸ by decide
  · exact (by decide : ["x64", "arm64"].Sublist words).subset (by simpa using h)

/-- A place is plain where its file and version are. -/
theorem plain_place {downloads version name : String} {n : Nat}
    (hdownloads : Plain downloads ∧ downloads.utf8ByteSize ≤ n)
    (hversion : Plain version ∧ version.utf8ByteSize ≤ 29)
    (hname : Plain name ∧ name.utf8ByteSize ≤ 200) :
    Plain (placeOf downloads version name) ∧
      (placeOf downloads version name).utf8ByteSize ≤ n + 230 := by
  have hslash : "/".utf8ByteSize = 1 := rfl
  refine ⟨plain_append (plain_append (plain_append hdownloads.1 hversion.1) (by decide)) hname.1, ?_⟩
  rw [placeOf, String.utf8ByteSize_append, String.utf8ByteSize_append, String.utf8ByteSize_append,
    hslash]
  omega

/-- **The text of an artifact is short.** -/
theorem size_artifact (h : ValidArtifact release product file)
    (hproduct : product = "desktop" ∨ product = "cli")
    (hversion : Plain release.version ∧ release.version.utf8ByteSize ≤ 29) :
    file.toJson.toText.utf8ByteSize ≤ 1100 := by
  have hquote {s : String} {n : Nat} (h : Plain s ∧ s.utf8ByteSize ≤ n) :
      (Json.str s).toText.utf8ByteSize ≤ n + 2 := (size_quote h.1).trans_le (by omega)
  obtain ⟨hliterals, -, -, -, hcdn, hdownloads⟩ := plain_literals
  have hkeys : ∀ key ∈ artifactFields, (Json.quote key).utf8ByteSize ≤ 11 := fun key hkey =>
    have hplain := hliterals key (List.mem_append_right _ hkey)
    (size_quote hplain.1).trans_le (by omega)
  obtain ⟨hplatform, hformat⟩ := allowed_words h.allowed
  rw [← h.format] at hformat
  have hname : Plain file.name ∧ file.name.utf8ByteSize ≤ 200 :=
    ⟨List.all_eq_true.mpr fun c hc => plain_nameChar (List.all_eq_true.mp h.chars c hc), h.length⟩
  have hproduct : file.product ∈ words := by
    rw [h.ofProduct]
    rcases hproduct with rfl | rfl <;> decide
  have hmax : MAX_ARTIFACT_BYTES < 10 ^ 10 := by decide
  have hurl := plain_place hcdn hversion hname
  have hgithubUrl := plain_place hdownloads hversion hname
  rw [← h.url] at hurl
  rw [← h.githubUrl] at hgithubUrl
  have hsha256 := plain_lowerHex h.sha256
  have hbound (key : String) {value : Json} {n : Nat} (hkey : key ∈ artifactFields)
      (h : value.toText.utf8ByteSize ≤ n) :
      (Json.quote key).utf8ByteSize + value.toText.utf8ByteSize + 2 ≤ n + 13 := by
    have := hkeys key hkey
    omega
  have h1 := hbound "name" (by decide) (hquote hname)
  have h2 := hbound "product" (by decide) (hquote (plain_words hproduct))
  have h3 := hbound "platform" (by decide) (hquote (plain_words hplatform))
  have h4 := hbound "arch" (by decide)
    (hquote (plain_words (archAllowed_words h.arch)))
  have h5 := hbound "format" (by decide) (hquote (plain_words hformat))
  have h6 := hbound "bytes" (by decide)
    (size_ofNat (Nat.lt_of_le_of_lt h.bytes hmax) (by omega))
  have h7 := hbound "sha256" (by decide) (hquote ⟨hsha256.1, hsha256.2.le⟩)
  have h8 := hbound "url" (by decide) (hquote hurl)
  have h9 := hbound "githubUrl" (by decide) (hquote hgithubUrl)
  refine (Json.size_obj _).trans ?_
  simp only [List.map_cons, List.map_nil, List.sum_cons, List.sum_nil]
  omega

theorem size_artifacts {files : List Artifact}
    (h : ∀ file ∈ files, file.toJson.toText.utf8ByteSize ≤ 1100) :
    (Json.arr (files.map Artifact.toJson)).toText.utf8ByteSize ≤ 2 + 1101 * files.length := by
  refine (Json.size_arr _).trans (Nat.add_le_add_left ?_ 2)
  induction files with
  | nil => exact Nat.zero_le _
  | cons file files ih =>
    have hfile := h file List.mem_cons_self
    have hfiles := ih fun file hfile => h file (List.mem_cons_of_mem _ hfile)
    simp only [List.map_cons, List.sum_cons, List.length_cons]
    omega

/-- The text of a signature is short. -/
theorem size_signature (h : checkSignature release = .ok ()) {signature : ReleaseSignature}
    (hsignature : release.signature = some signature) :
    signature.toJson.toText.utf8ByteSize ≤ 130 := by
  simp only [checkSignature, hsignature] at h
  split at h
  · split at h
    · next hkeyId =>
      obtain ⟨bytes, hbytes, hlength⟩ := Fallible.result_bind_ok h
      obtain ⟨hplain, hvalue⟩ := plain_base64 (orError_ok.mp hbytes)
      rw [ensure_ok.mp hlength] at hvalue
      have hkeyId := plain_lowerHex hkeyId
      have hquote (key : String) (hkey : key ∈ signatureFields) :=
        have hplain := plain_literals.2.1 key hkey
        (size_quote hplain.1).trans_le (Nat.add_le_add_right hplain.2 2)
      have hname := hquote "keyId" (by decide)
      have hname' := hquote "value" (by decide)
      refine (Json.size_obj _).trans ?_
      simp only [List.map_cons, List.map_nil, List.sum_cons, List.sum_nil, Json.toText,
        size_quote hkeyId.1, size_quote hplain, Json.utf8ByteSize_plain hplain]
      omega
    · cases h
  · cases h

/-- **The text of a release is a feed.** -/
theorem size_release (h : Valid release) :
    release.toJson.toText.utf8ByteSize ≤ MAX_FEED_BYTES := by
  obtain ⟨version, hversion⟩ := h.version
  have hversion := plain_version hversion
  have hdownloads := size_artifacts fun file hfile =>
    size_artifact (h.desktop file hfile) (.inl rfl) hversion
  have hcli := size_artifacts fun file hfile =>
    size_artifact (h.cli file hfile) (.inr rfl) hversion
  have hcount := h.count
  have hquote {s : String} {n : Nat} (h : Plain s ∧ s.utf8ByteSize ≤ n) :
      (Json.str s).toText.utf8ByteSize ≤ n + 2 := (size_quote h.1).trans_le (by omega)
  obtain ⟨-, -, hliterals, hsignings, -, -⟩ := plain_literals
  have hkeys : ∀ key ∈ releaseFields, (Json.quote key).utf8ByteSize ≤ 15 := fun key hkey =>
    have hplain := hliterals key hkey
    (size_quote hplain.1).trans_le (by omega)
  have hbound (key : String) {value : Json} {n : Nat} (hkey : key ∈ releaseFields)
      (h : value.toText.utf8ByteSize ≤ n) :
      (Json.quote key).utf8ByteSize + value.toText.utf8ByteSize + 2 ≤ n + 17 := by
    have := hkeys key hkey
    omega
  have hschema : release.schemaVersion < 10 ^ 1 := by rcases h.schemaVersion with h | h <;> omega
  have hsequence : release.sequence < 10 ^ 16 := Nat.lt_of_le_of_lt h.sequence (by decide)
  have hrevision := plain_lowerHex h.revision
  have hsigning := hsignings release.signing (by simpa using h.signing)
  have hsignature : ((release.signature.toList.map fun signature =>
      ("signature", signature.toJson)).map fun field =>
        (Json.quote field.1).utf8ByteSize + field.2.toText.utf8ByteSize + 2).sum ≤ 147 := by
    cases hsignature : release.signature with
    | none => exact Nat.zero_le _
    | some signature =>
      have hfield := hbound "signature" (by decide) (size_signature h.signature hsignature)
      simp only [Option.toList_some, List.map_cons, List.map_nil, List.sum_cons, List.sum_nil]
      omega
  have h1 := hbound "schemaVersion" (by decide) (size_ofNat (k := 1) hschema (by omega))
  have h2 := hbound "version" (by decide) (hquote hversion)
  have h3 := hbound "revision" (by decide) (hquote ⟨hrevision.1, hrevision.2.le⟩)
  have h4 := hbound "sequence" (by decide) (size_ofNat (k := 16) hsequence (by omega))
  have h5 := hbound "signing" (by decide) (hquote hsigning)
  have h6 := hbound "downloads" (by decide) hdownloads
  have h7 := hbound "cliDownloads" (by decide) hcli
  refine (Json.size_obj _).trans ?_
  rw [List.map_append, List.sum_append, MAX_FEED_BYTES]
  simp only [List.map_cons, List.map_nil, List.sum_cons, List.sum_nil]
  omega

/-- A valid release has numbers of its types. -/
theorem Valid.bounded (h : Valid release) : Bounded release := by
  have hbytes {product : String} {file : Artifact} (h : ValidArtifact release product file) :
      file.bytes < 2 ^ 64 := Nat.lt_of_le_of_lt h.bytes (by decide)
  refine ⟨?_, Nat.lt_of_le_of_lt h.sequence (by decide), fun file hfile =>
    hbytes (h.desktop file hfile), fun file hfile => hbytes (h.cli file hfile)⟩
  rcases h.schemaVersion with h | h <;> rw [h] <;> decide

/-- **What is accepted is read back as it is.** -/
theorem parseRelease_toVec (h : Valid release) : parseRelease (toVec release) = .ok release := by
  have hlength : (toVec release).length = release.toJson.toText.utf8ByteSize := rfl
  have hread : ((Text.fromUtf8 (toVec release)).bind Json.ofText).bind Release.fromJson =
      some release := by
    rw [toVec, Text.fromUtf8_bytes, Option.bind_some, Json.ofText_toText (numbers_toJson release),
      Option.bind_some, release_fromJson h.bounded]
  have hsize : ensure ((toVec release).length ≤ MAX_FEED_BYTES) "Release feed is too large" =
      .ok () := ensure_ok.mpr (hlength.trans_le (size_release h))
  rw [parseRelease, hread, hsize]
  show (validate release >>= fun _ => .ok release) = _
  rw [validate_ok.mpr h]
  rfl

/-- What is read is valid. -/
theorem parseRelease_valid {bytes : List UInt8} (h : parseRelease bytes = .ok release) :
    Valid release := by
  obtain ⟨_, -, h⟩ := Fallible.result_bind_ok h
  obtain ⟨release', -, h⟩ := Fallible.result_bind_ok h
  obtain ⟨_, hvalidate, h⟩ := Fallible.result_bind_ok h
  cases Except.ok.inj h
  exact validate_ok.mp hvalidate

/-- A release whose text is accepted is valid. -/
theorem valid_of_toVec {release read : Release} (h : parseRelease (toVec release) = .ok read) :
    Valid release := by
  have hvalid := parseRelease_valid h
  obtain ⟨_, -, h⟩ := Fallible.result_bind_ok h
  obtain ⟨release', hread, h⟩ := Fallible.result_bind_ok h
  obtain ⟨_, -, h⟩ := Fallible.result_bind_ok h
  cases Except.ok.inj h
  have hread := orError_ok.mp hread
  rw [toVec, Text.fromUtf8_bytes, Option.bind_some, Json.ofText_toText (numbers_toJson release),
    Option.bind_some] at hread
  rw [release_fromJson (bounded_of_fromJson hread)] at hread
  cases hread
  exact hvalid

/-- **A release is read back exactly where it is valid**, and never as another. -/
theorem parseRelease_toVec_iff {read : Release} :
    parseRelease (toVec release) = .ok read ↔ read = release ∧ Valid release := by
  constructor
  · intro h
    have hvalid := valid_of_toVec h
    exact ⟨Except.ok.inj (h.symm.trans (parseRelease_toVec hvalid)), hvalid⟩
  · rintro ⟨rfl, hvalid⟩
    exact parseRelease_toVec hvalid

end Manifest

end AxiomDesktop
