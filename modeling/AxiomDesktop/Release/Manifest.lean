import AxiomDesktop.Data.Base64
import AxiomDesktop.Data.JsonReader
import AxiomDesktop.Lib.Fallible
import Mathlib.Data.Prod.Lex
import Mathlib.Data.List.Sort

/-!
# Signed releases

The native side of a release (`axiom_update_client::manifest`): how a feed is read
(`Manifest.parseRelease`), what its signature covers (`Manifest.canonicalJson`) and when it
verifies under the keys that a build trusts (`Manifest.verifyRelease`). SHA-256 and Ed25519 are
taken from the outside.
-/

namespace AxiomDesktop

structure Artifact where
  name : String
  product : String
  platform : String
  arch : String
  format : String
  bytes : Nat
  sha256 : String
  url : String
  githubUrl : String
  deriving DecidableEq, Repr

structure ReleaseSignature where
  keyId : String
  value : String
  deriving DecidableEq, Repr

structure Release where
  schemaVersion : Nat
  version : String
  revision : String
  sequence : Nat
  signing : String
  downloads : List Artifact
  cliDownloads : List Artifact
  signature : Option ReleaseSignature
  deriving DecidableEq, Repr

/-- `anyhow::Error`: a text of the code, or an error of what it calls. -/
inductive UpdateError where
  | text (message : String)
  | json
  | base64
  | key
  | io
  deriving DecidableEq, Repr

/-- SHA-256 and Ed25519. -/
structure UpdateCrypto where
  sha256 : List UInt8 → List UInt8
  /-- `VerifyingKey::from_bytes` accepts the key. -/
  isKey : List UInt8 → Bool
  verifyStrict : (key payload signature : List UInt8) → Bool

namespace Manifest

def MAX_FEED_BYTES : Nat := 128 * 1024

def MAX_ARTIFACT_BYTES : Nat := 2 * 1024 * 1024 * 1024

def ensure (condition : Prop) [Decidable condition] (message : String) : Except UpdateError Unit :=
  if condition then .ok () else .error (.text message)

/-- `Option::context`. -/
def context {α : Type} (value : Option α) (message : String) : Except UpdateError α :=
  match value with
  | some value => .ok value
  | none => .error (.text message)

/-- `?` on a result of what the code calls. -/
def orError {α : Type} (value : Option α) (error : UpdateError) : Except UpdateError α :=
  match value with
  | some value => .ok value
  | none => .error error

theorem ensure_ok {condition : Prop} [Decidable condition] {message : String} {u : Unit} :
    ensure condition message = .ok u ↔ condition := by
  unfold ensure
  split <;> simp [*]

theorem context_ok {α : Type} {value : Option α} {message : String} {a : α} :
    context value message = .ok a ↔ value = some a := by
  cases value <;> simp [context]

theorem orError_ok {α : Type} {value : Option α} {error : UpdateError} {a : α} :
    orError value error = .ok a ↔ value = some a := by
  cases value <;> simp [orError]

/-! ## Versions -/

/-- `[u32; 3]`, in its order. -/
abbrev Version : Type := Nat ×ₗ Nat ×ₗ Nat

def versionPart (part : List Char) : Except UpdateError Nat :=
  if part ≠ [] ∧ part.length ≤ 9 ∧ part.all Char.isDigit ∧
      (part.length = 1 ∨ part.head? ≠ some '0') then
    context (Text.digits? part) "Invalid release version"
  else .error (.text "Invalid release version")

/-- `version_parts`. -/
def versionParts (version : String) : Except UpdateError Version :=
  match Text.splitChar '.' version.toList with
  | [major, minor, patch] => do
    let major ← versionPart major
    let minor ← versionPart minor
    let patch ← versionPart patch
    return toLex (major, toLex (minor, patch))
  | _ => .error (.text "Invalid release version")

/-! ## What is read of a feed -/

/-- The fields of a struct that serde reads with `deny_unknown_fields`: by their names, or by their
places. -/
def structOf (names : List String) : Json → Option (String → Option Json)
  | .obj fields =>
    if (fields.map (·.1)).Nodup ∧ ∀ field ∈ fields, field.1 ∈ names then
      some fun name => Json.lookup name fields
    else none
  | .arr values =>
    if values.length = names.length then some fun name => Json.lookup name (names.zip values)
    else none
  | _ => none

/-- An unsigned integer of a width. -/
def unsigned? (bits : Nat) (value : Json) : Option Nat := value.nat?.filter (· < 2 ^ bits)

/-- The elements of an array, each as `read` takes it. -/
def listOf {α : Type} (read : Json → Option α) (value : Json) : Option (List α) :=
  value.arr?.bind fun values => values.mapM read

def artifactFields : List String :=
  ["name", "product", "platform", "arch", "format", "bytes", "sha256", "url", "githubUrl"]

def signatureFields : List String := ["keyId", "value"]

def releaseFields : List String :=
  ["schemaVersion", "version", "revision", "sequence", "signing", "downloads", "cliDownloads",
    "signature"]

end Manifest

open Manifest

def Artifact.fromJson (value : Json) : Option Artifact := do
  let field ← structOf artifactFields value
  let name ← (field "name").bind Json.asStr?
  let product ← (field "product").bind Json.asStr?
  let platform ← (field "platform").bind Json.asStr?
  let arch ← (field "arch").bind Json.asStr?
  let format ← (field "format").bind Json.asStr?
  let bytes ← (field "bytes").bind (unsigned? 64)
  let sha256 ← (field "sha256").bind Json.asStr?
  let url ← (field "url").bind Json.asStr?
  let githubUrl ← (field "githubUrl").bind Json.asStr?
  return { name, product, platform, arch, format, bytes, sha256, url, githubUrl }

def Artifact.toJson (file : Artifact) : Json :=
  .obj [("name", .str file.name), ("product", .str file.product), ("platform", .str file.platform),
    ("arch", .str file.arch), ("format", .str file.format), ("bytes", .ofNat file.bytes),
    ("sha256", .str file.sha256), ("url", .str file.url), ("githubUrl", .str file.githubUrl)]

def ReleaseSignature.fromJson (value : Json) : Option ReleaseSignature := do
  let field ← structOf signatureFields value
  let keyId ← (field "keyId").bind Json.asStr?
  let value ← (field "value").bind Json.asStr?
  return { keyId, value }

def ReleaseSignature.toJson (signature : ReleaseSignature) : Json :=
  .obj [("keyId", .str signature.keyId), ("value", .str signature.value)]

/-- `Option<ReleaseSignature>`. -/
def ReleaseSignature.fromField : Option Json → Option (Option ReleaseSignature)
  | none | some .null => some none
  | some value => (ReleaseSignature.fromJson value).map some

def Release.fromJson (value : Json) : Option Release := do
  let field ← structOf releaseFields value
  let schemaVersion ← (field "schemaVersion").bind (unsigned? 32)
  let version ← (field "version").bind Json.asStr?
  let revision ← (field "revision").bind Json.asStr?
  let sequence ← (field "sequence").bind (unsigned? 64)
  let signing ← (field "signing").bind Json.asStr?
  let downloads ← (field "downloads").bind (listOf Artifact.fromJson)
  let cliDownloads ← (field "cliDownloads").bind (listOf Artifact.fromJson)
  let signature ← ReleaseSignature.fromField (field "signature")
  return { schemaVersion, version, revision, sequence, signing, downloads, cliDownloads, signature }

/-- `serde_json::to_value`: an absent signature is left out. -/
def Release.toJson (release : Release) : Json :=
  .obj ([("schemaVersion", .ofNat release.schemaVersion), ("version", .str release.version),
    ("revision", .str release.revision), ("sequence", .ofNat release.sequence),
    ("signing", .str release.signing),
    ("downloads", .arr (release.downloads.map Artifact.toJson)),
    ("cliDownloads", .arr (release.cliDownloads.map Artifact.toJson))] ++
    release.signature.toList.map fun signature => ("signature", signature.toJson))

namespace Manifest

/-! ## The check of a release -/

/-- `lower_hex`. -/
def lowerHex (value : String) (length : Nat) : Bool :=
  value.utf8ByteSize = length &&
    value.toList.all fun c => c.isDigit || ('a' ≤ c && c ≤ 'f')

/-- `str::contains`. -/
def contains (text part : String) : Bool := part.toList <:+: text.toList

/-- The formats of a product on a platform. -/
def allowed (product platform : String) : List String :=
  if platform = "mac" then ["pkg"]
  else if platform = "win" then ["exe"]
  else if product = "desktop" ∧ platform = "linux" then ["AppImage", "deb", "pacman"]
  else if product = "cli" ∧ platform = "linux" then ["sh"]
  else []

/-- The format that a name has. -/
def formatOf (name : String) : String :=
  if ".pkg.tar.xz".toList <:+ name.toList ∨ ".pkg.tar.zst".toList <:+ name.toList then "pacman"
  else String.ofList ((Text.splitChar '.' name.toList).getLast?.getD [])

def marker (name arch : String) : Bool :=
  contains name ("-" ++ arch ++ ".") || contains name ("-" ++ arch ++ "-")

/-- The architecture that a name has. -/
def archOf (name : String) : String :=
  if marker name "universal" then "universal"
  else if marker name "arm64" then "arm64"
  else if ["x64", "x86_64", "amd64"].any (marker name ·) then "x64"
  else ""

/-- The architecture is one of the release's schema. -/
def archAllowed (schemaVersion : Nat) (platform arch : String) : Bool :=
  if schemaVersion = 3 ∧ platform = "linux" then arch = "x64"
  else if schemaVersion = 3 then arch = "universal"
  else ["x64", "arm64"].contains arch

def isNameChar (c : Char) : Bool := c.isAlphanum || c = '.' || c = '_' || c = '-'

def CDN_DOWNLOADS : String := "https://cdn.axiom.stream/downloads/"

def RELEASE_DOWNLOADS : String :=
  "https://github.com/astrea-foundation/axiom-releases/releases/download/v"

/-- The place of a file of a version. -/
def placeOf (downloads version name : String) : String := downloads ++ version ++ "/" ++ name

/-- What is asked of one artifact. -/
def validArtifact (release : Release) (product : String) (file : Artifact) : Bool :=
  file.product = product &&
    file.name.utf8ByteSize ≤ 200 &&
    file.name.toList.head?.any Char.isAlphanum &&
    file.name.toList.all isNameChar &&
    contains file.name ("-" ++ release.version ++ "-") &&
    archAllowed release.schemaVersion file.platform file.arch &&
    archOf file.name = file.arch &&
    (allowed product file.platform).contains (formatOf file.name) &&
    file.format = formatOf file.name &&
    file.bytes > 0 &&
    file.bytes ≤ MAX_ARTIFACT_BYTES &&
    lowerHex file.sha256 64 &&
    file.url = placeOf CDN_DOWNLOADS release.version file.name &&
    file.githubUrl = placeOf RELEASE_DOWNLOADS release.version file.name

/-- What tells two artifacts of a release apart. -/
def target (product : String) (file : Artifact) : String × String × String × String :=
  (product, file.platform, file.arch, file.format)

/-- The artifacts of a product, after those that are seen. -/
def checkFiles (release : Release) (product : String) :
    List (String × String × String × String) → List Artifact →
      Except UpdateError (List (String × String × String × String))
  | seen, [] => .ok seen
  | seen, file :: files =>
    if validArtifact release product file ∧ target product file ∉ seen then
      checkFiles release product (target product file :: seen) files
    else .error (.text "Invalid release artifact")

def checkSignature (release : Release) : Except UpdateError Unit :=
  match release.signature with
  | some signature =>
    if release.signing = "signed" then
      if lowerHex signature.keyId 16 then do
        let value ← orError (Base64.decode signature.value.toList) .base64
        ensure (value.length = 64) "Invalid release signature"
      else .error (.text "Invalid release signature")
    else .error (.text "Missing release signature")
  | none => ensure (release.signing = "unsigned") "Missing release signature"

/-- What `parse_release` asks of a release that is read. -/
def validate (release : Release) : Except UpdateError Unit := do
  ensure ((release.schemaVersion = 2 ∨ release.schemaVersion = 3) ∧ 0 < release.sequence ∧
    release.sequence ≤ 9007199254740991 ∧ lowerHex release.revision 40 ∧
    (release.signing = "signed" ∨ release.signing = "unsigned") ∧ release.downloads ≠ [] ∧
    release.downloads.length + release.cliDownloads.length ≤ 100) "Invalid release manifest"
  let _ ← versionParts release.version
  checkSignature release
  let seen ← checkFiles release "desktop" [] release.downloads
  let _ ← checkFiles release "cli" seen release.cliDownloads
  return ()

/-- `parse_release`. -/
def parseRelease (bytes : List UInt8) : Except UpdateError Release := do
  ensure (bytes.length ≤ MAX_FEED_BYTES) "Release feed is too large"
  let release ← orError (((Text.fromUtf8 bytes).bind Json.ofText).bind Release.fromJson) .json
  validate release
  return release

/-- `serde_json::to_vec`. -/
def toVec (release : Release) : List UInt8 := Text.bytes release.toJson.toText

/-! ## The signature -/

mutual

/-- `canonical_json`. -/
def canonicalJson : Json → String
  | .obj fields =>
    "\x7b" ++ ",".intercalate (((canonicalFields fields).insertionSort (·.1 ≤ ·.1)).map fun field =>
      Json.quote field.1 ++ ":" ++ field.2) ++ "\x7d"
  | .arr values => "[" ++ ",".intercalate (canonicalValues values) ++ "]"
  | value => value.toText

def canonicalValues : List Json → List String
  | [] => []
  | value :: values => canonicalJson value :: canonicalValues values

def canonicalFields : List (String × Json) → List (String × String)
  | [] => []
  | (key, value) :: fields => (key, canonicalJson value) :: canonicalFields fields

end

/-- What the signature of a release covers. -/
def signedBytes (release : Release) : List UInt8 :=
  Text.bytes (canonicalJson (release.toJson.remove "signature"))

/-- The keys that a build trusts. -/
def keysOf (trustedKeys : String) : List (List UInt8) :=
  (Text.splitChar ',' trustedKeys.toList).filterMap fun hex =>
    Text.hexDecode (Text.bytes (String.ofList (Text.trimChars hex)))

/-- A key has an id. -/
def hasId (crypto : UpdateCrypto) (keyId : String) (key : List UInt8) : Bool :=
  key.length = 32 && Text.startsWith keyId (Text.hexEncode (crypto.sha256 key))

/-- `verify_release`. -/
def verifyRelease (crypto : UpdateCrypto) (release : Release) (trustedKeys : String) :
    Except UpdateError Unit := do
  ensure (release.signing = "signed") "Automatic updates require a signed release"
  let signature ← context release.signature "Missing release signature"
  let key ← context ((keysOf trustedKeys).find? (hasId crypto signature.keyId))
    "This build does not trust the update signing key"
  let value ← orError (Base64.decode signature.value.toList) .base64
  if value.length ≠ 64 ∨ ¬ crypto.isKey key then .error .key
  else ensure (crypto.verifyStrict key (signedBytes release) value) "Invalid update signature"

end Manifest

end AxiomDesktop
