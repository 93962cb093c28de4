import AxiomDesktop.Release.Manifest
import Mathlib.Data.List.Perm.Basic

/-!
# The published releases

The releases of the scripts that publish them, and of the desktop (`desktop-releases`): what of a
value is a release (`Publish.parseRelease`), and which of two versions is newer
(`Publish.compareVersions`). What JavaScript makes of a number's literal is taken from the outside.
-/

namespace AxiomDesktop

namespace Publish

open Manifest

/-! ## Versions -/

/-- A part of `VERSION_PATTERN`, and its number. -/
def versionNumber? (part : List Char) : Option Nat :=
  if part = ['0'] ∨
      (part.head?.any ('1' ≤ · ) ∧ part.length ≤ 9 ∧ part.all Char.isDigit) then
    Text.digits? part
  else none

/-- The numbers of a version, where it has the `VERSION_PATTERN`. -/
def version? (version : String) : Option Version :=
  match Text.splitChar '.' version.toList with
  | [major, minor, patch] => do
    let major ← versionNumber? major
    let minor ← versionNumber? minor
    let patch ← versionNumber? patch
    return toLex (major, toLex (minor, patch))
  | _ => none

/-- The sign of `compareVersions`, where it does not throw. -/
def compareVersions (a b : String) : Except String Int :=
  match version? a, version? b with
  | some left, some right => .ok (if left < right then -1 else if right < left then 1 else 0)
  | _, _ => .error "Invalid release version"

/-! ## Artifacts -/

/-- `FORMATS` and `CLI_FORMATS`, where they have the platform. -/
def formats (product platform : String) : List String :=
  if platform = "mac" then ["pkg"]
  else if platform = "win" then ["exe"]
  else if platform = "linux" then
    if product = "desktop" then ["AppImage", "deb", "pacman"] else ["sh"]
  else []

def artifactFormat (name : String) : Option String :=
  if ".pkg.tar.xz".toList <:+ name.toList ∨ ".pkg.tar.zst".toList <:+ name.toList then some "pacman"
  else
    ["AppImage", "deb", "dmg", "pkg", "zip", "exe", "sh"].find? fun format =>
      ("." ++ format).toList <:+ name.toList

def namedArch (name : String) : Option String :=
  if marker name "universal" then some "universal"
  else if marker name "arm64" then some "arm64"
  else if ["x64", "x86_64", "amd64"].any (marker name ·) then some "x64"
  else none

/-- The architectures of a schema on a platform. -/
def archs (schemaVersion : Nat) (platform : String) : List String :=
  if schemaVersion = 3 then if platform = "linux" then ["x64"] else ["universal"]
  else ["x64", "arm64"]

/-- A text of lower case hexadecimal digits. -/
def isHex (length : Nat) (text : String) : Bool :=
  text.length = length && text.toList.all fun c => c.isDigit || ('a' ≤ c && c ≤ 'f')

def isName (name : String) : Bool :=
  name.toList.head?.any Char.isAlphanum && name.length ≤ 200 && name.toList.all isNameChar

section Values

variable (safeInteger : String → Option Int)

/-- `Number.isSafeInteger` of a value, and the integer. -/
def safeInteger? : Option Json → Option Int
  | some (.num literal) => safeInteger literal
  | _ => none

/-- `Object.keys` of an object are the names, in some order. -/
def keysAre (names : List String) : Json → Bool
  | .obj fields => (fields.map (·.1)).isPerm names
  | _ => false

/-- An artifact with the types of its fields. -/
def readArtifact (value : Json) : Option Artifact := do
  let name ← value.string? "name"
  let product ← value.string? "product"
  let platform ← value.string? "platform"
  let arch ← value.string? "arch"
  let format ← value.string? "format"
  let sha256 ← value.string? "sha256"
  let url ← value.string? "url"
  let githubUrl ← value.string? "githubUrl"
  let bytes ← safeInteger? safeInteger (value.get? "bytes")
  if keysAre artifactFields value ∧ 1 ≤ bytes then
    some { name, product, platform, arch, format, bytes := bytes.toNat, sha256, url, githubUrl }
  else none

/-- What is asked of one artifact. -/
def validArtifact (schemaVersion : Nat) (version product : String) (file : Artifact) : Bool :=
  file.product = product &&
    isName file.name &&
    contains file.name ("-" ++ version ++ "-") &&
    (archs schemaVersion file.platform).contains file.arch &&
    (artifactFormat file.name).any (formats product file.platform).contains &&
    artifactFormat file.name = some file.format &&
    namedArch file.name = some file.arch &&
    file.bytes ≤ MAX_ARTIFACT_BYTES &&
    isHex 64 file.sha256 &&
    file.url = placeOf CDN_DOWNLOADS version file.name &&
    file.githubUrl = placeOf RELEASE_DOWNLOADS version file.name

instance lawfulBEqTarget : LawfulBEq (String × String × String × String) := inferInstance

/-- The artifacts of a product, after those that are seen. -/
def checkFiles (schemaVersion : Nat) (version product : String) :
    List (String × String × String × String) → List Json →
      Except String (List Artifact × List (String × String × String × String))
  | seen, [] => .ok ([], seen)
  | seen, value :: values =>
    match readArtifact safeInteger value with
    | none => .error "Invalid release artifact"
    | some file =>
      if validArtifact schemaVersion version product file ∧ target product file ∉ seen then do
        let (files, seen) ←
          checkFiles schemaVersion version product (target product file :: seen) values
        return (file :: files, seen)
      else .error "Invalid release artifact"

/-! ## Releases -/

/-- A letter of Base64. -/
def isBase64 (c : Char) : Bool := c.isAlphanum || c = '+' || c = '/'

/-- A signature in Base64. -/
def isSignature (text : String) : Bool :=
  match text.toList.reverse with
  | '=' :: '=' :: last :: rest => "AQgw".toList.contains last && rest.length = 85 && rest.all isBase64
  | _ => false

/-- A release that is not checked further than what its fields are. -/
structure Header where
  schemaVersion : Nat
  version : String
  revision : String
  sequence : Nat
  signing : String
  downloads : List Json
  cliDownloads : List Json

def readHeader (value : Json) : Option Header := do
  let version ← value.string? "version"
  let revision ← value.string? "revision"
  let schemaVersion ← safeInteger? safeInteger (value.get? "schemaVersion")
  let signing ← value.string? "signing"
  let sequence ← safeInteger? safeInteger (value.get? "sequence")
  let downloads ← (value.get? "downloads").bind Json.arr?
  let cliDownloads ← (value.get? "cliDownloads").bind Json.arr?
  if (schemaVersion = 2 ∨ schemaVersion = 3) ∧ (version? version).isSome ∧ isHex 40 revision ∧
      (signing = "signed" ∨ signing = "unsigned") ∧ 1 ≤ sequence ∧ downloads ≠ [] ∧
      downloads.length + cliDownloads.length ≤ 100 then
    some { schemaVersion := schemaVersion.toNat, version, revision, sequence := sequence.toNat,
           signing, downloads, cliDownloads }
  else none

/-- The signature of a release that is signed. -/
def readSignature (value : Json) : Option ReleaseSignature := do
  let keyId ← value.string? "keyId"
  let text ← value.string? "value"
  if isHex 16 keyId ∧ isSignature text ∧ keysAre signatureFields value then
    some { keyId, value := text }
  else none

/-- The signature of a release, where it has the one that it is to have. -/
def checkSignature (signing : String) (signature : Option Json) :
    Except String (Option ReleaseSignature) :=
  if signing = "signed" then
    match signature.bind readSignature with
    | some signature => .ok (some signature)
    | none => .error "Missing release signature"
  else if signature.isSome then .error "Unsigned release has a signature"
  else .ok none

/-- The fields of an object are among the names. -/
def keysAmong (names : List String) : Json → Bool
  | .obj fields => fields.all fun field => names.contains field.1
  | _ => true

/-- `parseRelease`. -/
def parseRelease (value : Json) : Except String Release :=
  match readHeader safeInteger value with
  | none => .error "Invalid release manifest"
  | some header =>
    if keysAmong releaseFields value then do
      let signature ← checkSignature header.signing (value.get? "signature")
      let (downloads, seen) ←
        checkFiles safeInteger header.schemaVersion header.version "desktop" [] header.downloads
      let (cliDownloads, _) ←
        checkFiles safeInteger header.schemaVersion header.version "cli" seen header.cliDownloads
      return {
        schemaVersion := header.schemaVersion
        version := header.version
        revision := header.revision
        sequence := header.sequence
        signing := header.signing
        downloads
        cliDownloads
        signature }
    else .error "Unknown release field"

end Values

end Publish

end AxiomDesktop
