import AxiomDesktop.Data.Base64
import AxiomDesktop.Data.Json

/-!
# Prompt attachments

The attachments of a prompt and the checks a prompt passes before a turn starts
(`validate_prompt`). An extracted text is readable in historical data and never accepted as a new
upload.
-/

namespace AxiomDesktop

def MAX_MESSAGE_TEXT_BYTES : Nat := 4 * 1024 * 1024
def MAX_ATTACHMENTS : Nat := 10
def MAX_IMAGE_BYTES : Nat := 5 * 1024 * 1024
def MAX_FILE_BYTES : Nat := 10 * 1024 * 1024
def MAX_ATTACHMENT_BYTES : Nat := 16 * 1024 * 1024

def FILE_MIME_TYPES : List String :=
  [ "text/plain",
    "text/markdown",
    "text/csv",
    "text/html",
    "application/json",
    "application/xml",
    "application/pdf",
    "application/vnd.openxmlformats-officedocument.wordprocessingml.document",
    "application/vnd.openxmlformats-officedocument.presentationml.presentation",
    "application/vnd.openxmlformats-officedocument.spreadsheetml.sheet" ]

inductive ValidationErrorKind where
  | invalid
  | count
  | size
  | unsupported
  | conflict
  | incomplete
  deriving DecidableEq, Repr

structure ValidationError where
  field : String
  kind : ValidationErrorKind
  deriving DecidableEq, Repr

namespace ValidationError

def invalid (field : String) : ValidationError := ⟨field, .invalid⟩
def count (field : String) : ValidationError := ⟨field, .count⟩
def size (field : String) : ValidationError := ⟨field, .size⟩
def unsupported (field : String) : ValidationError := ⟨field, .unsupported⟩
def conflict (field : String) : ValidationError := ⟨field, .conflict⟩
def incomplete (field : String) : ValidationError := ⟨field, .incomplete⟩

/-- The `Debug` form of a kind, which the message of an error shows. -/
def kindName : ValidationErrorKind → String
  | .invalid => "Invalid"
  | .count => "Count"
  | .size => "Size"
  | .unsupported => "Unsupported"
  | .conflict => "Conflict"
  | .incomplete => "Incomplete"

/-- `Display for ValidationError`. -/
def message (e : ValidationError) : String :=
  kindName e.kind ++ " inference field: " ++ e.field

end ValidationError

/-- Original file bytes, in base64. -/
structure FileContent where
  name : String
  mimeType : String
  data : String
  deriving DecidableEq, Repr

/-- An image in base64, without a data URL prefix. -/
structure ImageContent where
  mimeType : String
  data : String
  deriving DecidableEq, Repr

inductive PromptAttachment where
  | text (name text : String)
  | image (name : String) (image : ImageContent)
  | file (name : String) (file : FileContent)
  deriving DecidableEq, Repr

/-- `FileContent::validate`. -/
def FileContent.validate (f : FileContent) : Except ValidationError Unit :=
  if f.name.isEmpty || f.name.utf8ByteSize > 512 || f.name.toList.any Text.isControl ||
      !FILE_MIME_TYPES.contains f.mimeType || f.data.isEmpty ||
      f.data.utf8ByteSize > (MAX_FILE_BYTES + 2) / 3 * 4 then
    .error (.invalid "file.content")
  else
    match Base64.decode f.data.toList with
    | none => .error (.invalid "file.base64")
    | some bytes =>
      if bytes.length > MAX_FILE_BYTES || Base64.encode bytes != f.data.toList then
        .error (.invalid "file.size")
      else .ok ()

namespace ImageContent

/-- The magic bytes of the accepted image types. -/
def matchesType (mimeType : String) (bytes : List UInt8) : Bool :=
  if mimeType = "image/png" then
    [0x89, 0x50, 0x4e, 0x47, 0x0d, 0x0a, 0x1a, 0x0a].isPrefixOf bytes
  else if mimeType = "image/jpeg" then [0xff, 0xd8, 0xff].isPrefixOf bytes
  else if mimeType = "image/webp" then
    [0x52, 0x49, 0x46, 0x46].isPrefixOf bytes && [0x57, 0x45, 0x42, 0x50].isPrefixOf (bytes.drop 8)
  else if mimeType = "image/gif" then
    [0x47, 0x49, 0x46, 0x38, 0x37, 0x61].isPrefixOf bytes ||
      [0x47, 0x49, 0x46, 0x38, 0x39, 0x61].isPrefixOf bytes
  else false

/-- `ImageContent::validate_bounded`. -/
def validateBounded (i : ImageContent) (maximum : Nat) : Except ValidationError Unit :=
  if i.data.utf8ByteSize > (maximum + 2) / 3 * 4 then .error (.invalid "image.size")
  else
    match Base64.decode i.data.toList with
    | none => .error (.invalid "image.base64")
    | some bytes =>
      if bytes.length > maximum || !matchesType i.mimeType bytes then
        .error (.invalid "image.content")
      else .ok ()

/-- `ImageContent::validate`. -/
def validate (i : ImageContent) : Except ValidationError Unit := i.validateBounded MAX_IMAGE_BYTES

end ImageContent

namespace PromptAttachment

/-- `PromptAttachment::name`. -/
def name : PromptAttachment → String
  | text name _ | image name _ | file name _ => name

/-- `PromptAttachment::bytes`. -/
def bytes : PromptAttachment → Nat
  | text _ body => body.utf8ByteSize
  | image _ content => content.data.utf8ByteSize
  | file _ content => content.data.utf8ByteSize

/-- The `kind` tag of an attachment. -/
def kind : PromptAttachment → String
  | text _ _ => "text"
  | image _ _ => "image"
  | file _ _ => "file"

/-- `PromptAttachment::validate`. -/
def validate (a : PromptAttachment) : Except ValidationError Unit :=
  if a.name.isEmpty || a.name.utf8ByteSize > 512 || a.name.toList.any Text.isControl then
    .error (.invalid "attachment.name")
  else
    match a with
    | text _ body =>
      if body.isEmpty || body.utf8ByteSize > MAX_MESSAGE_TEXT_BYTES ||
          body.toList.contains '\x00' then
        .error (.invalid "attachment.text")
      else .ok ()
    | image _ content => content.validate
    | file name content =>
      if name ≠ content.name then .error (.invalid "file.name") else content.validate

/-- `PromptAttachment::summary`, the small projection a transcript keeps. -/
def summary (a : PromptAttachment) : Json :=
  .obj [("name", .str a.name), ("kind", .str a.kind), ("bytes", .ofNat a.bytes)]

end PromptAttachment

/-- The content `user_message` gives the message: the text, then what each attachment adds to it.
A file adds nothing, its bytes go to the message's files. -/
def userMessageContent (text : String) (attachments : List PromptAttachment) : String :=
  attachments.foldl
    (fun content a =>
      match a with
      | .text name text =>
        content ++ "\n\n[Attached file " ++ Json.quote name ++ "]\n" ++ text ++
          "\n[End attached file]"
      | .image name _ => content ++ "\n[Attached image " ++ Json.quote name ++ "]"
      | .file _ _ => content)
    text

/-- The loop of `validate_stored_prompt`: the sum of the sizes, or the first attachment's error. -/
def totalBytes (total : Nat) : List PromptAttachment → Except ValidationError Nat
  | [] => .ok total
  | a :: rest => do
    a.validate
    totalBytes (min (total + a.bytes) (2 ^ 64 - 1)) rest

/-- `validate_stored_prompt`. -/
def validateStoredPrompt (text : String) (attachments : List PromptAttachment) :
    Except ValidationError Unit :=
  if text.utf8ByteSize > MAX_MESSAGE_TEXT_BYTES || (Text.isBlank text && attachments.isEmpty) then
    .error (.invalid "prompt.text")
  else if attachments.length > MAX_ATTACHMENTS then .error (.count "prompt.attachments")
  else do
    let total ← totalBytes text.utf8ByteSize attachments
    if total > MAX_ATTACHMENT_BYTES ||
        (userMessageContent text attachments).utf8ByteSize > MAX_MESSAGE_TEXT_BYTES then
      .error (.invalid "prompt.size")
    else .ok ()

/-- `validate_prompt`. -/
def validatePrompt (text : String) (attachments : List PromptAttachment) :
    Except ValidationError Unit :=
  if attachments.any (fun a => a.kind = "text") then
    .error (.unsupported "attachment.extracted_text")
  else validateStoredPrompt text attachments

end AxiomDesktop
