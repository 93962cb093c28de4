import AxiomDesktop.App.Event

/-!
# Redaction and validation at the storage boundary

What is written to the local store is redacted first (`redactText`, `redactValue`): a token that
carries a recognizable credential prefix, the token that follows `bearer`, and the value of a
field with a secret name. The module also has the checks on a client item id, a model and a title
that the store makes before it writes.
-/

namespace AxiomDesktop

open Text

/-! ## Texts -/

/-- The length of a text in UTF-8 bytes. -/
def byteLength (cs : List Char) : Nat := (cs.map Char.utf8Size).sum

/-- `str::split_inclusive`, of the characters of a string: every piece but the last ends in the
only separator it has. -/
def splitInclusive (p : Char → Bool) : List Char → List (List Char)
  | [] => []
  | c :: cs =>
    if p c then [c] :: splitInclusive p cs
    else
      match splitInclusive p cs with
      | [] => [[c]]
      | piece :: rest => (c :: piece) :: rest

/-- The part of a text from the first place a prefix occurs (`str::find`). -/
def findFrom (pre : List Char) : List Char → Option (List Char)
  | [] => if pre.isEmpty then some [] else none
  | c :: cs => if pre.isPrefixOf (c :: cs) then some (c :: cs) else findFrom pre cs

/-- The characters `looks_like_secret` trims from both ends of a token. -/
def isQuoteMark (c : Char) : Bool :=
  c == '"' || c == '\'' || c == '`' || c == '(' || c == ')' || c == '[' || c == ']' || c == ',' ||
    c == ';'

def SECRET_PREFIXES : List String := ["axm_", "sk-", "ghp_", "github_pat_"]

/-- `looks_like_secret`. -/
def looksLikeSecret (token : List Char) : Bool :=
  let token := dropWhileEnd isQuoteMark (token.dropWhile isQuoteMark)
  SECRET_PREFIXES.any fun pre =>
    match findFrom pre.toList token with
    | some found => byteLength found > pre.utf8ByteSize + 8
    | none => false

/-- `token.eq_ignore_ascii_case("bearer")`. -/
def isBearer (token : List Char) : Bool :=
  token.map Char.toLower = "bearer".toList

/-- The token of a piece: `piece.trim_end_matches(char::is_whitespace)`. -/
def pieceToken (piece : List Char) : List Char := dropWhileEnd isWhitespace piece

/-- The whitespace of a piece. -/
def pieceSpace (piece : List Char) : List Char := piece.drop (pieceToken piece).length

/-- What a redacted token is replaced by. -/
def REDACTED : String := "[REDACTED]"

/-- The closure of `redact_text` over the pieces of a text, where `redactNext` says whether the
last token was `bearer`. -/
def redactPieces (redactNext : Bool) : List (List Char) → List Char
  | [] => []
  | piece :: rest =>
    let token := pieceToken piece
    (if redactNext || looksLikeSecret token then REDACTED.toList ++ pieceSpace piece else piece) ++
      redactPieces (isBearer token) rest

/-- `redact_text`. -/
def redactText (input : String) : String :=
  String.ofList (redactPieces false (splitInclusive isWhitespace input.toList))

/-! ## Values -/

/-- `is_secret_key`. -/
def isSecretKey (key : String) : Bool :=
  let key := key.toList.map fun c => if c = '-' then '_' else c.toLower
  ["api_key", "apikey", "authorization", "cookie", "encryption_key", "password", "private_key",
    "secret", "token"].any (fun name => key = name.toList) ||
  ["_api_key", "_apikey", "_authorization", "_cookie", "_encryption_key", "_password",
    "_private_key", "_secret", "_token"].any (fun suffix => suffix.toList.isSuffixOf key)

mutual

/-- `redact_value`. -/
def redactValue : Json → Json
  | .obj fields => .obj (redactFields fields)
  | .arr values => .arr (redactValues values)
  | .str text => .str (redactText text)
  | .null => .null
  | .bool b => .bool b
  | .num literal => .num literal

/-- `redact_value` of the elements of an array. -/
def redactValues : List Json → List Json
  | [] => []
  | value :: rest => redactValue value :: redactValues rest

/-- `redact_value` of the fields of an object. -/
def redactFields : List (String × Json) → List (String × Json)
  | [] => []
  | (key, value) :: rest =>
    (key, if isSecretKey key then .str REDACTED else redactValue value) :: redactFields rest

end

theorem lookup_redactFields (key : String) (fields : List (String × Json)) :
    Json.lookup key (redactFields fields) =
      (Json.lookup key fields).map fun v =>
        if isSecretKey key then .str REDACTED else redactValue v := by
  induction fields with
  | nil => rfl
  | cons field rest ih =>
    obtain ⟨k, v⟩ := field
    by_cases hk : k = key
    · simp [redactFields, Json.lookup, hk]
    · simp [redactFields, Json.lookup, hk, ih]

/-- Redaction acts field by field. -/
theorem get?_redactValue (v : Json) (key : String) :
    (redactValue v).get? key =
      (v.get? key).map fun v => if isSecretKey key then .str REDACTED else redactValue v := by
  cases v with
  | obj fields => exact lookup_redactFields key fields
  | null | bool | num | str | arr => rfl

/-! ## Checks -/

/-- The largest client item id, in bytes. -/
def MAX_CLIENT_ITEM_ID_BYTES : Nat := 512

/-- `validate_client_item_id`. -/
def validateClientItemId (value : String) : Except AxiomError String :=
  let value := Text.trim value
  if value.isEmpty || value.utf8ByteSize > MAX_CLIENT_ITEM_ID_BYTES || hasWhitespace value then
    .error (.storage
      s!"client item ID must contain 1 to {MAX_CLIENT_ITEM_ID_BYTES} non-whitespace bytes")
  else .ok value

/-- `validate_model`. -/
def validateModel (model : String) : Except AxiomError String :=
  let model := Text.trim model
  if model.isEmpty || model.utf8ByteSize > 256 || hasWhitespace model then
    .error (.storage "model must be a non-empty model ID without whitespace")
  else .ok model

/-- `validate_title`. -/
def validateTitle (title : String) : Except AxiomError String :=
  let title := Text.trim title
  if title.isEmpty then .error (.storage "thread title cannot be empty")
  else if title.utf8ByteSize > 512 then
    .error (.storage "thread title cannot exceed 512 bytes")
  else .ok title

/-- `checked_i64`: a count that SQLite can hold. -/
def checkedI64 (value : Nat) (label : String) : Except AxiomError Nat :=
  if value < 2 ^ 63 then .ok value
  else .error (.storage s!"{label} exceeds SQLite integer range")

end AxiomDesktop
