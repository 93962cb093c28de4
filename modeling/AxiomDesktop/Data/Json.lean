import AxiomDesktop.Data.Text

/-!
# JSON values

`serde_json::Value` and the operations on objects that the modelled code uses: `serde_json`'s
`get` and `insert`, and SQLite's `json_extract`, `json_set` and `json_remove` at a top-level key.
An object is a list of fields with one field a key; a number keeps its literal.
-/

namespace AxiomDesktop

/-- `serde_json::Value`. -/
inductive Json where
  | null
  | bool (value : Bool)
  | num (literal : String)
  | str (value : String)
  | arr (values : List Json)
  | obj (fields : List (String × Json))
  deriving Repr, Inhabited

namespace Json

/-! ## Equality -/

mutual

/-- Decides whether two values are equal. -/
def decEq : (a b : Json) → Decidable (a = b)
  | null, null => .isTrue rfl
  | bool a, bool b => decidable_of_iff (a = b) (by simp)
  | num a, num b => decidable_of_iff (a = b) (by simp)
  | str a, str b => decidable_of_iff (a = b) (by simp)
  | arr as, arr bs =>
    match decEqList as bs with
    | .isTrue h => .isTrue (by rw [h])
    | .isFalse h => .isFalse (by simpa using h)
  | obj as, obj bs =>
    match decEqFields as bs with
    | .isTrue h => .isTrue (by rw [h])
    | .isFalse h => .isFalse (by simpa using h)
  | null, bool _ | null, num _ | null, str _ | null, arr _ | null, obj _ => .isFalse nofun
  | bool _, null | bool _, num _ | bool _, str _ | bool _, arr _ | bool _, obj _ => .isFalse nofun
  | num _, null | num _, bool _ | num _, str _ | num _, arr _ | num _, obj _ => .isFalse nofun
  | str _, null | str _, bool _ | str _, num _ | str _, arr _ | str _, obj _ => .isFalse nofun
  | arr _, null | arr _, bool _ | arr _, num _ | arr _, str _ | arr _, obj _ => .isFalse nofun
  | obj _, null | obj _, bool _ | obj _, num _ | obj _, str _ | obj _, arr _ => .isFalse nofun

def decEqList : (as bs : List Json) → Decidable (as = bs)
  | [], [] => .isTrue rfl
  | [], _ :: _ => .isFalse nofun
  | _ :: _, [] => .isFalse nofun
  | a :: as, b :: bs =>
    match decEq a b, decEqList as bs with
    | .isTrue h, .isTrue hs => .isTrue (by rw [h, hs])
    | .isFalse h, _ => .isFalse (by simp [h])
    | _, .isFalse hs => .isFalse (by simp [hs])

def decEqFields : (as bs : List (String × Json)) → Decidable (as = bs)
  | [], [] => .isTrue rfl
  | [], _ :: _ => .isFalse nofun
  | _ :: _, [] => .isFalse nofun
  | (k, a) :: as, (l, b) :: bs =>
    match decEq a b, decEqFields as bs with
    | .isTrue h, .isTrue hs => decidable_of_iff (k = l) (by simp [h, hs])
    | .isFalse h, _ => .isFalse (by simp [h])
    | _, .isFalse hs => .isFalse (by simp [hs])

end

instance : DecidableEq Json := decEq

/-! ## Objects -/

/-- The value of the first field with a key. -/
def lookup (key : String) : List (String × Json) → Option Json
  | [] => none
  | (k, v) :: rest => if k = key then some v else lookup key rest

/-- The fields with a key set: the field is replaced where it stands, or added at the end. -/
def setField (key : String) (value : Json) : List (String × Json) → List (String × Json)
  | [] => [(key, value)]
  | (k, v) :: rest => if k = key then (key, value) :: rest else (k, v) :: setField key value rest

/-- `Value::get` at a key, and SQLite's `json_extract(value, '$.key')` but for `null`. -/
def get? (v : Json) (key : String) : Option Json :=
  match v with
  | obj fields => lookup key fields
  | _ => none

/-- `Map::insert` and SQLite's `json_set(value, '$.key', ..)`: a value that is no object stays. -/
def set (v : Json) (key : String) (value : Json) : Json :=
  match v with
  | obj fields => obj (setField key value fields)
  | other => other

/-- SQLite's `json_remove(value, '$.key')`. -/
def remove (v : Json) (key : String) : Json :=
  match v with
  | obj fields => obj (fields.filter fun field => field.1 != key)
  | other => other

/-- The object `json!` builds from an optional string: the string, or `null`. -/
def ofOption : Option String → Json
  | some s => str s
  | none => null

/-- The escape `serde_json` writes for a character of a string. -/
def escape (c : Char) : String :=
  if c = '"' then "\\\""
  else if c = '\\' then "\\\\"
  else if c = '\n' then "\\n"
  else if c = '\r' then "\\r"
  else if c = '\t' then "\\t"
  else if c.toNat = 8 then "\\b"
  else if c.toNat = 12 then "\\f"
  else if c.toNat < 32 then "\\u" ++ Text.hex 4 c.toNat
  else String.singleton c

/-- `serde_json::to_string` of a string. -/
def quote (s : String) : String :=
  "\"" ++ String.join (s.toList.map escape) ++ "\""

mutual

/-- `serde_json::to_vec`, as text. -/
def toText : Json → String
  | null => "null"
  | bool value => if value then "true" else "false"
  | num literal => literal
  | str value => quote value
  | arr values => "[" ++ ",".intercalate (toTexts values) ++ "]"
  | obj fields => "\x7b" ++ ",".intercalate (fieldTexts fields) ++ "\x7d"

def toTexts : List Json → List String
  | [] => []
  | value :: values => toText value :: toTexts values

def fieldTexts : List (String × Json) → List String
  | [] => []
  | (key, value) :: fields => (quote key ++ ":" ++ toText value) :: fieldTexts fields

end

/-- A number literal. -/
def ofNat (n : Nat) : Json := num (toString n)

/-- `Value::as_str`. -/
def asStr? : Json → Option String
  | str s => some s
  | _ => none

/-- A number literal that is a natural number, as the protocol's revisions and sequences are. -/
def nat? : Json → Option Nat
  | num literal => Text.digits? literal.toList
  | _ => none

/-- The elements of an array. -/
def arr? : Json → Option (List Json)
  | arr values => some values
  | _ => none

/-- The value of a key, where it is neither absent nor `null` (what `??` passes over). -/
def present? (v : Json) (key : String) : Option Json :=
  (v.get? key).filter (· ≠ null)

/-- A string field. -/
def string? (v : Json) (key : String) : Option String :=
  (v.get? key).bind asStr?

/-- A field that is an object. -/
def object? (v : Json) (key : String) : Option Json :=
  (v.get? key).filter fun field => field matches obj _

/-- `Value::as_bool`, and the truth of SQLite's `json_extract` of a boolean. -/
def isTrue : Json → Bool
  | bool b => b
  | _ => false

/-! ## Keys that are set and removed -/

theorem lookup_setField_self (key : String) (value : Json) (fields : List (String × Json)) :
    lookup key (setField key value fields) = some value := by
  induction fields with
  | nil => simp [setField, lookup]
  | cons field rest ih =>
    obtain ⟨k, v⟩ := field
    by_cases hk : k = key <;> simp [setField, lookup, hk, ih]

theorem lookup_setField_ne {key other : String} (h : other ≠ key) (value : Json)
    (fields : List (String × Json)) :
    lookup other (setField key value fields) = lookup other fields := by
  induction fields with
  | nil => simp [setField, lookup, Ne.symm h]
  | cons field rest ih =>
    obtain ⟨k, v⟩ := field
    by_cases hk : k = key
    · subst hk
      simp [setField, lookup, Ne.symm h]
    · by_cases ho : k = other
      · subst ho
        simp [setField, lookup, hk]
      · simp [setField, lookup, hk, ho, ih]

theorem lookup_filter_ne {key other : String} (h : other ≠ key) (fields : List (String × Json)) :
    lookup other (fields.filter fun field => field.1 != key) = lookup other fields := by
  induction fields with
  | nil => rfl
  | cons field rest ih =>
    obtain ⟨k, v⟩ := field
    by_cases hk : k = key
    · subst hk
      simp [lookup, Ne.symm h, ih]
    · rw [List.filter_cons_of_pos (by simpa using hk), lookup, lookup, ih]

theorem lookup_filter_self (key : String) (fields : List (String × Json)) :
    lookup key (fields.filter fun field => field.1 != key) = none := by
  induction fields with
  | nil => rfl
  | cons field rest ih =>
    obtain ⟨k, v⟩ := field
    by_cases hk : k = key <;> simp [lookup, hk, ih]

/-- Setting a key leaves the other keys of a value alone. -/
@[simp] theorem get?_set_ne {key other : String} (h : other ≠ key) (value v : Json) :
    (v.set key value).get? other = v.get? other := by
  cases v <;> simp [set, get?, lookup_setField_ne h]

/-- A key set in an object is found there. -/
theorem get?_set_obj (key : String) (value : Json) (fields : List (String × Json)) :
    ((obj fields).set key value).get? key = some value :=
  lookup_setField_self key value fields

/-- Removing a key leaves the other keys of a value alone. -/
@[simp] theorem get?_remove_ne {key other : String} (h : other ≠ key) (v : Json) :
    (v.remove key).get? other = v.get? other := by
  cases v <;> simp [remove, get?, lookup_filter_ne h]

/-- A removed key is not found. -/
@[simp] theorem get?_remove_self (key : String) (v : Json) : (v.remove key).get? key = none := by
  cases v <;> simp [remove, get?, lookup_filter_self]

end Json

end AxiomDesktop
