import Ragcore.Lib.Dict
import Ragcore.Lib.Fallible
import Ragcore.Lib.Json

/-!
# Ragcore — Python values of YAML shape

What a safe YAML loader builds: the values of JSON, bytes, dates and times, tuples, sets, and
dicts whose keys are any immutable values.

* **`Scalar`** — the immutable values, which are the dict keys and the set members.
* **`Yaml.contains` / `Yaml.getItem`** — `name in v` and `v[name]` for every kind of value. A list
  or a string may well contain a name; only a dict can then be subscripted with it.
* **`Yaml.top`** — the value with its contents left out.
* **`Yaml.toJson?`** — the JSON value that is equal, if there is one. Equality of a JSON value and a
  YAML value goes through it.
* **`Yaml.ofJson`** — every JSON value is a YAML value, equal to itself (`toJson?_ofJson`).
* **`sortedScalars`** — `sorted` on keys, which fails for keys of unrelated classes.
-/

namespace Ragcore

/-- The immutable classes beyond those of JSON. A time with a zone and one without do not
compare. -/
inductive NativeClass where
  | bytes
  | date
  | datetime (aware : Bool)
  deriving DecidableEq, Repr

/-- An immutable value. One of a native class is given by its place in the order of the class and
by its `repr`. -/
inductive Scalar where
  | null
  | bool (b : Bool)
  | int (n : Int)
  | float (x : PyFloat)
  | str (s : String)
  | native (cls : NativeClass) (place : List Int) (repr : String)
  deriving DecidableEq, Repr

/-- A value as `yaml.safe_load` builds it. -/
inductive Yaml where
  | scalar (v : Scalar)
  | list (xs : List Yaml)
  | tuple (xs : List Yaml)
  | set (members : List Scalar)
  | dict (entries : List (Scalar × Yaml))
  deriving Repr

/-- The entries of a mapping; a key is a scalar. -/
abbrev YamlEntries := List (Scalar × Yaml)

namespace NativeClass

/-- `type(v).__name__`. -/
def typeName : NativeClass → String
  | .bytes => "bytes"
  | .date => "date"
  | .datetime _ => "datetime"

end NativeClass

namespace Scalar

def typeName : Scalar → String
  | .null => "NoneType"
  | .bool _ => "bool"
  | .int _ => "int"
  | .float _ => "float"
  | .str _ => "str"
  | .native cls _ _ => cls.typeName

/-- The JSON value it is. -/
def toJson? : Scalar → Option Json
  | .null => some .null
  | .bool b => some (.bool b)
  | .int n => some (.int n)
  | .float x => some (.float x)
  | .str s => some (.str s)
  | .native _ _ _ => none

/-- The text of a text. -/
def str? : Scalar → Option String
  | .str s => some s
  | _ => none

/-- `{v!r}`. -/
def reprPart : Scalar → MsgPart
  | .native _ _ repr => .text repr
  | v => .repr (v.toJson?.getD .null)

/-- Its key among those of JSON values. -/
def key (v : Scalar) : HKey := (v.toJson?.bind Json.key?).getD .none

/-- Whether Python's `<` is defined between the two. -/
def comparable : Scalar → Scalar → Bool
  | .native cls _ _, .native cls' _ _ => decide (cls = cls')
  | .native _ _ _, _ => false
  | _, .native _ _ _ => false
  | v, w => HKey.comparable v.key w.key

/-- `v <= w` for two that compare. -/
def le : Scalar → Scalar → Bool
  | .native _ place _, .native _ place' _ => decide (place ≤ place')
  | v, w => decide (v.key ≤ w.key)

end Scalar

/-- `sorted(keys)` for the keys of a dict: `<` must be defined between any two. -/
def sortedScalars (keys : List Scalar) : Except PyErr (List Scalar) :=
  if keys.all fun v => keys.all fun w => decide (v = w) || v.comparable w then
    .ok (keys.mergeSort Scalar.le)
  else .error (.typeError ["'<' not supported between the keys"])

/-- `{keys}` of a list of keys. -/
def keysText (keys : List Scalar) : List MsgPart :=
  .text "[" :: ((keys.map Scalar.reprPart).intersperse (.text ", ") ++ [.text "]"])

namespace Yaml

/-- A text as a value. -/
def str (s : String) : Yaml := .scalar (.str s)

def int (n : Int) : Yaml := .scalar (.int n)

def float (x : PyFloat) : Yaml := .scalar (.float x)

def typeName : Yaml → String
  | .scalar v => v.typeName
  | .list _ => "list"
  | .tuple _ => "tuple"
  | .set _ => "set"
  | .dict _ => "dict"

/-! ## Names in a value

The tests and lookups by name that the loader applies to a value of unknown type. -/

/-- `name in entries`. -/
def hasField (entries : YamlEntries) (name : String) : Bool :=
  (entries.lookup (.str name)).isSome

/-- `entries[name]`. -/
def getField (entries : YamlEntries) (name : String) : Except PyErr Yaml :=
  require (entries.lookup (.str name)) (.keyError [.text name])

/-- The value is that string. -/
def isStr (name : String) : Yaml → Bool
  | .scalar (.str s) => s == name
  | _ => false

/-- `name in v`. -/
def contains (v : Yaml) (name : String) : Except PyErr Bool :=
  match v with
  | .dict entries => .ok (hasField entries name)
  | .list xs => .ok (xs.any (isStr name))
  | .tuple xs => .ok (xs.any (isStr name))
  | .set members => .ok (decide (.str name ∈ members))
  | .scalar (.str s) => .ok (decide (name.toList <:+: s.toList))
  | .scalar (.native .bytes _ _) =>
    .error (.typeError ["a bytes-like object is required, not 'str'"])
  | v => .error (.typeError [s!"argument of type '{v.typeName}' is not iterable"])

/-- What `v[name]` raises where `v` is no dict. -/
def subscriptError : Yaml → PyErr
  | .list _ => .typeError ["list indices must be integers or slices, not str"]
  | .tuple _ => .typeError ["tuple indices must be integers or slices, not str"]
  | .scalar (.str _) => .typeError ["string indices must be integers, not 'str'"]
  | .scalar (.native .bytes _ _) => .typeError ["byte indices must be integers or slices, not str"]
  | v => .typeError [s!"'{v.typeName}' object is not subscriptable"]

/-- `v[name]`. -/
def getItem (v : Yaml) (name : String) : Except PyErr Yaml :=
  match v with
  | .dict entries => getField entries name
  | v => .error v.subscriptError

/-- The value with its contents left out. A check of a class, or of a scalar, reads no more. -/
def top : Yaml → Yaml
  | .scalar v => .scalar v
  | .list _ => .list []
  | .tuple _ => .tuple []
  | .set _ => .set []
  | .dict _ => .dict []

theorem getField_ok_iff {entries : YamlEntries} {name : String} {v : Yaml} :
    getField entries name = .ok v ↔ entries.lookup (.str name) = some v := require_ok_iff

/-- A test for a field, as a lookup. -/
theorem hasField_iff {entries : YamlEntries} {name : String} :
    hasField entries name = true ↔ ∃ v, entries.lookup (.str name) = some v := by
  rw [hasField, Option.isSome_iff_exists]

/-- Only a dict can be subscripted with a name. -/
theorem getItem_ok_iff {v w : Yaml} {name : String} :
    v.getItem name = .ok w ↔
      ∃ entries, v = .dict entries ∧ entries.lookup (.str name) = some w := by
  cases v with
  | dict entries =>
    show getField entries name = .ok w ↔ _
    rw [getField_ok_iff]
    constructor
    · intro h
      exact ⟨entries, rfl, h⟩
    · rintro ⟨_, hsame, h⟩
      cases hsame
      exact h
  | _ => simp [getItem]

/-! ## Equality with JSON values

The context of an evaluation is JSON while the rule is YAML. A value of the one format equals a
value of the other when it can be written in it. -/

mutual

/-- The JSON value that is equal to it. -/
def toJson? : Yaml → Option Json
  | .scalar v => v.toJson?
  | .list xs => (toJsonList? xs).map .list
  | .dict entries => (toJsonFields? entries).map .dict
  | .tuple _ => none
  | .set _ => none

/-- A list, when every item can. -/
def toJsonList? : List Yaml → Option (List Json)
  | [] => some []
  | x :: rest => do
    let j ← toJson? x
    let js ← toJsonList? rest
    return j :: js

/-- A mapping, when its keys are texts and every value can. -/
def toJsonFields? : YamlEntries → Option Fields
  | [] => some []
  | (key, x) :: rest => do
    let name ← key.str?
    let j ← toJson? x
    let fields ← toJsonFields? rest
    return (name, j) :: fields

end

/-! ## JSON values as YAML values

Every JSON value is a YAML value, and the operations do not see the difference. -/

mutual

/-- A JSON value, as the YAML loader builds it. -/
def ofJson : Json → Yaml
  | .null => .scalar .null
  | .bool b => .scalar (.bool b)
  | .int n => .scalar (.int n)
  | .float x => .scalar (.float x)
  | .str s => .scalar (.str s)
  | .list xs => .list (ofJsonList xs)
  | .dict fields => .dict (ofJsonFields fields)

/-- Item by item. -/
def ofJsonList : List Json → List Yaml
  | [] => []
  | x :: rest => ofJson x :: ofJsonList rest

def ofJsonFields : Fields → YamlEntries
  | [] => []
  | (name, x) :: rest => (.str name, ofJson x) :: ofJsonFields rest

end

mutual

/-- A JSON value is the one it is equal to. -/
theorem toJson?_ofJson : ∀ v : Json, (ofJson v).toJson? = some v
  | .null | .bool _ | .int _ | .float _ | .str _ => rfl
  | .list xs => by rw [ofJson, toJson?, toJsonList?_ofJsonList xs, Option.map_some]
  | .dict fields => by rw [ofJson, toJson?, toJsonFields?_ofJsonFields fields, Option.map_some]

/-- Lists and mappings come back as they were. -/
theorem toJsonList?_ofJsonList : ∀ xs : List Json, toJsonList? (ofJsonList xs) = some xs
  | [] => rfl
  | x :: rest => by
    rw [ofJsonList, toJsonList?, toJson?_ofJson x, toJsonList?_ofJsonList rest]
    rfl

theorem toJsonFields?_ofJsonFields :
    ∀ fields : Fields, toJsonFields? (ofJsonFields fields) = some fields
  | [] => rfl
  | (name, x) :: rest => by
    rw [ofJsonFields, toJsonFields?, Scalar.str?, toJson?_ofJson x, toJsonFields?_ofJsonFields rest]
    rfl

end

/-- The names of the types are the same. -/
@[simp] theorem typeName_ofJson (v : Json) : (ofJson v).typeName = v.typeName := by
  cases v <;> rfl

theorem keys_ofJsonFields (fields : Fields) :
    (ofJsonFields fields).map Prod.fst = (fields.map Prod.fst).map Scalar.str := by
  induction fields with
  | nil => rfl
  | cons field rest ih =>
    obtain ⟨name, v⟩ := field
    rw [ofJsonFields, List.map_cons, ih]
    rfl

/-- A name finds the same field. -/
theorem lookup_ofJsonFields (fields : Fields) (name : String) :
    (ofJsonFields fields).lookup (.str name) = (fields.lookup name).map ofJson := by
  induction fields with
  | nil => rfl
  | cons field rest ih =>
    obtain ⟨name', v⟩ := field
    rw [ofJsonFields, Dict.lookup_cons_if, Dict.lookup_cons_if, ih]
    by_cases hname : name' = name
    · rw [if_pos (congrArg Scalar.str hname), if_pos hname, Option.map_some]
    · rw [if_neg fun h => hname (Scalar.str.inj h), if_neg hname]

end Yaml

namespace Json

/-- `v == w`. No JSON value equals bytes, a date, a tuple, a set or a dict with other keys. -/
def eqYaml (v : Json) (w : Yaml) : Bool :=
  match w.toJson? with
  | some j => v.eq j
  | none => false

/-- Identical or equal. -/
def sameYaml (v : Json) (w : Yaml) : Bool :=
  match w.toJson? with
  | some j => v.same j
  | none => false

@[simp] theorem eqYaml_ofJson (v w : Json) : v.eqYaml (.ofJson w) = v.eq w := by
  rw [eqYaml, Yaml.toJson?_ofJson]

@[simp] theorem sameYaml_ofJson (v w : Json) : v.sameYaml (.ofJson w) = v.same w := by
  rw [sameYaml, Yaml.toJson?_ofJson]

end Json

end Ragcore
