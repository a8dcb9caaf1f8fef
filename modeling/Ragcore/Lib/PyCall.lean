import Ragcore.Lib.Dict
import Ragcore.Lib.Json

/-!
# Ragcore — subscripts, iteration, `dict(v)` and keyword calls

What Python does with a JSON value it knows nothing about: `v["name"]`, `for x in v`,
`set(v)`, `dict(v)` and `Cls(**v)`. Each is total here and ends in the exception the
interpreter would raise. `Json.field` and `Json.items` are the plain accessors that specifications
read a value with.
-/

namespace Ragcore

namespace Json

/-! ## Accessors

Tests on values of unknown type. -/

/-- The field of that name, `null` where there is none. -/
def field (v : Json) (name : String) : Json :=
  match v with
  | .dict fields => (fields.lookup name).getD .null
  | _ => .null

/-- Whether the value is a dict with that field. -/
def has (v : Json) (name : String) : Bool :=
  match v with
  | .dict fields => (fields.lookup name).isSome
  | _ => false

/-- The elements of a list, none for any other value. -/
def items : Json → List Json
  | .list xs => xs
  | _ => []

def isDict : Json → Bool
  | .dict _ => true
  | _ => false

def isList : Json → Bool
  | .list _ => true
  | _ => false

/-! ## Subscripts and iteration

The same operations with the exceptions they raise. -/

/-- `v["name"]`. -/
def getItem (v : Json) (name : String) : Except PyErr Json :=
  match v with
  | .dict fields =>
    match fields.lookup name with
    | some field => .ok field
    | none => .error (.keyError [.text name])
  | .list _ => .error (.typeError ["list indices must be integers or slices, not str"])
  | .str _ => .error (.typeError ["string indices must be integers, not 'str'"])
  | v => .error (.typeError [s!"'{v.typeName}' object is not subscriptable"])

/-- The elements `for x in v` binds, if `v` is iterable. -/
def iterate? : Json → Option (List Json)
  | .list xs => some xs
  | .str s => some (s.toList.map fun c => .str (String.singleton c))
  | .dict fields => some ((Dict.ofFields fields).keys.map .str)
  | _ => none

def iterate (v : Json) : Except PyErr (List Json) :=
  match v.iterate? with
  | some xs => .ok xs
  | none => .error (.typeError [s!"'{v.typeName}' object is not iterable"])

/-- `set(v)`. -/
def setOf (v : Json) : Except PyErr (Finset HKey) := do
  let xs ← v.iterate
  let keys ← xs.mapM hash
  return keys.toFinset

/-! ## Dicts and keyword arguments

`dict(v)` and `Class(**d)`: which arguments fit the signature of a dataclass. -/

/-- A JSON object as the dict it is. -/
def ofObject (fields : Fields) : Dict HKey Json :=
  .ofFields (fields.map fun p => (HKey.str p.1, p.2))

/-- The loop of `dict(pairs)`: a later pair overwrites an earlier one of its key. -/
def dictFromPairs : List Json → Dict HKey Json → Except PyErr (Dict HKey Json)
  | [], d => .ok d
  | pair :: rest, d =>
    match pair.iterate? with
    | none => .error (.typeError ["cannot convert dictionary update sequence element to a sequence"])
    | some [key, value] => do
      let key ← key.hash
      dictFromPairs rest (d.insert key value)
    | some parts => .error (.valueError
        [s!"dictionary update sequence element has length {parts.length}; 2 is required"])

/-- `dict(v)`. -/
def dictOf (v : Json) : Except PyErr (Dict HKey Json) :=
  match v with
  | .dict fields => .ok (ofObject fields)
  | v => do
    let pairs ← v.iterate
    dictFromPairs pairs ∅

/-- The mapping `**v` expands. -/
def mappingOf (v : Json) : Except PyErr (Dict HKey Json) :=
  match v with
  | .dict fields => .ok (ofObject fields)
  | v => .error (.typeError [s!"argument after ** must be a mapping, not {v.typeName}"])

theorem getItem_of_has {v : Json} {name : String} (h : v.has name = true) :
    v.getItem name = .ok (v.field name) := by
  cases v with
  | dict fields =>
    obtain ⟨w, hw⟩ := Option.isSome_iff_exists.mp h
    simp [getItem, field, hw]
  | _ => simp [has] at h

theorem isDict_of_has {v : Json} {name : String} (h : v.has name = true) : v.isDict = true := by
  cases v <;> simp_all [has, isDict]

theorem eq_dict_of_isDict {v : Json} (h : v.isDict = true) : ∃ fields, v = .dict fields := by
  cases v <;> simp_all [isDict]

theorem eq_list_of_isList {v : Json} (h : v.isList = true) : v = .list v.items := by
  cases v <;> simp_all [isList, items]

@[simp] theorem get?_ofObject (fields : Fields) (name : String) :
    (ofObject fields).get? (.str name) = fields.lookup name := by
  rw [ofObject, Dict.get?_ofFields]
  induction fields with
  | nil => rfl
  | cons p rest ih =>
    obtain ⟨name', v⟩ := p
    rw [List.map_cons, Dict.lookup_cons_if, Dict.lookup_cons_if, ih]
    simp

end Json

/-- `d["name"]` on a dict. -/
def dictItem (d : Dict HKey Json) (name : String) : Except PyErr Json :=
  match d.get? (.str name) with
  | some v => .ok v
  | none => .error (.keyError [.text name])

def HKey.isStr : HKey → Bool
  | .str _ => true
  | _ => false

/-- The binding of `Cls(**d)`: every keyword is a declared field and every field without a
default is there. -/
def bindArguments (cls : String) (required optional : List String) (d : Dict HKey Json) :
    Except PyErr Unit :=
  if d.keys.all HKey.isStr then
    match d.keys.find? fun k => k ∉ (required ++ optional).map HKey.str with
    | some k => .error (.typeError
        [s!"{cls}.__init__() got an unexpected keyword argument ", .repr k.toJson])
    | none =>
      match required.find? fun name => !d.contains (.str name) with
      | some name => .error (.typeError
          [s!"{cls}.__init__() missing a required positional argument: '{name}'"])
      | none => .ok ()
  else .error (.typeError ["keywords must be strings"])

/-- The argument bound to a field, its default where `d` has none. -/
def argument (d : Dict HKey Json) (name : String) (default : Json) : Json :=
  d.getD (.str name) default

/-! ## Arguments that are overwritten

The binding looks at the names, so a value may be replaced before it. -/

theorem bindArguments_congr {d d' : Dict HKey Json} (same : d.keys = d'.keys) (cls : String)
    (required optional : List String) :
    bindArguments cls required optional d = bindArguments cls required optional d' := by
  have present : ∀ k, d.contains k = d'.contains k := by
    intro k
    rw [Bool.eq_iff_iff, ← Dict.mem_keys_iff, ← Dict.mem_keys_iff, same]
  unfold bindArguments
  simp only [same, present]

/-- Writing to a field changes no verdict on the arguments: it is a field, and one that is
there or need not be. -/
theorem bindArguments_insert {d : Dict HKey Json} {name : String} {required optional : List String}
    (listed : name ∈ required ++ optional) (v : Json) (cls : String)
    (there : d.contains (.str name) = true ∨ name ∉ required) :
    bindArguments cls required optional (d.insert (.str name) v) =
      bindArguments cls required optional d := by
  -- the name is among the keys already, or comes last
  by_cases old : d.contains (.str name) = true
  · exact bindArguments_congr (Dict.keys_insert_of_contains v old) cls required optional
  · have new := there.resolve_left old
    have keys : (d.insert (.str name) v).keys = d.keys ++ [.str name] := by
      rw [Dict.keys, Dict.entries_insert_of_not_contains v old, List.map_append]
      rfl
    have given : (HKey.str name) ∈ (required ++ optional).map HKey.str :=
      List.mem_map_of_mem listed
    have known : ([HKey.str name].find? fun k =>
        decide (k ∉ (required ++ optional).map HKey.str)) = none := by
      simp only [List.find?_singleton, given, not_true_eq_false, decide_false, Bool.false_eq_true,
        if_false]
    have missing : (required.find? fun n => !(d.insert (.str name) v).contains (.str n)) =
        required.find? fun n => !d.contains (.str n) := by
      refine List.find?_congr fun n mem => ?_
      have different : n ≠ name := fun eq => new (eq ▸ mem)
      rw [Dict.contains_insert]
      simp [different.symm]
    unfold bindArguments
    simp only [keys, List.all_append, List.find?_append, missing, known, Option.or_none,
      List.all_cons, List.all_nil, HKey.isStr, Bool.and_true]

theorem argument_insert_of_ne {d : Dict HKey Json} {name other : String} (different : name ≠ other)
    (v default : Json) :
    argument (d.insert (.str name) v) other default = argument d other default := by
  rw [argument, argument, Dict.getD_insert, if_neg (by simpa using different)]

end Ragcore
