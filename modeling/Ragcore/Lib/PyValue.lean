import Ragcore.Lib.Json

/-!
# Ragcore — Python values nested in dicts, lists and tuples

The values a program meets when its argument was built in Python and not read from JSON: tuples,
dict keys of any hashable type, and objects that are left alone.

* **`PyValue`** — the values. A dict is the list of its entries in insertion order.
* **`HasKey`** — a string is a key of a dict somewhere inside a value.
* **`VisibleAt` / `HiddenKey`** — the same, split by the way there: through string keys, list
  items and tuple items only, counting the steps, or through a key of another type.
  **`HasKey.visible_or_hidden`** says nothing is lost by the split.
* **`Inside P`** — a value with `P` is found somewhere inside. **`underKey_iff`** splits what is
  found under the keys of dicts into entry values and items of lists and tuples.
* **`Lowering`** — `str.lower()`. Its table for the characters beyond ASCII is the interpreter's.
-/

namespace Ragcore

/-- A hashable object used as a dict key. Of one that is no string, only the identity and the
`repr` matter. -/
inductive PyKey where
  | str (s : String)
  | other (obj : Nat) (repr : String)
  deriving DecidableEq, Repr

inductive PyValue where
  | none
  | bool (b : Bool)
  | int (n : Int)
  | float (x : PyFloat)
  | str (s : String)
  | list (xs : List PyValue)
  | tuple (xs : List PyValue)
  | dict (entries : List (PyKey × PyValue))
  | object (cls : String) (attrs : List (String × PyValue))
  deriving Repr

abbrev Entries := List (PyKey × PyValue)

/-- A piece of an f-string: literal text, `{v}` or `{v!r}`. -/
inductive TextPart where
  | text (s : String)
  | value (v : PyValue)
  | repr (v : PyValue)
  deriving Repr

instance : Coe String TextPart := ⟨.text⟩

/-- `{sorted(names)}`. -/
def sortedText (names : List String) : TextPart :=
  .value (.list ((names.mergeSort fun s t => decide (s ≤ t)).map .str))

namespace PyValue

/-- The keys of a dict. -/
def keys : PyValue → List PyKey
  | .dict entries => entries.map Prod.fst
  | _ => []

/-- `d.get(name)` of a dict, `None` of any other value. -/
def get (v : PyValue) (name : String) : PyValue :=
  match v with
  | .dict entries => (entries.lookup (.str name)).getD .none
  | _ => .none

/-- `getattr(v, name, None)`. -/
def getattr (v : PyValue) (name : String) : PyValue :=
  match v with
  | .object _ attrs => (attrs.lookup name).getD .none
  | _ => .none

def typeName : PyValue → String
  | .none => "NoneType"
  | .bool _ => "bool"
  | .int _ => "int"
  | .float _ => "float"
  | .str _ => "str"
  | .list _ => "list"
  | .tuple _ => "tuple"
  | .dict _ => "dict"
  | .object cls _ => cls

/-- `v.get(name, default)`. -/
def getOr (v : PyValue) (name : String) (default : PyValue) : Except PyErr PyValue :=
  match v with
  | .dict entries => .ok ((entries.lookup (.str name)).getD default)
  | v => .error (.attributeError [s!"'{v.typeName}' object has no attribute 'get'"])

/-- `len(v)`. -/
def len : PyValue → Except PyErr Nat
  | .str s => .ok s.length
  | .list xs => .ok xs.length
  | .tuple xs => .ok xs.length
  | .dict entries => .ok entries.length
  | v => .error (.typeError [s!"object of type '{v.typeName}' has no len()"])

/-- `v == n` for an int `n`. -/
def eqInt : PyValue → Int → Bool
  | .int m, n => m == n
  | .bool b, n => (if b then 1 else 0) == n
  | .float (.fin q), n => q == n
  | _, _ => false

mutual

/-- A value that JSON has, as Python reads it. -/
def ofJson : Json → PyValue
  | .null => .none
  | .bool b => .bool b
  | .int n => .int n
  | .float x => .float x
  | .str s => .str s
  | .list xs => .list (ofJsonList xs)
  | .dict fields => .dict (ofJsonFields fields)

def ofJsonList : List Json → List PyValue
  | [] => []
  | x :: rest => ofJson x :: ofJsonList rest

def ofJsonFields : Fields → Entries
  | [] => []
  | (name, x) :: rest => (.str name, ofJson x) :: ofJsonFields rest

end

/-- Induction with the hypothesis for every entry of a dict and every item of a list or tuple. -/
@[elab_as_elim]
theorem nestedInduction {motive : PyValue → Prop}
    (none : motive .none) (bool : ∀ b, motive (.bool b)) (int : ∀ n, motive (.int n))
    (float : ∀ x, motive (.float x)) (str : ∀ s, motive (.str s))
    (object : ∀ cls attrs, motive (.object cls attrs))
    (list : ∀ xs, (∀ v ∈ xs, motive v) → motive (.list xs))
    (tuple : ∀ xs, (∀ v ∈ xs, motive v) → motive (.tuple xs))
    (dict : ∀ entries : Entries, (∀ k v, (k, v) ∈ entries → motive v) → motive (.dict entries))
    (v : PyValue) : motive v := by
  -- every member of a container is smaller than it
  cases v with
  | none => exact none
  | bool b => exact bool b
  | int n => exact int n
  | float x => exact float x
  | str s => exact str s
  | object cls attrs => exact object cls attrs
  | list xs =>
    refine list xs fun v mem => ?_
    have smaller := List.sizeOf_lt_of_mem mem
    exact nestedInduction none bool int float str object list tuple dict v
  | tuple xs =>
    refine tuple xs fun v mem => ?_
    have smaller := List.sizeOf_lt_of_mem mem
    exact nestedInduction none bool int float str object list tuple dict v
  | dict entries =>
    refine dict entries fun k v mem => ?_
    have smaller := List.sizeOf_lt_of_mem mem
    exact nestedInduction none bool int float str object list tuple dict v
termination_by sizeOf v
decreasing_by
  · rw [PyValue.list.sizeOf_spec]
    omega
  · rw [PyValue.tuple.sizeOf_spec]
    omega
  · rw [Prod.mk.sizeOf_spec] at smaller
    rw [PyValue.dict.sizeOf_spec]
    omega

/-! ## Keys inside a value

Where a key may stand, and where a walk that follows text keys alone can see it. -/

/-- `key` is a key of a dict inside the value. -/
inductive HasKey (key : String) : PyValue → Prop where
  | here {entries : Entries} {v : PyValue} (mem : (.str key, v) ∈ entries) :
      HasKey key (.dict entries)
  | entry {entries : Entries} {k : PyKey} {v : PyValue} (mem : (k, v) ∈ entries)
      (inner : HasKey key v) : HasKey key (.dict entries)
  | listItem {xs : List PyValue} {v : PyValue} (mem : v ∈ xs) (inner : HasKey key v) :
      HasKey key (.list xs)
  | tupleItem {xs : List PyValue} {v : PyValue} (mem : v ∈ xs) (inner : HasKey key v) :
      HasKey key (.tuple xs)

/-- `key` is a key of a dict reached in that many steps through string keys and items. -/
inductive VisibleAt (key : String) : Nat → PyValue → Prop where
  | here {entries : Entries} {v : PyValue} (mem : (.str key, v) ∈ entries) :
      VisibleAt key 0 (.dict entries)
  | entry {entries : Entries} {k : String} {v : PyValue} {depth : Nat}
      (mem : (.str k, v) ∈ entries) (inner : VisibleAt key depth v) :
      VisibleAt key (depth + 1) (.dict entries)
  | listItem {xs : List PyValue} {v : PyValue} {depth : Nat} (mem : v ∈ xs)
      (inner : VisibleAt key depth v) : VisibleAt key (depth + 1) (.list xs)
  | tupleItem {xs : List PyValue} {v : PyValue} {depth : Nat} (mem : v ∈ xs)
      (inner : VisibleAt key depth v) : VisibleAt key (depth + 1) (.tuple xs)

/-- `key` is a key of a dict inside a value that is stored, anywhere, under a key that is no
string. -/
inductive HiddenKey (key : String) : PyValue → Prop where
  | under {entries : Entries} {obj : Nat} {repr : String} {v : PyValue}
      (mem : (.other obj repr, v) ∈ entries) (inner : HasKey key v) :
      HiddenKey key (.dict entries)
  | entry {entries : Entries} {k : PyKey} {v : PyValue} (mem : (k, v) ∈ entries)
      (inner : HiddenKey key v) : HiddenKey key (.dict entries)
  | listItem {xs : List PyValue} {v : PyValue} (mem : v ∈ xs) (inner : HiddenKey key v) :
      HiddenKey key (.list xs)
  | tupleItem {xs : List PyValue} {v : PyValue} (mem : v ∈ xs) (inner : HiddenKey key v) :
      HiddenKey key (.tuple xs)

variable {key : String} {v : PyValue}

theorem HiddenKey.hasKey (h : HiddenKey key v) : HasKey key v := by
  induction h with
  | under mem inner => exact .entry mem inner
  | entry mem _ ih => exact .entry mem ih
  | listItem mem _ ih => exact .listItem mem ih
  | tupleItem mem _ ih => exact .tupleItem mem ih

theorem HasKey.visible_or_hidden (h : HasKey key v) :
    (∃ depth, VisibleAt key depth v) ∨ HiddenKey key v := by
  induction h with
  | here mem => exact .inl ⟨0, .here mem⟩
  | @entry entries k v mem inner ih =>
    cases k with
    | other obj repr => exact .inr (.under mem inner)
    | str k =>
      exact ih.imp (fun ⟨depth, visible⟩ => ⟨depth + 1, .entry mem visible⟩) (.entry mem)
  | listItem mem _ ih =>
    exact ih.imp (fun ⟨depth, visible⟩ => ⟨depth + 1, .listItem mem visible⟩) (.listItem mem)
  | tupleItem mem _ ih =>
    exact ih.imp (fun ⟨depth, visible⟩ => ⟨depth + 1, .tupleItem mem visible⟩) (.tupleItem mem)

/-! ## Values inside a value

Where a value may stand: as the value of an entry, or as an item below one. -/

/-- `P` holds of the value or of one inside it. -/
inductive Inside (P : PyValue → Prop) : PyValue → Prop where
  | self {v : PyValue} (holds : P v) : Inside P v
  | entry {entries : Entries} {k : PyKey} {v : PyValue} (mem : (k, v) ∈ entries)
      (inner : Inside P v) : Inside P (.dict entries)
  | listItem {xs : List PyValue} {v : PyValue} (mem : v ∈ xs) (inner : Inside P v) :
      Inside P (.list xs)
  | tupleItem {xs : List PyValue} {v : PyValue} (mem : v ∈ xs) (inner : Inside P v) :
      Inside P (.tuple xs)

/-- A dict with `P` of the value of an entry. -/
def EntryIs (P : PyValue → Prop) : PyValue → Prop
  | .dict entries => ∃ k v, (k, v) ∈ entries ∧ P v
  | _ => False

/-- A list or tuple with `P` of an item. -/
def ItemIs (P : PyValue → Prop) : PyValue → Prop
  | .list xs => ∃ v ∈ xs, P v
  | .tuple xs => ∃ v ∈ xs, P v
  | _ => False

/-- `P` holds of a value found, at any depth, under the key of a dict. -/
def UnderKey (P : PyValue → Prop) (v : PyValue) : Prop := v.Inside (EntryIs (Inside P))

/-- Such a value that the key stands for. -/
def UnderKeyAsEntry (P : PyValue → Prop) (v : PyValue) : Prop := v.Inside (EntryIs P)

/-- Such a value that is an item of a list or tuple. -/
def UnderKeyAsItem (P : PyValue → Prop) (v : PyValue) : Prop :=
  v.Inside (EntryIs (Inside (ItemIs P)))

section Inside

variable {P Q : PyValue → Prop}

theorem EntryIs.mono (h : ∀ u, P u → Q u) {u : PyValue} (hu : EntryIs P u) : EntryIs Q u := by
  cases u with
  | dict entries =>
    obtain ⟨k, w, mem, holds⟩ := hu
    exact ⟨k, w, mem, h w holds⟩
  | _ => exact hu

theorem Inside.bind {u : PyValue} (hu : u.Inside P) (h : ∀ w, P w → w.Inside Q) :
    u.Inside Q := by
  induction hu with
  | self holds => exact h _ holds
  | entry mem _ ih => exact .entry mem ih
  | listItem mem _ ih => exact .listItem mem ih
  | tupleItem mem _ ih => exact .tupleItem mem ih

theorem Inside.mono (h : ∀ u, P u → Q u) {u : PyValue} (hu : u.Inside P) : u.Inside Q :=
  hu.bind fun w holds => .self (h w holds)

theorem Inside.of_itemIs {u : PyValue} (hu : ItemIs P u) : u.Inside P := by
  cases u with
  | list xs =>
    obtain ⟨w, mem, holds⟩ := hu
    exact .listItem mem (.self holds)
  | tuple xs =>
    obtain ⟨w, mem, holds⟩ := hu
    exact .tupleItem mem (.self holds)
  | _ => exact hu.elim

/-- What is found inside a value is the value, the value of an entry or an item. -/
theorem Inside.self_or_entry_or_item {u : PyValue} (hu : u.Inside P) :
    P u ∨ u.Inside (EntryIs P) ∨ u.Inside (ItemIs P) := by
  -- the container on the innermost level decides which of the two it is
  induction hu with
  | self holds => exact .inl holds
  | @entry entries k w mem _ ih =>
    rcases ih with here | found | found
    · have hentry : EntryIs P (.dict entries) := ⟨k, w, mem, here⟩
      exact .inr (.inl (.self hentry))
    · exact .inr (.inl (.entry mem found))
    · exact .inr (.inr (.entry mem found))
  | @listItem xs w mem _ ih =>
    rcases ih with here | found | found
    · have hitem : ItemIs P (.list xs) := ⟨w, mem, here⟩
      exact .inr (.inr (.self hitem))
    · exact .inr (.inl (.listItem mem found))
    · exact .inr (.inr (.listItem mem found))
  | @tupleItem xs w mem _ ih =>
    rcases ih with here | found | found
    · have hitem : ItemIs P (.tuple xs) := ⟨w, mem, here⟩
      exact .inr (.inr (.self hitem))
    · exact .inr (.inl (.tupleItem mem found))
    · exact .inr (.inr (.tupleItem mem found))

/-- **Under a key** stand the values of entries and the items, and nothing else. -/
theorem underKey_iff : v.UnderKey P ↔ v.UnderKeyAsEntry P ∨ v.UnderKeyAsItem P := by
  constructor
  · intro h
    unfold UnderKey at h
    induction h with
    | @self u hentry =>
      cases u with
      | dict entries =>
        obtain ⟨k, w, mem, inside⟩ := hentry
        -- the value of the entry itself, or something below that value
        rcases inside.self_or_entry_or_item with here | found | found
        · have hhere : EntryIs P (.dict entries) := ⟨k, w, mem, here⟩
          exact .inl (.self hhere)
        · exact .inl (.entry mem found)
        · have hhere : EntryIs (Inside (ItemIs P)) (.dict entries) := ⟨k, w, mem, found⟩
          exact .inr (.self hhere)
      | _ => exact hentry.elim
    | entry mem _ ih => exact ih.imp (.entry mem) (.entry mem)
    | listItem mem _ ih => exact ih.imp (.listItem mem) (.listItem mem)
    | tupleItem mem _ ih => exact ih.imp (.tupleItem mem) (.tupleItem mem)
  · rintro (h | h)
    · exact h.mono fun u => EntryIs.mono fun w => .self
    · exact h.mono fun u => EntryIs.mono fun w inside => inside.bind fun _ => .of_itemIs

end Inside

end PyValue

/-! ## Strings

The operations on texts that the validators use. -/

def asciiLower (s : String) : String := .ofList (s.toList.map Char.toLower)

/-- `str.lower()`: the interpreter's own table, fixed on ASCII text. -/
structure Lowering where
  lower : String → String
  lower_ascii : ∀ s : String, (∀ c ∈ s.toList, c.toNat < 128) → lower s = asciiLower s

/-- The table that leaves every character beyond ASCII alone. -/
def Lowering.ascii : Lowering := ⟨asciiLower, fun _ _ => rfl⟩

/-- `s.startswith(start)`. -/
def startsWith (s start : String) : Bool := start.toList.isPrefixOf s.toList

/-- `s.replace(old, new)` for single characters. -/
def replaceChar (old new : Char) (s : List Char) : List Char :=
  s.map fun c => if c = old then new else c

end Ragcore
