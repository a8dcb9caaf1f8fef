import Ragcore.Lib.Fallible
import Ragcore.Lib.PyCall

/-!
# Ragcore — lists and dicts as mutable objects

The same values with identity. A variable holds an immutable value or a reference; lists and
dicts are objects of a heap, shared by everything that refers to them, and a dict can be written
to. Programs over the heap are compared with the functions over `Json` that compute their results.

* **`Heap.load`** — the JSON value behind a variable, to a depth of nesting.
* **`Heap.Extends`** — every object is as it was; there may be new ones.
* **`Mirrors`** — run from a heap, a program ends as a function over `Json` says and leaves every
  object of a start heap as it was.
-/

namespace Ragcore

/-- The values that are no containers. -/
def Json.isScalar : Json → Bool
  | .list _ | .dict _ => false
  | _ => true

/-- What a variable holds: an immutable JSON value, a reference to a list or dict, or an immutable
object of a class of the program. -/
inductive HeapVal (ω : Type) where
  | scalar (v : Json) (plain : v.isScalar = true)
  | ref (loc : Nat)
  | object (x : ω)

/-- An object of the heap: a list or a dict, whose members are values of the heap. -/
inductive HeapObj (ω : Type) where
  | list (items : List (HeapVal ω))
  | dict (d : Dict HKey (HeapVal ω))

/-- The lists and dicts of a program; an object's location is its position. -/
structure Heap (ω : Type) where
  objects : List (HeapObj ω)

/-- A program that reads and writes the heap and may raise. -/
abbrev HeapM (ω : Type) := EStateM PyErr (Heap ω)

variable {ω : Type}

namespace HeapVal

/-- The literals of the source. -/
def null : HeapVal ω := .scalar .null rfl

def int (n : Int) : HeapVal ω := .scalar (.int n) rfl

def str (s : String) : HeapVal ω := .scalar (.str s) rfl

/-- The object behind a dict key. -/
def ofKey : HKey → HeapVal ω
  | .none => null
  | .num (.fin q) => if q.den = 1 then int q.num else .scalar (.float (.fin q)) rfl
  | .num x => .scalar (.float x) rfl
  | .str s => str s

end HeapVal

namespace Heap

/-! ## Reading

What a value of the heap answers. A container is looked up where the reference points. -/

/-- A dict entry, once its value is loaded: JSON dicts have string keys. -/
def loadField (load : HeapVal ω → Except PyErr Json) (p : HKey × HeapVal ω) :
    Except PyErr (String × Json) :=
  match p.1 with
  | .str name => do
    let v ← load p.2
    return (name, v)
  | _ => .error (.typeError ["keys must be strings"])

/-- The JSON value nested at most `depth` containers deep. -/
def load (h : Heap ω) : Nat → HeapVal ω → Except PyErr Json
  | _, .scalar v _ => .ok v
  | _, .object _ => .error (.typeError ["not a JSON value"])
  | 0, .ref _ => .error (.typeError ["nested too deep"])
  | depth + 1, .ref loc =>
    match h.objects[loc]? with
    | none => .error (.typeError ["no such object"])
    | some (.list items) => do
      let vs ← items.mapM (load h depth)
      return .list vs
    | some (.dict d) => do
      let fields ← d.entries.mapM (loadField (load h depth))
      return .dict fields

/-- `type(v).__name__`. -/
def typeName (h : Heap ω) : HeapVal ω → String
  | .scalar v _ => v.typeName
  | .object _ => "object"
  | .ref loc =>
    match h.objects[loc]? with
    | some (.dict _) => "dict"
    | _ => "list"

/-- `hash(v)`. -/
def hash (h : Heap ω) : HeapVal ω → Except PyErr HKey
  | .scalar v _ => v.hash
  | v => .error (.typeError [s!"unhashable type: '{h.typeName v}'"])

/-- `v["name"]`. -/
def getItem (h : Heap ω) (v : HeapVal ω) (name : String) : Except PyErr (HeapVal ω) :=
  match v with
  | .scalar (.str _) _ => .error (.typeError ["string indices must be integers, not 'str'"])
  | .ref loc =>
    match h.objects[loc]? with
    | some (.dict d) =>
      match d.get? (.str name) with
      | some item => .ok item
      | none => .error (.keyError [.text name])
    | _ => .error (.typeError ["list indices must be integers or slices, not str"])
  | v => .error (.typeError [s!"'{h.typeName v}' object is not subscriptable"])

/-- The elements `for x in v` binds. -/
def iterate (h : Heap ω) (v : HeapVal ω) : Except PyErr (List (HeapVal ω)) :=
  match v with
  | .scalar (.str s) _ => .ok (s.toList.map fun c => .str (String.singleton c))
  | .ref loc =>
    match h.objects[loc]? with
    | some (.dict d) => .ok (d.keys.map HeapVal.ofKey)
    | some (.list items) => .ok items
    | none => .ok []
  | v => .error (.typeError [s!"'{h.typeName v}' object is not iterable"])

/-- The loop of `dict(pairs)`. -/
def dictFromPairs (h : Heap ω) :
    List (HeapVal ω) → Dict HKey (HeapVal ω) → Except PyErr (Dict HKey (HeapVal ω))
  | [], d => .ok d
  | pair :: rest, d =>
    match h.iterate pair with
    | .error _ =>
      .error (.typeError ["cannot convert dictionary update sequence element to a sequence"])
    | .ok [key, value] => do
      let key ← h.hash key
      dictFromPairs h rest (d.insert key value)
    | .ok parts => .error (.valueError
        [s!"dictionary update sequence element has length {parts.length}; 2 is required"])

/-- The entries of `dict(v)`: the copy shares the values. -/
def entriesOf (h : Heap ω) (v : HeapVal ω) : Except PyErr (Dict HKey (HeapVal ω)) := do
  match v with
  | .ref loc =>
    match h.objects[loc]? with
    | some (.dict d) => .ok d
    | _ =>
      let pairs ← h.iterate v
      h.dictFromPairs pairs ∅
  | v =>
    let pairs ← h.iterate v
    h.dictFromPairs pairs ∅

/-! ## Writing

The two effects: a new object at the end, or an object replaced in its place. -/

/-- A new object, at the end. -/
def push (h : Heap ω) (obj : HeapObj ω) : Heap ω := ⟨h.objects ++ [obj]⟩

/-- The object at a location, replaced. -/
def put (h : Heap ω) (loc : Nat) (obj : HeapObj ω) : Heap ω := ⟨h.objects.set loc obj⟩

/-- A new object, and the reference to it. -/
def alloc (obj : HeapObj ω) : HeapM ω Nat := do
  let h ← get
  set (h.push obj)
  return h.objects.length

/-- `d[name] = v` on the dict at a location. -/
def setItem (loc : Nat) (name : String) (v : HeapVal ω) : HeapM ω Unit :=
  modify fun h =>
    match h.objects[loc]? with
    | some (.dict d) => h.put loc (.dict (d.insert (.str name) v))
    | _ => h

/-- `dict(v)`: a new dict. -/
def dictOf (v : HeapVal ω) : HeapM ω Nat := do
  let d ← readState fun h => h.entriesOf v
  alloc (.dict d)

/-! ## Heaps that grow

`h.Extends h'`: all that was there is still there as it was. What is not kept is the room behind it.
-/

/-- Every object of `h` is in `h'` as it was. -/
def Extends (h h' : Heap ω) : Prop :=
  ∀ (loc : Nat) (obj : HeapObj ω), h.objects[loc]? = some obj → h'.objects[loc]? = some obj

theorem Extends.refl (h : Heap ω) : h.Extends h := fun _ _ found => found

theorem Extends.trans {a b c : Heap ω} (hab : a.Extends b) (hbc : b.Extends c) : a.Extends c :=
  fun loc obj found => hbc loc obj (hab loc obj found)

/-- A new object overwrites nothing. -/
theorem extends_push (h : Heap ω) (obj : HeapObj ω) : h.Extends (h.push obj) := by
  intro loc old found
  obtain ⟨bound, -⟩ := List.getElem?_eq_some_iff.mp found
  show (h.objects ++ [obj])[loc]? = some old
  rw [List.getElem?_append_left bound]
  exact found

@[simp] theorem objects_push_length (h : Heap ω) (obj : HeapObj ω) :
    (h.push obj).objects[h.objects.length]? = some obj := by
  show (h.objects ++ [obj])[h.objects.length]? = some obj
  simp

theorem objects_put {h : Heap ω} {loc : Nat} {old : HeapObj ω}
    (found : h.objects[loc]? = some old) (obj : HeapObj ω) :
    (h.put loc obj).objects[loc]? = some obj := by
  obtain ⟨bound, -⟩ := List.getElem?_eq_some_iff.mp found
  show (h.objects.set loc obj)[loc]? = some obj
  rw [List.getElem?_set_self bound]

/-- A write at one location is not seen at another. -/
theorem objects_put_of_ne {h : Heap ω} {loc loc' : Nat} (different : loc ≠ loc')
    (obj : HeapObj ω) : (h.put loc obj).objects[loc']? = h.objects[loc']? := by
  show (h.objects.set loc obj)[loc']? = h.objects[loc']?
  rw [List.getElem?_set_ne different]

/-- Writing to an object `start` does not have leaves those of `start` alone. -/
theorem Extends.put {start h : Heap ω} {loc : Nat} (grown : start.Extends h)
    (fresh : start.objects[loc]? = none) (obj : HeapObj ω) : start.Extends (h.put loc obj) := by
  intro loc' old found
  have different : loc ≠ loc' := by
    rintro rfl
    rw [fresh] at found
    cases found
  rw [objects_put_of_ne different]
  exact grown loc' old found

/-! ## Loading in a heap that grows

A value loads to the same JSON value in every heap that extends its own, since loading only follows
references that were there. -/

/-- The value loads, and to that. -/
def Loads (h : Heap ω) (depth : Nat) (v : HeapVal ω) (j : Json) : Prop := h.load depth v = .ok j

/-- Entries with corresponding keys and related values. -/
def EntryRel {κ κ' ν ν' : Type} (f : κ' → κ) (R : ν → ν' → Prop) (p : κ × ν) (q : κ' × ν') :
    Prop :=
  p.1 = f q.1 ∧ R p.2 q.2

/-- An entry loads when its key is a text and its value loads. -/
theorem loadField_ok_iff {load : HeapVal ω → Except PyErr Json} {p : HKey × HeapVal ω}
    {field : String × Json} :
    loadField load p = .ok field ↔ EntryRel .str (fun v j => load v = .ok j) p field := by
  obtain ⟨key, v⟩ := p
  obtain ⟨name, j⟩ := field
  unfold EntryRel loadField
  -- a key that is no text is not loaded
  cases key with
  | str s =>
    simp only [bind_ok_iff, HKey.str.injEq]
    constructor
    · rintro ⟨j', loaded, same⟩
      cases same
      exact ⟨rfl, loaded⟩
    · rintro ⟨rfl, loaded⟩
      exact ⟨j, loaded, rfl⟩
  | _ => simp

@[simp] theorem loads_scalar_iff {h : Heap ω} {depth : Nat} {v j : Json}
    {plain : v.isScalar = true} : h.Loads depth (.scalar v plain) j ↔ v = j := by
  cases depth <;> simp [Loads, load]

/-- An object of the engine is no JSON value. -/
theorem not_loads_object {h : Heap ω} {depth : Nat} {x : ω} {j : Json} :
    ¬h.Loads depth (.object x) j := by
  cases depth <;> simp [Loads, load]

/-- What a reference to a list or dict loads to. -/
theorem load_ref_ok_iff {h : Heap ω} {depth loc : Nat} {j : Json} :
    h.Loads (depth + 1) (.ref loc) j ↔
      (∃ items js, h.objects[loc]? = some (.list items) ∧ j = .list js ∧
        List.Forall₂ (h.Loads depth) items js) ∨
      ∃ d fields, h.objects[loc]? = some (.dict d) ∧ j = .dict fields ∧
        List.Forall₂ (EntryRel .str (h.Loads depth)) d.entries fields := by
  unfold Loads
  rw [load]
  cases found : h.objects[loc]? with
  | none => simp
  | some obj =>
    -- item by item, or entry by entry
    cases obj with
    | list items =>
      simp only [bind_ok_iff, mapM_ok_iff, Option.some.injEq, HeapObj.list.injEq, reduceCtorEq,
        false_and, exists_false, or_false]
      constructor
      · rintro ⟨js, loaded, same⟩
        cases same
        exact ⟨items, js, rfl, rfl, loaded⟩
      · rintro ⟨_, js, rfl, rfl, loaded⟩
        exact ⟨js, loaded, rfl⟩
    | dict d =>
      simp only [bind_ok_iff, mapM_ok_iff, loadField_ok_iff, Option.some.injEq,
        HeapObj.dict.injEq, reduceCtorEq, false_and, exists_false, false_or]
      constructor
      · rintro ⟨fields, loaded, same⟩
        cases same
        exact ⟨d, fields, rfl, rfl, loaded⟩
      · rintro ⟨_, fields, rfl, rfl, loaded⟩
        exact ⟨fields, loaded, rfl⟩

/-- A new location was free before. -/
theorem Extends.absent {start h : Heap ω} (grown : start.Extends h) :
    start.objects[h.objects.length]? = none := by
  by_contra present
  obtain ⟨obj, found⟩ := Option.ne_none_iff_exists'.mp present
  have kept := grown _ obj found
  simp at kept

/-- `d[name] = v` on a dict that is there. -/
theorem setItem_run {h : Heap ω} {loc : Nat} {d : Dict HKey (HeapVal ω)}
    (found : h.objects[loc]? = some (.dict d)) (name : String) (v : HeapVal ω) :
    setItem loc name v h = .ok () (h.put loc (.dict (d.insert (.str name) v))) := by
  show EStateM.Result.ok () (match h.objects[loc]? with
    | some (.dict d) => h.put loc (.dict (d.insert (.str name) v))
    | _ => h) = _
  rw [found]

/-- Writing to a dict `start` does not have. -/
theorem setItem_fresh {start h : Heap ω} {loc : Nat} {d : Dict HKey (HeapVal ω)}
    (grown : start.Extends h) (fresh : start.objects[loc]? = none)
    (found : h.objects[loc]? = some (.dict d)) (name : String) (v : HeapVal ω) :
    ∃ h', setItem loc name v h = .ok () h' ∧ start.Extends h' ∧
      h'.objects[loc]? = some (.dict (d.insert (.str name) v)) ∧
      ∀ other, loc ≠ other → h'.objects[other]? = h.objects[other]? :=
  ⟨_, setItem_run found name v, grown.put fresh _, objects_put found _,
    fun _ different => objects_put_of_ne different _⟩

theorem alloc_run (h : Heap ω) (obj : HeapObj ω) :
    alloc obj h = .ok h.objects.length (h.push obj) := rfl

/-- A value loads the same in a heap that has its objects, at any greater depth. -/
theorem load_mono {h h' : Heap ω} (grown : h.Extends h') {depth depth' : Nat}
    (deep : depth ≤ depth') {v : HeapVal ω} {j : Json} (loaded : h.Loads depth v j) :
    h'.Loads depth' v j := by
  induction depth generalizing depth' v j with
  | zero =>
    cases v with
    | scalar v plain => cases depth' <;> exact loaded
    | ref loc => cases loaded
    | object x => cases loaded
  | succ depth ih =>
    obtain ⟨rest, rfl⟩ : ∃ rest, depth' = rest + 1 := ⟨depth' - 1, by omega⟩
    -- one level down the depth is smaller on both sides
    have inner : ∀ {v j}, h.load depth v = .ok j → h'.load rest v = .ok j := ih (by omega)
    cases v with
    | scalar v plain => exact loaded
    | object x => cases loaded
    | ref loc =>
      rw [load_ref_ok_iff] at loaded ⊢
      rcases loaded with ⟨items, js, found, rfl, all⟩ | ⟨d, fields, found, rfl, all⟩
      · exact .inl ⟨items, js, grown _ _ found, rfl, all.imp fun _ _ => inner⟩
      · exact .inr ⟨d, fields, grown _ _ found, rfl, all.imp fun _ _ same => ⟨same.1, inner same.2⟩⟩

/-! ## What a loaded value answers

A value and the JSON value it loads to answer alike: types, items, lookups, hashes. -/

section Reading

variable {h : Heap ω} {depth : Nat} {v : HeapVal ω} {j : Json}

/-- A loaded list or dict has its members one level down. -/
theorem loaded_ref {loc : Nat} (loaded : h.Loads depth (.ref loc) j) :
    (∃ items js, h.objects[loc]? = some (.list items) ∧ j = .list js ∧
        List.Forall₂ (h.Loads depth) items js) ∨
      ∃ d fields, h.objects[loc]? = some (.dict d) ∧ j = .dict fields ∧
        List.Forall₂ (EntryRel .str (h.Loads depth)) d.entries fields := by
  cases depth with
  | zero => cases loaded
  | succ depth =>
    -- what loads at a depth loads at the next
    have deeper : ∀ {v j}, h.load depth v = .ok j → h.load (depth + 1) v = .ok j :=
      load_mono (.refl h) (Nat.le_succ depth)
    rcases load_ref_ok_iff.mp loaded with
      ⟨items, js, found, rfl, all⟩ | ⟨d, fields, found, rfl, all⟩
    · exact .inl ⟨items, js, found, rfl, all.imp fun _ _ => deeper⟩
    · exact .inr ⟨d, fields, found, rfl, all.imp fun _ _ same => ⟨same.1, deeper same.2⟩⟩

/-- The tests on types agree. -/
theorem typeName_loaded (loaded : h.Loads depth v j) : h.typeName v = j.typeName := by
  cases v with
  | scalar v plain =>
    obtain rfl := loads_scalar_iff.mp loaded
    exact rfl
  | object x => exact absurd loaded not_loads_object
  | ref loc =>
    rcases loaded_ref loaded with ⟨items, js, found, rfl, all⟩ | ⟨d, fields, found, rfl, all⟩ <;>
      simp [typeName, found, Json.typeName]

/-- The hashes agree, with the same refusal of containers. -/
theorem hash_loaded (loaded : h.Loads depth v j) : h.hash v = j.hash := by
  cases v with
  | scalar v plain =>
    obtain rfl := loads_scalar_iff.mp loaded
    rfl
  | object x => exact absurd loaded not_loads_object
  | ref loc =>
    have named := typeName_loaded loaded
    simp only [hash, named]
    rcases loaded_ref loaded with
      ⟨items, js, found, rfl, all⟩ | ⟨d, fields, found, rfl, all⟩ <;> rfl

/-- Related lists of entries answer a lookup alike. -/
theorem lookup_related {κ κ' ν ν' : Type} [DecidableEq κ] [DecidableEq κ'] {f : κ' → κ}
    (injective : Function.Injective f) {R : ν → ν' → Prop} {l : List (κ × ν)} {l' : List (κ' × ν')}
    (related : List.Forall₂ (EntryRel f R) l l') (k : κ') :
    Option.Rel R (l.lookup (f k)) (l'.lookup k) := by
  induction related with
  | nil => exact .none
  | @cons p q rest rest' head _ ih =>
    obtain ⟨key, v⟩ := p
    obtain ⟨key', v'⟩ := q
    obtain ⟨rfl, same⟩ := head
    rw [Dict.lookup_cons_if, Dict.lookup_cons_if]
    -- the keys at the head agree on both sides
    by_cases here : key' = k
    · rw [if_pos (congrArg f here), if_pos here]
      exact .some same
    · rw [if_neg fun eq => here (injective eq), if_neg here]
      exact ih

/-- Related entries have the same keys. -/
theorem keys_related {κ κ' ν ν' : Type} {f : κ' → κ} {R : ν → ν' → Prop} {l : List (κ × ν)}
    {l' : List (κ' × ν')} (related : List.Forall₂ (EntryRel f R) l l') :
    l.map Prod.fst = l'.map fun q => f q.1 := by
  induction related with
  | nil => rfl
  | cons head _ ih => rw [List.map_cons, List.map_cons, head.1, ih]

/-- An insertion finds the same place on both sides. -/
theorem insertEntry_related {κ κ' ν ν' : Type} [DecidableEq κ] [DecidableEq κ'] {f : κ' → κ}
    (injective : Function.Injective f) {R : ν → ν' → Prop} {l : List (κ × ν)} {l' : List (κ' × ν')}
    (related : List.Forall₂ (EntryRel f R) l l') (k : κ') {v : ν} {v' : ν'} (same : R v v') :
    List.Forall₂ (EntryRel f R) (Dict.insertEntry (f k) v l) (Dict.insertEntry k v' l') := by
  induction related with
  | nil => exact .cons ⟨rfl, same⟩ .nil
  | @cons p q rest rest' head tail ih =>
    obtain ⟨key, w⟩ := p
    obtain ⟨key', w'⟩ := q
    obtain ⟨rfl, inner⟩ := head
    rw [Dict.insertEntry, Dict.insertEntry]
    -- written over on both sides, or on neither
    by_cases here : key' = k
    · rw [if_pos (congrArg f here), if_pos here]
      exact .cons ⟨rfl, same⟩ tail
    · rw [if_neg fun eq => here (injective eq), if_neg here]
      exact .cons ⟨rfl, inner⟩ ih

theorem str_injective : Function.Injective HKey.str := fun _ _ same => HKey.str.inj same

theorem getItem_loaded (name : String) (loaded : h.Loads depth v j) :
    SameOutcome (h.Loads depth) (h.getItem v name) (j.getItem name) := by
  cases v with
  | object x => exact absurd loaded not_loads_object
  | scalar v plain =>
    obtain rfl := loads_scalar_iff.mp loaded
    cases v with
    | list xs => cases plain
    | dict fields => cases plain
    | _ => exact .error _
  | ref loc =>
    rcases loaded_ref loaded with ⟨items, js, found, rfl, all⟩ | ⟨d, fields, found, rfl, all⟩
    · simp only [getItem, found]
      exact .error _
    · have same : Option.Rel (h.Loads depth) (d.get? (.str name))
          (fields.lookup name) := lookup_related str_injective all name
      simp only [getItem, found, Json.getItem]
      -- the name is there on both sides or on neither
      generalize d.get? (.str name) = item at same ⊢
      generalize fields.lookup name = field at same ⊢
      cases same with
      | none => exact .error _
      | some loaded => exact .ok loaded

theorem str_loads (h : Heap ω) (depth : Nat) (s : String) :
    h.load depth (.str s) = .ok (.str s) := by
  cases depth <;> rfl

/-- The names of a loaded dict are its keys. -/
theorem keys_loaded {d : Dict HKey (HeapVal ω)} {fields : Fields}
    (all : List.Forall₂ (EntryRel .str (h.Loads depth)) d.entries fields) :
    d.keys = fields.map fun field => .str field.1 :=
  keys_related all

/-- Names are as distinct as the keys they come from. -/
theorem names_nodup {d : Dict HKey (HeapVal ω)} {fields : Fields}
    (all : List.Forall₂ (EntryRel .str (h.Loads depth)) d.entries fields) :
    (fields.map Prod.fst).Nodup := by
  have nodup := d.keys_nodup
  rw [keys_loaded all, ← Function.comp_def, ← List.map_map] at nodup
  exact nodup.of_map _

theorem iterate_loaded (loaded : h.Loads depth v j) :
    SameOutcome (List.Forall₂ (h.Loads depth)) (h.iterate v) j.iterate := by
  cases v with
  | object x => exact absurd loaded not_loads_object
  | scalar v plain =>
    obtain rfl := loads_scalar_iff.mp loaded
    cases v with
    | list xs => cases plain
    | dict fields => cases plain
    | str s =>
      refine .ok ?_
      rw [List.forall₂_map_left_iff, List.forall₂_map_right_iff, List.forall₂_same]
      exact fun c _ => str_loads h depth _
    | _ => exact .error _
  | ref loc =>
    rcases loaded_ref loaded with ⟨items, js, found, rfl, all⟩ | ⟨d, fields, found, rfl, all⟩
    · simp only [iterate, found]
      exact .ok all
    · simp only [iterate, found]
      refine .ok ?_
      -- iterating a dict gives its keys
      have names : (Dict.ofFields fields).keys = fields.map Prod.fst := by
        rw [Dict.keys, Dict.entries_ofFields (names_nodup all)]
      rw [keys_loaded all, names, List.map_map, List.map_map, List.forall₂_map_left_iff,
        List.forall₂_map_right_iff, List.forall₂_same]
      exact fun field _ => str_loads h depth field.1

/-! ## `dict(v)`

A copy of the dict at its top: a new dict with the entries of the old one, whose values are shared.
The pairs of a list of pairs are read off first. -/

/-- A dict of variables and a dict of the values they load to. -/
def LoadsDict (h : Heap ω) (depth : Nat) (d : Dict HKey (HeapVal ω)) (d' : Dict HKey Json) :
    Prop :=
  List.Forall₂ (EntryRel id (h.Loads depth)) d.entries d'.entries

/-- A dict object whose entries load to those fields. -/
def DictAt (h : Heap ω) (depth loc : Nat) (fields : Fields) : Prop :=
  ∃ d, h.objects[loc]? = some (.dict d) ∧
    List.Forall₂ (EntryRel .str (h.Loads depth)) d.entries fields

/-- A placed dict loads as a dict. -/
theorem DictAt.loads {loc : Nat} {fields : Fields} (placed : h.DictAt depth loc fields) :
    h.Loads (depth + 1) (.ref loc) (.dict fields) := by
  obtain ⟨d, found, all⟩ := placed
  exact load_ref_ok_iff.mpr (.inr ⟨d, fields, found, rfl, all⟩)

theorem DictAt.of_loads {loc : Nat} {fields : Fields}
    (loaded : h.Loads depth (.ref loc) (.dict fields)) :
    ∃ inner, depth = inner + 1 ∧ h.DictAt inner loc fields := by
  cases depth with
  | zero => cases loaded
  | succ inner =>
    rcases load_ref_ok_iff.mp loaded with ⟨items, js, found, same, all⟩ | ⟨d, fs, found, same, all⟩
    · cases same
    · cases same
      exact ⟨inner, rfl, d, found, all⟩

/-- It stays placed as long as the heap only grows. -/
theorem DictAt.mono {h' : Heap ω} {depth' loc : Nat} {fields : Fields}
    (placed : h.DictAt depth loc fields) (grown : h.Extends h') (deep : depth ≤ depth') :
    h'.DictAt depth' loc fields := by
  obtain ⟨d, found, all⟩ := placed
  exact ⟨d, grown loc _ found, all.imp fun _ _ same => ⟨same.1, load_mono grown deep same.2⟩⟩

/-- `dict(v)` of a dict object is another with the same entries. -/
theorem DictAt.copy {loc : Nat} {fields : Fields} (placed : h.DictAt depth loc fields) :
    ∃ h', dictOf (.ref loc) h = .ok h.objects.length h' ∧ h.Extends h' ∧
      h'.DictAt depth h.objects.length fields := by
  obtain ⟨d, found, all⟩ := placed
  have entries : h.entriesOf (.ref loc) = .ok d := by simp only [entriesOf, found]
  refine ⟨h.push (.dict d), ?_, extends_push h _, d, objects_push_length h _,
    all.imp fun _ _ same => ⟨same.1, load_mono (extends_push h _) (Nat.le_refl _) same.2⟩⟩
  unfold dictOf
  rw [run_readState_bind, entries]
  rfl

theorem LoadsDict.get? {d : Dict HKey (HeapVal ω)} {d' : Dict HKey Json}
    (same : h.LoadsDict depth d d') (k : HKey) :
    Option.Rel (h.Loads depth) (d.get? k) (d'.get? k) :=
  lookup_related Function.injective_id same k

theorem LoadsDict.insert {d : Dict HKey (HeapVal ω)} {d' : Dict HKey Json}
    (same : h.LoadsDict depth d d') (k : HKey) (loaded : h.Loads depth v j) :
    h.LoadsDict depth (d.insert k v) (d'.insert k j) :=
  insertEntry_related Function.injective_id same k loaded

/-- Growth keeps the values of a dict. -/
theorem LoadsDict.mono {h' : Heap ω} {d : Dict HKey (HeapVal ω)} {d' : Dict HKey Json}
    (same : h.LoadsDict depth d d') (grown : h.Extends h') : h'.LoadsDict depth d d' :=
  same.imp fun _ _ related => ⟨related.1, load_mono grown (Nat.le_refl depth) related.2⟩

/-- `d["name"]` on a dict object with loaded entries. -/
theorem getItem_dict {loc : Nat} {d : Dict HKey (HeapVal ω)} {d' : Dict HKey Json}
    (found : h.objects[loc]? = some (.dict d)) (same : h.LoadsDict depth d d') (name : String) :
    SameOutcome (fun item k => h.Loads depth item k ∧ d'.contains (.str name) = true)
      (h.getItem (.ref loc) name) (dictItem d' name) := by
  have related := same.get? (.str name)
  simp only [getItem, found, dictItem, Dict.contains]
  generalize d.get? (.str name) = item at related ⊢
  generalize d'.get? (.str name) = expected at related ⊢
  cases related with
  | none => exact .error _
  | some loaded => exact .ok ⟨loaded, rfl⟩

theorem dictFromPairs_loaded {pairs : List (HeapVal ω)} {js : List Json}
    (all : List.Forall₂ (h.Loads depth) pairs js)
    {d : Dict HKey (HeapVal ω)} {d' : Dict HKey Json} (same : h.LoadsDict depth d d') :
    SameOutcome (h.LoadsDict depth) (h.dictFromPairs pairs d) (Json.dictFromPairs js d') := by
  induction all generalizing d d' with
  | nil => exact .ok same
  | @cons pair j rest js head _ ih =>
    have parts := iterate_loaded head
    rw [dictFromPairs, Json.dictFromPairs]
    rw [Json.iterate] at parts
    -- an item that is no pair is refused on both sides
    generalize h.iterate pair = members at parts ⊢
    cases found : j.iterate? with
    | none =>
      rw [found] at parts
      cases parts with
      | error err => exact .error _
    | some values =>
      rw [found] at parts
      cases parts with
      | ok members =>
        cases members with
        | nil => exact .error _
        | cons key members =>
          cases members with
          | nil => exact .error _
          | cons value members =>
            cases members with
            | nil =>
              dsimp only
              rw [hash_loaded key]
              exact (SameOutcome.same _).bind fun k _ eq => eq ▸ ih (same.insert k value)
            | cons third members =>
              simp only [List.length_cons, members.length_eq]
              exact .error _

/-- `dict(v)` shares the values of what it copies. -/
theorem entriesOf_loaded (loaded : h.Loads depth v j) :
    SameOutcome (h.LoadsDict depth) (h.entriesOf v) j.dictOf := by
  -- what is no dict is read as pairs
  have pairs : SameOutcome (h.LoadsDict depth) (do
      let pairs ← h.iterate v
      h.dictFromPairs pairs ∅) (do
      let pairs ← j.iterate
      Json.dictFromPairs pairs ∅) :=
    (iterate_loaded loaded).bind fun _ _ all => dictFromPairs_loaded all .nil
  cases v with
  | object x => exact absurd loaded not_loads_object
  | scalar v plain =>
    obtain rfl := loads_scalar_iff.mp loaded
    cases v with
    | list xs => cases plain
    | dict fields => cases plain
    | _ => exact pairs
  | ref loc =>
    rcases loaded_ref loaded with ⟨items, js, found, rfl, all⟩ | ⟨d, fields, found, rfl, all⟩
    · simp only [entriesOf, found]
      exact pairs
    · simp only [entriesOf, found]
      refine .ok ?_
      have nodup : ((fields.map fun p => (HKey.str p.1, p.2)).map Prod.fst).Nodup := by
        rw [List.map_map]
        have distinct := (names_nodup all).map str_injective
        rwa [List.map_map] at distinct
      rw [LoadsDict, Json.ofObject, Dict.entries_ofFields nodup, List.forall₂_map_right_iff]
      exact all

end Reading

end Heap

/-! ## Every JSON value is held by some heap

So a statement about all heaps that hold a value is a statement about all values. -/

namespace Json

mutual

/-- No dict inside the value has two entries of one name. -/
def distinctNames : Json → Prop
  | .list xs => distinctNamesList xs
  | .dict fields => (fields.map Prod.fst).Nodup ∧ distinctNamesFields fields
  | _ => True

def distinctNamesList : List Json → Prop
  | [] => True
  | v :: rest => distinctNames v ∧ distinctNamesList rest

def distinctNamesFields : Fields → Prop
  | [] => True
  | (_, v) :: rest => distinctNames v ∧ distinctNamesFields rest

end

end Json

namespace Heap

mutual

theorem exists_load (h : Heap ω) :
    (s : Json) → s.distinctNames → ∃ depth h' v, h.Extends h' ∧ h'.Loads depth v s
  | .list xs, distinct => by
    rw [Json.distinctNames] at distinct
    obtain ⟨depth, h', items, grown, all⟩ := exists_loadList h xs distinct
    refine ⟨depth + 1, h'.push (.list items), .ref h'.objects.length,
      grown.trans (extends_push h' _), load_ref_ok_iff.mpr (.inl ⟨items, xs, by simp, rfl, ?_⟩)⟩
    exact all.imp fun _ _ => load_mono (extends_push h' _) (Nat.le_refl depth)
  | .dict fields, distinct => by
    rw [Json.distinctNames] at distinct
    obtain ⟨depth, h', entries, grown, all⟩ := exists_loadFields h fields distinct.2
    have nodup : (entries.map Prod.fst).Nodup := by
      rw [keys_related all, ← Function.comp_def, ← List.map_map]
      exact distinct.1.map str_injective
    refine ⟨depth + 1, h'.push (.dict ⟨entries, nodup⟩), .ref h'.objects.length,
      grown.trans (extends_push h' _),
      load_ref_ok_iff.mpr (.inr ⟨⟨entries, nodup⟩, fields, by simp, rfl, ?_⟩)⟩
    exact all.imp fun _ _ same =>
      ⟨same.1, load_mono (extends_push h' _) (Nat.le_refl depth) same.2⟩
  | .null, _ => ⟨0, h, .scalar .null rfl, .refl h, rfl⟩
  | .bool b, _ => ⟨0, h, .scalar (.bool b) rfl, .refl h, rfl⟩
  | .int n, _ => ⟨0, h, .scalar (.int n) rfl, .refl h, rfl⟩
  | .float x, _ => ⟨0, h, .scalar (.float x) rfl, .refl h, rfl⟩
  | .str s, _ => ⟨0, h, .scalar (.str s) rfl, .refl h, rfl⟩

/-- The items one after another, each in a heap that extends the one before. -/
theorem exists_loadList (h : Heap ω) :
    (xs : List Json) → Json.distinctNamesList xs →
      ∃ depth h' items, h.Extends h' ∧ List.Forall₂ (h'.Loads depth) items xs
  | [], _ => ⟨0, h, [], .refl h, .nil⟩
  | x :: rest, distinct => by
    rw [Json.distinctNamesList] at distinct
    obtain ⟨depth, h₁, v, grown, loaded⟩ := exists_load h x distinct.1
    obtain ⟨depth', h₂, items, grown', all⟩ := exists_loadList h₁ rest distinct.2
    refine ⟨max depth depth', h₂, v :: items, grown.trans grown', .cons ?_ ?_⟩
    · exact load_mono grown' (le_max_left _ _) loaded
    · exact all.imp fun _ _ => load_mono (.refl h₂) (le_max_right _ _)

theorem exists_loadFields (h : Heap ω) :
    (fields : Fields) → Json.distinctNamesFields fields →
      ∃ depth h' entries, h.Extends h' ∧
        List.Forall₂ (EntryRel HKey.str (h'.Loads depth)) entries fields
  | [], _ => ⟨0, h, [], .refl h, .nil⟩
  | (name, x) :: rest, distinct => by
    rw [Json.distinctNamesFields] at distinct
    obtain ⟨depth, h₁, v, grown, loaded⟩ := exists_load h x distinct.1
    obtain ⟨depth', h₂, entries, grown', all⟩ := exists_loadFields h₁ rest distinct.2
    refine ⟨max depth depth', h₂, (.str name, v) :: entries, grown.trans grown', .cons ⟨rfl, ?_⟩ ?_⟩
    · exact load_mono grown' (le_max_left _ _) loaded
    · exact all.imp fun _ _ same => ⟨same.1, load_mono (.refl h₂) (le_max_right _ _) same.2⟩

end

end Heap

/-! ## Programs that mirror functions

The rules of `Follows`, at the heap: what has grown has every object there was. -/

/-- From the heap `h`, the program ends as `y` says, with `post` for the values, and every object
of `start` is as it was. -/
abbrev Mirrors {α β : Type} (start h : Heap ω) (post : α → β → Heap ω → Prop) (x : HeapM ω α)
    (y : Except PyErr β) : Prop :=
  Follows Heap.Extends start h post x y

namespace Mirrors

variable {α β γ δ : Type} {start h : Heap ω} {post : α → β → Heap ω → Prop} {x : HeapM ω α}
  {y : Except PyErr β}

/-- `dict(v)` of a loaded value: a new object with entries that load to the dict's. -/
theorem dictOf {depth : Nat} {v : HeapVal ω} {j : Json} (grown : start.Extends h)
    (loaded : h.Loads depth v j) :
    Mirrors start h (fun loc d' h' => ∃ d, h' = h.push (.dict d) ∧ loc = h.objects.length ∧
      h.LoadsDict depth d d') (Heap.dictOf v) j.dictOf := by
  have entries := Heap.entriesOf_loaded loaded
  unfold Mirrors Follows Heap.dictOf
  rw [run_readState_bind]
  generalize h.entriesOf v = outcome at entries ⊢
  generalize j.dictOf = expected at entries ⊢
  cases entries with
  | ok same => exact ⟨grown.trans (Heap.extends_push h _), _, rfl, _, rfl, rfl, same⟩
  | error err => exact ⟨grown, rfl⟩

/-- A call of a program that leaves the caller's objects alone. -/
theorem call (grown : start.Extends h) (callee : Mirrors h h post x y) :
    Mirrors start h (fun a b h' => h.Extends h' ∧ post a b h') x y :=
  Follows.call .trans grown callee

/-- A loop over related lists, each turn from a heap that extends the one before the loop. -/
theorem mapM {P : α → β → Prop} {Q : γ → δ → Prop} {xs : List α} {ys : List β}
    {f : α → HeapM ω γ} {g : β → Except PyErr δ} (related : List.Forall₂ P xs ys)
    (turn : ∀ a b, P a b → ∀ h', h.Extends h' → Mirrors h' h' (fun c d _ => Q c d) (f a) (g b)) :
    Mirrors h h (fun cs ds _ => List.Forall₂ Q cs ds) (xs.mapM f) (ys.mapM g) :=
  Follows.mapM (Q := fun c d _ => Q c d) .refl .trans (fun _ same => same) related turn

end Mirrors

end Ragcore
