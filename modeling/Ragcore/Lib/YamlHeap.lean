import Ragcore.Lib.Heap
import Ragcore.Lib.Yaml

/-!
# Ragcore — YAML values as mutable objects

The values of `Lib.Yaml` with identity. A variable holds an immutable value or a reference to an
object, which anything may share; a program can allocate objects, read them one level at a time,
and write to them.

* **`load`** — the value behind a variable, to a depth of nesting. A lower bound on the locations
  says that nothing below is part of it.
* **`Keeps n` / `Extends`** — every object from the location `n` on, or every object, is as it was.
* **`load_mono`** — a value loads the same in every heap that keeps the objects it is made of.
* **`deepcopy_follows`** — a deep copy has the value of the original and is made of new objects
  alone, so that whatever is written to the old ones, it keeps its value.
-/

namespace Ragcore

/-- A scalar, or the location of a container. -/
inductive YamlRef where
  | scalar (v : Scalar)
  | ref (loc : Nat)

/-- A container: its members are references. -/
inductive YamlObj where
  | list (items : List YamlRef)
  | tuple (items : List YamlRef)
  | set (members : List Scalar)
  | dict (entries : List (Scalar × YamlRef))

/-- An object's location is its position. -/
structure YamlHeap where
  objects : List YamlObj

/-- A program that reads, allocates and writes, and may raise. -/
abbrev YamlHeapM := EStateM PyErr YamlHeap

namespace YamlHeap

/-! ## Reading

One level at a time: a read looks at the object of its value and at scalars in it, never further
down. -/

/-- The object at a location that is not below `n`. -/
def objectAt (h : YamlHeap) (n loc : Nat) : Option YamlObj :=
  if n ≤ loc then h.objects[loc]? else none

/-- A dict entry, once its value is loaded. -/
def loadEntry (load : YamlRef → Except PyErr Yaml) (entry : Scalar × YamlRef) :
    Except PyErr (Scalar × Yaml) := do
  let v ← load entry.2
  return (entry.1, v)

/-- The value nested at most `depth` containers deep, all of them at locations from `n` on. -/
def load (h : YamlHeap) (n : Nat) : Nat → YamlRef → Except PyErr Yaml
  | _, .scalar v => .ok (.scalar v)
  | 0, .ref _ => .error (.typeError ["nested too deep"])
  | depth + 1, .ref loc =>
    match h.objectAt n loc with
    | none => .error (.typeError ["no such object"])
    | some (.list items) => do
      let xs ← items.mapM (load h n depth)
      return .list xs
    | some (.tuple items) => do
      let xs ← items.mapM (load h n depth)
      return .tuple xs
    | some (.set members) => .ok (.set members)
    | some (.dict entries) => do
      let loaded ← entries.mapM (loadEntry (load h n depth))
      return .dict loaded

/-- The object a variable refers to. -/
def object? (h : YamlHeap) : YamlRef → Option YamlObj
  | .scalar _ => none
  | .ref loc => h.objects[loc]?

/-- The elements of a list. -/
def items? (h : YamlHeap) (v : YamlRef) : Option (List YamlRef) :=
  match h.object? v with
  | some (.list items) => some items
  | _ => none

/-- The entries of a dict. -/
def entries? (h : YamlHeap) (v : YamlRef) : Option (List (Scalar × YamlRef)) :=
  match h.object? v with
  | some (.dict entries) => some entries
  | _ => none

/-- A scalar, or the class of an object. -/
def top (h : YamlHeap) (v : YamlRef) : Except PyErr Yaml :=
  match v with
  | .scalar v => .ok (.scalar v)
  | .ref loc =>
    match h.objects[loc]? with
    | none => .error (.typeError ["no such object"])
    | some (.list _) => .ok (.list [])
    | some (.tuple _) => .ok (.tuple [])
    | some (.set _) => .ok (.set [])
    | some (.dict _) => .ok (.dict [])

/-- The variable holds that string. -/
def isStr (name : String) : YamlRef → Bool
  | .scalar (.str s) => s == name
  | _ => false

/-- `name in v`. -/
def contains (h : YamlHeap) (v : YamlRef) (name : String) : Except PyErr Bool :=
  match v with
  | .scalar v => (Yaml.scalar v).contains name
  | .ref loc =>
    match h.objects[loc]? with
    | none => .error (.typeError ["no such object"])
    | some (.list items) => .ok (items.any (isStr name))
    | some (.tuple items) => .ok (items.any (isStr name))
    | some (.set members) => .ok (decide (.str name ∈ members))
    | some (.dict entries) => .ok (entries.lookup (.str name)).isSome

/-- `v[name]`. -/
def getItem (h : YamlHeap) (v : YamlRef) (name : String) : Except PyErr YamlRef :=
  match h.entries? v with
  | some entries => require (entries.lookup (.str name)) (.keyError [.text name])
  | none => do
    let shape ← h.top v
    .error shape.subscriptError

/-! ## Allocating and writing

The only steps that change the heap: a new object, or a member written into one that is there. -/

/-- A new object, at the end. -/
def push (h : YamlHeap) (obj : YamlObj) : YamlHeap := ⟨h.objects ++ [obj]⟩

/-- The object at a location, replaced. -/
def put (h : YamlHeap) (loc : Nat) (obj : YamlObj) : YamlHeap := ⟨h.objects.set loc obj⟩

/-- A new object, and the reference to it. -/
def alloc (obj : YamlObj) : YamlHeapM YamlRef := do
  let h ← get
  set (h.push obj)
  return .ref h.objects.length

/-- `xs.append(item)`. -/
def append (v item : YamlRef) : YamlHeapM Unit := do
  let h ← get
  match v, h.items? v with
  | .ref loc, some items => set (h.put loc (.list (items ++ [item])))
  | _, _ => throw (.attributeError ["object has no attribute 'append'"])

/-- `dict(v)`: a new dict that shares the values. -/
def dictOf (v : YamlRef) : YamlHeapM YamlRef := do
  let h ← get
  match h.entries? v with
  | some entries => alloc (.dict entries)
  | none => do
    let shape ← readState fun h => h.top v
    throw (.typeError [s!"'{shape.typeName}' object is not a mapping"])

/-- `copy.deepcopy(v)`. Its memo, which keeps sharing inside the copy, is left out. -/
def deepcopy : Nat → YamlRef → YamlHeapM YamlRef
  | _, .scalar v => return .scalar v
  | 0, .ref _ => throw (.typeError ["nested too deep"])
  | depth + 1, .ref loc => do
    let h ← get
    match h.objects[loc]? with
    | none => throw (.typeError ["no such object"])
    | some (.list items) => do
      let copies ← items.mapM (deepcopy depth)
      alloc (.list copies)
    | some (.tuple items) => do
      let copies ← items.mapM (deepcopy depth)
      alloc (.tuple copies)
    | some (.set members) => alloc (.set members)
    | some (.dict entries) => do
      let copies ← entries.mapM fun entry => do
        let copy ← deepcopy depth entry.2
        return (entry.1, copy)
      alloc (.dict copies)

/-! ## What is kept

A write may go anywhere. `Keeps n` says that none went to an object from `n` on, `Extends` that
none went to an object at all; both allow for new objects. -/

/-- Every object of `h` from the location `n` on is in `h'` as it was. -/
def Keeps (h : YamlHeap) (n : Nat) (h' : YamlHeap) : Prop :=
  ∀ (loc : Nat) (obj : YamlObj), h.objectAt n loc = some obj → h'.objectAt n loc = some obj

/-- Every object of `h` is in `h'` as it was. -/
def Extends (h h' : YamlHeap) : Prop := h.Keeps 0 h'

/-- The objects from `n` on. -/
theorem objectAt_eq_some {h : YamlHeap} {n loc : Nat} {obj : YamlObj} :
    h.objectAt n loc = some obj ↔ n ≤ loc ∧ h.objects[loc]? = some obj := by
  unfold objectAt
  split <;> simp [*]

@[simp] theorem objectAt_zero (h : YamlHeap) (loc : Nat) : h.objectAt 0 loc = h.objects[loc]? := by
  simp [objectAt]

theorem Keeps.refl (h : YamlHeap) (n : Nat) : h.Keeps n h := fun _ _ found => found

theorem Keeps.trans {a b c : YamlHeap} {n : Nat} (hab : a.Keeps n b) (hbc : b.Keeps n c) :
    a.Keeps n c :=
  fun loc obj found => hbc loc obj (hab loc obj found)

/-- Less is kept from a higher location on. -/
theorem Keeps.above {h h' : YamlHeap} {n m : Nat} (kept : h.Keeps n h') (higher : n ≤ m) :
    h.Keeps m h' := by
  intro loc obj found
  obtain ⟨bound, there⟩ := objectAt_eq_some.mp found
  have still := kept loc obj (objectAt_eq_some.mpr ⟨by omega, there⟩)
  exact objectAt_eq_some.mpr ⟨bound, (objectAt_eq_some.mp still).2⟩

theorem Extends.refl (h : YamlHeap) : h.Extends h := Keeps.refl h 0

theorem Extends.trans {a b c : YamlHeap} (hab : a.Extends b) (hbc : b.Extends c) : a.Extends c :=
  Keeps.trans hab hbc

/-- A heap that only grew keeps every part. -/
theorem Extends.keeps {h h' : YamlHeap} (grown : h.Extends h') (n : Nat) : h.Keeps n h' :=
  Keeps.above grown (Nat.zero_le n)

theorem Extends.length_le {h h' : YamlHeap} (grown : h.Extends h') :
    h.objects.length ≤ h'.objects.length := by
  by_contra fewer
  have bound : h'.objects.length < h.objects.length := by omega
  have still := grown _ _ ((objectAt_zero h _).trans (List.getElem?_eq_getElem bound))
  rw [objectAt_zero, List.getElem?_eq_none (Nat.le_refl _)] at still
  cases still

/-- A new object overwrites none. -/
theorem extends_push (h : YamlHeap) (obj : YamlObj) : h.Extends (h.push obj) := by
  intro loc old found
  rw [objectAt_zero] at found ⊢
  obtain ⟨bound, -⟩ := List.getElem?_eq_some_iff.mp found
  show (h.objects ++ [obj])[loc]? = some old
  rw [List.getElem?_append_left bound]
  exact found

theorem objectAt_push {h : YamlHeap} {n : Nat} (bound : n ≤ h.objects.length) (obj : YamlObj) :
    (h.push obj).objectAt n h.objects.length = some obj := by
  refine objectAt_eq_some.mpr ⟨bound, ?_⟩
  show (h.objects ++ [obj])[h.objects.length]? = some obj
  simp

/-- Writing to an object `start` does not have leaves those of `start` alone. -/
theorem Extends.put {start h : YamlHeap} {loc : Nat} (grown : start.Extends h)
    (fresh : start.objects.length ≤ loc) (obj : YamlObj) : start.Extends (h.put loc obj) := by
  intro loc' old found
  have there := (objectAt_zero start loc').symm.trans found
  obtain ⟨bound, -⟩ := List.getElem?_eq_some_iff.mp there
  have different : loc ≠ loc' := by omega
  rw [objectAt_zero]
  show (h.objects.set loc obj)[loc']? = some old
  rw [List.getElem?_set_ne different]
  exact (objectAt_zero h loc').symm.trans (grown loc' old found)

theorem alloc_run (h : YamlHeap) (obj : YamlObj) :
    alloc obj h = .ok (.ref h.objects.length) (h.push obj) := rfl

/-- Appending to a list `start` does not have. -/
theorem append_run {start h : YamlHeap} {loc : Nat} {items : List YamlRef}
    (grown : start.Extends h) (fresh : start.objects.length ≤ loc)
    (found : h.objects[loc]? = some (.list items)) (item : YamlRef) :
    ∃ h', append (.ref loc) item h = .ok () h' ∧ start.Extends h' ∧
      h'.objects[loc]? = some (.list (items ++ [item])) := by
  have here : h.items? (.ref loc) = some items := by simp only [items?, object?, found]
  refine ⟨h.put loc (.list (items ++ [item])), ?_, grown.put fresh _, ?_⟩
  · unfold append
    rw [run_get_bind, here]
    rfl
  · obtain ⟨bound, -⟩ := List.getElem?_eq_some_iff.mp found
    show (h.objects.set loc _)[loc]? = _
    rw [List.getElem?_set_self bound]

/-! ## Loading in another heap

A value that loads from the objects from `n` on loads alike in every heap that keeps these, whatever
happened below them. -/

/-- What a variable holds, next to the value it loads to. -/
inductive LoadsTo (h : YamlHeap) (n : Nat) : Nat → YamlRef → Yaml → Prop where
  | scalar {depth : Nat} (v : Scalar) : LoadsTo h n depth (.scalar v) (.scalar v)
  | list {depth loc : Nat} {items : List YamlRef} {xs : List Yaml}
      (found : h.objectAt n loc = some (.list items))
      (all : List.Forall₂ (fun v x => h.load n depth v = .ok x) items xs) :
      LoadsTo h n (depth + 1) (.ref loc) (.list xs)
  | tuple {depth loc : Nat} {items : List YamlRef} {xs : List Yaml}
      (found : h.objectAt n loc = some (.tuple items))
      (all : List.Forall₂ (fun v x => h.load n depth v = .ok x) items xs) :
      LoadsTo h n (depth + 1) (.ref loc) (.tuple xs)
  | set {depth loc : Nat} {members : List Scalar}
      (found : h.objectAt n loc = some (.set members)) :
      LoadsTo h n (depth + 1) (.ref loc) (.set members)
  | dict {depth loc : Nat} {entries : List (Scalar × YamlRef)} {fields : YamlEntries}
      (found : h.objectAt n loc = some (.dict entries))
      (all : List.Forall₂ (Heap.EntryRel id fun v x => h.load n depth v = .ok x) entries fields) :
      LoadsTo h n (depth + 1) (.ref loc) (.dict fields)

/-- An entry keeps its key and loads its value. -/
theorem loadEntry_ok_iff {load : YamlRef → Except PyErr Yaml} {entry : Scalar × YamlRef}
    {loaded : Scalar × Yaml} :
    loadEntry load entry = .ok loaded ↔
      Heap.EntryRel id (fun v x => load v = .ok x) entry loaded := by
  unfold loadEntry Heap.EntryRel
  rw [bind_ok_iff]
  constructor
  · rintro ⟨v, hv, hsame⟩
    cases hsame
    exact ⟨rfl, hv⟩
  · rintro ⟨hkey, hv⟩
    refine ⟨loaded.2, hv, ?_⟩
    rw [hkey]
    rfl

theorem load_ok_iff {h : YamlHeap} {n depth : Nat} {v : YamlRef} {j : Yaml} :
    h.load n depth v = .ok j ↔ h.LoadsTo n depth v j := by
  constructor
  · intro loaded
    cases v with
    | scalar v =>
      obtain rfl : Yaml.scalar v = j := by cases depth <;> exact Except.ok.inj loaded
      exact .scalar v
    | ref loc =>
      cases depth with
      | zero => cases loaded
      | succ depth =>
        rw [load] at loaded
        cases found : h.objectAt n loc with
        | none =>
          rw [found] at loaded
          cases loaded
        | some obj =>
          rw [found] at loaded
          -- one case for each kind of container
          cases obj with
          | list items =>
            obtain ⟨xs, all, same⟩ := bind_ok_iff.mp loaded
            cases same
            exact .list found (mapM_ok_iff.mp all)
          | tuple items =>
            obtain ⟨xs, all, same⟩ := bind_ok_iff.mp loaded
            cases same
            exact .tuple found (mapM_ok_iff.mp all)
          | set members =>
            cases loaded
            exact .set found
          | dict entries =>
            obtain ⟨fields, all, same⟩ := bind_ok_iff.mp loaded
            cases same
            exact .dict found ((mapM_ok_iff.mp all).imp fun _ _ => loadEntry_ok_iff.mp)
  · intro loaded
    cases loaded with
    | scalar v => cases depth <;> rfl
    | list found all =>
      rw [load, found]
      exact bind_ok_iff.mpr ⟨_, mapM_ok_iff.mpr all, rfl⟩
    | tuple found all =>
      rw [load, found]
      exact bind_ok_iff.mpr ⟨_, mapM_ok_iff.mpr all, rfl⟩
    | set found => rw [load, found]
    | dict found all =>
      rw [load, found]
      exact bind_ok_iff.mpr
        ⟨_, mapM_ok_iff.mpr (all.imp fun _ _ => loadEntry_ok_iff.mpr), rfl⟩

/-- **A value loads the same in every heap that keeps the objects it is made of**, at any greater
depth and for any lower bound. -/
theorem load_mono {h h' : YamlHeap} {n m : Nat} (kept : h.Keeps n h') (lower : m ≤ n)
    {depth depth' : Nat} (deep : depth ≤ depth') {v : YamlRef} {j : Yaml}
    (loaded : h.load n depth v = .ok j) : h'.load m depth' v = .ok j := by
  have there : ∀ {loc obj}, h.objectAt n loc = some obj → h'.objectAt m loc = some obj := by
    intro loc obj found
    obtain ⟨bound, still⟩ := objectAt_eq_some.mp (kept loc obj found)
    exact objectAt_eq_some.mpr ⟨by omega, still⟩
  induction depth generalizing depth' v j with
  | zero =>
    cases load_ok_iff.mp loaded with
    | scalar v => exact load_ok_iff.mpr (.scalar v)
  | succ depth ih =>
    obtain ⟨rest, rfl⟩ : ∃ rest, depth' = rest + 1 := ⟨depth' - 1, by omega⟩
    -- one level down the depth is smaller on both sides
    have inner : ∀ {v j}, h.load n depth v = .ok j → h'.load m rest v = .ok j := ih (by omega)
    refine load_ok_iff.mpr ?_
    cases load_ok_iff.mp loaded with
    | scalar v => exact .scalar v
    | list found all => exact .list (there found) (all.imp fun _ _ => inner)
    | tuple found all => exact .tuple (there found) (all.imp fun _ _ => inner)
    | set found => exact .set (there found)
    | dict found all =>
      exact .dict (there found) (all.imp fun _ _ same => ⟨same.1, inner same.2⟩)

/-- A value outlives every program that keeps the objects there are. -/
theorem load_grown {h h' : YamlHeap} (grown : h.Extends h') {n depth : Nat} {v : YamlRef} {j : Yaml}
    (loaded : h.load n depth v = .ok j) : h'.load n depth v = .ok j :=
  load_mono (grown.keeps n) (Nat.le_refl n) (Nat.le_refl depth) loaded

theorem load_deeper {h : YamlHeap} {n depth depth' : Nat} (deep : depth ≤ depth') {v : YamlRef}
    {j : Yaml} (loaded : h.load n depth v = .ok j) : h.load n depth' v = .ok j :=
  load_mono (.refl h n) (Nat.le_refl n) deep loaded

/-! ## What a loaded value answers

Every one-level read of the heap is the read of the value it loads to. -/

section Reading

variable {h : YamlHeap} {n depth : Nat} {v : YamlRef} {j : Yaml}

/-- The tops agree, so the checks on single values do. -/
theorem top_loaded (loaded : h.load n depth v = .ok j) : h.top v = .ok j.top := by
  cases load_ok_iff.mp loaded with
  | scalar v => rfl
  | list found _ | tuple found _ | set found | dict found _ =>
    simp only [top, (objectAt_eq_some.mp found).2]
    rfl

/-- A variable that loads to a dict refers to one, and its values load. -/
theorem entries?_loaded {fields : YamlEntries} (loaded : h.load n depth v = .ok (.dict fields)) :
    ∃ entries, h.entries? v = some entries ∧
      List.Forall₂ (Heap.EntryRel id fun v x => h.load n (depth - 1) v = .ok x) entries fields := by
  cases load_ok_iff.mp loaded with
  | dict found all => exact ⟨_, by simp only [entries?, object?, (objectAt_eq_some.mp found).2], all⟩

/-- The items of a list, each of which loads. -/
theorem items?_loaded {xs : List Yaml} (loaded : h.load n depth v = .ok (.list xs)) :
    ∃ items, h.items? v = some items ∧
      List.Forall₂ (fun v x => h.load n (depth - 1) v = .ok x) items xs := by
  cases load_ok_iff.mp loaded with
  | list found all => exact ⟨_, by simp only [items?, object?, (objectAt_eq_some.mp found).2], all⟩

/-- A container takes one level of its own. -/
theorem depth_pos_of_dict {fields : YamlEntries} (loaded : h.load n depth v = .ok (.dict fields)) :
    0 < depth := by
  cases load_ok_iff.mp loaded with
  | dict _ _ => exact Nat.succ_pos _

/-- What loads to anything else is no dict. -/
theorem entries?_eq_none (loaded : h.load n depth v = .ok j) (other : ∀ fields, j ≠ .dict fields) :
    h.entries? v = none := by
  cases load_ok_iff.mp loaded with
  | scalar v => rfl
  | list found _ | tuple found _ | set found =>
    simp only [entries?, object?, (objectAt_eq_some.mp found).2]
  | dict found _ => exact absurd rfl (other _)

/-- What loads to no list is none. -/
theorem items?_eq_none (loaded : h.load n depth v = .ok j) (other : ∀ xs, j ≠ .list xs) :
    h.items? v = none := by
  cases load_ok_iff.mp loaded with
  | scalar v => rfl
  | dict found _ | tuple found _ | set found =>
    simp only [items?, object?, (objectAt_eq_some.mp found).2]
  | list found _ => exact absurd rfl (other _)

theorem isStr_loaded (loaded : h.load n depth v = .ok j) (name : String) :
    isStr name v = j.isStr name := by
  cases load_ok_iff.mp loaded with
  | scalar v => cases v <;> rfl
  | _ => rfl

/-- A search for a text among the items. -/
theorem any_isStr_loaded {items : List YamlRef} {xs : List Yaml}
    (all : List.Forall₂ (fun v x => h.load n depth v = .ok x) items xs) (name : String) :
    items.any (isStr name) = xs.any (Yaml.isStr name) := by
  induction all with
  | nil => rfl
  | cons head _ ih => rw [List.any_cons, List.any_cons, isStr_loaded head, ih]

/-- `name in v`, with its exceptions. -/
theorem contains_loaded (loaded : h.load n depth v = .ok j) (name : String) :
    h.contains v name = j.contains name := by
  cases load_ok_iff.mp loaded with
  | scalar v => rfl
  | list found all | tuple found all =>
    simp only [contains, (objectAt_eq_some.mp found).2, Yaml.contains, any_isStr_loaded all]
  | set found => simp only [contains, (objectAt_eq_some.mp found).2, Yaml.contains]
  | @dict _ loc entries fields found all =>
    have related := Heap.lookup_related Function.injective_id all (.str name)
    simp only [id] at related
    simp only [contains, (objectAt_eq_some.mp found).2, Yaml.contains, Yaml.hasField]
    -- the name is there on both sides or on neither
    generalize entries.lookup (.str name) = item at related ⊢
    generalize fields.lookup (.str name) = field at related ⊢
    cases related <;> rfl

/-- `v[name]` is one level down. -/
theorem getItem_loaded (loaded : h.load n depth v = .ok j) (name : String) :
    SameOutcome (fun item x => h.load n (depth - 1) item = .ok x) (h.getItem v name)
      (j.getItem name) := by
  -- what is no dict is refused by the name of its type
  have refused : (∀ fields, j ≠ .dict fields) → h.getItem v name = .error j.top.subscriptError := by
    intro other
    simp only [getItem, entries?_eq_none loaded other, top_loaded loaded]
    rfl
  cases j with
  | dict fields =>
    obtain ⟨entries, here, all⟩ := entries?_loaded loaded
    have related := Heap.lookup_related Function.injective_id all (.str name)
    simp only [id] at related
    simp only [getItem, here, Yaml.getItem, Yaml.getField]
    generalize entries.lookup (.str name) = item at related ⊢
    generalize fields.lookup (.str name) = field at related ⊢
    cases related with
    | none => exact .error _
    | some loaded => exact .ok loaded
  | _ =>
    rw [refused (by simp)]
    exact .error _

end Reading

mutual

/-- Every value can be put on a heap. -/
theorem exists_load (h : YamlHeap) :
    (j : Yaml) → ∃ depth h' v, h.Extends h' ∧ h'.load 0 depth v = .ok j
  | .scalar v => ⟨0, h, .scalar v, .refl h, rfl⟩
  | .list xs => by
    obtain ⟨depth, h', items, grown, all⟩ := exists_loadList h xs
    have more := extends_push h' (.list items)
    exact ⟨depth + 1, _, .ref h'.objects.length, grown.trans more, load_ok_iff.mpr
      (.list (objectAt_push (Nat.zero_le _) _) (all.imp fun _ _ => load_grown more))⟩
  | .tuple xs => by
    obtain ⟨depth, h', items, grown, all⟩ := exists_loadList h xs
    have more := extends_push h' (.tuple items)
    exact ⟨depth + 1, _, .ref h'.objects.length, grown.trans more, load_ok_iff.mpr
      (.tuple (objectAt_push (Nat.zero_le _) _) (all.imp fun _ _ => load_grown more))⟩
  | .set members =>
    ⟨1, _, .ref h.objects.length, extends_push h (.set members),
      load_ok_iff.mpr (.set (objectAt_push (Nat.zero_le _) _))⟩
  | .dict entries => by
    obtain ⟨depth, h', items, grown, all⟩ := exists_loadEntries h entries
    have more := extends_push h' (.dict items)
    exact ⟨depth + 1, _, .ref h'.objects.length, grown.trans more, load_ok_iff.mpr
      (.dict (objectAt_push (Nat.zero_le _) _)
        (all.imp fun _ _ same => ⟨same.1, load_grown more same.2⟩))⟩

/-- Item by item, each in a heap that extends the one before. -/
theorem exists_loadList (h : YamlHeap) :
    (xs : List Yaml) → ∃ depth h' items, h.Extends h' ∧
      List.Forall₂ (fun v x => h'.load 0 depth v = .ok x) items xs
  | [] => ⟨0, h, [], .refl h, .nil⟩
  | x :: rest => by
    obtain ⟨depth, h₁, v, grown₁, loaded⟩ := exists_load h x
    obtain ⟨depth', h₂, items, grown₂, all⟩ := exists_loadList h₁ rest
    refine ⟨max depth depth', h₂, v :: items, grown₁.trans grown₂, .cons ?_ ?_⟩
    · exact load_deeper (le_max_left _ _) (load_grown grown₂ loaded)
    · exact all.imp fun _ _ => load_deeper (le_max_right _ _)

theorem exists_loadEntries (h : YamlHeap) :
    (entries : YamlEntries) → ∃ depth h' items, h.Extends h' ∧
      List.Forall₂ (Heap.EntryRel id fun v x => h'.load 0 depth v = .ok x) items entries
  | [] => ⟨0, h, [], .refl h, .nil⟩
  | (key, x) :: rest => by
    obtain ⟨depth, h₁, v, grown₁, loaded⟩ := exists_load h x
    obtain ⟨depth', h₂, items, grown₂, all⟩ := exists_loadEntries h₁ rest
    refine ⟨max depth depth', h₂, (key, v) :: items, grown₁.trans grown₂, .cons ⟨rfl, ?_⟩ ?_⟩
    · exact load_deeper (le_max_left _ _) (load_grown grown₂ loaded)
    · exact all.imp fun _ _ same => ⟨same.1, load_deeper (le_max_right _ _) same.2⟩

end

end YamlHeap

/-! ## Programs that mirror functions

The general notion at this heap: the program only extends the heap it starts from. -/

/-- From the heap `h`, the program ends as `y` says, with `post` for the values, and every object
of `start` is as it was. -/
abbrev YamlMirrors {α β : Type} (start h : YamlHeap) (post : α → β → YamlHeap → Prop)
    (x : YamlHeapM α) (y : Except PyErr β) : Prop :=
  Follows YamlHeap.Extends start h post x y

namespace YamlHeap

/-! ## Deep copies

`copy.deepcopy(v)`: new objects all the way down, so what is kept of them later does not depend on
the data. -/

/-- A loop whose every turn makes something of a value that stays. -/
theorem copies_follow {α β γ : Type} {P : α → β → Prop} {Q : γ → β → YamlHeap → Prop}
    (mono : ∀ {c y h h'}, h.Extends h' → Q c y h → Q c y h') {h : YamlHeap} {xs : List α}
    {ys : List β} {f : α → YamlHeapM γ} (related : List.Forall₂ P xs ys)
    (turn : ∀ x y, P x y → ∀ h', h.Extends h' → YamlMirrors h' h' Q (f x) (.ok y)) :
    YamlMirrors h h (fun cs ys h' => List.Forall₂ (fun c y => Q c y h') cs ys) (xs.mapM f)
      (.ok ys) := by
  have loop : YamlMirrors h h (fun cs ys h' => List.Forall₂ (fun c y => Q c y h') cs ys)
      (xs.mapM f) (ys.mapM .ok) := Follows.mapM (Q := Q) .refl .trans mono related turn
  have same : ys.mapM Except.ok = (.ok ys : Except PyErr (List β)) := by
    rw [mapM_ok_iff, List.forall₂_same]
    exact fun _ _ => rfl
  rwa [same] at loop

/-- **A deep copy** has the value of the original, in new objects. -/
theorem deepcopy_follows {n depth : Nat} {h : YamlHeap} {v : YamlRef} {j : Yaml}
    (loaded : h.load 0 depth v = .ok j) (bound : n ≤ h.objects.length) :
    YamlMirrors h h (fun copy j h' => h'.load n depth copy = .ok j) (deepcopy depth v) (.ok j) := by
  induction depth generalizing h v j with
  | zero =>
    cases load_ok_iff.mp loaded with
    | scalar v => exact .pure (.refl h) rfl
  | succ depth ih =>
    -- a new object of copies, in whatever heap the loop over the contents has ended
    have placed : ∀ {h₁ : YamlHeap} {obj : YamlObj} {j : Yaml}, h.Extends h₁ →
        (∀ loc, (h₁.push obj).objectAt n loc = some obj →
          (h₁.push obj).LoadsTo n (depth + 1) (.ref loc) j) →
        YamlMirrors h h₁ (fun copy j h' => h'.load n (depth + 1) copy = .ok j) (alloc obj)
          (.ok j) := by
      intro h₁ obj j grown made
      have far : n ≤ h₁.objects.length := Nat.le_trans bound grown.length_le
      exact .ret (alloc_run h₁ obj) (grown.trans (extends_push h₁ obj))
        (load_ok_iff.mpr (made _ (objectAt_push far obj)))
    have copyItems : ∀ {items : List YamlRef} {xs : List Yaml},
        List.Forall₂ (fun v x => h.load 0 depth v = .ok x) items xs →
          YamlMirrors h h (fun copies xs h' =>
            List.Forall₂ (fun c x => h'.load n depth c = .ok x) copies xs)
            (items.mapM (deepcopy depth)) (.ok xs) := by
      intro items xs all
      refine copies_follow (Q := fun c x h' => h'.load n depth c = .ok x)
        (fun grown => load_grown grown) all ?_
      exact fun v x inner h' grown =>
        ih (load_grown grown inner) (Nat.le_trans bound grown.length_le)
    cases load_ok_iff.mp loaded with
    | scalar v => exact .pure (.refl h) rfl
    | @list _ loc items xs found all =>
      rw [objectAt_zero] at found
      refine .get_bind ?_
      simp only [found]
      refine Follows.bind (g := fun xs => .ok (.list xs)) (copyItems all)
        fun copies ys h₁ grown same => placed grown fun loc there => .list there ?_
      exact same.imp fun _ _ => load_grown (extends_push h₁ _)
    | @tuple _ loc items xs found all =>
      rw [objectAt_zero] at found
      refine .get_bind ?_
      simp only [found]
      refine Follows.bind (g := fun xs => .ok (.tuple xs)) (copyItems all)
        fun copies ys h₁ grown same => placed grown fun loc there => .tuple there ?_
      exact same.imp fun _ _ => load_grown (extends_push h₁ _)
    | @set _ loc members found =>
      -- the members are scalars: there is nothing below to copy
      rw [objectAt_zero] at found
      refine .get_bind ?_
      simp only [found]
      exact placed (.refl h) fun loc there => .set there
    | @dict _ loc entries fields found all =>
      rw [objectAt_zero] at found
      refine .get_bind ?_
      simp only [found]
      refine Follows.bind (g := fun fields => .ok (.dict fields))
        (copies_follow (Q := fun entry x h' =>
            Heap.EntryRel id (fun c x => h'.load n depth c = .ok x) entry x)
          (fun grown same => ⟨same.1, load_grown grown same.2⟩) all
          fun entry x same h' grown => ?_)
        fun copies fields h₁ grown same => placed grown fun loc there => .dict there ?_
      · -- one entry: the key stays, the value is copied
        refine Follows.bind (g := fun x₂ => .ok (x.1, x₂))
          (ih (load_grown grown same.2) (Nat.le_trans bound grown.length_le))
          fun copy x₂ h₂ grown₂ copied => ?_
        exact .pure grown₂ ⟨same.1, copied⟩
      · exact same.imp fun _ _ pair => ⟨pair.1, load_grown (extends_push h₁ _) pair.2⟩

end YamlHeap

end Ragcore
