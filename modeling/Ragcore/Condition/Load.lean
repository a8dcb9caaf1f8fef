import Ragcore.Condition
import Ragcore.Lib.PyCall

/-!
# Ragcore — the condition loader

`load_condition_tree`: the keys of a node say which kind it is (`nodeKind`), a predicate node is
checked field by field, a combinator node loads its children.

* **`ConditionTree.Loaded`** — what the loader guarantees: every operator and every combinator
  is a known one.
* **`loadConditionTree_loaded`** — it builds no other trees.
-/

namespace Ragcore

namespace Condition

/-- The words of the condition language. -/
def validOps : Finset String := {"eq", "ne", "lt", "le", "gt", "ge", "contains"}
def validCombinators : Finset String := {"all", "any"}
def rejectedCombinators : Finset String := {"not"}
def predicateKeys : Finset String := {"field", "op", "value"}

/-! ## Nodes

The set of keys tells a predicate from a combinator; every other set is refused with a message of
its own. -/

/-- What a node can be. -/
inductive NodeKind where
  | predicate
  | combinator (kind : String)

/-- `{sorted(keys)}`. -/
def sortedNames (keys : Finset String) : MsgPart :=
  .value (.list ((sortSet (· ≤ ·) keys).map .str))

/-- The checks on the keys of a node. -/
def nodeKind (keys : Finset String) : Except PyErr NodeKind :=
  let rejected := keys ∩ rejectedCombinators
  let predicateShapeKeys := predicateKeys ∩ keys
  let combinatorKeys := keys ∩ validCombinators
  if rejected.Nonempty then
    .error (.valueError ["combinator(s) not allowed in MVP: ", sortedNames rejected])
  else if predicateShapeKeys.Nonempty ∧ combinatorKeys.Nonempty then
    .error (.valueError ["node cannot mix predicate and combinator; keys: ", sortedNames keys])
  else
    match sortSet (· ≤ ·) combinatorKeys with
    | [] =>
      let missing := predicateKeys \ keys
      let extras := keys \ predicateKeys
      if missing.Nonempty then
        .error (.valueError ["node is neither predicate (missing fields: ", sortedNames missing,
          ") nor known combinator (got keys: ", sortedNames keys, ")"])
      else if extras.Nonempty then
        .error (.valueError ["predicate node has unexpected extra keys: ", sortedNames extras])
      else .ok .predicate
    | [kind] =>
      let extras := keys \ {kind}
      if extras.Nonempty then
        .error (.valueError ["combinator '", kind, "' node has unexpected extra keys: ",
          sortedNames extras])
      else .ok (.combinator kind)
    | _ =>
      .error (.valueError ["combinator node must have exactly one of all/any, got ",
        sortedNames combinatorKeys])

/-- The characters `str.strip()` removes. -/
def isSpace (c : Char) : Bool :=
  let n := c.toNat
  (0x09 ≤ n && n ≤ 0x0D) || (0x1C ≤ n && n ≤ 0x20) || n == 0x85 || n == 0xA0 || n == 0x1680 ||
    (0x2000 ≤ n && n ≤ 0x200A) || n == 0x2028 || n == 0x2029 || n == 0x202F || n == 0x205F ||
    n == 0x3000

/-- `s.strip()`. -/
def strip (s : String) : String :=
  String.ofList (((s.toList.dropWhile isSpace).reverse.dropWhile isSpace).reverse)

/-- `_load_predicate`. -/
def loadPredicate (raw : Json) : Except PyErr ConditionTree := do
  let field ← raw.getItem "field"
  let op ← raw.getItem "op"
  let value ← raw.getItem "value"
  match field with
  | .str field =>
    let fieldStripped := strip field
    ensure (fieldStripped != "") (.valueError ["predicate.field must be non-empty"])
    match op with
    | .str op =>
      ensure (op ∈ validOps)
        (.valueError ["unknown operator: ", .repr (.str op), ". Allowed: ", sortedNames validOps])
      return .predicate fieldStripped op value
    | op => .error (.typeError [s!"predicate.op must be string, got {op.typeName}"])
  | field => .error (.typeError [s!"predicate.field must be string, got {field.typeName}"])

mutual

/-- A node that is no mapping is refused. -/
def loadConditionTree : Json → Except PyErr ConditionTree
  | .dict fields => do
    match ← nodeKind (fields.map Prod.fst).toFinset with
    | .predicate => loadPredicate (.dict fields)
    | .combinator kind => loadCombinator kind fields
  | raw => .error (.typeError [s!"condition node must be mapping, got {raw.typeName}"])

/-- `_load_combinator`; the recursion is the search for `raw[kind]`. -/
def loadCombinator (kind : String) : Fields → Except PyErr ConditionTree
  | [] => .error (.keyError [kind])
  | (name, childrenRaw) :: rest =>
    if name = kind then
      match childrenRaw with
      | .list children => do
        let loaded ← loadChildren children
        return .combinator kind loaded
      | childrenRaw => .error (.typeError
          [s!"combinator '{kind}' value must be list, got {childrenRaw.typeName}"])
    else loadCombinator kind rest

/-- The first child that is refused ends the loading. -/
def loadChildren : List Json → Except PyErr (List ConditionTree)
  | [] => .ok []
  | child :: rest => do
    let tree ← loadConditionTree child
    let trees ← loadChildren rest
    return tree :: trees

end

end Condition

/-! ## What the loader builds

Trees whose operators and combinators are known, which is what the evaluators rely on. -/

/-- Every operator and every combinator of the tree is a known one. -/
inductive ConditionTree.Loaded : ConditionTree → Prop
  | predicate {field op : String} {value : Json} (known : op ∈ Condition.validOps) :
      Loaded (.predicate field op value)
  | combinator {kind : String} {children : List ConditionTree}
      (known : kind ∈ Condition.validCombinators) (loaded : ∀ child ∈ children, Loaded child) :
      Loaded (.combinator kind children)

namespace Condition

/-- A combinator is one of the vocabulary. -/
theorem nodeKind_combinator {keys : Finset String} {kind : String}
    (h : nodeKind keys = .ok (.combinator kind)) : kind ∈ validCombinators := by
  unfold nodeKind at h
  simp only at h
  -- only the last branch finds a single key of the vocabulary
  split at h
  · cases h
  split at h
  · cases h
  split at h
  · split at h
    · cases h
    · split at h <;> cases h
  · rename_i name hsort
    split at h
    · cases h
    · cases h
      have hmem : kind ∈ sortSet (· ≤ ·) (keys ∩ validCombinators) := by
        rw [hsort]
        exact List.mem_singleton_self kind
      exact (Finset.mem_inter.mp (mem_sortSet.mp hmem)).2
  · cases h

theorem loadPredicate_loaded {raw : Json} {tree : ConditionTree}
    (h : loadPredicate raw = .ok tree) : tree.Loaded := by
  unfold loadPredicate at h
  obtain ⟨field, -, h⟩ := bind_ok_iff.mp h
  obtain ⟨op, -, h⟩ := bind_ok_iff.mp h
  obtain ⟨value, -, h⟩ := bind_ok_iff.mp h
  split at h
  · obtain ⟨_, -, h⟩ := bind_ok_iff.mp h
    split at h
    · obtain ⟨_, hop, h⟩ := bind_ok_iff.mp h
      cases h
      exact .predicate (by simpa using hop)
    · cases h
  · cases h

mutual

/-- Node by node, with the children of each. -/
theorem loadConditionTree_loaded {raw : Json} {tree : ConditionTree}
    (h : loadConditionTree raw = .ok tree) : tree.Loaded := by
  match raw with
  | .dict fields =>
    rw [loadConditionTree] at h
    obtain ⟨kind, hkind, h⟩ := bind_ok_iff.mp h
    cases kind with
    | predicate => exact loadPredicate_loaded h
    | combinator kind => exact loadCombinator_loaded (nodeKind_combinator hkind) h
  | .null | .bool _ | .int _ | .float _ | .str _ | .list _ => simp [loadConditionTree] at h

theorem loadCombinator_loaded {kind : String} {fields : Fields} {tree : ConditionTree}
    (known : kind ∈ validCombinators) (h : loadCombinator kind fields = .ok tree) :
    tree.Loaded := by
  match fields with
  | [] => simp [loadCombinator] at h
  | (name, childrenRaw) :: rest =>
    unfold loadCombinator at h
    split at h
    · match childrenRaw with
      | .list children =>
        obtain ⟨loaded, hloaded, h⟩ := bind_ok_iff.mp h
        cases h
        exact .combinator known (loadChildren_loaded hloaded)
      | .null | .bool _ | .int _ | .float _ | .str _ | .dict _ => cases h
    · exact loadCombinator_loaded known h

theorem loadChildren_loaded {children : List Json} {trees : List ConditionTree}
    (h : loadChildren children = .ok trees) : ∀ tree ∈ trees, tree.Loaded := by
  match children with
  | [] =>
    rw [loadChildren] at h
    cases h
    exact nofun
  | child :: rest =>
    rw [loadChildren] at h
    obtain ⟨tree, htree, h⟩ := bind_ok_iff.mp h
    obtain ⟨others, hothers, h⟩ := bind_ok_iff.mp h
    cases h
    intro t ht
    -- the first child, or one of the others
    rcases List.mem_cons.mp ht with rfl | hrest
    · exact loadConditionTree_loaded htree
    · exact loadChildren_loaded hothers t hrest

end

end Condition

end Ragcore
