import Ragcore.Condition.Grammar
import Ragcore.Lib.Yaml

/-!
# Ragcore — conditions of YAML rules

`load_condition_tree` and `evaluate_condition_with_trace` once more, on the values a YAML rule can
hold: the keys of a node need not be strings, and the value a predicate compares with need not be
a JSON value. The context stays one of JSON values.

* **`nodeKind`** — the checks on the keys of a node. A message that lists keys sorts them, and that
  fails first where the keys do not compare.
* **`loadConditionTree_refuses`** — what is not loaded ends in `TypeError` or `ValueError`.
* **`loadConditionTree_loaded`** / **`evaluateWithTrace_isOk`** — what is loaded evaluates.
-/

namespace Ragcore

namespace Rule

/-- A condition over YAML values, as the rule file writes it. -/
inductive ConditionTree where
  | predicate (field op : String) (value : Yaml)
  | combinator (kind : String) (children : List ConditionTree)

/-- What the evaluation of a condition reports, node by node. -/
inductive Trace where
  | predicate (field op : String) (expected : Yaml) (actual : Json) (actualPresent result : Bool)
      (reason : String)
  | combinator (kind : String) (children : List Trace) (result : Bool)

/-- The verdict of a node. -/
def Trace.result : Trace → Bool
  | .predicate _ _ _ _ _ result _ => result
  | .combinator _ _ result => result

open Condition (NodeKind NotBlank strip sortedNames validOps validCombinators rejectedCombinators
  predicateKeys withReason)

/-! ## Loading

The loader of the source, on YAML values: the keys of a node tell what it is, and every refusal says
why. -/

/-- The keys that are strings. -/
def namesOf (keys : List Scalar) : Finset String := (keys.filterMap Scalar.str?).toFinset

/-- The keys that are none of the names, the others included. -/
def extrasOf (names : Finset String) (keys : List Scalar) : List Scalar :=
  keys.filter fun key =>
    match key.str? with
    | some name => decide (name ∉ names)
    | none => true

/-- `raise ValueError(f"... {sorted(keys)} ...")`: the sort comes first. -/
def valueErrorListing {α : Type} (before : List MsgPart) (keys : List Scalar)
    (after : List MsgPart) : Except PyErr α := do
  let sorted ← sortedScalars keys
  .error (.valueError (before ++ keysText sorted ++ after))

/-- The checks on the keys of a node. -/
def nodeKind (keys : List Scalar) : Except PyErr NodeKind :=
  let names := namesOf keys
  let rejected := names ∩ rejectedCombinators
  let predicateShapeKeys := predicateKeys ∩ names
  let combinatorKeys := names ∩ validCombinators
  if rejected.Nonempty then
    .error (.valueError ["combinator(s) not allowed in MVP: ", sortedNames rejected])
  else if predicateShapeKeys.Nonempty ∧ combinatorKeys.Nonempty then
    valueErrorListing ["node cannot mix predicate and combinator; keys: "] keys []
  else
    match sortSet (· ≤ ·) combinatorKeys with
    | [] =>
      let missing := predicateKeys \ names
      let extras := extrasOf predicateKeys keys
      if missing.Nonempty then
        valueErrorListing ["node is neither predicate (missing fields: ", sortedNames missing,
          ") nor known combinator (got keys: "] keys [")"]
      else if extras ≠ [] then
        valueErrorListing ["predicate node has unexpected extra keys: "] extras []
      else .ok .predicate
    | [kind] =>
      let extras := extrasOf {kind} keys
      if extras ≠ [] then
        valueErrorListing ["combinator '", kind, "' node has unexpected extra keys: "] extras []
      else .ok (.combinator kind)
    | _ =>
      .error (.valueError ["combinator node must have exactly one of all/any, got ",
        sortedNames combinatorKeys])

/-- `_load_predicate`. -/
def loadPredicate (raw : YamlEntries) : Except PyErr ConditionTree := do
  let field ← Yaml.getField raw "field"
  let op ← Yaml.getField raw "op"
  let value ← Yaml.getField raw "value"
  match field with
  | .scalar (.str field) =>
    let fieldStripped := strip field
    ensure (fieldStripped != "") (.valueError ["predicate.field must be non-empty"])
    match op with
    | .scalar (.str op) =>
      ensure (op ∈ validOps)
        (.valueError ["unknown operator: ", .repr (.str op), ". Allowed: ", sortedNames validOps])
      return .predicate fieldStripped op value
    | op => .error (.typeError [s!"predicate.op must be string, got {op.typeName}"])
  | field => .error (.typeError [s!"predicate.field must be string, got {field.typeName}"])

mutual

/-- A node is a predicate or a combinator of further nodes. -/
def loadConditionTree : Yaml → Except PyErr ConditionTree
  | .dict entries => do
    match ← nodeKind (entries.map Prod.fst) with
    | .predicate => loadPredicate entries
    | .combinator kind => loadCombinator kind entries
  | raw => .error (.typeError [s!"condition node must be mapping, got {raw.typeName}"])

/-- `_load_combinator`; the recursion is the search for `raw[kind]`. -/
def loadCombinator (kind : String) : YamlEntries → Except PyErr ConditionTree
  | [] => .error (.keyError [kind])
  | (key, childrenRaw) :: rest =>
    if key = .str kind then
      match childrenRaw with
      | .list children => do
        let loaded ← loadChildren children
        return .combinator kind loaded
      | childrenRaw => .error (.typeError
          [s!"combinator '{kind}' value must be list, got {childrenRaw.typeName}"])
    else loadCombinator kind rest

/-- The first child that is refused ends the loading. -/
def loadChildren : List Yaml → Except PyErr (List ConditionTree)
  | [] => .ok []
  | child :: rest => do
    let tree ← loadConditionTree child
    let trees ← loadChildren rest
    return tree :: trees

end

/-! ## Evaluating

The evaluator of the source. The context is JSON, the expected values are YAML. -/

/-- The value as a number; `_is_numeric` leaves bools out. -/
def numeric? : Yaml → Option PyFloat
  | .scalar (.int n) => some (.fin n)
  | .scalar (.float x) => some x
  | _ => none

/-- Numbers are compared with numbers; anything else is a false result with its reason. -/
def compareWithReason (holds : PyFloat → PyFloat → Bool) (actual : Json) (expected : Yaml) :
    Bool × String :=
  match Condition.numeric? actual, numeric? expected with
  | some x, some y => withReason (holds x y)
  | _, _ => (false, traceReasonTypeMismatch)

/-- A text in a text, or a member of a list. -/
def containsWithReason (actual : Json) (expected : Yaml) : Bool × String :=
  match actual with
  | .str text =>
    match expected with
    | .scalar (.str part) => withReason (decide (part.toList <:+: text.toList))
    | _ => (false, traceReasonTypeMismatch)
  | .list items => withReason (items.any fun item => item.sameYaml expected)
  | _ => (false, traceReasonTypeMismatch)

/-- The operators of the source, by name. -/
def evalOpWithReason (op : String) (actual : Json) (expected : Yaml) :
    Except PyErr (Bool × String) :=
  match op with
  | "eq" => .ok (withReason (actual.eqYaml expected))
  | "ne" => .ok (withReason (!actual.eqYaml expected))
  | "lt" => .ok (compareWithReason PyFloat.lt actual expected)
  | "le" => .ok (compareWithReason PyFloat.le actual expected)
  | "gt" => .ok (compareWithReason (fun x y => PyFloat.lt y x) actual expected)
  | "ge" => .ok (compareWithReason (fun x y => PyFloat.le y x) actual expected)
  | "contains" => .ok (containsWithReason actual expected)
  | op => .error (.valueError ["unknown op at eval time: ", .repr (.str op)])

/-- A field that is missing makes the predicate false. -/
def tracePredicate (field op : String) (value : Yaml) (context : Fields) : Except PyErr Trace :=
  match context.lookup field with
  | none => .ok (.predicate field op value .null false false traceReasonMissingField)
  | some actual => do
    let (result, reason) ← evalOpWithReason op actual value
    return .predicate field op value actual true result reason

/-- `all`, `any`, and no other. -/
def combine (kind : String) (children : List Trace) : Except PyErr Trace :=
  match kind with
  | "all" => .ok (.combinator kind children (children.all Trace.result))
  | "any" => .ok (.combinator kind children (children.any Trace.result))
  | kind => .error (.valueError ["unknown combinator kind at eval time: ", .repr (.str kind)])

mutual

/-- `evaluate_condition_with_trace`: every child is evaluated, no short circuit. -/
def evaluateWithTrace (context : Fields) : ConditionTree → Except PyErr Trace
  | .predicate field op value => tracePredicate field op value context
  | .combinator kind children => do
    let traces ← evaluateAll context children
    combine kind traces

/-- Every child is evaluated, also after the verdict is settled. -/
def evaluateAll (context : Fields) : List ConditionTree → Except PyErr (List Trace)
  | [] => .ok []
  | child :: rest => do
    let trace ← evaluateWithTrace context child
    let traces ← evaluateAll context rest
    return trace :: traces

end

/-! ## The keys of a node

The keys of a YAML mapping need not be texts, and listing them for a message can raise in its turn.
-/

/-- Keys that cannot be compared are a `TypeError`. -/
theorem sortedScalars_refuses (keys : List Scalar) :
    RaisesOnly PyErr.TypeOrValue (sortedScalars keys) := by
  unfold sortedScalars
  split
  · exact .ok _
  · exact .error (.typeError _)

theorem valueErrorListing_refuses {α : Type} (before : List MsgPart) (keys : List Scalar)
    (after : List MsgPart) :
    RaisesOnly PyErr.TypeOrValue (valueErrorListing before keys after : Except PyErr α) := by
  unfold valueErrorListing
  exact (sortedScalars_refuses keys).bind fun sorted _ => .error (.valueError _)

theorem valueErrorListing_ne_ok {α : Type} {before : List MsgPart} {keys : List Scalar}
    {after : List MsgPart} {a : α} : valueErrorListing before keys after ≠ .ok a := by
  intro h
  obtain ⟨sorted, -, h⟩ := bind_ok_iff.mp h
  cases h

/-- Every test that fails raises, a failed sort of the keys included. -/
theorem nodeKind_refuses (keys : List Scalar) : RaisesOnly PyErr.TypeOrValue (nodeKind keys) := by
  unfold nodeKind
  simp only
  -- every branch ends in a refusal, or in the kind of the node
  split
  · exact .error (.valueError _)
  split
  · exact valueErrorListing_refuses _ _ _
  split
  · split
    · exact valueErrorListing_refuses _ _ _
    · split
      · exact valueErrorListing_refuses _ _ _
      · exact .ok _
  · split
    · exact valueErrorListing_refuses _ _ _
    · exact .ok _
  · exact .error (.valueError _)

/-- What is looked up in a node of the kind found is there. -/
theorem nodeKind_ok {keys : List Scalar} {found : NodeKind} (h : nodeKind keys = .ok found) :
    (found = .predicate ∧ predicateKeys ⊆ namesOf keys) ∨
      ∃ kind ∈ validCombinators, found = .combinator kind ∧ kind ∈ namesOf keys := by
  unfold nodeKind at h
  simp only at h
  -- the tests of the source on the set of keys
  split at h
  · cases h
  split at h
  · exact absurd h valueErrorListing_ne_ok
  split at h
  · split at h
    · exact absurd h valueErrorListing_ne_ok
    · rename_i hmissing
      split at h
      · exact absurd h valueErrorListing_ne_ok
      · cases h
        rw [Finset.not_nonempty_iff_eq_empty, Finset.sdiff_eq_empty_iff_subset] at hmissing
        exact .inl ⟨rfl, hmissing⟩
  · rename_i kind hsorted
    split at h
    · exact absurd h valueErrorListing_ne_ok
    · cases h
      have hmem : kind ∈ namesOf keys ∩ validCombinators := by
        rw [← mem_sortSet, hsorted]
        exact List.mem_singleton_self kind
      obtain ⟨hin, known⟩ := Finset.mem_inter.mp hmem
      exact .inr ⟨kind, known, rfl, hin⟩
  · cases h

/-- A key that is there has a value. -/
theorem exists_lookup {entries : YamlEntries} {name : String}
    (h : name ∈ namesOf (entries.map Prod.fst)) :
    ∃ v, entries.lookup (.str name) = some v := by
  rw [namesOf, List.mem_toFinset, List.mem_filterMap] at h
  obtain ⟨key, hkey, hname⟩ := h
  have hsame : key = .str name := by
    cases key with
    | str s => exact congrArg Scalar.str (Option.some.inj hname)
    | _ => cases hname
  subst hsame
  cases hlookup : entries.lookup (.str name) with
  | some v => exact ⟨v, rfl⟩
  | none => exact absurd hkey (Dict.lookup_eq_none.mp hlookup)

/-! ## What is not loaded

Every refusal is one of the two declared exceptions. -/

theorem getField_refuses {entries : YamlEntries} {name : String} {P : PyErr → Prop}
    (h : ∃ v, entries.lookup (.str name) = some v) :
    RaisesOnly P (Yaml.getField entries name) := by
  obtain ⟨v, hv⟩ := h
  rw [Yaml.getField_ok_iff.mpr hv]
  exact .ok v

/-- A predicate whose keys are there. -/
theorem loadPredicate_refuses {entries : YamlEntries}
    (hkeys : predicateKeys ⊆ namesOf (entries.map Prod.fst)) :
    RaisesOnly PyErr.TypeOrValue (loadPredicate entries) := by
  -- the three parts are there, so no `KeyError` is left
  have hget : ∀ name ∈ predicateKeys,
      RaisesOnly PyErr.TypeOrValue (Yaml.getField entries name) :=
    fun name hname => getField_refuses (exists_lookup (hkeys hname))
  unfold loadPredicate
  refine (hget "field" (by simp [predicateKeys])).bind fun field _ => ?_
  refine (hget "op" (by simp [predicateKeys])).bind fun op _ => ?_
  refine (hget "value" (by simp [predicateKeys])).bind fun value _ => ?_
  split
  · refine (RaisesOnly.ensure (.valueError _)).bind fun _ _ => ?_
    split
    · exact (RaisesOnly.ensure (.valueError _)).bind fun _ _ => .pure _
    · exact .error (.typeError _)
  · exact .error (.typeError _)

mutual

/-- **What is not loaded ends in `TypeError` or `ValueError`**, for every value. -/
theorem loadConditionTree_refuses (raw : Yaml) :
    RaisesOnly PyErr.TypeOrValue (loadConditionTree raw) := by
  match raw with
  | .dict entries =>
    rw [loadConditionTree]
    refine (nodeKind_refuses _).bind fun found hfound => ?_
    rcases nodeKind_ok hfound with ⟨rfl, hkeys⟩ | ⟨kind, -, rfl, hkind⟩
    · exact loadPredicate_refuses hkeys
    · exact loadCombinator_refuses kind entries (exists_lookup hkind)
  | .scalar _ | .list _ | .tuple _ | .set _ =>
    simp only [loadConditionTree]
    exact .error (.typeError _)

/-- A combinator, and with it all that is below. -/
theorem loadCombinator_refuses (kind : String) (entries : YamlEntries)
    (h : ∃ v, entries.lookup (.str kind) = some v) :
    RaisesOnly PyErr.TypeOrValue (loadCombinator kind entries) := by
  match entries with
  | [] =>
    obtain ⟨v, hv⟩ := h
    cases hv
  | (key, childrenRaw) :: rest =>
    unfold loadCombinator
    split
    · match childrenRaw with
      | .list children =>
        exact (loadChildren_refuses children).bind fun loaded _ => .pure _
      | .scalar _ | .tuple _ | .set _ | .dict _ => exact .error (.typeError _)
    · rename_i hother
      have hbeq : (Scalar.str kind == key) = false := by simpa using Ne.symm hother
      rw [List.lookup_cons, hbeq] at h
      exact loadCombinator_refuses kind rest h

theorem loadChildren_refuses (children : List Yaml) :
    RaisesOnly PyErr.TypeOrValue (loadChildren children) := by
  match children with
  | [] =>
    rw [loadChildren]
    exact .ok _
  | child :: rest =>
    rw [loadChildren]
    refine (loadConditionTree_refuses child).bind fun tree _ => ?_
    exact (loadChildren_refuses rest).bind fun trees _ => .pure _

end

/-! ## What is loaded

A loaded tree only has operators and combinators of the two vocabularies. -/

/-- Every operator and every combinator of the tree is a known one. -/
inductive ConditionTree.Loaded : ConditionTree → Prop
  | predicate {field op : String} {value : Yaml} (known : op ∈ validOps) :
      Loaded (.predicate field op value)
  | combinator {kind : String} {children : List ConditionTree} (known : kind ∈ validCombinators)
      (loaded : ∀ child ∈ children, Loaded child) : Loaded (.combinator kind children)

theorem loadPredicate_loaded {entries : YamlEntries} {tree : ConditionTree}
    (h : loadPredicate entries = .ok tree) : tree.Loaded := by
  unfold loadPredicate at h
  obtain ⟨field, -, h⟩ := bind_ok_iff.mp h
  obtain ⟨op, -, h⟩ := bind_ok_iff.mp h
  obtain ⟨value, -, h⟩ := bind_ok_iff.mp h
  split at h
  · obtain ⟨_, -, h⟩ := bind_ok_iff.mp h
    split at h
    · obtain ⟨_, hop, h⟩ := bind_ok_iff.mp h
      cases h
      exact .predicate (by simpa using hop)
    · cases h
  · cases h

mutual

theorem loadConditionTree_loaded {raw : Yaml} {tree : ConditionTree}
    (h : loadConditionTree raw = .ok tree) : tree.Loaded := by
  match raw with
  | .dict entries =>
    rw [loadConditionTree] at h
    obtain ⟨found, hfound, h⟩ := bind_ok_iff.mp h
    rcases nodeKind_ok hfound with ⟨rfl, -⟩ | ⟨kind, known, rfl, -⟩
    · exact loadPredicate_loaded h
    · exact loadCombinator_loaded known h
  | .scalar _ | .list _ | .tuple _ | .set _ => simp [loadConditionTree] at h

theorem loadCombinator_loaded {kind : String} {entries : YamlEntries} {tree : ConditionTree}
    (known : kind ∈ validCombinators) (h : loadCombinator kind entries = .ok tree) :
    tree.Loaded := by
  match entries with
  | [] => simp [loadCombinator] at h
  | (key, childrenRaw) :: rest =>
    unfold loadCombinator at h
    split at h
    · match childrenRaw with
      | .list children =>
        obtain ⟨loaded, hloaded, h⟩ := bind_ok_iff.mp h
        cases h
        exact .combinator known (loadChildren_loaded hloaded)
      | .scalar _ | .tuple _ | .set _ | .dict _ => cases h
    · exact loadCombinator_loaded known h

theorem loadChildren_loaded {children : List Yaml} {trees : List ConditionTree}
    (h : loadChildren children = .ok trees) : ∀ tree ∈ trees, tree.Loaded := by
  match children with
  | [] =>
    rw [loadChildren] at h
    cases h
    simp
  | child :: rest =>
    rw [loadChildren] at h
    obtain ⟨tree, htree, h⟩ := bind_ok_iff.mp h
    obtain ⟨others, hothers, h⟩ := bind_ok_iff.mp h
    cases h
    intro t ht
    rcases List.mem_cons.mp ht with rfl | hrest
    · exact loadConditionTree_loaded htree
    · exact loadChildren_loaded hothers t hrest

end

/-! ## What is loaded evaluates

On a loaded tree the evaluation raises nothing. -/

/-- A known operator has a verdict for all values. -/
theorem evalOpWithReason_isOk {op : String} (known : op ∈ validOps) (actual : Json)
    (expected : Yaml) : ∃ verdict, evalOpWithReason op actual expected = .ok verdict := by
  simp only [validOps, Finset.mem_insert, Finset.mem_singleton] at known
  rcases known with rfl | rfl | rfl | rfl | rfl | rfl | rfl <;> exact ⟨_, rfl⟩

/-- The children, as one comprehension. -/
theorem evaluateAll_eq (context : Fields) (children : List ConditionTree) :
    evaluateAll context children = children.mapM (evaluateWithTrace context) := by
  induction children with
  | nil => rfl
  | cons child rest ih => rw [evaluateAll, List.mapM_cons, ih]

/-- **A loaded condition evaluates** in every context. -/
theorem evaluateWithTrace_isOk {tree : ConditionTree} (loaded : tree.Loaded)
    (context : Fields) : ∃ trace, evaluateWithTrace context tree = .ok trace := by
  induction loaded with
  | @predicate field op value known =>
    rw [evaluateWithTrace, tracePredicate]
    cases context.lookup field with
    | none => exact ⟨_, rfl⟩
    | some actual =>
      obtain ⟨verdict, hverdict⟩ := evalOpWithReason_isOk known actual value
      exact bind_isOk hverdict ⟨_, rfl⟩
  | @combinator kind children known _ ih =>
    rw [evaluateWithTrace, evaluateAll_eq]
    obtain ⟨traces, htraces⟩ := mapM_isOk ih
    refine bind_isOk htraces ?_
    simp only [validCombinators, Finset.mem_insert, Finset.mem_singleton] at known
    -- `all` or `any`, over verdicts that are there
    rcases known with rfl | rfl
    · exact ⟨_, rfl⟩
    · exact ⟨_, rfl⟩

end Rule

end Ragcore
