import Ragcore.Lib.YamlHeap
import Ragcore.Rule.Conversion

/-!
# Ragcore — compiling a rule that others hold

`load_rule_spec` and the four compile functions once more, over the heap: the parsed rule is an
object its owner goes on using, before and after. Each body is the source's, one object at a time.
What leaves the owner's objects alone is the copying: the spec keeps a deep copy, and the one list
written to is a new one.

* **`OnHeap.loadRuleSpec`** — `depth` bounds the nesting of the rule.
* **`TreeLoads`** — a compiled condition shares the objects its predicates compare with.
* **`Untouched`** — from any heap that holds the rule, loading and compiling end as the functions
  of `Rule.Compile` do, and every object there was is as it was. Compiling may come later, when the
  owner has written to the objects of the rule.
* **`untouched`** / **`exists_held`** — for every value, and each is held by some heap.
-/

namespace Ragcore

namespace Rule

open Condition (NodeKind strip sortedNames validOps)

namespace OnHeap

/-- The spec with its copy of the data as a value of the heap. -/
structure RuleSpec extends RuleHeader where
  raw : YamlRef

/-- A compiled condition: the value of a predicate is the one in the rule, not a copy. -/
inductive ConditionTree where
  | predicate (field op : String) (value : YamlRef)
  | combinator (kind : String) (children : List ConditionTree)

/-! ## Steps

A statement reads one object. A check of a scalar, or of a class, is made on the top of a value and
is the one of `Rule.Compile`. -/

/-- A computation away from the heap. -/
def raise {α : Type} (x : Except PyErr α) : YamlHeapM α := readState fun _ => x

def contains (v : YamlRef) (name : String) : YamlHeapM Bool := readState fun h => h.contains v name

/-- `v[name]`. -/
def getItem (v : YamlRef) (name : String) : YamlHeapM YamlRef :=
  readState fun h => h.getItem v name

/-- The value itself where it is a scalar, and its type otherwise: all that the checks on single
values look at. -/
def top (v : YamlRef) : YamlHeapM Yaml := readState fun h => h.top v

/-- The entries, where the value is a dict. -/
def entries? (v : YamlRef) : YamlHeapM (Option (List (Scalar × YamlRef))) :=
  readState fun h => .ok (h.entries? v)

/-- The items, where the value is a list. -/
def items? (v : YamlRef) : YamlHeapM (Option (List YamlRef)) := readState fun h => .ok (h.items? v)

/-- `isinstance(v, Mapping)`. -/
def checkMapping (field : String) (v : YamlRef) : YamlHeapM Unit := do
  let shape ← top v
  let _ ← raise (mappingOf field shape)
  return ()

/-- `if name not in block: raise ValueError(...)`, and `block[name]`. -/
def requiredField (path : String) (block : YamlRef) (name : String) : YamlHeapM YamlRef := do
  let present ← contains block name
  raise (ensure present (.valueError [s!"missing required field: {path}{name}"]))
  getItem block name

/-! ## The header

The checks read the data; the spec then keeps a deep copy of a copy of it. -/

/-- `_require_field`. -/
def requireField (data : YamlRef) (name : String) : YamlHeapM Unit := do
  let present ← contains data name
  raise (ensure present (.valueError [s!"missing required field: {name}"]))

/-- The checks of `load_rule_spec`. -/
def validateHeader (data : YamlRef) : YamlHeapM RuleHeader := do
  requireField data "id"
  requireField data "version"
  requireField data "maturity"
  requireField data "reliability"
  let idVal ← getItem data "id"
  let idTop ← top idVal
  let id ← raise (strippedName "id" idTop)
  let versionVal ← getItem data "version"
  let versionTop ← top versionVal
  let version ← raise (versionOf versionTop)
  let maturityVal ← getItem data "maturity"
  let maturityTop ← top maturityVal
  let maturity ← raise (strippedName "maturity" maturityTop)
  let reliability ← getItem data "reliability"
  checkMapping "reliability" reliability
  let prior ← requiredField "reliability." reliability "prior_confidence"
  let priorTop ← top prior
  let priorConfidence ← raise (scoreOf "reliability.prior_confidence" priorTop)
  return { id, version, maturity, priorConfidence }

/-- `load_rule_spec`: `raw=deepcopy(dict(data))`. -/
def loadRuleSpec (depth : Nat) (data : YamlRef) : YamlHeapM RuleSpec := do
  let header ← validateHeader data
  let copy ← YamlHeap.dictOf data
  let raw ← YamlHeap.deepcopy depth copy
  return { header with raw }

/-! ## The definition

The header is all it is compiled from. -/

def compileRuleDefinition (spec : RuleSpec) : YamlHeapM CompiledDefinition := do
  let id ← raise (require (ruleIdMap.lookup spec.id)
    (.valueError ["unknown rule id: ", .repr (.str spec.id)]))
  let maturity ← raise (require (ruleMaturityMap.lookup spec.maturity)
    (.valueError ["unknown maturity: ", .repr (.str spec.maturity)]))
  return { id, version := spec.version, maturity, priorConfidence := spec.priorConfidence }

/-! ## The condition

The tree is read from the copy, block by block; nothing is written. -/

/-- `_load_predicate`. -/
def loadPredicate (raw : YamlRef) : YamlHeapM ConditionTree := do
  let field ← getItem raw "field"
  let op ← getItem raw "op"
  let value ← getItem raw "value"
  match ← top field with
  | .scalar (.str field) => do
    let fieldStripped := strip field
    raise (ensure (fieldStripped != "") (.valueError ["predicate.field must be non-empty"]))
    match ← top op with
    | .scalar (.str op) => do
      raise (ensure (op ∈ validOps)
        (.valueError ["unknown operator: ", .repr (.str op), ". Allowed: ", sortedNames validOps]))
      return .predicate fieldStripped op value
    | op => throw (.typeError [s!"predicate.op must be string, got {op.typeName}"])
  | field => throw (.typeError [s!"predicate.field must be string, got {field.typeName}"])

/-- `_load_combinator`, with the recursive call as an argument. -/
def loadCombinator (load : YamlRef → YamlHeapM ConditionTree) (kind : String) (raw : YamlRef) :
    YamlHeapM ConditionTree := do
  let childrenRaw ← getItem raw kind
  match ← items? childrenRaw with
  | some children => do
    let loaded ← children.mapM load
    return .combinator kind loaded
  | none => do
    let shape ← top childrenRaw
    throw (.typeError [s!"combinator '{kind}' value must be list, got {shape.typeName}"])

/-- `load_condition_tree`; the first argument bounds the nesting. -/
def loadConditionTree : Nat → YamlRef → YamlHeapM ConditionTree
  | 0, _ => throw (.typeError ["nested too deep"])
  | depth + 1, raw => do
    match ← entries? raw with
    | some entries => do
      match ← raise (nodeKind (entries.map Prod.fst)) with
      | .predicate => loadPredicate raw
      | .combinator kind => loadCombinator (loadConditionTree depth) kind raw
    | none => do
      let shape ← top raw
      throw (.typeError [s!"condition node must be mapping, got {shape.typeName}"])

def compileRuleCondition (depth : Nat) (spec : RuleSpec) : YamlHeapM ConditionTree := do
  let condition ← requiredField "" spec.raw "condition"
  loadConditionTree depth condition

/-! ## The output

Two blocks, one inside the other. -/

/-- `_lookup_str`. -/
def lookupStr (block : YamlRef) (field : String) (mapping : List (String × Int))
    (label : String) : YamlHeapM Int := do
  let value ← getItem block field
  match ← top value with
  | .scalar (.str name) =>
    raise (require (mapping.lookup name) (.valueError [s!"unknown {label}: ", .repr (.str name)]))
  | value => throw (.typeError [s!"output.claim.{field} must be string, got {value.typeName}"])

/-- `output.claim` with the presence of its four fields checked. -/
def claimBlockOf (raw : YamlRef) : YamlHeapM YamlRef := do
  let outputBlock ← requiredField "" raw "output"
  checkMapping "output" outputBlock
  let claimBlock ← requiredField "output." outputBlock "claim"
  checkMapping "output.claim" claimBlock
  ["type", "status", "base_confidence", "reason_code"].forM fun required => do
    let present ← contains claimBlock required
    raise (ensure present (.valueError [s!"missing required field: output.claim.{required}"]))
  return claimBlock

def compileRuleOutput (spec : RuleSpec) : YamlHeapM RuleOutputTemplate := do
  let claimBlock ← claimBlockOf spec.raw
  let claimType ← lookupStr claimBlock "type" claimTypeMap "claim type"
  let status ← lookupStr claimBlock "status" claimStatusMap "claim status"
  let reasonCode ← lookupStr claimBlock "reason_code" reasonCodeMap "reason code"
  let bc ← getItem claimBlock "base_confidence"
  let bcTop ← top bc
  let baseConfidence ← raise (scoreOf "output.claim.base_confidence" bcTop)
  return { claimType, status, baseConfidence, reasonCode }

/-! ## The required evidence

The one list that is written to is the compiled one, and it is new. -/

/-- `block.get(name)`, where that is a mapping. -/
def subBlock? (block : YamlRef) (name : String) : YamlHeapM (Option YamlRef) := do
  match ← entries? block with
  | none => return none
  | some entries =>
    match entries.lookup (.str name) with
    | none => return none
    | some v => do
      let found ← entries? v
      return found.map fun _ => v

/-- One turn of the loop: `types_list.append(REQUIRED_EVIDENCE_MAP[item])`. -/
def appendEvidenceType (typesList item : YamlRef) : YamlHeapM Unit := do
  let shape ← top item
  let evidenceType ← raise (evidenceTypeOf shape)
  YamlHeap.append typesList (.scalar (.int evidenceType))

/-- What was appended is an int. -/
def intOf : YamlRef → Except PyErr Int
  | .scalar (.int n) => .ok n
  | _ => .error (.typeError ["not an int"])

/-- `tuple(xs)`, of a list of ints. -/
def tupleOfInts (xs : YamlRef) : YamlHeapM (List Int) := do
  match ← items? xs with
  | some items => raise (items.mapM intOf)
  | none => throw (.typeError ["not a list"])

/-- What is absent or null asks for nothing. The types are collected in a list of their own. -/
def compileRequiredEvidence (spec : RuleSpec) : YamlHeapM RequiredEvidenceTemplate := do
  match ← subBlock? spec.raw "output" with
  | none => return ⟨[]⟩
  | some outputBlock => do
    match ← subBlock? outputBlock "claim" with
    | none => return ⟨[]⟩
    | some claimBlock => do
      let present ← contains claimBlock "required_evidence"
      if present then do
        let rawList ← getItem claimBlock "required_evidence"
        match ← items? rawList with
        | some items => do
          let typesList ← YamlHeap.alloc (.list [])
          items.forM (appendEvidenceType typesList)
          let evidenceTypes ← tupleOfInts typesList
          return ⟨evidenceTypes⟩
        | none => do
          match ← top rawList with
          | .scalar .null => return ⟨[]⟩
          | shape => throw (.typeError
              [s!"output.claim.required_evidence must be list, got {shape.typeName}"])
      else return ⟨[]⟩

end OnHeap

/-! ## The contract

What the caller may rely on: the data stays, and what was compiled from the copy stays too, whatever
the caller does with the data later. -/

/-- The same nodes, the values loaded from objects at the location `n` or above. -/
inductive TreeLoads (h : YamlHeap) (n depth : Nat) : OnHeap.ConditionTree → ConditionTree → Prop
  | predicate {field op : String} {value : YamlRef} {loaded : Yaml}
      (same : h.load n depth value = .ok loaded) :
      TreeLoads h n depth (.predicate field op value) (.predicate field op loaded)
  | combinator {kind : String} {children : List OnHeap.ConditionTree}
      {loaded : List ConditionTree} (same : List.Forall₂ (TreeLoads h n depth) children loaded) :
      TreeLoads h n depth (.combinator kind children) (.combinator kind loaded)

/-- The four compile functions end on `held` as on `spec`, and no object of the heap changes. The
condition compiled has its values at the location `n` or above. -/
structure CompilesAlike (n depth : Nat) (h : YamlHeap) (held : OnHeap.RuleSpec) (spec : RuleSpec) :
    Prop where
  definition : YamlMirrors h h (fun a b _ => a = b) (OnHeap.compileRuleDefinition held)
    (compileRuleDefinition spec)
  condition : YamlMirrors h h (fun tree loaded h' => TreeLoads h' n depth tree loaded)
    (OnHeap.compileRuleCondition depth held) (compileRuleCondition spec)
  output : YamlMirrors h h (fun a b _ => a = b) (OnHeap.compileRuleOutput held)
    (compileRuleOutput spec)
  evidence : YamlMirrors h h (fun a b _ => a = b) (OnHeap.compileRequiredEvidence held)
    (compileRequiredEvidence spec)

/-- `data` is never modified: on any heap that holds it, the load ends as the function does and
leaves every object as it was. Of the spec it returns, the compile functions make the same at any
later time, whatever has been written to the objects there were before the load, and write to no
object themselves. A spec that shared an object with `data` would not. -/
def Untouched (data : Yaml) : Prop :=
  ∀ (depth : Nat) (h : YamlHeap) (v : YamlRef), h.load 0 depth v = .ok data →
    YamlMirrors h h (fun held spec h' => ∀ later, h'.Keeps h.objects.length later →
      CompilesAlike h.objects.length depth later held spec)
      (OnHeap.loadRuleSpec depth v) (loadRuleSpec data)

namespace OnHeap

open YamlHeap

variable {n depth : Nat} {start h : YamlHeap} {v : YamlRef} {data : Yaml} {α β γ : Type}
  {post : α → β → YamlHeap → Prop}

/-! ## Checks on the top of a value

The checks ask for a scalar or for a type, so they need not follow references. -/

/-- The four checks on single values. -/
theorem strippedName_top (field : String) (v : Yaml) :
    strippedName field v.top = strippedName field v := by
  cases v <;> rfl

theorem versionOf_top (v : Yaml) : versionOf v.top = versionOf v := by
  cases v <;> rfl

theorem scoreOf_top (field : String) (v : Yaml) : scoreOf field v.top = scoreOf field v := by
  cases v <;> rfl

theorem evidenceTypeOf_top (v : Yaml) : evidenceTypeOf v.top = evidenceTypeOf v := by
  cases v <;> rfl

/-! ## Steps that read

Each step of the heap program beside the step of the function, with the state unchanged. -/

theorem raise_bind {x : Except PyErr γ} {next : γ → YamlHeapM α} {next' : γ → Except PyErr β}
    (grown : start.Extends h) (rest : ∀ c, YamlMirrors start h post (next c) (next' c)) :
    YamlMirrors start h post (raise x >>= next) (x >>= next') := by
  refine .read_bind grown (.same x) fun a b same => ?_
  subst same
  exact rest a

theorem contains_bind {f : Bool → YamlHeapM α} {g : Bool → Except PyErr β}
    (grown : start.Extends h) (loaded : h.load n depth v = .ok data) (name : String)
    (rest : ∀ present, YamlMirrors start h post (f present) (g present)) :
    YamlMirrors start h post (contains v name >>= f) (data.contains name >>= g) := by
  rw [← contains_loaded loaded name]
  refine .read_bind grown (.same _) fun a b same => ?_
  subst same
  exact rest a

/-- A field, or the same exception on both sides. -/
theorem getItem_bind {next : YamlRef → YamlHeapM α} {next' : Yaml → Except PyErr β}
    (grown : start.Extends h) (loaded : h.load n depth v = .ok data) (name : String)
    (rest : ∀ item x, h.load n (depth - 1) item = .ok x →
      YamlMirrors start h post (next item) (next' x)) :
    YamlMirrors start h post (getItem v name >>= next) (data.getItem name >>= next') :=
  .read_bind grown (getItem_loaded loaded name) rest

/-- The program looks at the top of a value; the function has the value. -/
theorem top_step {next : Yaml → YamlHeapM α} {y : Except PyErr β}
    (loaded : h.load n depth v = .ok data)
    (rest : YamlMirrors start h post (next data.top) y) :
    YamlMirrors start h post (top v >>= next) y :=
  .step (run_readState_ok (top_loaded loaded)) rest

/-- A check on the top of a value. -/
theorem top_bind {f : Yaml → Except PyErr γ} {next : γ → YamlHeapM α} {next' : γ → Except PyErr β}
    (grown : start.Extends h) (loaded : h.load n depth v = .ok data) (reads : f data.top = f data)
    (rest : ∀ c, YamlMirrors start h post (next c) (next' c)) :
    YamlMirrors start h post (do
      let shape ← top v
      let c ← raise (f shape)
      next c) (f data >>= next') := by
  refine top_step loaded ?_
  rw [reads]
  exact raise_bind grown rest

/-- A mapping on both sides, or the same refusal. -/
theorem checkMapping_bind {next : YamlHeapM α} {next' : YamlEntries → Except PyErr β}
    (grown : start.Extends h) (loaded : h.load n depth v = .ok data) (field : String)
    (rest : ∀ entries, h.load n depth v = .ok (.dict entries) →
      YamlMirrors start h post next (next' entries)) :
    YamlMirrors start h post (do
      checkMapping field v
      next) (mappingOf field data >>= next') := by
  unfold checkMapping
  rw [bind_assoc]
  refine top_step loaded ?_
  cases data with
  | dict entries => exact rest entries loaded
  | _ => exact .error grown _

theorem requiredField_bind {entries : YamlEntries} {next : YamlRef → YamlHeapM α}
    {next' : Yaml → Except PyErr β} (grown : start.Extends h)
    (loaded : h.load n depth v = .ok (.dict entries)) (path name : String)
    (rest : ∀ item x, h.load n (depth - 1) item = .ok x →
      YamlMirrors start h post (next item) (next' x)) :
    YamlMirrors start h post (requiredField path v name >>= next)
      (Rule.requiredField path entries name >>= next') := by
  have steps : (Rule.requiredField path entries name >>= next') = (do
      let present ← (Yaml.dict entries).contains name
      ensure present (.valueError [s!"missing required field: {path}{name}"])
      let x ← (Yaml.dict entries).getItem name
      next' x) := by
    unfold Rule.requiredField
    rw [bind_assoc]
    rfl
  unfold requiredField
  rw [steps, bind_assoc]
  refine contains_bind grown loaded name fun present => ?_
  rw [bind_assoc]
  exact raise_bind grown fun _ => getItem_bind grown loaded name rest

/-- A missing field is refused alike. -/
theorem requireField_bind {next : YamlHeapM α} {y : Except PyErr β} (grown : start.Extends h)
    (loaded : h.load n depth v = .ok data) (name : String)
    (rest : YamlMirrors start h post next y) :
    YamlMirrors start h post (do
      requireField v name
      next) (do
      Rule.requireField data name
      y) := by
  unfold requireField Rule.requireField
  rw [bind_assoc, bind_assoc]
  exact contains_bind grown loaded name fun _ => raise_bind grown fun _ => rest

/-! ## The header

The checks and the copy, against those of the function. -/

/-- Every check of the header, in the order of the source. -/
theorem validateHeader_follows (grown : start.Extends h) (loaded : h.load n depth v = .ok data) :
    YamlMirrors start h (fun a b h' => h' = h ∧ a = b) (validateHeader v)
      (Rule.validateHeader data) := by
  unfold validateHeader Rule.validateHeader
  refine requireField_bind grown loaded "id" ?_
  refine requireField_bind grown loaded "version" ?_
  refine requireField_bind grown loaded "maturity" ?_
  refine requireField_bind grown loaded "reliability" ?_
  refine getItem_bind grown loaded "id" fun idVal x hid => ?_
  refine top_bind grown hid (strippedName_top _ _) fun id => ?_
  refine getItem_bind grown loaded "version" fun versionVal x hversion => ?_
  refine top_bind grown hversion (versionOf_top _) fun version => ?_
  refine getItem_bind grown loaded "maturity" fun maturityVal x hmaturity => ?_
  refine top_bind grown hmaturity (strippedName_top _ _) fun maturity => ?_
  refine getItem_bind grown loaded "reliability" fun reliability x hreliability => ?_
  refine checkMapping_bind grown hreliability _ fun entries hmapping => ?_
  refine requiredField_bind grown hmapping _ _ fun prior x hprior => ?_
  refine top_bind grown hprior (scoreOf_top _ _) fun priorConfidence => ?_
  exact .pure grown ⟨rfl, rfl⟩

/-- `dict(v)` shares the values of what it copies. -/
theorem dictOf_follows (grown : start.Extends h) (loaded : h.load 0 depth v = .ok data) :
    YamlMirrors start h (fun copy entries h' => h.Extends h' ∧
      h'.load 0 depth copy = .ok (.dict entries)) (YamlHeap.dictOf v) (Rule.dictOf data) := by
  unfold YamlHeap.dictOf
  refine .get_bind ?_
  cases data with
  | dict entries =>
    obtain ⟨items, here, all⟩ := entries?_loaded loaded
    have more := extends_push h (.dict items)
    -- the copy is at the end of the heap and loads as the entries
    have placed : (h.push (.dict items)).load 0 depth (.ref h.objects.length) =
        .ok (.dict entries) := by
      cases load_ok_iff.mp loaded with
      | dict _ _ =>
        exact load_ok_iff.mpr (.dict (objectAt_push (Nat.zero_le _) _)
          (all.imp fun _ _ same => ⟨same.1, load_grown more same.2⟩))
    simp only [here]
    exact .ret (alloc_run h _) (grown.trans more) ⟨more, placed⟩
  | _ =>
    simp only [entries?_eq_none loaded (by simp)]
    exact .step (run_readState_ok (top_loaded loaded)) (.error grown _)

/-! ## The condition

The compiled tree and the one of the function, branch by branch. Its leaves still refer to the copy.
-/

mutual

/-- A compiled condition outlives every program that keeps the objects there are. -/
theorem treeLoads_mono {h' : YamlHeap} (kept : h.Extends h') {depth' : Nat}
    (deep : depth ≤ depth') : {tree : ConditionTree} → {loaded : Rule.ConditionTree} →
      TreeLoads h n depth tree loaded → TreeLoads h' n depth' tree loaded
  | .predicate _ _ _, _, .predicate same => .predicate (load_deeper deep (load_grown kept same))
  | .combinator _ _, _, .combinator same => .combinator (treesLoad_mono kept deep same)

/-- The children of a tree, by the same recursion. -/
theorem treesLoad_mono {h' : YamlHeap} (kept : h.Extends h') {depth' : Nat}
    (deep : depth ≤ depth') : {trees : List ConditionTree} → {loaded : List Rule.ConditionTree} →
      List.Forall₂ (TreeLoads h n depth) trees loaded →
        List.Forall₂ (TreeLoads h' n depth') trees loaded
  | [], _, .nil => .nil
  | _ :: _, _, .cons head rest =>
    .cons (treeLoads_mono kept deep head) (treesLoad_mono kept deep rest)

end

/-- `raw[name]` of a node. -/
theorem getField_bind {entries : YamlEntries} {next : YamlRef → YamlHeapM α}
    {next' : Yaml → Except PyErr β} (grown : start.Extends h)
    (loaded : h.load n depth v = .ok (.dict entries)) (name : String)
    (rest : ∀ item x, h.load n (depth - 1) item = .ok x →
      YamlMirrors start h post (next item) (next' x)) :
    YamlMirrors start h post (getItem v name >>= next) (Yaml.getField entries name >>= next') :=
  getItem_bind grown loaded name rest

/-- The entry of a name that is there. -/
theorem getField_run {entries : YamlEntries} {name : String} {x : Yaml}
    (loaded : h.load n depth v = .ok (.dict entries))
    (there : entries.lookup (.str name) = some x) :
    ∃ item, h.getItem v name = .ok item ∧ h.load n (depth - 1) item = .ok x := by
  have same := getItem_loaded loaded name
  rw [show (Yaml.dict entries).getItem name = .ok x from Yaml.getField_ok_iff.mpr there] at same
  generalize h.getItem v name = found at same ⊢
  cases same with
  | ok inner => exact ⟨_, rfl, inner⟩

/-- The comparison of a predicate may be a container; it is kept as a reference into the copy. -/
theorem loadPredicate_follows {entries : YamlEntries} (grown : start.Extends h)
    (loaded : h.load n depth v = .ok (.dict entries)) :
    YamlMirrors start h (fun tree tree' h' => TreeLoads h' n depth tree tree') (loadPredicate v)
      (Rule.loadPredicate entries) := by
  unfold loadPredicate Rule.loadPredicate
  refine getField_bind grown loaded "field" fun field x hfield => ?_
  refine getField_bind grown loaded "op" fun op y hop => ?_
  refine getField_bind grown loaded "value" fun value z hvalue => ?_
  refine top_step hfield ?_
  -- the field and the operator are asked to be texts
  cases x with
  | scalar x =>
    cases x with
    | str text =>
      refine raise_bind grown fun _ => ?_
      refine top_step hop ?_
      cases y with
      | scalar y =>
        cases y with
        | str op =>
          refine raise_bind grown fun _ => .pure grown (.predicate ?_)
          exact load_deeper (Nat.sub_le depth 1) hvalue
        | _ => exact .error grown _
      | _ => exact .error grown _
    | _ => exact .error grown _
  | _ => exact .error grown _

/-- The search for `raw[kind]`, as a lookup. -/
theorem loadCombinator_eq (kind : String) (entries : YamlEntries) :
    Rule.loadCombinator kind entries = (do
      let childrenRaw ← Yaml.getField entries kind
      match childrenRaw with
      | .list children => do
        let loaded ← children.mapM Rule.loadConditionTree
        return .combinator kind loaded
      | childrenRaw => .error (.typeError
          [s!"combinator '{kind}' value must be list, got {childrenRaw.typeName}"])) := by
  have each : ∀ children : List Yaml,
      loadChildren children = children.mapM Rule.loadConditionTree := by
    intro children
    induction children with
    | nil => rfl
    | cons child rest ih => rw [loadChildren, List.mapM_cons, ih]
  induction entries with
  | nil => rfl
  | cons entry rest ih =>
    obtain ⟨key, childrenRaw⟩ := entry
    unfold Rule.loadCombinator
    unfold Yaml.getField at ih ⊢
    rw [Dict.lookup_cons_if]
    -- the loop stops at the key of the combinator
    by_cases here : key = .str kind
    · rw [if_pos here, if_pos here]
      cases childrenRaw with
      | list children =>
        have same := each children
        show (do
          let loaded ← loadChildren children
          pure (Rule.ConditionTree.combinator kind loaded)) = _
        rw [same]
        rfl
      | _ => rfl
    · rw [if_neg here, if_neg here, ih]

/-- The recursive calls are made on lower levels; what they return is still there in the end. -/
theorem loadConditionTree_follows {fuel : Nat} (enough : depth < fuel)
    (loaded : h.load n depth v = .ok data) :
    YamlMirrors h h (fun tree tree' h' => TreeLoads h' n depth tree tree')
      (loadConditionTree fuel v) (Rule.loadConditionTree data) := by
  induction fuel generalizing depth h v data with
  | zero => omega
  | succ fuel ih =>
    rw [loadConditionTree]
    cases data with
    | dict fields =>
      obtain ⟨entries, here, all⟩ := entries?_loaded loaded
      have nested := depth_pos_of_dict loaded
      have keys : entries.map Prod.fst = fields.map Prod.fst := Heap.keys_related all
      refine .step (run_readState_ok (congrArg Except.ok here)) ?_
      simp only
      rw [Rule.loadConditionTree, keys]
      refine raise_bind (.refl h) fun kind => ?_
      cases kind with
      | predicate => exact loadPredicate_follows (.refl h) loaded
      | combinator kind =>
        show YamlMirrors h h _ (loadCombinator _ kind v) (Rule.loadCombinator kind fields)
        rw [loadCombinator_eq]
        unfold loadCombinator
        refine getField_bind (.refl h) loaded kind fun childrenRaw x hraw => ?_
        cases x with
        | list children =>
          obtain ⟨items, there, each⟩ := items?_loaded hraw
          refine .step (run_readState_ok (congrArg Except.ok there)) ?_
          -- the children were there before the first of them was loaded
          have loop : YamlMirrors h h (fun trees trees' h' =>
              List.Forall₂ (TreeLoads h' n (depth - 1 - 1)) trees trees')
              (items.mapM (loadConditionTree fuel)) (children.mapM Rule.loadConditionTree) :=
            Follows.mapM (Q := fun tree tree' h' => TreeLoads h' n (depth - 1 - 1) tree tree') .refl
              .trans (fun grown same => treeLoads_mono grown (Nat.le_refl _) same) each
              fun item x hitem h₁ grown => ih (by omega) (load_grown grown hitem)
          exact .bind loop fun trees trees' h₁ grown same =>
            .pure grown (.combinator (treesLoad_mono (.refl h₁) (by omega) same))
        | _ =>
          refine .step (run_readState_ok (congrArg Except.ok (items?_eq_none hraw (by simp)))) ?_
          exact .step (run_readState_ok (top_loaded hraw)) (.error (.refl h) _)
    | _ =>
      refine .step (run_readState_ok (congrArg Except.ok (entries?_eq_none loaded (by simp)))) ?_
      refine .step (run_readState_ok (top_loaded loaded)) ?_
      rw [Rule.loadConditionTree]
      · exact .error (.refl h) _
      · exact nofun

theorem compileRuleCondition_follows {held : RuleSpec} {spec : Rule.RuleSpec}
    (loaded : h.load n depth held.raw = .ok (.dict spec.raw)) :
    YamlMirrors h h (fun tree tree' h' => TreeLoads h' n depth tree tree')
      (compileRuleCondition depth held) (Rule.compileRuleCondition spec) := by
  have nested := depth_pos_of_dict loaded
  unfold compileRuleCondition Rule.compileRuleCondition
  refine requiredField_bind (.refl h) loaded _ _ fun condition x hcondition => ?_
  refine (loadConditionTree_follows (by omega) hcondition).imp fun _ _ h' same => ?_
  exact treeLoads_mono (.refl h') (Nat.sub_le depth 1) same

/-! ## The output

Fields and score, or the same refusal. -/

/-- A name of a table, or the same refusal. -/
theorem lookupStr_bind {entries : YamlEntries} {next : Int → YamlHeapM α}
    {next' : Int → Except PyErr β} (grown : start.Extends h)
    (loaded : h.load n depth v = .ok (.dict entries)) (field : String)
    (mapping : List (String × Int)) (label : String)
    (rest : ∀ found, YamlMirrors start h post (next found) (next' found)) :
    YamlMirrors start h post (lookupStr v field mapping label >>= next)
      (Rule.lookupStr entries field mapping label >>= next') := by
  unfold lookupStr Rule.lookupStr
  rw [bind_assoc, bind_assoc]
  refine getField_bind grown loaded field fun value x hvalue => ?_
  rw [bind_assoc]
  refine top_step hvalue ?_
  -- only a text can be a name of the table
  cases x with
  | scalar x =>
    cases x with
    | str name => exact raise_bind grown rest
    | _ => exact .error grown _
  | _ => exact .error grown _

/-- The checks that a block has its fields. -/
theorem fieldsPresent_bind {entries : YamlEntries} {next : YamlHeapM α} {y : Except PyErr β}
    (grown : start.Extends h) (loaded : h.load n depth v = .ok (.dict entries))
    (names : List String) (missing : String → PyErr) (rest : YamlMirrors start h post next y) :
    YamlMirrors start h post (do
      names.forM fun name => do
        let present ← contains v name
        raise (ensure present (missing name))
      next) (do
      names.forM fun name => ensure (Yaml.hasField entries name) (missing name)
      y) := by
  induction names with
  | nil => exact rest
  | cons name names ih =>
    rw [List.forM_eq_forM, List.forM_eq_forM, List.forM_cons, List.forM_cons, bind_assoc,
      bind_assoc, bind_assoc]
    exact contains_bind (g := fun present => ensure present (missing name) >>= fun _ => _)
      grown loaded name fun present => raise_bind grown fun _ => ih

/-- The fields and the score of the output. -/
theorem compileRuleOutput_follows {held : RuleSpec} {spec : Rule.RuleSpec}
    (loaded : h.load n depth held.raw = .ok (.dict spec.raw)) :
    YamlMirrors h h (fun a b _ => a = b) (compileRuleOutput held)
      (Rule.compileRuleOutput spec) := by
  have grown := Extends.refl h
  unfold compileRuleOutput Rule.compileRuleOutput claimBlockOf Rule.claimBlockOf
  simp only [bind_assoc, pure_bind]
  refine requiredField_bind grown loaded _ _ fun outputBlock x houtput => ?_
  refine checkMapping_bind grown houtput _ fun output houtput => ?_
  refine requiredField_bind grown houtput _ _ fun claimBlock y hclaim => ?_
  refine checkMapping_bind grown hclaim _ fun claim hclaim => ?_
  refine fieldsPresent_bind grown hclaim _ _ ?_
  refine lookupStr_bind grown hclaim _ _ _ fun claimType => ?_
  refine lookupStr_bind grown hclaim _ _ _ fun status => ?_
  refine lookupStr_bind grown hclaim _ _ _ fun reasonCode => ?_
  refine getField_bind grown hclaim _ fun bc z hbc => ?_
  refine top_bind grown hbc (scoreOf_top _ _) fun baseConfidence => ?_
  exact .pure grown rfl

/-! ## The required evidence

The list is new, so each append leaves the data and the copy as they were. -/

theorem subBlock?_run {entries : YamlEntries} (loaded : h.load n depth v = .ok (.dict entries))
    (name : String) :
    ∃ found, subBlock? v name h = .ok found h ∧
      Option.Rel (fun block entries => h.load n (depth - 1) block = .ok (.dict entries)) found
        (Rule.subBlock? entries name) := by
  obtain ⟨items, here, all⟩ := entries?_loaded loaded
  have related := Heap.lookup_related Function.injective_id all (.str name)
  simp only [id] at related
  unfold subBlock? Rule.subBlock? entries?
  rw [run_readState_bind, here]
  simp only
  -- the block is there on both sides or on neither
  generalize items.lookup (.str name) = item at related ⊢
  generalize entries.lookup (.str name) = field at related ⊢
  cases related with
  | none => exact ⟨none, rfl, .none⟩
  | @some block x inner =>
    simp only
    rw [run_readState_bind]
    cases x with
    | dict fields =>
      obtain ⟨_, there, -⟩ := entries?_loaded inner
      simp only [there]
      exact ⟨some block, rfl, .some inner⟩
    | _ =>
      simp only [entries?_eq_none inner (by simp)]
      exact ⟨none, rfl, .none⟩

/-- The loop, from any heap in which the list of types found so far is one of its own. -/
theorem appendEvidenceTypes_follows {items : List YamlRef} {xs : List Yaml}
    (all : List.Forall₂ (fun v x => start.load n depth v = .ok x) items xs) {loc : Nat}
    (fresh : start.objects.length ≤ loc) :
    ∀ {h : YamlHeap} {sofar : List Int}, start.Extends h →
      h.objects[loc]? = some (.list (sofar.map fun k => .scalar (.int k))) →
      YamlMirrors start h (fun _ types h' =>
          h'.objects[loc]? = some (.list ((sofar ++ types).map fun k => .scalar (.int k))))
        (items.forM (appendEvidenceType (.ref loc))) (xs.mapM evidenceTypeOf) := by
  induction all with
  | nil =>
    intro h sofar grown found
    exact .pure grown (by simpa using found)
  | @cons item x items xs head _ ih =>
    intro h sofar grown found
    -- one round: the type is appended to the list of the loop
    have turn : YamlMirrors start h (fun _ k h' =>
          h'.objects[loc]? = some (.list ((sofar ++ [k]).map fun k => .scalar (.int k))))
        (appendEvidenceType (.ref loc) item) (evidenceTypeOf x) := by
      rw [← bind_pure (evidenceTypeOf x)]
      refine top_bind grown (load_grown grown head) (evidenceTypeOf_top x) fun k => ?_
      obtain ⟨h', run, grown', found'⟩ := append_run grown fresh found (.scalar (.int k))
      refine .ret run grown' ?_
      rw [List.map_append]
      exact found'
    rw [List.forM_eq_forM, List.forM_cons, List.mapM_cons]
    refine .bind turn fun _ k h' grown' found' => ?_
    rw [← bind_pure (forM items _)]
    refine .bind (ih grown' found') fun _ types h'' grown'' found'' => .pure grown'' ?_
    rwa [List.append_assoc] at found''

/-- `tuple(types_list)` of the finished list. -/
theorem tupleOfInts_run {loc : Nat} {types : List Int}
    (found : h.objects[loc]? = some (.list (types.map fun k => .scalar (.int k)))) :
    tupleOfInts (.ref loc) h = .ok types h := by
  have items : h.items? (.ref loc) = some (types.map fun k => .scalar (.int k)) := by
    simp only [YamlHeap.items?, object?, found]
  have ints : (types.map fun k => YamlRef.scalar (.int k)).mapM intOf = .ok types := by
    rw [mapM_ok_iff, List.forall₂_map_left_iff, List.forall₂_same]
    exact fun _ _ => rfl
  unfold tupleOfInts OnHeap.items?
  rw [run_readState_bind, items]
  exact run_readState_ok ints

/-- The list on the heap holds the ints of the function's. -/
theorem compileRequiredEvidence_follows {held : RuleSpec} {spec : Rule.RuleSpec}
    (loaded : h.load n depth held.raw = .ok (.dict spec.raw)) :
    YamlMirrors h h (fun a b _ => a = b) (compileRequiredEvidence held)
      (Rule.compileRequiredEvidence spec) := by
  have grown := Extends.refl h
  have nothing : YamlMirrors h h (fun a b _ => a = b)
      (pure ⟨[]⟩ : YamlHeapM RequiredEvidenceTemplate) (pure ⟨[]⟩) := .pure grown rfl
  unfold compileRequiredEvidence Rule.compileRequiredEvidence
  obtain ⟨outputBlock, hrun, related⟩ := subBlock?_run loaded "output"
  refine .step hrun ?_
  -- each block that is absent ends in no required evidence
  generalize Rule.subBlock? spec.raw "output" = output at related ⊢
  cases related with
  | none => exact nothing
  | @some outputBlock output houtput =>
    obtain ⟨claimBlock, hrun, related⟩ := subBlock?_run houtput "claim"
    refine .step hrun ?_
    simp only [Option.bind_some]
    generalize Rule.subBlock? output "claim" = claim at related ⊢
    cases related with
    | none => exact nothing
    | @some claimBlock claim hclaim =>
      simp only
      cases hlookup : claim.lookup (.str "required_evidence") with
      | none =>
        have absent : h.contains claimBlock "required_evidence" = .ok false := by
          rw [contains_loaded hclaim, Yaml.contains, Yaml.hasField, hlookup]
          rfl
        exact .step (run_readState_ok absent) nothing
      | some x =>
        have present : h.contains claimBlock "required_evidence" = .ok true := by
          rw [contains_loaded hclaim, Yaml.contains, Yaml.hasField, hlookup]
          rfl
        refine .step (run_readState_ok present) ?_
        obtain ⟨rawList, hget, hraw⟩ := getField_run hclaim hlookup
        refine .step (run_readState_ok hget) ?_
        cases x with
        | list xs =>
          obtain ⟨items, there, all⟩ := items?_loaded hraw
          refine .step (run_readState_ok (congrArg Except.ok there)) ?_
          -- the list that is written to is allocated here
          refine .step (alloc_run h (.list [])) ?_
          have made : (h.push (.list [])).objects[h.objects.length]? = some (.list
              (([] : List Int).map fun k => .scalar (.int k))) :=
            (objectAt_zero _ _).symm.trans (objectAt_push (Nat.zero_le _) _)
          refine .bind (appendEvidenceTypes_follows all (Nat.le_refl _) (extends_push h _) made)
            fun _ types h₁ grown₁ found => ?_
          exact .step (tupleOfInts_run found) (.pure grown₁ rfl)
        | scalar s =>
          refine .step (run_readState_ok (congrArg Except.ok (items?_eq_none hraw (by simp)))) ?_
          refine .step (run_readState_ok (top_loaded hraw)) ?_
          cases s with
          | null => exact nothing
          | _ => exact .error grown _
        | _ =>
          refine .step (run_readState_ok (congrArg Except.ok (items?_eq_none hraw (by simp)))) ?_
          exact .step (run_readState_ok (top_loaded hraw)) (.error grown _)

/-- A spec on the heap whose copy has the value of the spec's. -/
theorem compilesAlike {held : RuleSpec} {spec : Rule.RuleSpec}
    (header : held.toRuleHeader = spec.toRuleHeader)
    (loaded : h.load n depth held.raw = .ok (.dict spec.raw)) :
    CompilesAlike n depth h held spec where
  definition := by
    unfold compileRuleDefinition Rule.compileRuleDefinition
    rw [header]
    exact raise_bind (.refl h) fun id => raise_bind (.refl h) fun maturity => .pure (.refl h) rfl
  condition := compileRuleCondition_follows loaded
  output := compileRuleOutput_follows loaded
  evidence := compileRequiredEvidence_follows loaded

end OnHeap

/-- **Loading and compiling never modify the data**, whatever it is. -/
theorem untouched (data : Yaml) : Untouched data := by
  intro depth h v loaded
  have grown := YamlHeap.Extends.refl h
  unfold OnHeap.loadRuleSpec loadRuleSpec
  refine .bind (OnHeap.validateHeader_follows grown loaded) fun header header' h₁ _ same => ?_
  obtain ⟨rfl, rfl⟩ := same
  refine .bind (OnHeap.dictOf_follows grown loaded) fun copy entries h₂ grown₂ copied => ?_
  -- the copy shares its values with the data, the copy of the copy shares nothing
  obtain ⟨raw, h₃, hdeep, grown₃, loadedRaw⟩ :=
    (YamlHeap.deepcopy_follows copied.2 grown₂.length_le).returns
  refine .step hdeep (.pure (grown₂.trans grown₃) fun later kept => ?_)
  exact OnHeap.compilesAlike rfl
    (YamlHeap.load_mono kept (Nat.le_refl _) (Nat.le_refl depth) loadedRaw)

/-- No value is left out: each is held by some heap. -/
theorem exists_held (data : Yaml) :
    ∃ (depth : Nat) (h : YamlHeap) (v : YamlRef), h.load 0 depth v = .ok data := by
  obtain ⟨depth, h, v, -, loaded⟩ := YamlHeap.exists_load ⟨[]⟩ data
  exact ⟨depth, h, v, loaded⟩

end Rule

end Ragcore
