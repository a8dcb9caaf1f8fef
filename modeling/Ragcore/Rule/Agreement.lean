import Ragcore.Condition.Load
import Ragcore.Rule.Condition

/-!
# Ragcore — JSON conditions among YAML conditions

`load_condition_tree` and `evaluate_condition_with_trace` are modelled twice, on JSON values and on
the values a YAML rule can hold. On a JSON value, which is one of those, the two models do the same.

* **`loadConditionTree_ofJson`** — the same tree, or an exception of the same class. The messages
  keep sorted keys in different forms and are not compared.
* **`evaluateWithTrace_ofJson`** — the same trace, node by node, or the same exception.
* **`loadAndEvaluate_ofJson`** — one after the other.
-/

namespace Ragcore

namespace Rule

open Condition (NodeKind validCombinators rejectedCombinators predicateKeys)

mutual

/-- A condition over JSON, as one over YAML values. -/
def ConditionTree.ofJson : Ragcore.ConditionTree → ConditionTree
  | .predicate field op value => .predicate field op (.ofJson value)
  | .combinator kind children => .combinator kind (ConditionTree.ofJsonAll children)

def ConditionTree.ofJsonAll : List Ragcore.ConditionTree → List ConditionTree
  | [] => []
  | child :: rest => .ofJson child :: ConditionTree.ofJsonAll rest

end

mutual

/-- The same for the trace of an evaluation. -/
def Trace.ofJson : Ragcore.Trace → Trace
  | .predicate field op expected actual actualPresent result reason =>
    .predicate field op (.ofJson expected) actual actualPresent result reason
  | .combinator kind children result => .combinator kind (Trace.ofJsonAll children) result

def Trace.ofJsonAll : List Ragcore.Trace → List Trace
  | [] => []
  | child :: rest => .ofJson child :: Trace.ofJsonAll rest

end

/-- The messages apart: related values, or exceptions of one class. -/
def SameKind {α β : Type} (R : α → β → Prop) (x : Except PyErr α) (y : Except PyErr β) : Prop :=
  SameOutcome R (x.mapError PyErr.kind) (y.mapError PyErr.kind)

namespace SameKind

variable {α β γ δ : Type} {R : α → β → Prop} {S : γ → δ → Prop}

theorem ok {a : α} {b : β} (related : R a b) : SameKind R (.ok a) (.ok b) := SameOutcome.ok related

/-- Only the class of the exceptions is compared; the messages print the values of their own format.
-/
theorem error {err err' : PyErr} (hkind : err.kind = err'.kind) :
    SameKind R (.error err) (.error err') := by
  show SameOutcome R (.error err.kind) (.error err'.kind)
  rw [hkind]
  exact .error _

theorem same (x : Except PyErr α) : SameKind Eq x x := SameOutcome.same _

/-- Alike at first, and alike on related values. -/
theorem bind {x : Except PyErr α} {y : Except PyErr β} {f : α → Except PyErr γ}
    {g : β → Except PyErr δ} (first : SameKind R x y)
    (next : ∀ a b, R a b → SameKind S (f a) (g b)) : SameKind S (x >>= f) (y >>= g) := by
  rw [SameKind, mapError_bind, mapError_bind]
  exact SameOutcome.bind first next

end SameKind

/-! ## The keys of a node

The YAML loader sees a list of scalars where the JSON loader sees a set of names. On names the two
are the same. -/

section Keys

variable (names : List String)

theorem namesOf_strs : namesOf (names.map Scalar.str) = names.toFinset := by
  rw [namesOf, List.filterMap_map]
  exact congrArg List.toFinset List.filterMap_some

/-- The names that are not allowed. -/
theorem extrasOf_strs (allowed : Finset String) :
    extrasOf allowed (names.map Scalar.str) = (names.filter (· ∉ allowed)).map Scalar.str := by
  rw [extrasOf, List.filter_map]
  rfl

/-- One loader has some exactly when the other does. -/
theorem extrasOf_strs_ne_nil (allowed : Finset String) :
    extrasOf allowed (names.map Scalar.str) ≠ [] ↔ (names.toFinset \ allowed).Nonempty := by
  rw [extrasOf_strs, ne_eq, List.map_eq_nil_iff, List.filter_eq_nil_iff]
  simp [Finset.Nonempty]

/-- Strings sort, so the message is reached. -/
theorem valueErrorListing_strs {α β : Type} {R : β → α → Prop} (before after : List MsgPart)
    (message : List MsgPart) :
    SameKind R (.error (.valueError message))
      (valueErrorListing before (names.map Scalar.str) after : Except PyErr α) := by
  have hsorts : ∃ sorted, sortedScalars (names.map Scalar.str) = .ok sorted := by
    refine ⟨_, if_pos ?_⟩
    simp [Scalar.comparable, Scalar.key, Scalar.toJson?, Json.key?, HKey.comparable]
  obtain ⟨sorted, hsorted⟩ := hsorts
  rw [valueErrorListing, hsorted]
  exact .error rfl

/-- The kind of a node, or the same refusal. -/
theorem nodeKind_strs :
    SameKind Eq (Condition.nodeKind names.toFinset) (nodeKind (names.map Scalar.str)) := by
  unfold Condition.nodeKind nodeKind
  simp only [namesOf_strs, extrasOf_strs_ne_nil]
  split
  · exact .error rfl
  split
  · exact valueErrorListing_strs names _ _ _
  -- both match on the combinators among the names: none, one, or both
  rcases sortSet (· ≤ ·) (names.toFinset ∩ validCombinators) with _ | ⟨kind, _ | ⟨_, _⟩⟩
  · simp only
    split
    · exact valueErrorListing_strs names _ _ _
    · split
      · rw [extrasOf_strs]
        exact valueErrorListing_strs _ _ _ _
      · exact .ok rfl
  · simp only
    split
    · rw [extrasOf_strs]
      exact valueErrorListing_strs _ _ _ _
    · exact .ok rfl
  · exact .error rfl

end Keys

/-! ## Loading

The two loaders agree on the conditions that both formats can write. -/

theorem getField_ofJson (fields : Fields) (name : String) :
    SameKind (fun v w => w = Yaml.ofJson v) ((Json.dict fields).getItem name)
      (Yaml.getField (Yaml.ofJsonFields fields) name) := by
  rw [Yaml.getField, Yaml.lookup_ofJsonFields, Json.getItem]
  cases fields.lookup name with
  | none => exact .error rfl
  | some v => exact .ok rfl

theorem loadPredicate_ofJson (fields : Fields) :
    SameKind (fun tree tree' => tree' = ConditionTree.ofJson tree)
      (Condition.loadPredicate (.dict fields)) (loadPredicate (Yaml.ofJsonFields fields)) := by
  unfold Condition.loadPredicate loadPredicate
  refine (getField_ofJson fields "field").bind ?_
  rintro field _ rfl
  refine (getField_ofJson fields "op").bind ?_
  rintro op _ rfl
  refine (getField_ofJson fields "value").bind ?_
  rintro value _ rfl
  cases field with
  | str field =>
    refine SameKind.bind (.same _) fun _ _ _ => ?_
    cases op with
    | str op => exact SameKind.bind (.same _) fun _ _ _ => .ok rfl
    | _ => exact .error rfl
  | _ => exact .error rfl

mutual

/-- **Loading.** A JSON value loads to the same tree as a YAML value, or fails in the same way. -/
theorem loadConditionTree_ofJson (raw : Json) :
    SameKind (fun tree tree' => tree' = ConditionTree.ofJson tree)
      (Condition.loadConditionTree raw) (loadConditionTree (.ofJson raw)) := by
  cases raw with
  | dict fields =>
    rw [Yaml.ofJson, Condition.loadConditionTree, loadConditionTree, Yaml.keys_ofJsonFields]
    refine (nodeKind_strs _).bind ?_
    rintro found _ rfl
    cases found with
    | predicate => exact loadPredicate_ofJson fields
    | combinator kind => exact loadCombinator_ofJson kind fields
  | _ => exact .error rfl

theorem loadCombinator_ofJson (kind : String) (fields : Fields) :
    SameKind (fun tree tree' => tree' = ConditionTree.ofJson tree)
      (Condition.loadCombinator kind fields) (loadCombinator kind (Yaml.ofJsonFields fields)) := by
  cases fields with
  | nil => exact .error rfl
  | cons field rest =>
    obtain ⟨name, childrenRaw⟩ := field
    unfold Yaml.ofJsonFields Condition.loadCombinator loadCombinator
    -- the loop stops at the key of the combinator, on both sides
    by_cases hname : name = kind
    · rw [if_pos hname, if_pos (congrArg Scalar.str hname)]
      cases childrenRaw with
      | list children =>
        refine (loadChildren_ofJson children).bind ?_
        rintro trees _ rfl
        exact .ok rfl
      | _ => exact .error rfl
    · rw [if_neg hname, if_neg fun h => hname (Scalar.str.inj h)]
      exact loadCombinator_ofJson kind rest

theorem loadChildren_ofJson (children : List Json) :
    SameKind (fun trees trees' => trees' = ConditionTree.ofJsonAll trees)
      (Condition.loadChildren children) (loadChildren (Yaml.ofJsonList children)) := by
  cases children with
  | nil => exact .ok rfl
  | cons child rest =>
    rw [Yaml.ofJsonList, Condition.loadChildren, loadChildren]
    refine (loadConditionTree_ofJson child).bind ?_
    rintro tree _ rfl
    refine (loadChildren_ofJson rest).bind ?_
    rintro trees _ rfl
    exact .ok rfl

end

/-! ## Evaluating

The two evaluators agree on such conditions, traces included. -/

theorem numeric?_ofJson (v : Json) : numeric? (.ofJson v) = Condition.numeric? v := by
  cases v <;> rfl

theorem compareWithReason_ofJson (holds : PyFloat → PyFloat → Bool) (actual expected : Json) :
    compareWithReason holds actual (.ofJson expected) =
      Condition.compareWithReason holds actual expected := by
  unfold compareWithReason Condition.compareWithReason
  rewrite [numeric?_ofJson]
  rfl

theorem containsWithReason_ofJson (actual expected : Json) :
    containsWithReason actual (.ofJson expected) =
      Condition.containsWithReason actual expected := by
  cases actual with
  | str text => cases expected <;> rfl
  | list items => simp only [containsWithReason, Condition.containsWithReason, Json.sameYaml_ofJson]
  | _ => rfl

/-- Every operator gives the same verdict for the same reason. -/
theorem evalOpWithReason_ofJson (op : String) (actual expected : Json) :
    evalOpWithReason op actual (.ofJson expected) =
      Condition.evalOpWithReason op actual expected := by
  unfold evalOpWithReason Condition.evalOpWithReason
  rewrite [Json.eqYaml_ofJson, compareWithReason_ofJson, compareWithReason_ofJson,
    compareWithReason_ofJson, compareWithReason_ofJson, containsWithReason_ofJson]
  rfl

theorem Trace.result_ofJson (trace : Ragcore.Trace) : (ofJson trace).result = trace.result := by
  cases trace <;> rfl

theorem Trace.ofJsonAll_eq (traces : List Ragcore.Trace) :
    ofJsonAll traces = traces.map ofJson := by
  induction traces with
  | nil => rfl
  | cons trace rest ih => rw [ofJsonAll, ih, List.map_cons]

/-- The error both `combine`s raise on a kind that is neither `all` nor `any`. -/
def unknownCombinator (kind : String) : PyErr :=
  .valueError ["unknown combinator kind at eval time: ", .repr (.str kind)]

/-- A combinator of another name is refused by both. -/
theorem combine_unknown {kind : String} (hall : kind ≠ "all") (hany : kind ≠ "any")
    (traces : List Trace) : combine kind traces = .error (unknownCombinator kind) := by
  unfold combine
  split
  · exact absurd rfl hall
  · exact absurd rfl hany
  · rfl

theorem jsonCombine_unknown {kind : String} (hall : kind ≠ "all") (hany : kind ≠ "any")
    (traces : List Ragcore.Trace) :
    Condition.combine kind traces = .error (unknownCombinator kind) := by
  unfold Condition.combine
  split
  · exact absurd rfl hall
  · exact absurd rfl hany
  · rfl

/-- The traces of the children are combined alike. -/
theorem combine_ofJson (kind : String) (traces : List Ragcore.Trace) :
    combine kind (Trace.ofJsonAll traces) = Trace.ofJson <$> Condition.combine kind traces := by
  have hall : (Trace.ofJsonAll traces).all Trace.result = traces.all Ragcore.Trace.result := by
    rw [Trace.ofJsonAll_eq, List.all_map]
    exact congrArg traces.all (funext Trace.result_ofJson)
  have hany : (Trace.ofJsonAll traces).any Trace.result = traces.any Ragcore.Trace.result := by
    rw [Trace.ofJsonAll_eq, List.any_map]
    exact congrArg traces.any (funext Trace.result_ofJson)
  -- the two combinators, and any other name
  by_cases kindAll : kind = "all"
  · subst kindAll
    exact congrArg (fun result => Except.ok (Trace.combinator "all" _ result)) hall
  · by_cases kindAny : kind = "any"
    · subst kindAny
      exact congrArg (fun result => Except.ok (Trace.combinator "any" _ result)) hany
    · rw [combine_unknown kindAll kindAny, jsonCombine_unknown kindAll kindAny]
      rfl

/-- A missing field is a false predicate on both sides. -/
theorem tracePredicate_ofJson (field op : String) (value : Json) (context : Fields) :
    tracePredicate field op (.ofJson value) context =
      Trace.ofJson <$> Condition.tracePredicate field op value context := by
  unfold tracePredicate Condition.tracePredicate
  cases context.lookup field with
  | none => rfl
  | some actual =>
    simp only [evalOpWithReason_ofJson]
    cases Condition.evalOpWithReason op actual value <;> rfl

mutual

/-- **Evaluation.** The trace of a JSON tree is the one of the same tree of YAML values. -/
theorem evaluateWithTrace_ofJson (context : Fields) (tree : Ragcore.ConditionTree) :
    evaluateWithTrace context (.ofJson tree) =
      Trace.ofJson <$> Condition.evaluateWithTrace context tree := by
  cases tree with
  | predicate field op value => exact tracePredicate_ofJson field op value context
  | combinator kind children =>
    rw [ConditionTree.ofJson, evaluateWithTrace, Condition.evaluateWithTrace,
      evaluateAll_ofJson context children]
    cases Condition.evaluateAll context children with
    | error err => rfl
    | ok traces => exact combine_ofJson kind traces

/-- The children are evaluated in the same order. -/
theorem evaluateAll_ofJson (context : Fields) (children : List Ragcore.ConditionTree) :
    evaluateAll context (ConditionTree.ofJsonAll children) =
      Trace.ofJsonAll <$> Condition.evaluateAll context children := by
  cases children with
  | nil => rfl
  | cons child rest =>
    rw [ConditionTree.ofJsonAll, evaluateAll, Condition.evaluateAll,
      evaluateWithTrace_ofJson context child, evaluateAll_ofJson context rest]
    cases Condition.evaluateWithTrace context child with
    | error err => rfl
    | ok trace =>
      cases Condition.evaluateAll context rest with
      | error err => rfl
      | ok traces => rfl

end

/-- **One language.** A condition given as a JSON value has the traces of either model. -/
theorem loadAndEvaluate_ofJson (raw : Json) (context : Fields) :
    SameKind (fun trace trace' => trace' = Trace.ofJson trace)
      (Condition.loadConditionTree raw >>= Condition.evaluateWithTrace context)
      (loadConditionTree (.ofJson raw) >>= evaluateWithTrace context) := by
  refine (loadConditionTree_ofJson raw).bind ?_
  rintro tree _ rfl
  rw [evaluateWithTrace_ofJson]
  cases Condition.evaluateWithTrace context tree with
  | error err => exact .error rfl
  | ok trace => exact .ok rfl

end Rule

end Ragcore
