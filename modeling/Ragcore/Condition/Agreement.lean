import Ragcore.Condition.Load

/-!
# Ragcore — the two evaluators agree

`evaluate_condition` is the second evaluator of `ragcore/condition.py`, written separately from
the traced one: it stops at the child that decides a combinator, and it has its own operator
code. On the trees the loader builds neither raises, and the trace explains every node.

* **`evaluatePredicate_agrees`** — the operator code of the two, at one leaf.
* **`Explains`** — a trace has the shape of the tree, with the fast result at every node.
* **`evaluators_agree`** — for every loaded tree and every context.
-/

namespace Ragcore

namespace Condition

/-! ## The fast evaluator

`evaluate`, which stops as soon as the verdict is settled and reports no reasons. -/

/-- The numeric operators of `_evaluate_predicate`. -/
def evaluateNumeric (holds : PyFloat → PyFloat → Bool) (actual expected : Json) : Bool :=
  match numeric? actual, numeric? expected with
  | some x, some y => holds x y
  | _, _ => false

/-- `_evaluate_contains`. -/
def evaluateContains (actual expected : Json) : Bool :=
  match actual with
  | .str text =>
    match expected with
    | .str part => decide (part.toList <:+: text.toList)
    | _ => false
  | .list items => items.any fun item => item.same expected
  | _ => false

def evaluatePredicate (field op : String) (value : Json) (context : Fields) :
    Except PyErr Bool :=
  match context.lookup field with
  | none => .ok false
  | some actual =>
    match op with
    | "eq" => .ok (actual.eq value)
    | "ne" => .ok (!actual.eq value)
    | "lt" => .ok (evaluateNumeric PyFloat.lt actual value)
    | "le" => .ok (evaluateNumeric PyFloat.le actual value)
    | "gt" => .ok (evaluateNumeric (fun x y => PyFloat.lt y x) actual value)
    | "ge" => .ok (evaluateNumeric (fun x y => PyFloat.le y x) actual value)
    | "contains" => .ok (evaluateContains actual value)
    | op => .error (.valueError ["unknown op at eval time: ", .repr (.str op)])

mutual

/-- `evaluate_condition`. -/
def evaluate (context : Fields) : ConditionTree → Except PyErr Bool
  | .predicate field op value => evaluatePredicate field op value context
  | .combinator kind children =>
    match kind with
    | "all" => allHold context children
    | "any" => anyHolds context children
    | kind => .error (.valueError ["unknown combinator kind at eval time: ", .repr (.str kind)])

/-- `all(evaluate_condition(child, context) for child in children)`. -/
def allHold (context : Fields) : List ConditionTree → Except PyErr Bool
  | [] => .ok true
  | child :: rest => do
    if ← evaluate context child then allHold context rest else return false

/-- `any(evaluate_condition(child, context) for child in children)`. -/
def anyHolds (context : Fields) : List ConditionTree → Except PyErr Bool
  | [] => .ok false
  | child :: rest => do
    if ← evaluate context child then return true else anyHolds context rest

end

/-! ## One operator

Both evaluators compare the same values; one of them also says why a comparison failed. -/

/-- A verdict on a present field: its reason is `match` when it is true, and never the one of an
absent field. -/
def Reasoned (verdict : Bool × String) : Prop :=
  (verdict.1 = true ↔ verdict.2 = traceReasonMatch) ∧ verdict.2 ≠ traceReasonMissingField

theorem withReason_reasoned (result : Bool) : Reasoned (withReason result) := by
  cases result <;> exact ⟨by decide, by decide⟩

theorem typeMismatch_reasoned : Reasoned (false, traceReasonTypeMismatch) :=
  ⟨by decide, by decide⟩

theorem compareWithReason_agrees (holds : PyFloat → PyFloat → Bool) (actual expected : Json) :
    (compareWithReason holds actual expected).1 = evaluateNumeric holds actual expected ∧
      Reasoned (compareWithReason holds actual expected) := by
  unfold compareWithReason evaluateNumeric
  cases numeric? actual with
  | none => exact ⟨rfl, typeMismatch_reasoned⟩
  | some x =>
    cases numeric? expected with
    | none => exact ⟨rfl, typeMismatch_reasoned⟩
    | some y => exact ⟨rfl, withReason_reasoned _⟩

theorem containsWithReason_agrees (actual expected : Json) :
    (containsWithReason actual expected).1 = evaluateContains actual expected ∧
      Reasoned (containsWithReason actual expected) := by
  cases actual with
  | str text =>
    cases expected with
    | str part => exact ⟨rfl, withReason_reasoned _⟩
    | _ => exact ⟨rfl, typeMismatch_reasoned⟩
  | list items => exact ⟨rfl, withReason_reasoned _⟩
  | _ => exact ⟨rfl, typeMismatch_reasoned⟩

/-- The two operator dispatches, for a known operator and a present field. -/
theorem evalOpWithReason_agrees {op : String} (known : op ∈ validOps) {field : String}
    {context : Fields} {actual : Json} (hactual : context.lookup field = some actual)
    (value : Json) :
    ∃ verdict, evalOpWithReason op actual value = .ok verdict ∧
      evaluatePredicate field op value context = .ok verdict.1 ∧ Reasoned verdict := by
  unfold evaluatePredicate
  rw [hactual]
  simp only [validOps, Finset.mem_insert, Finset.mem_singleton] at known
  -- the seven operators, in the order of the vocabulary
  rcases known with rfl | rfl | rfl | rfl | rfl | rfl | rfl
  · exact ⟨_, rfl, rfl, withReason_reasoned _⟩
  · exact ⟨_, rfl, rfl, withReason_reasoned _⟩
  · have h := compareWithReason_agrees PyFloat.lt actual value
    exact ⟨_, rfl, congrArg Except.ok h.1.symm, h.2⟩
  · have h := compareWithReason_agrees PyFloat.le actual value
    exact ⟨_, rfl, congrArg Except.ok h.1.symm, h.2⟩
  · have h := compareWithReason_agrees (fun x y => PyFloat.lt y x) actual value
    exact ⟨_, rfl, congrArg Except.ok h.1.symm, h.2⟩
  · have h := compareWithReason_agrees (fun x y => PyFloat.le y x) actual value
    exact ⟨_, rfl, congrArg Except.ok h.1.symm, h.2⟩
  · have h := containsWithReason_agrees actual value
    exact ⟨_, rfl, congrArg Except.ok h.1.symm, h.2⟩

/-! ## Explanations

What a trace must say of a verdict: the shape of the tree, a reason at each leaf, the verdict at
each node. -/

/-- `Explains context tree trace`: node by node, the trace repeats the tree and carries the
result the fast evaluator gives there; a leaf says what it saw and why. -/
inductive Explains (context : Fields) : ConditionTree → Trace → Prop
  | predicate {field op reason : String} {expected actual : Json} {actualPresent result : Bool}
      (evaluated : evaluate context (.predicate field op expected) = .ok result)
      (present : actualPresent = (context.lookup field).isSome)
      (seen : actual = (context.lookup field).getD .null)
      (matched : result = true ↔ reason = traceReasonMatch)
      (missing : reason = traceReasonMissingField ↔ context.lookup field = none) :
      Explains context (.predicate field op expected)
        (.predicate field op expected actual actualPresent result reason)
  | combinator {kind : String} {children : List ConditionTree} {traces : List Trace}
      {result : Bool}
      (evaluated : evaluate context (.combinator kind children) = .ok result)
      (explained : List.Forall₂ (Explains context) children traces) :
      Explains context (.combinator kind children) (.combinator kind traces result)

theorem Explains.evaluated {context : Fields} {tree : ConditionTree} {trace : Trace}
    (h : Explains context tree trace) : evaluate context tree = .ok trace.result := by
  cases h with
  | predicate evaluated => exact evaluated
  | combinator evaluated => exact evaluated

theorem tracePredicate_explains {context : Fields} {field op : String} (known : op ∈ validOps)
    (value : Json) :
    ∃ trace, tracePredicate field op value context = .ok trace ∧
      Explains context (.predicate field op value) trace := by
  unfold tracePredicate
  -- a missing field needs no operator; otherwise the two comparisons agree
  cases hactual : context.lookup field with
  | none =>
    have hfalse : evaluate context (.predicate field op value) = .ok false := by
      rw [evaluate, evaluatePredicate, hactual]
    refine ⟨_, rfl, .predicate hfalse ?_ ?_ (by decide) ?_⟩
    · rw [hactual]
      rfl
    · rw [hactual]
      rfl
    · simp [hactual]
  | some actual =>
    obtain ⟨verdict, hverdict, hfast, hmatch, hpresent⟩ :=
      evalOpWithReason_agrees known hactual value
    simp only [hverdict]
    refine ⟨_, rfl, .predicate (by rw [evaluate]; exact hfast) ?_ ?_ hmatch ?_⟩
    · rw [hactual]
      rfl
    · rw [hactual]
      rfl
    · simp [hactual, hpresent]

/-- `all` over the traces is the short-circuit `all`. -/
theorem allHold_of_explains {context : Fields} {children : List ConditionTree}
    {traces : List Trace} (h : List.Forall₂ (Explains context) children traces) :
    allHold context children = .ok (traces.all Trace.result) := by
  induction h with
  | nil => rfl
  | @cons child trace rest others hchild _ ih =>
    rw [allHold, hchild.evaluated, List.all_cons]
    cases trace.result with
    | true => exact ih
    | false => rfl

theorem anyHolds_of_explains {context : Fields} {children : List ConditionTree}
    {traces : List Trace} (h : List.Forall₂ (Explains context) children traces) :
    anyHolds context children = .ok (traces.any Trace.result) := by
  induction h with
  | nil => rfl
  | @cons child trace rest others hchild _ ih =>
    rw [anyHolds, hchild.evaluated, List.any_cons]
    cases trace.result with
    | true => rfl
    | false => exact ih

theorem combine_explains {context : Fields} {kind : String} {children : List ConditionTree}
    {traces : List Trace} (known : kind ∈ validCombinators)
    (h : List.Forall₂ (Explains context) children traces) :
    ∃ trace, combine kind traces = .ok trace ∧
      Explains context (.combinator kind children) trace := by
  simp only [validCombinators, Finset.mem_insert, Finset.mem_singleton] at known
  rcases known with rfl | rfl
  · exact ⟨_, rfl, .combinator (allHold_of_explains h) h⟩
  · exact ⟨_, rfl, .combinator (anyHolds_of_explains h) h⟩

mutual

/-- Induction on the tree; a combinator needs the explanations of its children only. -/
theorem evaluateWithTrace_explains (context : Fields) {tree : ConditionTree} (h : tree.Loaded) :
    ∃ trace, evaluateWithTrace context tree = .ok trace ∧ Explains context tree trace := by
  match tree with
  | .predicate field op value =>
    cases h with
    | predicate known => exact tracePredicate_explains known value
  | .combinator kind children =>
    cases h with
    | combinator known loaded =>
      obtain ⟨traces, htraces, hexplained⟩ := evaluateAll_explains context loaded
      obtain ⟨trace, htrace, hcombined⟩ := combine_explains known hexplained
      refine ⟨trace, ?_, hcombined⟩
      rw [evaluateWithTrace, htraces]
      exact htrace

theorem evaluateAll_explains (context : Fields) {children : List ConditionTree}
    (h : ∀ child ∈ children, child.Loaded) :
    ∃ traces, evaluateAll context children = .ok traces ∧
      List.Forall₂ (Explains context) children traces := by
  match children with
  | [] => exact ⟨[], rfl, .nil⟩
  | child :: rest =>
    obtain ⟨trace, htrace, hexplains⟩ :=
      evaluateWithTrace_explains context (h child List.mem_cons_self)
    obtain ⟨traces, htraces, hothers⟩ :=
      evaluateAll_explains context fun c hc => h c (List.mem_cons_of_mem _ hc)
    refine ⟨trace :: traces, ?_, .cons hexplains hothers⟩
    rw [evaluateAll, htrace, htraces]
    rfl

end

/-! ## The law

On every tree the loader builds, both evaluators return, with the same verdict. -/

/-- **Fast and traced evaluation agree** on every tree the loader builds: both return, with one
result, and the trace explains the fast result of every subtree. -/
theorem evaluators_agree {raw : Json} {tree : ConditionTree}
    (h : loadConditionTree raw = .ok tree) (context : Fields) :
    ∃ trace, evaluateWithTrace context tree = .ok trace ∧
      evaluate context tree = .ok trace.result ∧ Explains context tree trace := by
  obtain ⟨trace, htrace, hexplains⟩ :=
    evaluateWithTrace_explains context (loadConditionTree_loaded h)
  exact ⟨trace, htrace, hexplains.evaluated, hexplains⟩

/-- `{"all": [{"field": " age ", "op": "ge", "value": 18}, {"any": []}]}`. -/
def adultOrNothing : Json :=
  .dict [("all", .list [
    .dict [("field", .str " age "), ("op", .str "ge"), ("value", .int 18)],
    .dict [("any", .list [])]])]

theorem evaluators_agree_adultOrNothing :
    ∃ trace, evaluateWithTrace [("age", .int 20)]
        (.combinator "all" [.predicate "age" "ge" (.int 18), .combinator "any" []]) = .ok trace ∧
      trace.result = false := by
  have hload : loadConditionTree adultOrNothing =
      .ok (.combinator "all" [.predicate "age" "ge" (.int 18), .combinator "any" []]) := by
    with_unfolding_all rfl
  obtain ⟨trace, htrace, hfast, -⟩ := evaluators_agree hload [("age", .int 20)]
  have hfalse : evaluate [("age", .int 20)]
      (.combinator "all" [.predicate "age" "ge" (.int 18), .combinator "any" []]) =
      .ok false := by
    with_unfolding_all rfl
  rw [hfalse] at hfast
  exact ⟨trace, htrace, (Except.ok.inj hfast).symm⟩

end Condition

end Ragcore
