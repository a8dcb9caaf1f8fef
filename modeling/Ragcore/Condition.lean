import Ragcore.Lib.Fallible
import Ragcore.Lib.Json

/-!
# Ragcore — traced condition evaluation

The tree and trace types of `ragcore/condition.py` with `evaluate_condition_with_trace`, the
evaluator rule firing trusts. Evaluation is lenient: a missing field or a value of the wrong
type makes a predicate false and says why. Only a tree that `load_condition_tree` would not
build (an unknown operator or combinator) raises.
-/

namespace Ragcore

/-- A loaded condition. -/
inductive ConditionTree where
  | predicate (field op : String) (value : Json)
  | combinator (kind : String) (children : List ConditionTree)

/-- The explanation of a verdict, node by node. -/
inductive Trace where
  | predicate (field op : String) (expected actual : Json) (actualPresent result : Bool)
      (reason : String)
  | combinator (kind : String) (children : List Trace) (result : Bool)

def Trace.result : Trace → Bool
  | .predicate _ _ _ _ _ result _ => result
  | .combinator _ _ result => result

/-- The reasons a predicate can report. -/
def traceReasonMatch : String := "match"
def traceReasonMismatch : String := "mismatch"
def traceReasonMissingField : String := "missing_field"
def traceReasonTypeMismatch : String := "type_mismatch"

namespace Condition

/-- The value as a number; `_is_numeric` leaves bools out. -/
def numeric? : Json → Option PyFloat
  | .int n => some (.fin n)
  | .float x => some x
  | _ => none

/-- The reason of a comparison that was made. -/
def withReason (result : Bool) : Bool × String :=
  (result, if result then traceReasonMatch else traceReasonMismatch)

/-- The four numeric operators, by their comparison. -/
def compareWithReason (holds : PyFloat → PyFloat → Bool) (actual expected : Json) :
    Bool × String :=
  match numeric? actual, numeric? expected with
  | some x, some y => withReason (holds x y)
  | _, _ => (false, traceReasonTypeMismatch)

/-- A text in a text, or a member of a list; anything else is a type mismatch. -/
def containsWithReason (actual expected : Json) : Bool × String :=
  match actual with
  | .str text =>
    match expected with
    | .str part => withReason (decide (part.toList <:+: text.toList))
    | _ => (false, traceReasonTypeMismatch)
  | .list items => withReason (items.any fun item => item.same expected)
  | _ => (false, traceReasonTypeMismatch)

/-- The operators by name. -/
def evalOpWithReason (op : String) (actual expected : Json) : Except PyErr (Bool × String) :=
  match op with
  | "eq" => .ok (withReason (actual.eq expected))
  | "ne" => .ok (withReason (!actual.eq expected))
  | "lt" => .ok (compareWithReason PyFloat.lt actual expected)
  | "le" => .ok (compareWithReason PyFloat.le actual expected)
  | "gt" => .ok (compareWithReason (fun x y => PyFloat.lt y x) actual expected)
  | "ge" => .ok (compareWithReason (fun x y => PyFloat.le y x) actual expected)
  | "contains" => .ok (containsWithReason actual expected)
  | op => .error (.valueError ["unknown op at eval time: ", .repr (.str op)])

/-- A field that is missing makes the predicate false. -/
def tracePredicate (field op : String) (value : Json) (context : Fields) : Except PyErr Trace :=
  match context.lookup field with
  | none => .ok (.predicate field op value .null false false traceReasonMissingField)
  | some actual => do
    let (result, reason) ← evalOpWithReason op actual value
    return .predicate field op value actual true result reason

/-- The result of a combinator over the traces of all its children. -/
def combine (kind : String) (children : List Trace) : Except PyErr Trace :=
  match kind with
  | "all" => .ok (.combinator kind children (children.all Trace.result))
  | "any" => .ok (.combinator kind children (children.any Trace.result))
  | kind => .error (.valueError ["unknown combinator kind at eval time: ", .repr (.str kind)])

mutual

/-- `evaluate_condition_with_trace`: every child is evaluated, no short circuit. -/
def evaluateWithTrace (context : Fields) : ConditionTree → Except PyErr Trace
  | .predicate field op value => tracePredicate field op value context
  | .combinator kind children => do
    let traces ← evaluateAll context children
    combine kind traces

/-- Every child is traced, also after the verdict is settled. -/
def evaluateAll (context : Fields) : List ConditionTree → Except PyErr (List Trace)
  | [] => .ok []
  | child :: rest => do
    let trace ← evaluateWithTrace context child
    let traces ← evaluateAll context rest
    return trace :: traces

end

end Condition

end Ragcore
