import Ragcore.Condition
import Ragcore.Engine.Lifecycle
import Ragcore.Engine.Rules

/-!
# Ragcore — rule firing

`ragcore/rule_runtime.py`. A firing is a program over the engine's own methods: the statistics
of the rule must exist, the condition is evaluated once, and a true condition adds one claim,
one `add_gap` per required evidence type and one to the firing count.
-/

namespace Ragcore

/-- What a rule says of the claims it makes. -/
structure RuleOutputTemplate where
  claimType : Int
  status : Int
  baseConfidence : ScoreValue
  reasonCode : Int

/-- The types of evidence that a claim of the rule lacks at first. -/
structure RequiredEvidenceTemplate where
  evidenceTypes : List Int

/-- The account of one firing. -/
structure FiringTrace where
  ruleId : Int
  ruleVersion : Int
  subjectId : Int
  fired : Bool
  conditionTrace : Trace
  claimId : Option Int
  gapIds : List Int

def gapTypeMissingEvidence : Int := 1

/-- `DEFAULT_GAP_SEVERITY.value`. -/
def defaultGapSeverity : PyFloat := .fin (1 / 2)

namespace Engine

/-- The gap loop of `_fire_rule_core`. -/
def addRequiredGaps (claimId ruleId : Int) : List Int → EngineM (List Int)
  | [] => return []
  | evidenceType :: rest => do
    let gapId ← addGap claimId gapTypeMissingEvidence evidenceType defaultGapSeverity ruleId
    let gapIds ← addRequiredGaps claimId ruleId rest
    return gapId :: gapIds

/-- `_fire_rule_core`; of the definition it reads the id and the version. -/
def fireRuleCore (ruleId ruleVersion : Int) (condition : ConditionTree)
    (output : RuleOutputTemplate) (subjectId : Int) (context : Fields)
    (requiredEvidence : Option RequiredEvidenceTemplate) : EngineM FiringTrace := do
  let _ ← readState (getRuleStats ruleId ruleVersion)
  let conditionTrace ← readState fun _ => Condition.evaluateWithTrace context condition
  if !conditionTrace.result then
    return ⟨ruleId, ruleVersion, subjectId, false, conditionTrace, none, []⟩
  let claimId ← addClaim subjectId output.claimType ruleId ruleVersion output.reasonCode
    (.fin output.baseConfidence.value) output.status 0
  let evidenceTypes := match requiredEvidence with
    | some template => template.evidenceTypes
    | none => []
  let gapIds ← addRequiredGaps claimId ruleId evidenceTypes
  updateRuleStats ruleId ruleVersion 1 0 0 none none
  return ⟨ruleId, ruleVersion, subjectId, true, conditionTrace, some claimId, gapIds⟩

/-- The claim that was made, or `None`. -/
def fireRule (ruleId ruleVersion : Int) (condition : ConditionTree)
    (output : RuleOutputTemplate) (subjectId : Int) (context : Fields)
    (requiredEvidence : Option RequiredEvidenceTemplate) : EngineM (Option Int) := do
  let trace ←
    fireRuleCore ruleId ruleVersion condition output subjectId context requiredEvidence
  return trace.claimId

/-- The whole account. -/
def fireRuleWithTrace (ruleId ruleVersion : Int) (condition : ConditionTree)
    (output : RuleOutputTemplate) (subjectId : Int) (context : Fields)
    (requiredEvidence : Option RequiredEvidenceTemplate) : EngineM FiringTrace :=
  fireRuleCore ruleId ruleVersion condition output subjectId context requiredEvidence

end Engine

end Ragcore
