import Ragcore.Invariant.Allocation
import Ragcore.Invariant.Firing
import Ragcore.Lib.Double
import Ragcore.Rule.Compile

/-!
# Ragcore — firing a compiled rule

`fire_rule` on what the compile functions return. The condition may compare with values that are
not JSON, so its trace is a trace over YAML values; the rest is the firing of `Engine.RuleRuntime`.

The engine may have been restored from any accepted snapshot. A restore checks neither that a
definition has statistics nor what the counts are, and a firing needs both.

* **`fireRule_run`** — the statistics are looked up first; of the condition only its result
  matters; then come the engine calls.
* **`addRequiredGaps_returns`** — the gap loop of a new claim cannot fail.
* **`Countable`** — the counts can be added to.
* **`fireRule_returns_iff`** — exactly when a firing does not raise.
-/

namespace Ragcore

namespace Rule

structure FiringTrace where
  ruleId : Int
  ruleVersion : Int
  subjectId : Int
  fired : Bool
  conditionTrace : Trace
  claimId : Option Int
  gapIds : List Int

/-- `_fire_rule_core`. -/
def fireRuleCore (definition : CompiledDefinition) (condition : ConditionTree)
    (output : RuleOutputTemplate) (subjectId : Int) (context : Fields)
    (requiredEvidence : Option RequiredEvidenceTemplate) : EngineM FiringTrace := do
  let _ ← readState (Engine.getRuleStats definition.id definition.version)
  let conditionTrace ← readState fun _ => evaluateWithTrace context condition
  if !conditionTrace.result then
    return ⟨definition.id, definition.version, subjectId, false, conditionTrace, none, []⟩
  let claimId ← Engine.addClaim subjectId output.claimType definition.id definition.version
    output.reasonCode (.fin output.baseConfidence.value) output.status 0
  let evidenceTypes := match requiredEvidence with
    | some template => template.evidenceTypes
    | none => []
  let gapIds ← Engine.addRequiredGaps claimId definition.id evidenceTypes
  Engine.updateRuleStats definition.id definition.version 1 0 0 none none
  return ⟨definition.id, definition.version, subjectId, true, conditionTrace, some claimId, gapIds⟩

def fireRule (definition : CompiledDefinition) (condition : ConditionTree)
    (output : RuleOutputTemplate) (subjectId : Int) (context : Fields)
    (requiredEvidence : Option RequiredEvidenceTemplate) : EngineM (Option Int) := do
  let trace ← fireRuleCore definition condition output subjectId context requiredEvidence
  return trace.claimId

/-! ## The calls of a firing

When the condition holds, a firing is a fixed list of calls, each on the result of the one before.
-/

/-- What is left of a firing whose condition holds, up to the claim id. -/
def callsOf (definition : CompiledDefinition) (output : RuleOutputTemplate) (subjectId : Int)
    (requiredEvidence : Option RequiredEvidenceTemplate) : EngineM (Option Int) := do
  let claimId ← Engine.addClaim subjectId output.claimType definition.id definition.version
    output.reasonCode (.fin output.baseConfidence.value) output.status 0
  let evidenceTypes := match requiredEvidence with
    | some template => template.evidenceTypes
    | none => []
  let _ ← Engine.addRequiredGaps claimId definition.id evidenceTypes
  Engine.updateRuleStats definition.id definition.version 1 0 0 none none
  return some claimId

section Firing

variable {definition : CompiledDefinition} {condition : ConditionTree}
  {output : RuleOutputTemplate} {subjectId : Int} {context : Fields}
  {requiredEvidence : Option RequiredEvidenceTemplate} {trace : Trace} {e : Engine}

/-- The run of `fire_rule`, for a condition that evaluates. -/
theorem fireRule_run (hevaluated : evaluateWithTrace context condition = .ok trace) :
    fireRule definition condition output subjectId context requiredEvidence e =
      match e.getRuleStats definition.id definition.version with
      | .error err => .error err e
      | .ok _ =>
        if trace.result then callsOf definition output subjectId requiredEvidence e
        else .ok none e := by
  unfold fireRule fireRuleCore
  rw [bind_assoc, run_readState_bind]
  cases e.getRuleStats definition.id definition.version with
  | error err => rfl
  | ok stats =>
    simp only
    rw [bind_assoc, run_readState_bind, hevaluated]
    -- a false verdict ends the firing with no call made
    cases hresult : trace.result with
    | false =>
      simp only [hresult, Bool.not_false, if_true, Bool.false_eq_true, if_false]
      rfl
    | true =>
      simp only [hresult, Bool.not_true, Bool.false_eq_true, if_false, if_true, bind_assoc,
        pure_bind]
      rfl

/-- **The gap loop of a claim returns**, whatever gaps there are: the key of a combination is made
from the subject of the claim, and the gap counter can be incremented. -/
theorem addRequiredGaps_returns {claimId ruleId : Int} {claim : Claim} {subject : HKey}
    (hsubject : claim.subjectId.hash = .ok subject) (types : List Int) (counters : CountersCover e)
    (found : e.claims.get? claimId = some claim) :
    ∃ ids e', Engine.addRequiredGaps claimId ruleId types e = .ok ids e' ∧
      e'.ruleStats = e.ruleStats := by
  induction types generalizing e with
  | nil => exact ⟨[], e, rfl, rfl⟩
  | cons t types ih =>
    obtain ⟨n, hn⟩ := counters.next .gap
    have hrun : Engine.addGap claimId gapTypeMissingEvidence t defaultGapSeverity ruleId e = _ :=
      Engine.addGap_ok found hsubject Firing.defaultGapSeverity_admitted hn
    have hop : finalState ((Op.addGap claimId gapTypeMissingEvidence t defaultGapSeverity
        ruleId).run e) = finalState (Engine.addGap claimId gapTypeMissingEvidence t
          defaultGapSeverity ruleId e) := finalState_map _ _ _
    have hcounters := counters.outcome
      ((Op.addGap claimId gapTypeMissingEvidence t defaultGapSeverity ruleId).outcome_cases e)
    rw [hop] at hcounters
    -- shared, referenced already or made: the call returns, and keeps claims and statistics
    obtain ⟨g, e₁, hgap, hclaims, hstats⟩ : ∃ g e₁,
        Engine.addGap claimId gapTypeMissingEvidence t defaultGapSeverity ruleId e = .ok g e₁ ∧
          e₁.claims = e.claims ∧ e₁.ruleStats = e.ruleStats := by
      rw [hrun]
      split
      · split
        · exact ⟨_, _, rfl, rfl, rfl⟩
        · exact ⟨_, _, rfl, rfl, rfl⟩
      · exact ⟨_, _, rfl, rfl, rfl⟩
    rw [hgap, finalState_ok] at hcounters
    have found₁ : e₁.claims.get? claimId = some claim := by rwa [hclaims]
    obtain ⟨ids, e₂, hrest, hkept⟩ := ih hcounters found₁
    refine ⟨g :: ids, e₂, ?_, hkept.trans hstats⟩
    rw [Engine.addRequiredGaps, run_bind, hgap]
    simp only
    rw [run_bind, hrest]
    rfl

/-! ## Counting

The counts of restored statistics are any JSON values. Python adds an int to ints, bools and
floats; a float never overflows here, the deltas being `1` and `0`. -/

/-- A value Python can add an int to. -/
def IsNumber : Json → Prop
  | .int _ | .bool _ | .float _ => True
  | _ => False

/-- One firing can be counted. -/
structure Countable (stats : RuleStats) : Prop where
  firing : IsNumber stats.firingCount
  confirmedTrue : IsNumber stats.confirmedTrueCount
  confirmedFalse : IsNumber stats.confirmedFalseCount

theorem addInt_isOk_iff {n : Int} (small : ∀ x : PyFloat, ∃ z, x.addInt n = .ok z) (v : Json) :
    (∃ w, v.addInt n = .ok w) ↔ IsNumber v := by
  -- numbers can be counted on, with one exception among the floats
  cases v with
  | float x =>
    obtain ⟨z, hz⟩ := small x
    refine ⟨fun _ => trivial, fun _ => ⟨.float z, ?_⟩⟩
    rw [Json.addInt, hz]
    rfl
  | int m => exact ⟨fun _ => trivial, fun _ => ⟨_, rfl⟩⟩
  | bool b => exact ⟨fun _ => trivial, fun _ => ⟨_, rfl⟩⟩
  | _ =>
    refine ⟨?_, False.elim⟩
    rintro ⟨_, h⟩
    cases h

theorem addInt_zero_isOk (x : PyFloat) : ∃ z, x.addInt 0 = .ok z := by
  have hzero : PyFloat.toDouble ((0 : Int) : ℚ) = .fin 0 := by simp [PyFloat.toDouble]
  unfold PyFloat.addInt
  rw [hzero]
  cases x <;> exact ⟨_, rfl⟩

theorem updatedStats_isOk_iff (stats : RuleStats) :
    (∃ updated, Engine.updatedStats stats 1 0 0 none none = .ok updated) ↔ Countable stats := by
  unfold Engine.updatedStats
  constructor
  · rintro ⟨updated, h⟩
    obtain ⟨firing, hfiring, h⟩ := bind_ok_iff.mp h
    obtain ⟨confirmedTrue, htrue, h⟩ := bind_ok_iff.mp h
    obtain ⟨confirmedFalse, hfalse, -⟩ := bind_ok_iff.mp h
    exact ⟨(addInt_isOk_iff PyFloat.addInt_one_isOk _).mp ⟨_, hfiring⟩,
      (addInt_isOk_iff addInt_zero_isOk _).mp ⟨_, htrue⟩,
      (addInt_isOk_iff addInt_zero_isOk _).mp ⟨_, hfalse⟩⟩
  · intro h
    obtain ⟨firing, hfiring⟩ := (addInt_isOk_iff PyFloat.addInt_one_isOk _).mpr h.firing
    obtain ⟨confirmedTrue, htrue⟩ := (addInt_isOk_iff addInt_zero_isOk _).mpr h.confirmedTrue
    obtain ⟨confirmedFalse, hfalse⟩ := (addInt_isOk_iff addInt_zero_isOk _).mpr h.confirmedFalse
    exact bind_isOk hfiring (bind_isOk htrue (bind_isOk hfalse ⟨_, rfl⟩))

theorem updateRuleStats_returns_iff {ruleId ruleVersion : Int} {stats : RuleStats}
    (found : e.ruleStats.get? (ruleId, ruleVersion) = some stats) :
    Returns (Engine.updateRuleStats ruleId ruleVersion 1 0 0 none none) e ↔ Countable stats := by
  rw [← updatedStats_isOk_iff]
  unfold Returns Engine.updateRuleStats
  rw [run_readState_bind, Engine.getRuleStats_ok_iff.mpr found]
  simp only
  rw [run_readState_bind]
  cases Engine.updatedStats stats 1 0 0 none none with
  | error err => simp
  | ok updated =>
    refine ⟨fun _ => ⟨updated, rfl⟩, fun _ => ?_⟩
    simp only
    rw [run_modify_bind]
    -- whether or not anything changed, the call returns
    split
    · exact ⟨_, _, rfl⟩
    · exact ⟨_, _, rfl⟩

/-! ## When a firing returns

The calls return on a known rule and subject, as long as the counters can count. -/

theorem callsOf_returns_iff (counters : CountersCover e)
    (subject : e.entities.contains subjectId = true) (status : ValidStatus (.int output.status))
    {stats : RuleStats}
    (found : e.ruleStats.get? (definition.id, definition.version) = some stats) :
    Returns (callsOf definition output subjectId requiredEvidence) e ↔ Countable stats := by
  obtain ⟨n, hn⟩ := counters.next .claim
  have hclaim : Engine.addClaim subjectId output.claimType definition.id definition.version
      output.reasonCode (.fin output.baseConfidence.value) output.status 0 e = _ :=
    Engine.addClaim_ok subject status (ScoreValue.new_value _) hn _ _ _ _ _
  have hop : finalState ((Op.addClaim subjectId output.claimType definition.id definition.version
      output.reasonCode (.fin output.baseConfidence.value) output.status 0).run e) =
      finalState (Engine.addClaim subjectId output.claimType definition.id definition.version
        output.reasonCode (.fin output.baseConfidence.value) output.status 0 e) :=
    finalState_map _ _ _
  have hcounters := counters.outcome ((Op.addClaim subjectId output.claimType definition.id
    definition.version output.reasonCode (.fin output.baseConfidence.value) output.status
    0).outcome_cases e)
  rw [hop, hclaim, finalState_ok] at hcounters
  unfold callsOf
  generalize (match requiredEvidence with
    | some template => template.evidenceTypes
    | none => []) = evidenceTypes
  obtain ⟨gapIds, e₁, hgaps, hstats⟩ : ∃ gapIds e₁,
      Engine.addRequiredGaps n definition.id evidenceTypes (e.putClaim n _) = .ok gapIds e₁ ∧
        e₁.ruleStats = e.ruleStats :=
    addRequiredGaps_returns rfl evidenceTypes hcounters (Dict.get?_insert_self _ _ _)
  -- what can still fail is the count
  have found₁ : e₁.ruleStats.get? (definition.id, definition.version) = some stats := by
    rwa [hstats]
  rw [← updateRuleStats_returns_iff found₁]
  unfold Returns
  rw [run_bind, hclaim]
  simp only
  rw [run_bind, hgaps]
  simp only
  rw [run_bind]
  cases Engine.updateRuleStats definition.id definition.version 1 0 0 none none e₁ with
  | ok _ e₂ => exact ⟨fun _ => ⟨_, _, rfl⟩, fun _ => ⟨_, _, rfl⟩⟩
  | error err e₂ => simp

/-- **When a firing does not raise**: the statistics of the rule are there and, if the condition
holds, can be counted on. The subject exists, the status is an admitted one and the condition
evaluates. -/
theorem fireRule_returns_iff (counters : CountersCover e)
    (subject : e.entities.contains subjectId = true) (status : ValidStatus (.int output.status))
    (hevaluated : evaluateWithTrace context condition = .ok trace) :
    Returns (fireRule definition condition output subjectId context requiredEvidence) e ↔
      ∃ stats, e.ruleStats.get? (definition.id, definition.version) = some stats ∧
        (trace.result = true → Countable stats) := by
  unfold Returns
  rw [fireRule_run hevaluated]
  -- without statistics the firing raises at its first step
  cases hstats : e.getRuleStats definition.id definition.version with
  | error err =>
    constructor
    · rintro ⟨_, _, h⟩
      cases h
    · rintro ⟨stats, found, -⟩
      rw [Engine.getRuleStats_ok_iff.mpr found] at hstats
      cases hstats
  | ok stats =>
    have found := Engine.getRuleStats_ok_iff.mp hstats
    simp only [found, Option.some.injEq, exists_eq_left']
    cases trace.result with
    | false => simp
    | true =>
      simp only [if_true, true_implies]
      exact callsOf_returns_iff counters subject status found

end Firing

end Rule

end Ragcore
