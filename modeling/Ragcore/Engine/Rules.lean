import Ragcore.Engine.State

/-!
# Ragcore — rules, rule statistics and hint evidence types

`ragcore/_engine/rules.py` and `ragcore/_engine/hint_evidence.py`. `register_rule` guards the
definitions only and starts the statistics of its pair afresh; `update_rule_stats` guards the
statistics only. An update that leaves the record equal writes it back and does not count as
a mutation.
-/

namespace Ragcore.Engine

/-! ## Rules

A registration files a definition and fresh statistics under the pair of id and version. -/

/-- `RuleStats(rule_id=..., rule_version=...)`. -/
def freshStats (id version : Int) : RuleStats where
  ruleId := .int id
  ruleVersion := .int version
  firingCount := .int 0
  confirmedTrueCount := .int 0
  confirmedFalseCount := .int 0
  observedPrecision := none
  falsePositiveRate := none

/-- `register_rule(RuleDefinition(id, version, maturity, prior_confidence))`. -/
def registerRule (id version maturity : Int) (priorConfidence : ScoreValue) : EngineM Unit := do
  let e ← get
  if e.ruleDefinitions.contains (id, version) then
    throw (.valueError [s!"rule already registered: rule_id={id}, version={version}"])
  modify fun e => { e with
    ruleDefinitions := e.ruleDefinitions.insert (id, version)
      ⟨.int id, .int version, .int maturity, some priorConfidence⟩
    ruleStats := e.ruleStats.insert (id, version) (freshStats id version) }
  advanceStateRevision

/-- An unknown pair is a `KeyError`. -/
def getRule (ruleId ruleVersion : Int) (e : Engine) : Except PyErr RuleDefinition := do
  e.assertRulePairExists ruleId ruleVersion
  match e.ruleDefinitions.get? (ruleId, ruleVersion) with
  | some definition => return definition
  | none => throw (.keyError [s!"({ruleId}, {ruleVersion})"])

def getRuleStats (ruleId ruleVersion : Int) (e : Engine) : Except PyErr RuleStats := do
  e.assertRuleStatsPairExists ruleId ruleVersion
  match e.ruleStats.get? (ruleId, ruleVersion) with
  | some stats => return stats
  | none => throw (.keyError [s!"({ruleId}, {ruleVersion})"])

/-- The record `update_rule_stats` builds from the current one. -/
def updatedStats (current : RuleStats) (firingDelta trueDelta falseDelta : Int)
    (observedPrecision falsePositiveRate : Option ScoreValue) : Except PyErr RuleStats := do
  let firingCount ← current.firingCount.addInt firingDelta
  let confirmedTrueCount ← current.confirmedTrueCount.addInt trueDelta
  let confirmedFalseCount ← current.confirmedFalseCount.addInt falseDelta
  return { current with
    firingCount
    confirmedTrueCount
    confirmedFalseCount
    observedPrecision := observedPrecision.or current.observedPrecision
    falsePositiveRate := falsePositiveRate.or current.falsePositiveRate }

/-- The statistics are replaced, and the revision moves only if they differ. -/
def updateRuleStats (ruleId ruleVersion firingDelta trueDelta falseDelta : Int)
    (observedPrecision falsePositiveRate : Option ScoreValue) : EngineM Unit := do
  let current ← readState (getRuleStats ruleId ruleVersion)
  let newStats ← readState fun _ =>
    updatedStats current firingDelta trueDelta falseDelta observedPrecision falsePositiveRate
  modify fun e => { e with ruleStats := e.ruleStats.insert (ruleId, ruleVersion) newStats }
  if !newStats.eq current then
    advanceStateRevision

/-! ## Hint evidence types

A set of types; the revision moves only when the set does. -/

/-- `_validate_hint_evidence_type_values`: all values are ints (bools excluded) or nothing is
returned. A dict iterates over its keys, which are strings. -/
def validateHintEvidenceTypeValues (types : Json) : Except PyErr (Finset HKey) :=
  match types with
  | .str _ => .error (.typeError ["hint evidence types must be an iterable of int values, not str"])
  | .list values => validateValues values
  | .dict [] => .ok ∅
  | .dict (_ :: _) => .error (.typeError ["hint evidence type values must be int values, not str"])
  | v => .error (.typeError [s!"'{v.typeName}' object is not iterable"])
where
  validateValues : List Json → Except PyErr (Finset HKey)
    | [] => .ok ∅
    | value :: rest =>
      match value.exactInt? with
      | none => .error (.typeError
          [s!"hint evidence type values must be int values, not {value.typeName}"])
      | some n => do
        let validated ← validateValues rest
        return insert (.int n) validated

/-- Replace the hint set; a set of the same size is the same set and no mutation. -/
def setHintEvidenceTypes (change : Finset HKey → Finset HKey) : EngineM Unit := do
  let e ← get
  let beforeSize := e.hintEvidenceTypes.card
  modify fun e => { e with hintEvidenceTypes := change e.hintEvidenceTypes }
  let e ← get
  if e.hintEvidenceTypes.card ≠ beforeSize then
    advanceStateRevision

/-- The union with the validated types. -/
def registerHintEvidenceTypes (types : Json) : EngineM Unit := do
  let validated ← readState fun _ => validateHintEvidenceTypeValues types
  setHintEvidenceTypes fun hints => hints ∪ validated

/-- The difference from them. -/
def unregisterHintEvidenceTypes (types : Json) : EngineM Unit := do
  let validated ← readState fun _ => validateHintEvidenceTypeValues types
  setHintEvidenceTypes fun hints => hints \ validated

def clearHintEvidenceTypes : EngineM Unit := do
  let e ← get
  if e.hintEvidenceTypes ≠ ∅ then
    modify fun e => { e with hintEvidenceTypes := ∅ }
    advanceStateRevision

theorem validateHintEvidenceTypeValues_ints {types : Json} {validated : Finset HKey}
    (h : validateHintEvidenceTypeValues types = .ok validated) :
    ∀ key ∈ validated, ∃ n : Int, key = .int n := by
  -- the loop, from any set of types that were validated before
  have hvalues : ∀ (values : List Json) (validated : Finset HKey),
      validateHintEvidenceTypeValues.validateValues values = .ok validated →
        ∀ key ∈ validated, ∃ n : Int, key = .int n := by
    intro values
    induction values with
    | nil =>
      intro validated h
      cases h
      simp
    | cons value rest ih =>
      intro validated h key hkey
      rw [validateHintEvidenceTypeValues.validateValues] at h
      cases hn : value.exactInt? with
      | none => simp [hn] at h
      | some n =>
        rw [hn] at h
        obtain ⟨validated', hrest, h⟩ := bind_ok_iff.mp h
        cases h
        rcases Finset.mem_insert.mp hkey with rfl | hkey
        · exact ⟨n, rfl⟩
        · exact ih validated' hrest key hkey
  cases types with
  | list values => exact hvalues values validated h
  | dict fields =>
    cases fields with
    | nil =>
      cases h
      simp
    | cons _ _ => cases h
  | _ => cases h

/-! ## What a completed call writes

The stores of the rules, and the revision where something changed. -/

/-- Definition and statistics are written together. -/
def putRule (e : Engine) (id version maturity : Int) (priorConfidence : ScoreValue) : Engine :=
  { e with
    ruleDefinitions := e.ruleDefinitions.insert (id, version)
      ⟨.int id, .int version, .int maturity, some priorConfidence⟩
    ruleStats := e.ruleStats.insert (id, version) (freshStats id version)
    stateRevision := e.stateRevision + 1 }

def putStats (e : Engine) (key : Int × Int) (stats : RuleStats) : Engine :=
  { e with ruleStats := e.ruleStats.insert key stats, stateRevision := e.stateRevision + 1 }

def putHints (e : Engine) (hints : Finset HKey) : Engine :=
  { e with hintEvidenceTypes := hints, stateRevision := e.stateRevision + 1 }

theorem registerRule_cases (id version maturity : Int) (priorConfidence : ScoreValue)
    (e : Engine) :
    (∃ err, registerRule id version maturity priorConfidence e = .error err e) ∨
      (e.ruleDefinitions.contains (id, version) = false ∧
        registerRule id version maturity priorConfidence e =
          .ok () (e.putRule id version maturity priorConfidence)) := by
  rw [registerRule, run_get_bind]
  cases h : e.ruleDefinitions.contains (id, version) with
  | true => exact .inl ⟨_, rfl⟩
  | false =>
    refine .inr ⟨rfl, ?_⟩
    simp only [Bool.false_eq_true, if_false]
    rfl

theorem getRuleStats_ok_iff {ruleId ruleVersion : Int} {e : Engine} {stats : RuleStats} :
    e.getRuleStats ruleId ruleVersion = .ok stats ↔
      e.ruleStats.get? (ruleId, ruleVersion) = some stats := by
  rw [getRuleStats, bind_ok_iff]
  constructor
  · rintro ⟨_, _, h⟩
    split at h
    · cases h
      assumption
    · cases h
  · intro h
    refine ⟨(), assertExists_ok_iff.mpr (Dict.contains_of_get? h), ?_⟩
    simp [h, pure, Except.pure]

/-- An update raises, changes nothing, or writes the new statistics. -/
theorem updateRuleStats_cases (ruleId ruleVersion firingDelta trueDelta falseDelta : Int)
    (observedPrecision falsePositiveRate : Option ScoreValue) (e : Engine) :
    (∃ err, updateRuleStats ruleId ruleVersion firingDelta trueDelta falseDelta
        observedPrecision falsePositiveRate e = .error err e) ∨
      ∃ current stats, e.ruleStats.get? (ruleId, ruleVersion) = some current ∧
        updatedStats current firingDelta trueDelta falseDelta observedPrecision
          falsePositiveRate = .ok stats ∧
        ((stats.eq current = true ∧
            updateRuleStats ruleId ruleVersion firingDelta trueDelta falseDelta
              observedPrecision falsePositiveRate e =
              .ok () { e with ruleStats := e.ruleStats.insert (ruleId, ruleVersion) stats }) ∨
          (stats.eq current = false ∧
            updateRuleStats ruleId ruleVersion firingDelta trueDelta falseDelta
              observedPrecision falsePositiveRate e =
              .ok () (e.putStats (ruleId, ruleVersion) stats))) := by
  rw [updateRuleStats, run_readState_bind]
  cases hcur : e.getRuleStats ruleId ruleVersion with
  | error err => exact .inl ⟨err, rfl⟩
  | ok current =>
    simp only
    rw [run_readState_bind]
    cases hnew : updatedStats current firingDelta trueDelta falseDelta observedPrecision
        falsePositiveRate with
    | error err => exact .inl ⟨err, rfl⟩
    | ok stats =>
      refine .inr ⟨current, stats, getRuleStats_ok_iff.mp hcur, hnew, ?_⟩
      simp only
      rw [run_modify_bind]
      -- equal statistics are not written
      cases heq : stats.eq current with
      | true => exact .inl ⟨rfl, rfl⟩
      | false => exact .inr ⟨rfl, rfl⟩

theorem updateRuleStats_ok {ruleId ruleVersion firingDelta trueDelta falseDelta : Int}
    {observedPrecision falsePositiveRate : Option ScoreValue} {e : Engine}
    {current stats : RuleStats} (hcurrent : e.ruleStats.get? (ruleId, ruleVersion) = some current)
    (hstats : updatedStats current firingDelta trueDelta falseDelta observedPrecision
      falsePositiveRate = .ok stats) (hne : stats.eq current = false) :
    updateRuleStats ruleId ruleVersion firingDelta trueDelta falseDelta observedPrecision
      falsePositiveRate e = .ok () (e.putStats (ruleId, ruleVersion) stats) := by
  rw [updateRuleStats, run_readState_bind, getRuleStats_ok_iff.mpr hcurrent]
  simp only
  rw [run_readState_bind, hstats]
  simp only
  rw [run_modify_bind, hne]
  rfl

/-- Growing or shrinking a set of the same size leaves it as it is. -/
theorem setHintEvidenceTypes_cases (change : Finset HKey → Finset HKey) (e : Engine)
    (hmono : e.hintEvidenceTypes ⊆ change e.hintEvidenceTypes ∨
      change e.hintEvidenceTypes ⊆ e.hintEvidenceTypes) :
    setHintEvidenceTypes change e = .ok () e ∨
      (change e.hintEvidenceTypes ≠ e.hintEvidenceTypes ∧
        setHintEvidenceTypes change e = .ok () (e.putHints (change e.hintEvidenceTypes))) := by
  simp only [setHintEvidenceTypes]
  rw [run_get_bind, run_modify_bind, run_get_bind]
  -- the source compares lengths; as one set contains the other, that is equality
  by_cases hcard : (change e.hintEvidenceTypes).card = e.hintEvidenceTypes.card
  · have heq : change e.hintEvidenceTypes = e.hintEvidenceTypes := by
      rcases hmono with h | h
      · exact (Finset.eq_of_subset_of_card_le h hcard.le).symm
      · exact Finset.eq_of_subset_of_card_le h hcard.ge
    left
    simp only [heq, ne_eq, not_true_eq_false, if_false]
    rfl
  · right
    refine ⟨fun heq => hcard (by rw [heq]), ?_⟩
    simp only [ne_eq, hcard, not_false_eq_true, if_true]
    rfl

/-- Values that do not validate raise before the set is touched. -/
theorem registerHintEvidenceTypes_cases (types : Json) (e : Engine) :
    (∃ err, registerHintEvidenceTypes types e = .error err e) ∨
      registerHintEvidenceTypes types e = .ok () e ∨
      ∃ validated, validateHintEvidenceTypeValues types = .ok validated ∧
        e.hintEvidenceTypes ∪ validated ≠ e.hintEvidenceTypes ∧
        registerHintEvidenceTypes types e =
          .ok () (e.putHints (e.hintEvidenceTypes ∪ validated)) := by
  rw [registerHintEvidenceTypes, run_readState_bind]
  cases hval : validateHintEvidenceTypeValues types with
  | error err => exact .inl ⟨err, rfl⟩
  | ok validated =>
    rcases setHintEvidenceTypes_cases (fun hints => hints ∪ validated) e
      (.inl Finset.subset_union_left) with hsame | ⟨hne, hrun⟩
    · exact .inr (.inl hsame)
    · exact .inr (.inr ⟨validated, rfl, hne, hrun⟩)

theorem unregisterHintEvidenceTypes_cases (types : Json) (e : Engine) :
    (∃ err, unregisterHintEvidenceTypes types e = .error err e) ∨
      unregisterHintEvidenceTypes types e = .ok () e ∨
      ∃ validated, validateHintEvidenceTypeValues types = .ok validated ∧
        e.hintEvidenceTypes \ validated ≠ e.hintEvidenceTypes ∧
        unregisterHintEvidenceTypes types e =
          .ok () (e.putHints (e.hintEvidenceTypes \ validated)) := by
  rw [unregisterHintEvidenceTypes, run_readState_bind]
  cases hval : validateHintEvidenceTypeValues types with
  | error err => exact .inl ⟨err, rfl⟩
  | ok validated =>
    rcases setHintEvidenceTypes_cases (fun hints => hints \ validated) e
      (.inr Finset.sdiff_subset) with hsame | ⟨hne, hrun⟩
    · exact .inr (.inl hsame)
    · exact .inr (.inr ⟨validated, rfl, hne, hrun⟩)

theorem clearHintEvidenceTypes_cases (e : Engine) :
    clearHintEvidenceTypes e = .ok () e ∨
      (e.hintEvidenceTypes ≠ ∅ ∧ clearHintEvidenceTypes e = .ok () (e.putHints ∅)) := by
  rw [clearHintEvidenceTypes, run_get_bind]
  by_cases h : e.hintEvidenceTypes = ∅
  · left
    simp only [h, ne_eq, not_true_eq_false, if_false]
    rfl
  · right
    simp only [h, ne_eq, not_false_eq_true, if_true, true_and]
    rfl

end Ragcore.Engine
