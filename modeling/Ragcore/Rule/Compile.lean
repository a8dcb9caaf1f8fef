import Ragcore.Engine.RuleRuntime
import Ragcore.Rule.Condition

/-!
# Ragcore — from a YAML rule to a compiled one

`load_rule_spec` checks the header of a parsed rule and keeps a copy of the whole. Four functions
compile parts of the copy: the definition, the condition, the output and the required evidence
(`rule_loader.py`, `rule_compile.py`, `rule_output.py`, `rule_gap.py`). Names are looked up in
fixed maps.

Both scores are given as numbers. `float(n)` of an int without a double raises `OverflowError`,
before `ScoreValue` sees the number.

* **`validateHeader`** — the checks of `load_rule_spec`, in order.
* **`scoreOf`** — the check and the conversion of a score.
* **`maps_valid`** — the maps pass the checks made of them at import.
-/

namespace Ragcore

namespace Rule

open Condition (strip)

/-! ## Maps

The names of a rule file and the numbers they stand for. -/

def ruleIdMap : List (String × Int) := [("RULE_DOMAIN_SSH_001", 1)]

/-- `RULE_MATURITY_MAP`: `RULE_MATURITY_EXPERIMENTAL`, `..._STABLE`, `..._DEPRECATED`. -/
def ruleMaturityMap : List (String × Int) :=
  [("experimental", 0), ("stable", 1), ("deprecated", 2)]

def claimTypeMap : List (String × Int) := [("outdated_ssh_candidate", 1)]

/-- `CLAIM_STATUS_MAP`: `CLAIM_STATUS_CANDIDATE`, `..._CONFIRMED`, `..._REFUTED`. -/
def claimStatusMap : List (String × Int) := [("candidate", 0), ("confirmed", 1), ("refuted", 2)]

def reasonCodeMap : List (String × Int) := [("OPENSSH_7_SERIES_BANNER", 1), ("SSH_PORT_OPEN", 2)]

def requiredEvidenceMap : List (String × Int) :=
  [("exact_openssh_version", 1), ("os_family", 2), ("package_backport_status", 3)]

def allowedClaimStatuses : List Int := [0, 1, 2]

/-- What `_validate_claim_status_map` and `_validate_uint16_map` share: keys that are not blank and
values that are admitted and distinct. -/
def ValidMap (admitted : Int → Prop) (mapping : List (String × Int)) : Prop :=
  (∀ entry ∈ mapping, strip entry.1 ≠ "" ∧ admitted entry.2) ∧ (mapping.map Prod.snd).Nodup

/-- `_validate_uint16_map`, and `_validate_rule_id_map`, which has the same bounds. -/
def ValidUint16Map (mapping : List (String × Int)) : Prop :=
  ValidMap (fun value => 1 ≤ value ∧ value ≤ 65535) mapping

/-- `_validate_claim_status_map`. -/
def ValidClaimStatusMap (mapping : List (String × Int)) : Prop :=
  ValidMap (· ∈ allowedClaimStatuses) mapping

theorem maps_valid :
    ValidUint16Map ruleIdMap ∧ ValidUint16Map claimTypeMap ∧ ValidUint16Map reasonCodeMap ∧
      ValidUint16Map requiredEvidenceMap ∧ ValidClaimStatusMap claimStatusMap := by
  simp only [ValidUint16Map, ValidClaimStatusMap, ValidMap]
  decide +kernel

/-! ## The header

What is validated at loading. -/

def versionMin : Int := 1
def versionMax : Int := 65535

/-- The validated fields of a `RuleSpec`. -/
structure RuleHeader where
  id : String
  version : Int
  maturity : String
  priorConfidence : ScoreValue

structure RuleSpec extends RuleHeader where
  raw : YamlEntries

/-- `_require_field`. -/
def requireField (data : Yaml) (name : String) : Except PyErr Unit := do
  let present ← data.contains name
  ensure present (.valueError [s!"missing required field: {name}"])

/-- The checks `id` and `maturity` go through; the value is stripped. -/
def strippedName (field : String) (v : Yaml) : Except PyErr String :=
  match v with
  | .scalar (.str s) => do
    ensure (strip s != "")
      (.valueError [s!"{field} must be non-empty string (whitespace-only rejected)"])
    return strip s
  | v => .error (.typeError [s!"{field} must be string, got {v.typeName}"])

def versionOf (v : Yaml) : Except PyErr Int :=
  match v with
  | .scalar (.int version) => do
    ensure (decide (versionMin ≤ version ∧ version ≤ versionMax))
      (.valueError [s!"version must be in [{versionMin}, {versionMax}], got {version}"])
    return version
  | v => .error (.typeError [s!"version must be int (not string, not bool), got {v.typeName}"])

/-- `isinstance(v, Mapping)`, and the entries. -/
def mappingOf (field : String) (v : Yaml) : Except PyErr YamlEntries :=
  match v with
  | .dict entries => .ok entries
  | v => .error (.typeError [s!"{field} must be mapping, got {v.typeName}"])

/-- `if name not in block: raise ValueError(...)`, and `block[name]`. -/
def requiredField (path : String) (block : YamlEntries) (name : String) : Except PyErr Yaml := do
  ensure (Yaml.hasField block name) (.valueError [s!"missing required field: {path}{name}"])
  Yaml.getField block name

/-- `float(n)`. -/
def floatOfInt (n : Int) : Except PyErr PyFloat :=
  match PyFloat.toDouble n with
  | .fin q => .ok (.fin q)
  | _ => .error (.overflowError ["int too large to convert to float"])

/-- The type check on a number, and `ScoreValue(float(v))`. -/
def scoreOf (field : String) (v : Yaml) : Except PyErr ScoreValue :=
  match v with
  | .scalar (.int n) => do
    let x ← floatOfInt n
    ScoreValue.new (.float x)
  | .scalar (.float x) => ScoreValue.new (.float x)
  | v => .error (.typeError [s!"{field} must be number, got {v.typeName}"])

/-- The checks of `load_rule_spec`. -/
def validateHeader (data : Yaml) : Except PyErr RuleHeader := do
  requireField data "id"
  requireField data "version"
  requireField data "maturity"
  requireField data "reliability"
  let idVal ← data.getItem "id"
  let id ← strippedName "id" idVal
  let versionVal ← data.getItem "version"
  let version ← versionOf versionVal
  let maturityVal ← data.getItem "maturity"
  let maturity ← strippedName "maturity" maturityVal
  let reliabilityVal ← data.getItem "reliability"
  let reliability ← mappingOf "reliability" reliabilityVal
  let prior ← requiredField "reliability." reliability "prior_confidence"
  let priorConfidence ← scoreOf "reliability.prior_confidence" prior
  return { id, version, maturity, priorConfidence }

/-- `dict(data)`. Whatever is no dict has failed at a subscript before. -/
def dictOf (data : Yaml) : Except PyErr YamlEntries :=
  match data with
  | .dict entries => .ok entries
  | v => .error (.typeError [s!"'{v.typeName}' object is not a mapping"])

/-- `load_rule_spec`. A copy has the value of the original. -/
def loadRuleSpec (data : Yaml) : Except PyErr RuleSpec := do
  let header ← validateHeader data
  let raw ← dictOf data
  return { header with raw }

/-! ## The definition

The arguments of `register_rule`. -/

/-- The `RuleDefinition` of a compiled rule, all fields of their types. -/
structure CompiledDefinition where
  id : Int
  version : Int
  maturity : Int
  priorConfidence : ScoreValue

def compileRuleDefinition (spec : RuleSpec) : Except PyErr CompiledDefinition := do
  let id ← require (ruleIdMap.lookup spec.id)
    (.valueError ["unknown rule id: ", .repr (.str spec.id)])
  let maturity ← require (ruleMaturityMap.lookup spec.maturity)
    (.valueError ["unknown maturity: ", .repr (.str spec.maturity)])
  return { id, version := spec.version, maturity, priorConfidence := spec.priorConfidence }

/-- `register_rule_spec`. -/
def registerRuleSpec (spec : RuleSpec) : EngineM CompiledDefinition := do
  let definition ← readState fun _ => compileRuleDefinition spec
  Engine.registerRule definition.id definition.version definition.maturity
    definition.priorConfidence
  return definition

/-! ## The condition

The condition goes through the loader of conditions. -/

def compileRuleCondition (spec : RuleSpec) : Except PyErr ConditionTree := do
  let condition ← requiredField "" spec.raw "condition"
  loadConditionTree condition

/-! ## The output

The template of the claim, from names to numbers. -/

/-- `_lookup_str`. -/
def lookupStr (block : YamlEntries) (field : String) (mapping : List (String × Int))
    (label : String) : Except PyErr Int := do
  let value ← Yaml.getField block field
  match value with
  | .scalar (.str name) =>
    require (mapping.lookup name) (.valueError [s!"unknown {label}: ", .repr (.str name)])
  | value =>
    .error (.typeError [s!"output.claim.{field} must be string, got {value.typeName}"])

/-- `output.claim` with the presence of its four fields checked. -/
def claimBlockOf (raw : YamlEntries) : Except PyErr YamlEntries := do
  let output ← requiredField "" raw "output"
  let outputBlock ← mappingOf "output" output
  let claim ← requiredField "output." outputBlock "claim"
  let claimBlock ← mappingOf "output.claim" claim
  ["type", "status", "base_confidence", "reason_code"].forM fun required =>
    ensure (Yaml.hasField claimBlock required)
      (.valueError [s!"missing required field: output.claim.{required}"])
  return claimBlock

def compileRuleOutput (spec : RuleSpec) : Except PyErr RuleOutputTemplate := do
  let claimBlock ← claimBlockOf spec.raw
  let claimType ← lookupStr claimBlock "type" claimTypeMap "claim type"
  let status ← lookupStr claimBlock "status" claimStatusMap "claim status"
  let reasonCode ← lookupStr claimBlock "reason_code" reasonCodeMap "reason code"
  let bc ← Yaml.getField claimBlock "base_confidence"
  let baseConfidence ← scoreOf "output.claim.base_confidence" bc
  return { claimType, status, baseConfidence, reasonCode }

/-! ## The required evidence

Optional, and empty where it is left out. -/

/-- One turn of the loop over the list. -/
def evidenceTypeOf (item : Yaml) : Except PyErr Int :=
  match item with
  | .scalar (.str name) =>
    require (requiredEvidenceMap.lookup name)
      (.valueError ["unknown evidence type: ", .repr (.str name)])
  | item => .error (.typeError [s!"required_evidence entry must be string, got {item.typeName}"])

/-- `block.get(name)`, where that is a mapping. -/
def subBlock? (block : YamlEntries) (name : String) : Option YamlEntries :=
  match block.lookup (.str name) with
  | some (.dict entries) => some entries
  | _ => none

/-- What is absent or null asks for nothing. -/
def compileRequiredEvidence (spec : RuleSpec) : Except PyErr RequiredEvidenceTemplate := do
  match (subBlock? spec.raw "output").bind fun outputBlock => subBlock? outputBlock "claim" with
  | none => return ⟨[]⟩
  | some claimBlock =>
    match claimBlock.lookup (.str "required_evidence") with
    | none => return ⟨[]⟩
    | some (.scalar .null) => return ⟨[]⟩
    | some (.list rawList) => do
      let evidenceTypes ← rawList.mapM evidenceTypeOf
      return ⟨evidenceTypes⟩
    | some v => .error (.typeError
        [s!"output.claim.required_evidence must be list, got {v.typeName}"])

end Rule

end Ragcore
