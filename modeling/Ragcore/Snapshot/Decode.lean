import Ragcore.Engine.Crud
import Ragcore.Snapshot.Validate

/-!
# Ragcore — snapshot decoding and the façade

The `*_from_dict` decoders and `_restore_dict_*` helpers of `ragcore/_engine/serialization.py`,
`validate_and_decode_snapshot`, and `from_snapshot` of `ragcore/_engine/snapshot.py`. Decoding
runs inside one `try` block that turns a `KeyError` into a `ValueError`; the record classes check
their keyword arguments and nothing else, so a field keeps whatever value the snapshot has.
-/

namespace Ragcore

namespace Snapshot

/-! ## Records

`_*_from_dict` of the source: keyword arguments, with scores decoded first. -/

/-- `None` passes. -/
def svFromDict (d : Json) : Except PyErr (Option ScoreValue) :=
  match d with
  | .null => .ok none
  | d => do
    let value ← d.getItem "value"
    let score ← ScoreValue.new value
    return some score

/-- The int behind an id that validation has compared with an int; it lets no other through. -/
def intId (v : Json) : Except PyErr Int :=
  require v.asInt? (.typeError [s!"not an int: {v.typeName}"])

/-- `Entity(**d)`. -/
def entityFromDict (d : Json) : Except PyErr Entity := do
  let d ← d.mappingOf
  bindArguments "Entity" ["id", "type"] ["flags"] d
  return {
    id := argument d "id" .null
    type := argument d "type" .null
    flags := argument d "flags" (.int 0) }

def observationFromDict (d : Json) : Except PyErr Observation := do
  let d ← d.mappingOf
  bindArguments "Observation" ["id", "entity_id", "raw_ref_id", "type"] ["source_type"] d
  return {
    id := argument d "id" .null
    entityId := argument d "entity_id" .null
    rawRefId := argument d "raw_ref_id" .null
    type := argument d "type" .null
    sourceType := argument d "source_type" (.int 0) }

/-- `Claim(**d)` with its score decoded. -/
def claimFromDict (d : Json) : Except PyErr Claim := do
  let d ← d.dictOf
  let baseConfidence ← svFromDict (← dictItem d "base_confidence")
  bindArguments "Claim" ["id", "subject_id", "type", "status", "created_by_rule",
    "created_by_rule_version", "reason_code", "base_confidence"] ["flags"] d
  let id ← intId (argument d "id" .null)
  return {
    id
    subjectId := argument d "subject_id" .null
    type := argument d "type" .null
    status := argument d "status" .null
    createdByRule := argument d "created_by_rule" .null
    createdByRuleVersion := argument d "created_by_rule_version" .null
    reasonCode := argument d "reason_code" .null
    baseConfidence
    flags := argument d "flags" (.int 0) }

def evidenceFromDict (d : Json) : Except PyErr Evidence := do
  let d ← d.dictOf
  let strength ← svFromDict (← dictItem d "strength")
  bindArguments "Evidence" ["id", "claim_id", "raw_ref_id", "type", "strength"] [] d
  let id ← intId (argument d "id" .null)
  let claimId ← intId (argument d "claim_id" .null)
  return {
    id
    claimId
    rawRefId := argument d "raw_ref_id" .null
    type := argument d "type" .null
    strength }

def relationFromDict (d : Json) : Except PyErr Relation := do
  let d ← d.mappingOf
  bindArguments "Relation" ["id", "from_kind", "from_id", "to_kind", "to_id", "type", "rule_id",
    "reason_code"] [] d
  return {
    id := argument d "id" .null
    fromKind := argument d "from_kind" .null
    fromId := argument d "from_id" .null
    toKind := argument d "to_kind" .null
    toId := argument d "to_id" .null
    type := argument d "type" .null
    ruleId := argument d "rule_id" .null
    reasonCode := argument d "reason_code" .null }

def gapFromDict (d : Json) : Except PyErr Gap := do
  let d ← d.dictOf
  let severity ← svFromDict (← dictItem d "severity")
  bindArguments "Gap" ["id", "claim_id", "type", "required_evidence_type", "severity",
    "created_by_rule"] [] d
  let id ← intId (argument d "id" .null)
  return {
    id
    claimId := argument d "claim_id" .null
    type := argument d "type" .null
    requiredEvidenceType := argument d "required_evidence_type" .null
    severity
    createdByRule := argument d "created_by_rule" .null }

def ruleDefFromDict (d : Json) : Except PyErr RuleDefinition := do
  let d ← d.dictOf
  let priorConfidence ← svFromDict (← dictItem d "prior_confidence")
  bindArguments "RuleDefinition" ["id", "version", "maturity", "prior_confidence"] [] d
  return {
    id := argument d "id" .null
    version := argument d "version" .null
    maturity := argument d "maturity" .null
    priorConfidence }

def ruleStatsFromDict (d : Json) : Except PyErr RuleStats := do
  let d ← d.dictOf
  let observedPrecision ← svFromDict (argument d "observed_precision" .null)
  let falsePositiveRate ← svFromDict (argument d "false_positive_rate" .null)
  bindArguments "RuleStats" ["rule_id", "rule_version"] ["firing_count", "confirmed_true_count",
    "confirmed_false_count", "observed_precision", "false_positive_rate"] d
  return {
    ruleId := argument d "rule_id" .null
    ruleVersion := argument d "rule_version" .null
    firingCount := argument d "firing_count" (.int 0)
    confirmedTrueCount := argument d "confirmed_true_count" (.int 0)
    confirmedFalseCount := argument d "confirmed_false_count" (.int 0)
    observedPrecision
    falsePositiveRate }

/-- `ClaimLifecycleEvent(**d)`. -/
def eventFromDict (d : Json) : Except PyErr ClaimLifecycleEvent := do
  let d ← d.mappingOf
  bindArguments "ClaimLifecycleEvent" ["seq", "claim_id", "from_status", "to_status",
    "transition"] [] d
  return {
    seq := argument d "seq" .null
    claimId := argument d "claim_id" .null
    fromStatus := argument d "from_status" .null
    toStatus := argument d "to_status" .null
    transition := argument d "transition" .null }

/-! ## Stores

The comprehensions that rebuild the stores. -/

/-- `{item["key"]: value(item["value"]) for item in items}` over keys read by `readKey`. -/
def restoreDict {κ α : Type} [DecidableEq κ] (readKey : Json → Option κ)
    (readValue : Json → Except PyErr α) (collection : Json) : Except PyErr (Dict κ α) := do
  let items ← collection.iterate
  let pairs ← items.mapM fun item => do
    let key ← item.getItem "key"
    let k ← require (readKey key) (.typeError [s!"not a key: {key.typeName}"])
    let value ← item.getItem "value"
    let a ← readValue value
    return (k, a)
  return Dict.ofList pairs

def restoreDictInt {α : Type} (fromDict : Json → Except PyErr α) (items : Json) :
    Except PyErr (Dict Int α) :=
  restoreDict Json.exactInt? fromDict items

/-- `tuple(key)` of a two-element list of ints. -/
def pairKey (key : Json) : Option (Int × Int) :=
  match key.items.map Json.exactInt? with
  | [some a, some b] => some (a, b)
  | _ => none

def restoreDictTuple {α : Type} (fromDict : Json → Except PyErr α) (items : Json) :
    Except PyErr (Dict (Int × Int) α) :=
  restoreDict pairKey fromDict items

/-- `tuple(key)` of a four-element list of ints. -/
def tuple4Key (key : Json) : Option DedupKey :=
  match key.items.map Json.exactInt? with
  | [some a, some b, some c, some d] => some (.int a, b, c, d)
  | _ => none

def restoreDictTuple4Int (items : Json) : Except PyErr (Dict DedupKey Int) :=
  restoreDict tuple4Key intId items

/-- The ints in a set of hash keys. -/
def intMembers (keys : Finset HKey) : Finset Int :=
  keys.filterMap HKey.toInt? fun _ _ _ ha hb =>
    (HKey.toInt?_eq_some.mp ha).trans (HKey.toInt?_eq_some.mp hb).symm

/-- `set(value)` of a bucket of ids. -/
def idBucket (value : Json) : Except PyErr (Finset Int) := do
  let keys ← value.setOf
  return intMembers keys

def restoreDictIntSet (items : Json) : Except PyErr (Dict Int (Finset Int)) :=
  restoreDict Json.exactInt? idBucket items

def restoreDictIntInt (items : Json) : Except PyErr (Dict Int Int) :=
  restoreDict Json.exactInt? intId items

/-- The logs, each a list of records. -/
def restoreDictIntListDataclass {α : Type} (fromDict : Json → Except PyErr α) (items : Json) :
    Except PyErr (Dict Int (List α)) :=
  restoreDict Json.exactInt? (fun value => do
    let records ← value.iterate
    records.mapM fromDict) items

/-! ## Decoding

Validation, migration and decoding, and the engine that is built from the result. -/

/-- The claim statuses are asked for before anything is rebuilt. -/
def requireStatuses (snapshot : Json) : Except PyErr Unit := do
  let claims ← snapshot.getItem "claims"
  let items ← claims.iterate
  items.forM fun item => do
    let value ← item.getItem "value"
    ensure (value.has "status") (.valueError
      ["snapshot restore failed: missing required nested field 'status'"])

/-- `dict(next_id)`. -/
def nextIdOf (nextId : Json) : Except PyErr (Dict String Json) :=
  match nextId with
  | .dict fields => .ok (.ofFields fields)
  | v => .error (.typeError [s!"'{v.typeName}' object is not iterable"])

/-- The body of the `try` block. -/
def decodeStores (snapshot : Json) : Except PyErr DecodedEngineState := do
  requireStatuses snapshot
  let nextId ← nextIdOf (snapshot.field "next_id")
  let lifecycleSeq := if snapshot.has "lifecycle_seq" then snapshot.field "lifecycle_seq" else .int 0
  let entities ← restoreDictInt entityFromDict (← snapshot.getItem "entities")
  let observations ← restoreDictInt observationFromDict (← snapshot.getItem "observations")
  let claims ← restoreDictInt claimFromDict (← snapshot.getItem "claims")
  let evidences ← restoreDictInt evidenceFromDict (← snapshot.getItem "evidences")
  let relations ← restoreDictInt relationFromDict (← snapshot.getItem "relations")
  let gaps ← restoreDictInt gapFromDict (← snapshot.getItem "gaps")
  let ruleDefinitions ← restoreDictTuple ruleDefFromDict (← snapshot.getItem "rule_definitions")
  let ruleStats ← restoreDictTuple ruleStatsFromDict (← snapshot.getItem "rule_stats")
  let gapDedupIndex ← restoreDictTuple4Int (← snapshot.getItem "gap_dedup_index")
  let claimGapRefs ← restoreDictIntSet (← snapshot.getItem "claim_gap_refs")
  let gapResolutions ← restoreDictIntInt (← snapshot.getItem "gap_resolutions")
  let contradictions ← restoreDictIntSet (← snapshot.getItem "contradictions")
  let resolvedContradictions ← restoreDictIntSet (← snapshot.getItem "resolved_contradictions")
  let claimLifecycleEvents ←
    restoreDictIntListDataclass eventFromDict (← snapshot.getItem "claim_lifecycle_events")
  let hintEvidenceTypes ← (← snapshot.getItem "hint_evidence_types").setOf
  return {
    nextId
    lifecycleSeq
    entities
    observations
    claims
    evidences
    relations
    gaps
    ruleDefinitions
    ruleStats
    gapDedupIndex
    claimGapRefs
    gapResolutions
    contradictions
    resolvedContradictions
    claimLifecycleEvents
    hintEvidenceTypes }

/-- `except KeyError as exc: raise ValueError(...)`. -/
def keyErrorAsValueError {α : Type} (x : Except PyErr α) : Except PyErr α :=
  match x with
  | .error ⟨.keyError, message⟩ =>
    .error (.valueError ("snapshot restore failed: missing required nested field " :: message))
  | x => x

/-- Migration, checks, decoding. -/
def validateAndDecodeSnapshot (snapshot : Json) : Except PyErr DecodedEngineState :=
  match snapshot with
  | .dict fields => do
    let current ← migrateSnapshotToCurrent fields
    validateSnapshotRestoreIntegrity current
    keyErrorAsValueError (decodeStores current)
  | v => .error (.typeError [s!"snapshot must be a dict, got {v.typeName}"])

end Snapshot

namespace Engine

/-- `_install`: every persisted store, not the lineage. -/
def install (e : Engine) (decoded : DecodedEngineState) : Engine :=
  { e with toDecodedEngineState := decoded }

/-- `from_snapshot`; `uuid` is the token of the fresh `cls()`. -/
def fromSnapshot (uuid : UuidHex) (snapshot : Json) : Except PyErr Engine := do
  let decoded ← Snapshot.validateAndDecodeSnapshot snapshot
  decoded.claims.values.forM fun claim => validateClaimStatusAdmission claim.status
  return (new uuid).install decoded

end Engine

end Ragcore
