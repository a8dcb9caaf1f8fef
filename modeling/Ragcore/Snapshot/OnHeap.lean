import Ragcore.Lib.Heap
import Ragcore.Snapshot.Decode

/-!
# Ragcore — restoring from a snapshot that others hold

`from_snapshot` once more, over the heap: the snapshot is an object that its owner goes on using.
Migration and five of the record decoders write into dicts. Each writes into a dict it has copied
first; everything else on the way only reads, and is the function of `Snapshot.Validate` and
`Snapshot.Decode` on the value loaded.

* **`copyWithScore`** — the copy-and-write the decoders of scored records begin with.
* **`OnHeap.fromSnapshot`** — the whole restore. `depth` bounds the nesting of the snapshot.
-/

namespace Ragcore

namespace Snapshot

namespace OnHeap

/-- Scores are the one class instance a decoder puts into a dict. -/
abbrev Val := HeapVal ScoreValue

/-- A program over the heap of the caller's values. -/
abbrev SnapshotM := HeapM ScoreValue

/-- A computation away from the heap. -/
def raise {α : Type} (x : Except PyErr α) : SnapshotM α := readState fun _ => x

def getItem (v : Val) (name : String) : SnapshotM Val := readState fun h => h.getItem v name

def iterate (v : Val) : SnapshotM (List Val) := readState fun h => h.iterate v

variable (depth : Nat)

/-- A function that only reads its argument. The snapshot's copy is one level above its members,
hence `depth + 1`. -/
def reads {α : Type} (f : Json → Except PyErr α) (v : Val) : SnapshotM α :=
  readState fun h => do
    let j ← h.load (depth + 1) v
    f j

/-! ## Migration

A copy at the top before the version is written over. -/

def migrateSnapshotV1ToV2 (snapshot : Val) : SnapshotM Val := do
  let out ← Heap.dictOf snapshot
  Heap.setItem out "schema_version" (.int 2)
  let none ← Heap.alloc (.list [])
  Heap.setItem out "hint_evidence_types" (.ref none)
  return .ref out

/-- The copy that is written to is a new object. -/
def migrateSnapshotToCurrent (snapshot : Val) : SnapshotM Val := do
  let version ← reads depth (fun s => .ok (s.field "schema_version")) snapshot
  raise (ensure (version.key? ≠ some .none) (.valueError ["Snapshot schema_version is required"]))
  let key ← raise version.hash
  raise (ensure (key ∈ supportedSnapshotSchemaVersions)
    (.valueError ["Unsupported snapshot schema_version: ", .value version, "; supported: [1, 2]"]))
  let migrated ←
    if version.eq (.int 1) then migrateSnapshotV1ToV2 snapshot else pure snapshot
  let current ← reads depth (fun s => .ok (s.field "schema_version")) migrated
  raise (ensure (current.eq (.int 2))
    (.valueError ["Unsupported snapshot schema_version: ", .value version]))
  let copy ← Heap.dictOf migrated
  return .ref copy

/-! ## Records

A copy of the record before its score is written over. -/

def scoreVal : Option ScoreValue → Val
  | none => .null
  | some score => .object score

/-- An argument as a JSON value; a score, which is none, is left out. -/
def argumentValue (h : Heap ScoreValue) : Val → Except PyErr Json
  | .object _ => .ok .null
  | v => h.load (depth + 1) v

/-- The keyword arguments of `Cls(**d)`, as they stand in the dict and as JSON values. -/
def argumentsOf (d : Nat) : SnapshotM (Dict HKey Val × Dict HKey Json) :=
  readState fun h => do
    let arguments ← h.entriesOf (.ref d)
    let fields ← arguments.entries.mapM fun p => do
      let j ← argumentValue depth h p.2
      return (p.1, j)
    return (arguments, .ofFields fields)

/-- The argument bound to a scored field. -/
def scoreArgument (arguments : Dict HKey Val) (name : String) : Option ScoreValue :=
  match arguments.get? (.str name) with
  | some (.object score) => some score
  | _ => none

/-- `d = dict(d)`, `d[name] = _sv_from_dict(d[name])`, and the arguments `d` then makes. -/
def copyWithScore (name : String) (d : Val) : SnapshotM (Dict HKey Val × Dict HKey Json) := do
  let d ← Heap.dictOf d
  let score ← reads depth svFromDict (← getItem (.ref d) name)
  Heap.setItem d name (scoreVal score)
  argumentsOf depth d

/-- The score goes into a copy of the record. -/
def claimFromDict (d : Val) : SnapshotM Claim := do
  let (arguments, d) ← copyWithScore depth "base_confidence" d
  raise (bindArguments "Claim" ["id", "subject_id", "type", "status", "created_by_rule",
    "created_by_rule_version", "reason_code", "base_confidence"] ["flags"] d)
  let id ← raise (intId (argument d "id" .null))
  return {
    id
    subjectId := argument d "subject_id" .null
    type := argument d "type" .null
    status := argument d "status" .null
    createdByRule := argument d "created_by_rule" .null
    createdByRuleVersion := argument d "created_by_rule_version" .null
    reasonCode := argument d "reason_code" .null
    baseConfidence := scoreArgument arguments "base_confidence"
    flags := argument d "flags" (.int 0) }

def evidenceFromDict (d : Val) : SnapshotM Evidence := do
  let (arguments, d) ← copyWithScore depth "strength" d
  raise (bindArguments "Evidence" ["id", "claim_id", "raw_ref_id", "type", "strength"] [] d)
  let id ← raise (intId (argument d "id" .null))
  let claimId ← raise (intId (argument d "claim_id" .null))
  return {
    id
    claimId
    rawRefId := argument d "raw_ref_id" .null
    type := argument d "type" .null
    strength := scoreArgument arguments "strength" }

def gapFromDict (d : Val) : SnapshotM Gap := do
  let (arguments, d) ← copyWithScore depth "severity" d
  raise (bindArguments "Gap" ["id", "claim_id", "type", "required_evidence_type", "severity",
    "created_by_rule"] [] d)
  let id ← raise (intId (argument d "id" .null))
  return {
    id
    claimId := argument d "claim_id" .null
    type := argument d "type" .null
    requiredEvidenceType := argument d "required_evidence_type" .null
    severity := scoreArgument arguments "severity"
    createdByRule := argument d "created_by_rule" .null }

def ruleDefFromDict (d : Val) : SnapshotM RuleDefinition := do
  let (arguments, d) ← copyWithScore depth "prior_confidence" d
  raise (bindArguments "RuleDefinition" ["id", "version", "maturity", "prior_confidence"] [] d)
  return {
    id := argument d "id" .null
    version := argument d "version" .null
    maturity := argument d "maturity" .null
    priorConfidence := scoreArgument arguments "prior_confidence" }

/-- `d.get(name)` of the copy. -/
def getArgument (d : Nat) (name : String) : SnapshotM Val :=
  readState fun h => do
    let arguments ← h.entriesOf (.ref d)
    return arguments.getD (.str name) .null

/-- `_rule_stats_from_dict` writes two scores, absent ones too. -/
def ruleStatsFromDict (d : Val) : SnapshotM RuleStats := do
  let d ← Heap.dictOf d
  let observedPrecision ← reads depth svFromDict (← getArgument d "observed_precision")
  Heap.setItem d "observed_precision" (scoreVal observedPrecision)
  let falsePositiveRate ← reads depth svFromDict (← getArgument d "false_positive_rate")
  Heap.setItem d "false_positive_rate" (scoreVal falsePositiveRate)
  let (arguments, d) ← argumentsOf depth d
  raise (bindArguments "RuleStats" ["rule_id", "rule_version"] ["firing_count",
    "confirmed_true_count", "confirmed_false_count", "observed_precision",
    "false_positive_rate"] d)
  return {
    ruleId := argument d "rule_id" .null
    ruleVersion := argument d "rule_version" .null
    firingCount := argument d "firing_count" (.int 0)
    confirmedTrueCount := argument d "confirmed_true_count" (.int 0)
    confirmedFalseCount := argument d "confirmed_false_count" (.int 0)
    observedPrecision := scoreArgument arguments "observed_precision"
    falsePositiveRate := scoreArgument arguments "false_positive_rate" }

/-! ## Stores

The comprehensions, on values of the heap. -/

/-- The comprehension over the entries. -/
def restoreDict {κ α : Type} [DecidableEq κ] (readKey : Json → Option κ)
    (readValue : Val → SnapshotM α) (collection : Val) : SnapshotM (Dict κ α) := do
  let items ← iterate collection
  let pairs ← items.mapM fun item => do
    let key ← getItem item "key"
    let k ← reads depth (fun key => require (readKey key)
      (.typeError [s!"not a key: {key.typeName}"])) key
    let value ← getItem item "value"
    let a ← readValue value
    return (k, a)
  return Dict.ofList pairs

def restoreDictInt {α : Type} (fromDict : Val → SnapshotM α) (items : Val) :
    SnapshotM (Dict Int α) :=
  restoreDict depth Json.exactInt? fromDict items

def restoreDictTuple {α : Type} (fromDict : Val → SnapshotM α) (items : Val) :
    SnapshotM (Dict (Int × Int) α) :=
  restoreDict depth pairKey fromDict items

def restoreDictTuple4Int (items : Val) : SnapshotM (Dict DedupKey Int) :=
  restoreDict depth tuple4Key (reads depth intId) items

def restoreDictIntSet (items : Val) : SnapshotM (Dict Int (Finset Int)) :=
  restoreDictInt depth (reads depth idBucket) items

def restoreDictIntInt (items : Val) : SnapshotM (Dict Int Int) :=
  restoreDictInt depth (reads depth intId) items

def restoreDictIntListDataclass {α : Type} (fromDict : Val → SnapshotM α) (items : Val) :
    SnapshotM (Dict Int (List α)) :=
  restoreDictInt depth (fun value => do
    let records ← iterate value
    records.mapM fromDict) items

/-! ## The restore

As in the source, with every copy it makes. -/

/-- The body of the `try` block. -/
def decodeStores (snapshot : Val) : SnapshotM DecodedEngineState := do
  reads depth requireStatuses snapshot
  let nextId ← reads depth (fun s => nextIdOf (s.field "next_id")) snapshot
  let lifecycleSeq ← reads depth (fun s =>
    .ok (if s.has "lifecycle_seq" then s.field "lifecycle_seq" else .int 0)) snapshot
  let entities ← restoreDictInt depth (reads depth entityFromDict) (← getItem snapshot "entities")
  let observations ←
    restoreDictInt depth (reads depth observationFromDict) (← getItem snapshot "observations")
  let claims ← restoreDictInt depth (claimFromDict depth) (← getItem snapshot "claims")
  let evidences ← restoreDictInt depth (evidenceFromDict depth) (← getItem snapshot "evidences")
  let relations ←
    restoreDictInt depth (reads depth relationFromDict) (← getItem snapshot "relations")
  let gaps ← restoreDictInt depth (gapFromDict depth) (← getItem snapshot "gaps")
  let ruleDefinitions ←
    restoreDictTuple depth (ruleDefFromDict depth) (← getItem snapshot "rule_definitions")
  let ruleStats ←
    restoreDictTuple depth (ruleStatsFromDict depth) (← getItem snapshot "rule_stats")
  let gapDedupIndex ← restoreDictTuple4Int depth (← getItem snapshot "gap_dedup_index")
  let claimGapRefs ← restoreDictIntSet depth (← getItem snapshot "claim_gap_refs")
  let gapResolutions ← restoreDictIntInt depth (← getItem snapshot "gap_resolutions")
  let contradictions ← restoreDictIntSet depth (← getItem snapshot "contradictions")
  let resolvedContradictions ←
    restoreDictIntSet depth (← getItem snapshot "resolved_contradictions")
  let claimLifecycleEvents ← restoreDictIntListDataclass depth (reads depth eventFromDict)
    (← getItem snapshot "claim_lifecycle_events")
  let hintEvidenceTypes ← reads depth Json.setOf (← getItem snapshot "hint_evidence_types")
  return {
    nextId
    lifecycleSeq
    entities
    observations
    claims
    evidences
    relations
    gaps
    ruleDefinitions
    ruleStats
    gapDedupIndex
    claimGapRefs
    gapResolutions
    contradictions
    resolvedContradictions
    claimLifecycleEvents
    hintEvidenceTypes }

/-- `except KeyError as exc: raise ValueError(...)`; what was written stays written. -/
def keyErrorAsValueError {α : Type} (x : SnapshotM α) : SnapshotM α := fun h =>
  match x h with
  | .error ⟨.keyError, message⟩ h' =>
    .error (.valueError ("snapshot restore failed: missing required nested field " :: message)) h'
  | result => result

/-- Checks read the snapshot; only copies are written. -/
def validateAndDecodeSnapshot (snapshot : Val) : SnapshotM DecodedEngineState := do
  let isDict ← reads depth (fun s => .ok s.isDict) snapshot
  if isDict then
    let current ← migrateSnapshotToCurrent depth snapshot
    reads depth validateSnapshotRestoreIntegrity current
    keyErrorAsValueError (decodeStores depth current)
  else
    reads depth (fun s => .error (.typeError [s!"snapshot must be a dict, got {s.typeName}"]))
      snapshot

/-- `from_snapshot`. -/
def fromSnapshot (uuid : UuidHex) (snapshot : Val) : SnapshotM Engine := do
  let decoded ← validateAndDecodeSnapshot depth snapshot
  raise (decoded.claims.values.forM fun claim => validateClaimStatusAdmission claim.status)
  return (Engine.new uuid).install decoded

end OnHeap

end Snapshot

end Ragcore
