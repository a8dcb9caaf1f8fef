import Ragcore.Lib.Json

/-!
# Ragcore — the records of the engine

`ragcore/types.py`. The dataclasses annotate their fields `int`, `str` or `ScoreValue` and
check none of it, so a record restored from a snapshot may hold any value the decoder let
through: such a field is a `Json`. Two kinds of field are tighter.

* A `ScoreValue` has passed `__post_init__`, so its range is part of the type. The number
  behind it (int, bool or float) is kept as the rational it denotes.
* The `id` of a claim, evidence or gap and the `claim_id` of an evidence are compared with
  exact-int dict keys before they are stored, so they are the int they equal.
-/

namespace Ragcore

/-! ## Constants

The kinds and the statuses, with the numbers of the source. -/

/-- The kinds of records, as relations name them. -/
def kindEntity : Int := 1
def kindObservation : Int := 2
def kindClaim : Int := 3
def kindEvidence : Int := 4
def kindRelation : Int := 5
def kindGap : Int := 6

/-- The statuses of a claim, as they stand in its record. -/
def claimStatusCandidate : Json := .int 0
def claimStatusConfirmed : Json := .int 1
def claimStatusRefuted : Json := .int 2
def claimStatusDisputed : Json := .int 3

/-! ## Scores

A score carries the proof that it is in the unit interval, so no score out of range can be built.
-/

/-- `ScoreValue`. -/
@[ext]
structure ScoreValue where
  value : ℚ
  nonneg : 0 ≤ value
  le_one : value ≤ 1
  deriving DecidableEq, Repr

/-- `ScoreValue(value)`: `0.0 <= value <= 1.0` or no object. -/
def ScoreValue.new (value : Json) : Except PyErr ScoreValue :=
  match value.number? with
  | none =>
    .error (.typeError
      [s!"'<=' not supported between instances of 'float' and '{value.typeName}'"])
  | some (.fin q) =>
    if h : 0 ≤ q ∧ q ≤ 1 then .ok ⟨q, h.1, h.2⟩
    else .error (.valueError ["score must be in [0.0, 1.0], got ", .value value])
  | some _ => .error (.valueError ["score must be in [0.0, 1.0], got ", .value value])

/-- A score is admitted again as itself. -/
@[simp] theorem ScoreValue.new_value (s : ScoreValue) :
    ScoreValue.new (.float (.fin s.value)) = .ok s := by
  simp [ScoreValue.new, Json.number?, s.nonneg, s.le_one]

/-- The constructor accepts a number of the unit interval as it is. -/
theorem ScoreValue.new_ok_iff {v : Json} {s : ScoreValue} :
    ScoreValue.new v = .ok s ↔ v.number? = some (.fin s.value) := by
  unfold ScoreValue.new
  constructor
  · intro h
    split at h
    · cases h
    · rename_i q hq
      split at h
      · cases h
        exact hq
      · cases h
    · cases h
  · intro h
    rw [h]
    simp [s.nonneg, s.le_one]

/-! ## Records

The dataclasses. A field that the restore takes unchecked from a snapshot is a JSON value. -/

/-- The record of an entity. -/
structure Entity where
  id : Json
  type : Json
  flags : Json
  deriving Repr

structure Observation where
  id : Json
  entityId : Json
  rawRefId : Json
  type : Json
  sourceType : Json
  deriving Repr

/-- The record of a claim; its status is what the last transition wrote. -/
structure Claim where
  id : Int
  subjectId : Json
  type : Json
  status : Json
  createdByRule : Json
  createdByRuleVersion : Json
  reasonCode : Json
  baseConfidence : Option ScoreValue
  flags : Json
  deriving Repr

/-- The record of an evidence, filed under one claim. -/
structure Evidence where
  id : Int
  claimId : Int
  rawRefId : Json
  type : Json
  strength : Option ScoreValue
  deriving Repr

structure Relation where
  id : Json
  fromKind : Json
  fromId : Json
  toKind : Json
  toId : Json
  type : Json
  ruleId : Json
  reasonCode : Json
  deriving Repr

/-- What a claim lacks, and which type of evidence would close it. -/
structure Gap where
  id : Int
  claimId : Json
  type : Json
  requiredEvidenceType : Json
  severity : Option ScoreValue
  createdByRule : Json
  deriving Repr

/-- One version of a rule. -/
structure RuleDefinition where
  id : Json
  version : Json
  maturity : Json
  priorConfidence : Option ScoreValue
  deriving Repr

/-- What was counted for that version. -/
structure RuleStats where
  ruleId : Json
  ruleVersion : Json
  firingCount : Json
  confirmedTrueCount : Json
  confirmedFalseCount : Json
  observedPrecision : Option ScoreValue
  falsePositiveRate : Option ScoreValue
  deriving Repr

/-- Dataclass `==`: the fields compared as in a tuple. -/
def RuleStats.eq (a b : RuleStats) : Bool :=
  a.ruleId.same b.ruleId && a.ruleVersion.same b.ruleVersion
    && a.firingCount.same b.firingCount
    && a.confirmedTrueCount.same b.confirmedTrueCount
    && a.confirmedFalseCount.same b.confirmedFalseCount
    && a.observedPrecision == b.observedPrecision
    && a.falsePositiveRate == b.falsePositiveRate

/-- One transition of a claim. -/
structure ClaimLifecycleEvent where
  seq : Json
  claimId : Json
  fromStatus : Json
  toStatus : Json
  transition : Json
  deriving Repr

/-- `uuid4().hex`; of its digits the engine needs only that there are some. -/
structure UuidHex where
  hex : String
  nonempty : hex ≠ ""

/-- The nil UUID. -/
instance : Inhabited UuidHex := ⟨⟨"00000000000000000000000000000000", by decide⟩⟩

/-- A lineage token with the number of completed mutations. -/
structure EngineStateIdentity where
  engineToken : String
  revision : Nat
  deriving DecidableEq, Repr

/-- `EngineStateIdentity(...)`; the type annotations leave the empty token to reject. -/
def EngineStateIdentity.new (engineToken : String) (revision : Nat) :
    Except PyErr EngineStateIdentity :=
  if engineToken = "" then .error (.valueError ["engine_token must be non-empty"])
  else .ok ⟨engineToken, revision⟩

@[simp] theorem EngineStateIdentity.new_uuid (uuid : UuidHex) (revision : Nat) :
    EngineStateIdentity.new uuid.hex revision = .ok ⟨uuid.hex, revision⟩ := by
  simp [EngineStateIdentity.new, uuid.nonempty]

end Ragcore
