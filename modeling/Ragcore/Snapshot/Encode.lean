import Ragcore.Engine.State

/-!
# Ragcore — snapshot encoding

The encoding half of `ragcore/_engine/serialization.py`. Every store is written in ascending
key order and every set ascending, so equal states have one snapshot. Sorting is where encoding
can fail: hint evidence types and dedup subjects come from records that a restore does not type
check, and a mixed collection does not order.
-/

namespace Ragcore

namespace Snapshot

/-- The version that is written. -/
def currentSnapshotSchemaVersion : Int := 2

/-! ## Records, `dataclasses.asdict`

The fields of each dataclass under their names, in the order in which they are declared. -/

/-- `asdict` of an optional score. -/
def svToDict : Option ScoreValue → Json
  | none => .null
  | some score => .dict [("value", .float (.fin score.value))]

/-- One encoder for each dataclass. -/
def entityAsdict (r : Entity) : Json :=
  .dict [("id", r.id), ("type", r.type), ("flags", r.flags)]

def observationAsdict (r : Observation) : Json :=
  .dict [("id", r.id), ("entity_id", r.entityId), ("raw_ref_id", r.rawRefId), ("type", r.type),
    ("source_type", r.sourceType)]

def claimAsdict (r : Claim) : Json :=
  .dict [("id", .int r.id), ("subject_id", r.subjectId), ("type", r.type), ("status", r.status),
    ("created_by_rule", r.createdByRule), ("created_by_rule_version", r.createdByRuleVersion),
    ("reason_code", r.reasonCode), ("base_confidence", svToDict r.baseConfidence),
    ("flags", r.flags)]

def evidenceAsdict (r : Evidence) : Json :=
  .dict [("id", .int r.id), ("claim_id", .int r.claimId), ("raw_ref_id", r.rawRefId),
    ("type", r.type), ("strength", svToDict r.strength)]

def relationAsdict (r : Relation) : Json :=
  .dict [("id", r.id), ("from_kind", r.fromKind), ("from_id", r.fromId), ("to_kind", r.toKind),
    ("to_id", r.toId), ("type", r.type), ("rule_id", r.ruleId), ("reason_code", r.reasonCode)]

def gapAsdict (r : Gap) : Json :=
  .dict [("id", .int r.id), ("claim_id", r.claimId), ("type", r.type),
    ("required_evidence_type", r.requiredEvidenceType), ("severity", svToDict r.severity),
    ("created_by_rule", r.createdByRule)]

def ruleDefAsdict (r : RuleDefinition) : Json :=
  .dict [("id", r.id), ("version", r.version), ("maturity", r.maturity),
    ("prior_confidence", svToDict r.priorConfidence)]

def ruleStatsAsdict (r : RuleStats) : Json :=
  .dict [("rule_id", r.ruleId), ("rule_version", r.ruleVersion),
    ("firing_count", r.firingCount), ("confirmed_true_count", r.confirmedTrueCount),
    ("confirmed_false_count", r.confirmedFalseCount),
    ("observed_precision", svToDict r.observedPrecision),
    ("false_positive_rate", svToDict r.falsePositiveRate)]

def eventAsdict (r : ClaimLifecycleEvent) : Json :=
  .dict [("seq", r.seq), ("claim_id", r.claimId), ("from_status", r.fromStatus),
    ("to_status", r.toStatus), ("transition", r.transition)]

/-! ## Stores

A store is a list of entries with a key and a value, sorted by the key, since JSON has no keys but
texts. -/

/-- A `{"key": ..., "value": ...}` entry. -/
def entry (key value : Json) : Json := .dict [("key", key), ("value", value)]

/-- The list of entries of an int-keyed store, by ascending key. -/
def serializeDictInt {ν : Type} (value : ν → Json) (d : Dict Int ν) : Json :=
  .list ((d.sortedBy id).map fun p => entry (.int p.1) (value p.2))

def serializeDictIntDataclass {ν : Type} (asdict : ν → Json) (d : Dict Int ν) : Json :=
  serializeDictInt asdict d

/-- The set of a bucket is sorted as well. -/
def serializeDictIntSet (d : Dict Int (Finset Int)) : Json :=
  serializeDictInt (fun ids => .list ((sortSet (· ≤ ·) ids).map .int)) d

def serializeDictIntInt (d : Dict Int Int) : Json := serializeDictInt .int d

/-- A log keeps the order of its events. -/
def serializeDictIntListDataclass {ν : Type} (asdict : ν → Json) (d : Dict Int (List ν)) : Json :=
  serializeDictInt (fun records => .list (records.map asdict)) d

/-- The order of Python's tuples. -/
def pairRank (k : Int × Int) : Int ×ₗ Int := toLex k

def serializeDictTupleDataclass {ν : Type} (asdict : ν → Json) (d : Dict (Int × Int) ν) : Json :=
  .list ((d.sortedBy pairRank).map fun p =>
    entry (.list [.int p.1.1, .int p.1.2]) (asdict p.2))

/-- The subject of a dedup key may be any value that is a key, so it comes in the order of those. -/
def dedupRank (k : DedupKey) : HKey ×ₗ Int ×ₗ Int ×ₗ Int :=
  toLex (k.1, toLex (k.2.1, toLex (k.2.2.1, k.2.2.2)))

/-- The tuple as a list. -/
def dedupKeyAsList (k : DedupKey) : Json :=
  .list [k.1.toJson, .int k.2.1, .int k.2.2.1, .int k.2.2.2]

/-- Two keys that differ in the subject are ordered by it. -/
def dedupComparable (k k' : DedupKey) : Bool := k.1 = k'.1 || HKey.comparable k.1 k'.1

/-- Sorting compares keys, which raises where they are no numbers alike. -/
def serializeDictTuple4Int (d : Dict DedupKey Int) : Except PyErr Json :=
  if ∀ k ∈ d.keys, ∀ k' ∈ d.keys, dedupComparable k k' = true then
    .ok (.list ((d.sortedBy dedupRank).map fun p => entry (dedupKeyAsList p.1) (.int p.2)))
  else .error (.typeError ["'<' not supported between the subjects"])

/-- The version, the counters and the stores, under the names of the format. -/
def encodeSnapshot (state : DecodedEngineState) : Except PyErr Json := do
  let gapDedupIndex ← serializeDictTuple4Int state.gapDedupIndex
  let hintEvidenceTypes ← sortKeys state.hintEvidenceTypes
  return .dict [
    ("schema_version", .int currentSnapshotSchemaVersion),
    ("next_id", .dict (state.nextId.sortedBy id)),
    ("lifecycle_seq", state.lifecycleSeq),
    ("entities", serializeDictIntDataclass entityAsdict state.entities),
    ("observations", serializeDictIntDataclass observationAsdict state.observations),
    ("claims", serializeDictIntDataclass claimAsdict state.claims),
    ("evidences", serializeDictIntDataclass evidenceAsdict state.evidences),
    ("relations", serializeDictIntDataclass relationAsdict state.relations),
    ("gaps", serializeDictIntDataclass gapAsdict state.gaps),
    ("rule_definitions", serializeDictTupleDataclass ruleDefAsdict state.ruleDefinitions),
    ("rule_stats", serializeDictTupleDataclass ruleStatsAsdict state.ruleStats),
    ("gap_dedup_index", gapDedupIndex),
    ("claim_gap_refs", serializeDictIntSet state.claimGapRefs),
    ("gap_resolutions", serializeDictIntInt state.gapResolutions),
    ("contradictions", serializeDictIntSet state.contradictions),
    ("resolved_contradictions", serializeDictIntSet state.resolvedContradictions),
    ("claim_lifecycle_events",
      serializeDictIntListDataclass eventAsdict state.claimLifecycleEvents),
    ("hint_evidence_types", .list (hintEvidenceTypes.map HKey.toJson))]

end Snapshot

namespace Engine

/-- `_state_view`. -/
def stateView (e : Engine) : DecodedEngineState := e.toDecodedEngineState

/-- The snapshot of what an engine stores. -/
def toSnapshot (e : Engine) : Except PyErr Json := Snapshot.encodeSnapshot e.stateView

end Engine

/-! ## Encoding sees a state only up to dict equality

The stores are sorted before they are written, so the order of insertion does not reach the
snapshot. -/

/-- `==` of the seventeen stores. -/
structure DecodedEngineState.Equiv (s s' : DecodedEngineState) : Prop where
  nextId : s.nextId.Equiv s'.nextId
  lifecycleSeq : s.lifecycleSeq = s'.lifecycleSeq
  entities : s.entities.Equiv s'.entities
  observations : s.observations.Equiv s'.observations
  claims : s.claims.Equiv s'.claims
  evidences : s.evidences.Equiv s'.evidences
  relations : s.relations.Equiv s'.relations
  gaps : s.gaps.Equiv s'.gaps
  ruleDefinitions : s.ruleDefinitions.Equiv s'.ruleDefinitions
  ruleStats : s.ruleStats.Equiv s'.ruleStats
  gapDedupIndex : s.gapDedupIndex.Equiv s'.gapDedupIndex
  claimGapRefs : s.claimGapRefs.Equiv s'.claimGapRefs
  gapResolutions : s.gapResolutions.Equiv s'.gapResolutions
  contradictions : s.contradictions.Equiv s'.contradictions
  resolvedContradictions : s.resolvedContradictions.Equiv s'.resolvedContradictions
  claimLifecycleEvents : s.claimLifecycleEvents.Equiv s'.claimLifecycleEvents
  hintEvidenceTypes : s.hintEvidenceTypes = s'.hintEvidenceTypes

/-- Equality as maps, store by store. -/
theorem DecodedEngineState.Equiv.refl (s : DecodedEngineState) : s.Equiv s := by
  constructor <;> first | rfl | exact Dict.Equiv.refl _

theorem DecodedEngineState.Equiv.trans {a b c : DecodedEngineState} (h : a.Equiv b)
    (h' : b.Equiv c) : a.Equiv c :=
  ⟨h.nextId.trans h'.nextId, h.lifecycleSeq.trans h'.lifecycleSeq, h.entities.trans h'.entities,
    h.observations.trans h'.observations, h.claims.trans h'.claims,
    h.evidences.trans h'.evidences, h.relations.trans h'.relations, h.gaps.trans h'.gaps,
    h.ruleDefinitions.trans h'.ruleDefinitions, h.ruleStats.trans h'.ruleStats,
    h.gapDedupIndex.trans h'.gapDedupIndex, h.claimGapRefs.trans h'.claimGapRefs,
    h.gapResolutions.trans h'.gapResolutions, h.contradictions.trans h'.contradictions,
    h.resolvedContradictions.trans h'.resolvedContradictions,
    h.claimLifecycleEvents.trans h'.claimLifecycleEvents,
    h.hintEvidenceTypes.trans h'.hintEvidenceTypes⟩

theorem DecodedEngineState.Equiv.symm {s s' : DecodedEngineState} (h : s.Equiv s') :
    s'.Equiv s :=
  ⟨h.nextId.symm, h.lifecycleSeq.symm, h.entities.symm, h.observations.symm, h.claims.symm,
    h.evidences.symm, h.relations.symm, h.gaps.symm, h.ruleDefinitions.symm, h.ruleStats.symm,
    h.gapDedupIndex.symm, h.claimGapRefs.symm, h.gapResolutions.symm, h.contradictions.symm,
    h.resolvedContradictions.symm, h.claimLifecycleEvents.symm, h.hintEvidenceTypes.symm⟩

namespace Snapshot

/-- No two keys share a rank, so the sorting leaves nothing open. -/
theorem pairRank_injective : Function.Injective pairRank := toLex.injective

theorem dedupRank_injective : Function.Injective dedupRank := by
  rintro ⟨a, b, c, d⟩ ⟨a', b', c', d'⟩ h
  simp only [dedupRank, toLex_inj, Prod.mk.injEq] at h
  obtain ⟨rfl, rfl, rfl, rfl⟩ := h
  rfl

/-- The refusal depends on the set of keys alone. -/
theorem serializeDictTuple4Int_congr {d d' : Dict DedupKey Int} (h : d.Equiv d') :
    serializeDictTuple4Int d = serializeDictTuple4Int d' := by
  have hkeys : ∀ k, k ∈ d.keys ↔ k ∈ d'.keys := by
    intro k
    rw [Dict.mem_keys_iff, Dict.mem_keys_iff, h.contains k]
  simp only [serializeDictTuple4Int, hkeys, Dict.sortedBy_congr dedupRank_injective h]

/-- **Equal states have one snapshot.** -/
theorem encodeSnapshot_congr {s s' : DecodedEngineState} (h : s.Equiv s') :
    encodeSnapshot s = encodeSnapshot s' := by
  have hid : Function.Injective (id : Int → Int) := Function.injective_id
  simp only [encodeSnapshot, serializeDictIntDataclass, serializeDictIntSet, serializeDictIntInt,
    serializeDictIntListDataclass, serializeDictTupleDataclass, serializeDictInt,
    serializeDictTuple4Int_congr h.gapDedupIndex, h.lifecycleSeq, h.hintEvidenceTypes,
    Dict.sortedBy_congr (Function.injective_id (α := String)) h.nextId,
    Dict.sortedBy_congr hid h.entities, Dict.sortedBy_congr hid h.observations,
    Dict.sortedBy_congr hid h.claims, Dict.sortedBy_congr hid h.evidences,
    Dict.sortedBy_congr hid h.relations, Dict.sortedBy_congr hid h.gaps,
    Dict.sortedBy_congr pairRank_injective h.ruleDefinitions,
    Dict.sortedBy_congr pairRank_injective h.ruleStats,
    Dict.sortedBy_congr hid h.claimGapRefs, Dict.sortedBy_congr hid h.gapResolutions,
    Dict.sortedBy_congr hid h.contradictions, Dict.sortedBy_congr hid h.resolvedContradictions,
    Dict.sortedBy_congr hid h.claimLifecycleEvents]

end Snapshot

end Ragcore
