import Ragcore.Lib.Dict
import Ragcore.Lib.Fallible
import Ragcore.Types

/-!
# Ragcore — engine state and the seams of its methods

`ragcore/engine.py`. The seventeen persisted stores are `DecodedEngineState`, the record the
snapshot codec reads and writes; an `Engine` adds the lineage token and the revision, which
no snapshot carries.

A method is an `EngineM` program: it may raise after it has written, and what it has written
by then stays, as in Python. A query is a function from the engine to `Except`.
-/

namespace Ragcore

/-- Subject, rule, gap type and required evidence type. The subject is read from a claim
record, so it is filed under its hash key. -/
abbrev DedupKey := HKey × Int × Int × Int

/-- The stores, as a snapshot holds them. -/
structure DecodedEngineState where
  nextId : Dict String Json
  lifecycleSeq : Json
  entities : Dict Int Entity
  observations : Dict Int Observation
  claims : Dict Int Claim
  evidences : Dict Int Evidence
  relations : Dict Int Relation
  gaps : Dict Int Gap
  ruleDefinitions : Dict (Int × Int) RuleDefinition
  ruleStats : Dict (Int × Int) RuleStats
  gapDedupIndex : Dict DedupKey Int
  claimGapRefs : Dict Int (Finset Int)
  gapResolutions : Dict Int Int
  contradictions : Dict Int (Finset Int)
  resolvedContradictions : Dict Int (Finset Int)
  claimLifecycleEvents : Dict Int (List ClaimLifecycleEvent)
  hintEvidenceTypes : Finset HKey

/-- The stores, and the identity of the engine they are in. -/
structure Engine extends DecodedEngineState where
  stateIdentityToken : UuidHex
  stateRevision : Nat

/-- A method: it may raise, and keeps what it wrote before it did. -/
abbrev EngineM := EStateM PyErr Engine

namespace Engine

/-- `Engine()`; `uuid` is the fresh token. -/
def new (uuid : UuidHex) : Engine where
  nextId := ∅
  lifecycleSeq := .int 0
  entities := ∅
  observations := ∅
  claims := ∅
  evidences := ∅
  relations := ∅
  gaps := ∅
  ruleDefinitions := ∅
  ruleStats := ∅
  gapDedupIndex := ∅
  claimGapRefs := ∅
  gapResolutions := ∅
  contradictions := ∅
  resolvedContradictions := ∅
  claimLifecycleEvents := ∅
  hintEvidenceTypes := ∅
  stateIdentityToken := uuid
  stateRevision := 0

/-- `self._next_id.get(kind, 0) + 1`. The restore validator admits nothing but built-in ints
for the six kinds, so the last branch is not reached. -/
def nextCounter (kind : String) (e : Engine) : Except PyErr Int :=
  match e.nextId.getD kind (.int 0) with
  | .int n => .ok (n + 1)
  | .bool b => .ok ((if b then 1 else 0) + 1)
  | v => .error (.typeError [s!"unsupported operand type(s) for +: '{v.typeName}' and 'int'"])

/-- The next id of a kind; the counter moves to it. -/
def allocateId (kind : String) : EngineM Int := do
  let nextId ← readState (nextCounter kind)
  modify fun e => { e with nextId := e.nextId.insert kind (.int nextId) }
  return nextId

/-- A write that changed something ends with this. -/
def advanceStateRevision : EngineM Unit :=
  modify fun e => { e with stateRevision := e.stateRevision + 1 }

/-- Token and revision. -/
def stateIdentity (e : Engine) : Except PyErr EngineStateIdentity :=
  EngineStateIdentity.new e.stateIdentityToken.hex e.stateRevision

/-! ## Existence checks

`_assert_*_exists` of the source, one for each kind. -/

/-- `target_id in self._storage_for_kind(kind)`. -/
def idExists (kind targetId : Int) (e : Engine) : Except PyErr Bool :=
  if kind = kindEntity then .ok (e.entities.contains targetId)
  else if kind = kindObservation then .ok (e.observations.contains targetId)
  else if kind = kindClaim then .ok (e.claims.contains targetId)
  else if kind = kindEvidence then .ok (e.evidences.contains targetId)
  else if kind = kindRelation then .ok (e.relations.contains targetId)
  else if kind = kindGap then .ok (e.gaps.contains targetId)
  else .error (.valueError [s!"unknown kind: {kind}"])

/-- Raise `KeyError` unless the record is there. -/
def assertExists (present : Bool) (message : String) : Except PyErr Unit :=
  if present then .ok () else .error (.keyError [message])

def assertEntityExists (entityId : Int) (e : Engine) : Except PyErr Unit :=
  assertExists (e.entities.contains entityId) s!"unknown entity_id: {entityId}"

def assertClaimExists (claimId : Int) (e : Engine) : Except PyErr Unit :=
  assertExists (e.claims.contains claimId) s!"unknown claim_id: {claimId}"

def assertEvidenceExists (evidenceId : Int) (e : Engine) : Except PyErr Unit :=
  assertExists (e.evidences.contains evidenceId) s!"unknown evidence_id: {evidenceId}"

def assertGapExists (gapId : Int) (e : Engine) : Except PyErr Unit :=
  assertExists (e.gaps.contains gapId) s!"unknown gap_id: {gapId}"

def assertRulePairExists (ruleId ruleVersion : Int) (e : Engine) : Except PyErr Unit :=
  assertExists (e.ruleDefinitions.contains (ruleId, ruleVersion))
    s!"unknown rule: rule_id={ruleId}, version={ruleVersion}"

def assertRuleStatsPairExists (ruleId ruleVersion : Int) (e : Engine) : Except PyErr Unit :=
  assertExists (e.ruleStats.contains (ruleId, ruleVersion))
    s!"unknown rule: rule_id={ruleId}, version={ruleVersion}"

/-- `store[id]`. -/
def subscript {α : Type} (store : Dict Int α) (id : Int) : Except PyErr α :=
  match store.get? id with
  | some record => .ok record
  | none => .error (.keyError [.value (.int id)])

/-- A check passes exactly when the record is there. -/
theorem assertExists_ok_iff {present : Bool} {message : String} :
    assertExists present message = .ok () ↔ present = true := by
  simp [assertExists]

/-- `store[id]` finds the record or raises. -/
theorem subscript_ok_iff {α : Type} {store : Dict Int α} {id : Int} {record : α} :
    subscript store id = .ok record ↔ store.get? id = some record := by
  unfold subscript
  split <;> simp_all

end Engine

end Ragcore
