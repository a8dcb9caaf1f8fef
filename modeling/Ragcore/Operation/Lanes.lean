import Ragcore.Inspector.ContextPacket
import Ragcore.Operation.Cycle
import Ragcore.Proposal.Validator

/-!
# Ragcore — the reference operation

`run_complete_domain_neutral_reference_operation` of
`complete_domain_neutral_reference_operation.py`. Three lanes run on one fresh engine: lane A puts
an entity, a claim and a gap in, lane B reads the claim and reviews a proposal about it, lane C
brings the result of an investigation back. Lanes A and C are three mutation cycles each, and the
first cycle that a gate stops ends the operation.

What other modules and the interpreter give the operation is a parameter, `Surroundings`. A copy
of a record is the record, and the entries of a dict that no code reads back are written out as
the source has them.

* **`laneA`**, **`laneB`**, **`laneC`** — the lanes.
* **`negativeProbes`**, **`finalState`** — what follows when no gate stopped a cycle.
* **`referenceOperation`** — the operation.
-/

namespace Ragcore

namespace Operation

open Inspector Proposal.Schema Proposal.Validator Role

/-! ## What the operation is given

The fixtures of the run and the parts that are not the repository's own: the tokens, the review, the
texts. -/

/-- All that a run depends on besides the code. -/
structure Surroundings where
  /-- `RESOLVED_TRANSLATION_TRACE`, of the adapter example. -/
  trace : PyValue
  /-- `RESOLVED_EXAMPLE`, of the role example. -/
  roleExample : PyValue
  folding : Folding
  lowering : Lowering
  /-- What the `n`-th call of `_explicit_review` does. -/
  review : Nat → Review
  /-- The token of the `n`-th `Engine()`. -/
  uuid : Nat → UuidHex

/-- A dict with string keys. -/
def dictOf (fields : List (String × PyValue)) : PyValue :=
  .dict (fields.map fun field => (.str field.1, field.2))

/-- The ids that the cycles of a lane returned. -/
structure ProducedIds where
  entityId : Option Int
  claimId : Option Int
  gapId : Option Int
  evidenceId : Option Int
  resolvedGapIds : Option (List Int)

/-- Before anything is added. -/
def ProducedIds.empty : ProducedIds := ⟨none, none, none, none, none⟩

/-- `produced_ids[name]`. -/
def producedId (name : String) : Option Int → Except PyErr Int
  | some n => .ok n
  | none => .error (.keyError [s!"'{name}'"])

/-- The call of a method with the keyword arguments of another. -/
def unexpectedArguments {α : Type} (method : String) : EngineM α :=
  throw (.typeError [s!"Engine.{method}() got an unexpected keyword argument"])

/-! ## Lane A

From the external material to an entity, a claim and a gap, each added in an explicit cycle of its
own. -/

/-- The type of evidence that the gap of this run asks for. -/
def gapRequiredEvidenceType : Int := 7

/-- The doubles that `0.8`, `0.5` and `0.6` denote. -/
def baseConfidenceLiteral : PyFloat := .fin (3602879701896397 / 4503599627370496)

/-- The literal `0.5`. -/
def severityLiteral : PyFloat := .fin (1 / 2)

/-- The double that the literal `0.6` stands for. -/
def strengthLiteral : PyFloat := .fin (5404319552844595 / 9007199254740992)

/-- The first proposal: an entity. -/
def proposeEntity (env : Surroundings) : Proposed where
  targetMethod := "add_entity"
  arguments := .addEntity 1 0
  -- past the role gate the outcome is the empty list
  sourceBasis := dictOf [
    ("originating_trace", env.trace),
    ("originating_role_example", env.roleExample),
    ("role_validation_outcome", .list [])]
  expectedEffect := "register a new Entity in this fresh Engine"
  policyAssumptions := ["local example policy; consumer-owned"]
  extraRecordFields := []

/-- `lambda a: engine.add_entity(**a)`. -/
def invokeAddEntity : Op → EngineM Int
  | .addEntity entityType flags => Engine.addEntity entityType flags
  | _ => unexpectedArguments "add_entity"

/-- The second: a claim about it. -/
def proposeClaim (env : Surroundings) (entityId : Int) : Proposed where
  targetMethod := "add_claim"
  arguments := .addClaim entityId 1 0 0 0 baseConfidenceLiteral 0 0
  sourceBasis := dictOf [
    ("previous_returned_entity_id", .int entityId),
    ("originating_role_example", env.roleExample)]
  expectedEffect := "register a new Claim about the new Entity"
  policyAssumptions := ["local example policy"]
  extraRecordFields := []

/-- `lambda a: engine.add_claim(**a)`. -/
def invokeAddClaim : Op → EngineM Int
  | .addClaim subjectId claimType ruleId ruleVersion reasonCode baseConfidence status flags =>
    Engine.addClaim subjectId claimType ruleId ruleVersion reasonCode baseConfidence status flags
  | _ => unexpectedArguments "add_claim"

/-- The third: a gap of that claim. -/
def proposeGap (claimId : Int) : Proposed where
  targetMethod := "add_gap"
  arguments := .addGap claimId 1 gapRequiredEvidenceType severityLiteral 0
  sourceBasis := dictOf [("previous_returned_claim_id", .int claimId)]
  expectedEffect := "register a new Gap referencing the Claim"
  policyAssumptions := ["local example policy"]
  extraRecordFields := []

/-- `lambda a: engine.add_gap(**a)`. -/
def invokeAddGap : Op → EngineM Int
  | .addGap claimId gapType requiredEvidenceType severity ruleId =>
    Engine.addGap claimId gapType requiredEvidenceType severity ruleId
  | _ => unexpectedArguments "add_gap"

/-- The record of lane A, complete or stopped at a gate. -/
structure LaneA where
  fixtureOriginForEngine : String
  consumedAdapterTrace : PyValue
  consumedRoleExample : PyValue
  bridgeDecision : PyValue
  roleValidationViolations : List Role.Violation
  explicitInvocationSequence : List CycleRecord
  producedIds : ProducedIds
  gapRequiredEvidenceType : Int
  stageStatus : String
  termination : Option Termination

/-- `lane`, before the role gate. -/
def openLaneA (env : Surroundings) : LaneA where
  fixtureOriginForEngine := "PRODUCED_BY_LANE_A"
  consumedAdapterTrace := env.trace
  consumedRoleExample := env.roleExample
  bridgeDecision := dictOf [
    ("status", .str "CONSUMER_DECISION"),
    ("consumer_decision", .str ("consumer chose to combine the adapter trace and the " ++
      "role example for this run; no automatic bridge")),
    ("automatic_adapter_to_role_conversion", .bool false)]
  roleValidationViolations := validateRoleAssignmentBoundaries env.folding env.roleExample
  explicitInvocationSequence := []
  producedIds := .empty
  gapRequiredEvidenceType := Operation.gapRequiredEvidenceType
  stageStatus := "CONNECTED"
  termination := none

/-- `invocations.append(record)`. -/
def LaneA.invoked (lane : LaneA) (record : CycleRecord) : LaneA :=
  { lane with explicitInvocationSequence := lane.explicitInvocationSequence ++ [record] }

/-- The roles are validated first; then the three cycles, each on the ids of the one before. -/
def laneA (env : Surroundings) : DeskM LaneA := do
  let lane := openLaneA env
  let roleViolations := lane.roleValidationViolations
  if roleViolations ≠ [] then
    return { lane with termination := some (termination "lane_a.role_validation"
      (.roleValidationViolations roleViolations)) }
  let (record, outcome) ← runCycle (env.review 0) (proposeEntity env) invokeAddEntity
    (returning "returned_id" .id)
  let lane := lane.invoked record
  match outcome with
  | .terminated stop => return { lane with termination := some stop }
  | .ok entityId =>
    let lane := { lane with producedIds := { lane.producedIds with entityId := some entityId } }
    let (record, outcome) ← runCycle (env.review 1) (proposeClaim env entityId) invokeAddClaim
      (returning "returned_id" .id)
    let lane := lane.invoked record
    match outcome with
    | .terminated stop => return { lane with termination := some stop }
    | .ok claimId =>
      let lane := { lane with producedIds := { lane.producedIds with claimId := some claimId } }
      let (record, outcome) ← runCycle (env.review 2) (proposeGap claimId) invokeAddGap
        (returning "returned_id" .id)
      let lane := lane.invoked record
      match outcome with
      | .terminated stop => return { lane with termination := some stop }
      | .ok gapId =>
        let lane := { lane with producedIds := { lane.producedIds with gapId := some gapId } }
        return { lane with stageStatus := "COMPLETED" }

/-! ## Lane B

A read: the engine is asked for a packet and a proposal is drawn up from it. Nothing is written. -/

/-- The confidence trace, as the report holds it. -/
structure TraceBlock where
  effectiveConfidence : ℚ
  legacyEffectiveConfidence : ℚ
  calculationPolicyId : String
  sourceStateIdentity : IdentityDict
  identityBeforeTrace : IdentityDict
  identityAfterTrace : IdentityDict
  traceEffectiveEqualsLegacy : Bool
  sourceIdentityEqualsEngineState : Bool
  identityBeforeTraceEqualToSource : Bool
  identityAfterTraceEqualToSource : Bool
  identityBeforeEqualsIdentityAfter : Bool
  traceIdentityRevision : Nat

/-- The proposal with the result of its validation. -/
structure ProposalBlock where
  proposalContentSnapshot : PyValue
  pr55ShapeViolations : List Proposal.Violation
  pr56SafetyViolations : List Proposal.Violation
  networkInvocation : Bool
  llmInvocation : Bool
  operatorDisposition : String
  dispositionRelation : String
  dispositionIsSiblingOfAccept : Bool
  proposalFamilyDispositions : String

/-- The record of lane B. -/
structure LaneB where
  pr51Packet : ContextPacket
  packetBindingStatus : String
  packetComparisonStatus : String
  pr53PacketValidatorViolations : List (FId × String)
  consumerOutput : PyValue
  effectiveConfidenceTrace : TraceBlock
  proposal : ProposalBlock
  stageStatus : String

/-- `trace_block`. -/
def traceBlock (e : Engine) (claimId : Int) : Except PyErr TraceBlock := do
  let identityBeforeTrace ← e.stateIdentity
  let trace ← e.computeEffectiveConfidenceWithTrace claimId
  let identityAfterTrace ← e.stateIdentity
  let legacyEffective ← e.computeEffectiveConfidence claimId
  return {
    effectiveConfidence := trace.effectiveConfidence.value
    legacyEffectiveConfidence := legacyEffective.value
    calculationPolicyId := trace.calculationPolicyId
    sourceStateIdentity := identityDict trace.sourceStateIdentity
    identityBeforeTrace := identityDict identityBeforeTrace
    identityAfterTrace := identityDict identityAfterTrace
    traceEffectiveEqualsLegacy :=
      decide (trace.effectiveConfidence.value = legacyEffective.value)
    sourceIdentityEqualsEngineState :=
      decide (identityDict trace.sourceStateIdentity = identityDict identityBeforeTrace)
    identityBeforeTraceEqualToSource :=
      decide (identityDict trace.sourceStateIdentity = identityDict identityBeforeTrace)
    identityAfterTraceEqualToSource :=
      decide (identityDict trace.sourceStateIdentity = identityDict identityAfterTrace)
    identityBeforeEqualsIdentityAfter :=
      decide (identityDict identityBeforeTrace = identityDict identityAfterTrace)
    traceIdentityRevision := trace.sourceStateIdentity.revision }

/-- `consumer_output`. -/
def consumerOutput : PyValue := dictOf [("consumer_interpretation_kind", .str "neutral_summary")]

/-- `proposal`. -/
def gapProposal (claimId : Int) : PyValue := dictOf [
  ("category", .str "evidence_gap_question"),
  ("target_claim_id", .int claimId),
  ("note", .str "consumer-side observation about the unresolved Gap")]

/-- `proposal_block`. -/
def proposalBlock (env : Surroundings) (claimId : Int) (packet : ContextPacket) : ProposalBlock :=
  let proposal := gapProposal claimId
  { proposalContentSnapshot := proposal
    pr55ShapeViolations := validateLlmProposalShape env.lowering proposal packet.asDict
    pr56SafetyViolations := validateProposalSafety env.lowering proposal packet.asDict
    networkInvocation := false
    llmInvocation := false
    operatorDisposition := "schedule-manual-inspection"
    dispositionRelation := "sibling_of_accept"
    dispositionIsSiblingOfAccept := true
    proposalFamilyDispositions :=
      "accept / reject / rewrite / request-evidence / schedule-manual-inspection / archive / " ++
        "cite (seven sibling outcomes per M05 §4.1)" }

/-- The packet is built and validated before the proposal is. -/
def laneB (env : Surroundings) (claimId : Int) (e : Engine) : Except PyErr LaneB := do
  let packet ← buildEngineContextPacket e claimId
  let effectiveConfidenceTrace ← traceBlock e claimId
  let packetViolations ←
    validateConsumerPacketInterpretation env.lowering consumerOutput packet.asDict
  return {
    pr51Packet := packet
    packetBindingStatus := "UNBOUND"
    packetComparisonStatus := "UNKNOWN"
    pr53PacketValidatorViolations := packetViolations
    consumerOutput := Operation.consumerOutput
    effectiveConfidenceTrace
    proposal := proposalBlock env claimId packet
    stageStatus := "COMPLETED" }

/-! ## Lane C

The result that comes back: evidence for the claim, the gaps it closes, and the confirmation, each
under review. -/

/-- `result_fragment`. -/
def resultFragment : PyValue := dictOf [
  ("observation_kind", .str "neutral"),
  ("observation_index", .int 1),
  ("observation_value", .str "consumer-recorded fact")]

/-- The result as it comes in. -/
def downstreamSourceFixture : PyValue := dictOf [
  ("source_artifact_kind", .str "local_consumer_inspection_record"),
  ("source_artifact_reference", .str "local-inspection-001"),
  ("raw_observations", .list [resultFragment]),
  ("consumer_recorded_severity_label", .str "moderate"),
  ("consumer_recorded_confidence_label", .str "medium")]

/-- What the adapter makes of it. -/
def resultTrace : PyValue := dictOf [
  ("record_kind", .str "downstream_result_trace"),
  ("source_artifact_reference", .str "local-inspection-001"),
  ("result_fragment", resultFragment),
  ("translation_basis", dictOf [
    ("consumer_translation_kind", .str "neutral mapping under local example policy"),
    ("notes", .str "no automatic adapter to role conversion")]),
  ("integrity_note", .str ("operational failure and semantic ambiguity are recorded " ++
    "as distinct conditions (M06 §7); this fixture is fully resolved")),
  ("interpretation_status", .str "RESOLVED"),
  ("is_ragcore_evidence", .bool false)]

/-- The role under which the consumer takes it. -/
def consumerRoleDecision : PyValue := dictOf [
  ("consumer_decision", .str "consumer assigned a local supporting role to the fragment"),
  ("automatic_key_match_used", .bool false)]

/-- `ev_source_basis`. -/
def evidenceSourceBasis : PyValue := dictOf [
  ("result_trace_reference", .str "local-inspection-001"),
  ("result_fragment_snapshot", resultFragment),
  ("strength_translation", dictOf [
    ("input", .str "medium"),
    ("consumer_translation_rule", .str ("consumer-selected strength under local example policy " ++
      "(strength is NOT a direct copy of any external numeric score)")),
    ("selected_strength_value", .float strengthLiteral)]),
  ("consumer_role_decision", consumerRoleDecision)]

/-- Evidence for the claim, of the type the gap asks for. -/
def proposeEvidence (claimId evidenceType : Int) : Proposed where
  targetMethod := "add_evidence"
  arguments := .addEvidence claimId 1 evidenceType strengthLiteral
  sourceBasis := evidenceSourceBasis
  expectedEffect := "register a new Evidence supporting the existing Claim"
  policyAssumptions := ["local example policy"]
  extraRecordFields := [(.str "source_basis", evidenceSourceBasis)]

/-- `lambda a: engine.add_evidence(**a)`. -/
def invokeAddEvidence : Op → EngineM Int
  | .addEvidence claimId rawRefId evidenceType strength =>
    Engine.addEvidence claimId rawRefId evidenceType strength
  | _ => unexpectedArguments "add_evidence"

/-- The gaps that the evidence closes. -/
def proposeResolution (evidenceId : Int) : Proposed where
  targetMethod := "resolve_gaps_for_evidence"
  arguments := .resolveGapsForEvidence evidenceId
  sourceBasis := dictOf [("evidence_id_from_previous_cycle", .int evidenceId)]
  expectedEffect := "explicitly resolve any matching Gap for this Evidence"
  policyAssumptions := ["separate review cycle per M08 §14"]
  extraRecordFields := []

/-- `lambda a: engine.resolve_gaps_for_evidence(**a)`. -/
def invokeResolveGaps : Op → EngineM (List Int)
  | .resolveGapsForEvidence evidenceId => Engine.resolveGapsForEvidence evidenceId
  | _ => unexpectedArguments "resolve_gaps_for_evidence"

/-- The confirmation of the claim. -/
def proposeConfirmation (claimId : Int) : Proposed where
  targetMethod := "confirm_claim_if_ready"
  arguments := .transition .confirm claimId
  sourceBasis := dictOf [("claim_id_from_lane_a", .int claimId)]
  expectedEffect := "explicitly transition the Claim to CONFIRMED if eligible"
  policyAssumptions := ["separate review cycle per M08 §14"]
  extraRecordFields := []

/-- `lambda a: engine.confirm_claim_if_ready(**a)`. -/
def invokeConfirm : Op → EngineM Bool
  | .transition .confirm claimId => Engine.confirmClaimIfReady claimId
  | _ => unexpectedArguments "confirm_claim_if_ready"

/-- The record of lane C, complete or stopped at a gate. -/
structure LaneC where
  networkInvocation : Bool
  toolInvocation : Bool
  subprocessInvocation : Bool
  downstreamSourceFixtureBefore : PyValue
  downstreamSourceFixtureAfter : PyValue
  resultTrace : PyValue
  consumerRoleDecision : PyValue
  explicitInvocationSequence : List CycleRecord
  producedIds : ProducedIds
  lifecycleConfirmedFlag : Option Bool
  stageStatus : String
  termination : Option Termination

/-- `lane`, before the first cycle. -/
def openLaneC : LaneC where
  networkInvocation := false
  toolInvocation := false
  subprocessInvocation := false
  downstreamSourceFixtureBefore := downstreamSourceFixture
  downstreamSourceFixtureAfter := downstreamSourceFixture
  resultTrace := Operation.resultTrace
  consumerRoleDecision := Operation.consumerRoleDecision
  explicitInvocationSequence := []
  producedIds := .empty
  lifecycleConfirmedFlag := none
  stageStatus := "CONNECTED"
  termination := none

/-- `invocations.append(record)`. -/
def LaneC.invoked (lane : LaneC) (record : CycleRecord) : LaneC :=
  { lane with explicitInvocationSequence := lane.explicitInvocationSequence ++ [record] }

/-- The roles first, then the three cycles. -/
def laneC (env : Surroundings) (claimId gapRequiredEvidenceType : Int) : DeskM LaneC := do
  let lane := openLaneC
  let (record, outcome) ← runCycle (env.review 3)
    (proposeEvidence claimId gapRequiredEvidenceType) invokeAddEvidence
    (returning "returned_id" .id)
  let lane := lane.invoked record
  match outcome with
  | .terminated stop => return { lane with termination := some stop }
  | .ok evidenceId =>
    let lane := { lane with producedIds := { lane.producedIds with evidenceId := some evidenceId } }
    let (record, outcome) ← runCycle (env.review 4) (proposeResolution evidenceId)
      invokeResolveGaps (returning "returned_resolved_gap_ids" .ids)
    let lane := lane.invoked record
    match outcome with
    | .terminated stop => return { lane with termination := some stop }
    | .ok resolvedGapIds =>
      let lane := { lane with
        producedIds := { lane.producedIds with resolvedGapIds := some resolvedGapIds } }
      let (record, outcome) ← runCycle (env.review 5) (proposeConfirmation claimId) invokeConfirm
        (returning "returned_lifecycle_flag" .flag)
      let lane := lane.invoked record
      match outcome with
      | .terminated stop => return { lane with termination := some stop }
      | .ok confirmed =>
        return { lane with
          lifecycleConfirmedFlag := some confirmed
          stageStatus := "COMPLETED" }

/-! ## The probes

Decisions that are reused on another state: after a later call, on another engine, without an
identity. Each has to be found stale. -/

/-- The note that every probe carries. -/
def notEligibleNote : String := "not eligible for decision reuse under M05"

/-- A captured identity against the current one. -/
structure Probe where
  capturedDecisionIdentity : Option IdentityDict
  currentIdentity : IdentityDict
  verdict : String
  invocationSuppressed : Bool
  note : String

/-- The probe record of a captured identity. -/
def probe (captured : Option IdentityDict) (current : IdentityDict) : Probe where
  capturedDecisionIdentity := captured
  currentIdentity := current
  verdict := if captured = some current then "eligible" else "not_eligible"
  invocationSuppressed := !decide (captured = some current)
  note := notEligibleNote

/-- `case_d`. -/
structure MalformedProbe where
  missingIdentityRecord : Probe
  malformedIdentityRecord : Probe
  verdict : String
  invocationSuppressed : Bool
  note : String

/-- The three cases. -/
structure NegativeProbes where
  caseB : Probe
  caseC : Probe
  caseD : MalformedProbe
  overallNote : String

/-- `engine.add_entity(entity_type=entityType)`, then `_identity_dict(engine.state_identity())`. -/
def identityAfterEntity (entityType : Int) : EngineM IdentityDict := do
  let _ ← Engine.addEntity entityType 0
  readState fun e => identityDict <$> e.stateIdentity

/-- The identities of `Engine()` after one entity, and after a second one. -/
def probeB : EngineM Probe := do
  let captured ← identityAfterEntity 1
  let current ← identityAfterEntity 2
  return probe (some captured) current

/-- `{"engine_token": "", "revision": -1}`. -/
def malformedIdentity : IdentityDict := ⟨"", -1⟩

/-- Neither a missing nor a malformed identity is any engine's. -/
def probeD (current : IdentityDict) : MalformedProbe :=
  let missing := probe none current
  let malformed := probe (some malformedIdentity) current
  let suppressed := missing.invocationSuppressed && malformed.invocationSuppressed
  { missingIdentityRecord := missing
    malformedIdentityRecord := malformed
    verdict := if suppressed then "not_eligible" else "eligible"
    invocationSuppressed := suppressed
    note := notEligibleNote }

/-- `_negative_probes`. -/
def negativeProbes (env : Surroundings) : Except PyErr NegativeProbes := do
  let caseB ← outcome (probeB (Engine.new (env.uuid 1)))
  let captured ← outcome (identityAfterEntity 1 (Engine.new (env.uuid 2)))
  let current ← outcome (identityAfterEntity 1 (Engine.new (env.uuid 3)))
  let currentD ← outcome (identityAfterEntity 1 (Engine.new (env.uuid 4)))
  return {
    caseB
    caseC := probe (some captured) current
    caseD := probeD currentD
    overallNote := notEligibleNote }

/-! ## The final state

What the last read of the engine reports. -/

/-- What the operation does not decide by itself. -/
def nonAuthorityLocks : List String := [
  "Adapter output != RoleAssignment",
  "RoleAssignment validator pass != operator acceptance",
  "EngineInputCandidate != accepted mutation",
  "ReviewedMutationRequest != automatic execution",
  "Packet validator pass != claim judgment",
  "Proposal validator pass != proposal acceptance",
  "Operator acceptance != Engine truth",
  "External result != ragcore.Evidence",
  "Evidence registration != automatic Gap resolution",
  "Evidence registration != automatic lifecycle transition",
  "effective_confidence != probability"]

/-- The records of the run, the status of the claim and its confidence. -/
structure FinalState where
  status : String
  entity : Entity
  claim : Claim
  gap : Gap
  evidence : Evidence
  gapResolution : Option Int
  claimStatus : Json
  packetBindingStatus : String
  packetComparisonStatus : String
  laneAEngineProduced : Bool
  entityCreated : Bool
  claimCreated : Bool
  gapCreated : Bool
  evidenceRegistered : Bool
  packetBuiltSevenKeys : Bool
  confidenceTraceAvailable : Bool
  proposalOperatorDecisionRecorded : Bool
  downstreamResultTraceRecorded : Bool
  gapExplicitlyResolved : Bool
  lifecycleExplicitlyInvoked : Bool
  claimFinalStatus : String
  finalEngineIdentity : IdentityDict
  finalEngineIdentityRevision : Int
  automaticExecutionUsed : Bool

/-- `_final_state`. -/
def finalStateOf (laneA : LaneA) (laneB : LaneB) (laneC : LaneC) (e : Engine) :
    Except PyErr FinalState := do
  let entityId ← producedId "entity_id" laneA.producedIds.entityId
  let claimId ← producedId "claim_id" laneA.producedIds.claimId
  let gapId ← producedId "gap_id" laneA.producedIds.gapId
  let evidenceId ← producedId "evidence_id" laneC.producedIds.evidenceId
  let entity ← e.getEntity entityId
  let claim ← e.getClaim claimId
  let gap ← e.getGap gapId
  let evidence ← e.getEvidence evidenceId
  let gapResolution ← e.gapResolution gapId
  let identity ← e.stateIdentity
  let packetKeys ← laneB.pr51Packet.asDict.len
  return {
    status := "BOUNDARY_PRESERVED"
    entity
    claim
    gap
    evidence
    gapResolution
    claimStatus := claim.status
    packetBindingStatus := laneB.packetBindingStatus
    packetComparisonStatus := laneB.packetComparisonStatus
    laneAEngineProduced := true
    entityCreated := entity.id.eq (.int entityId)
    claimCreated := claim.id == claimId
    gapCreated := gap.id == gapId
    evidenceRegistered := evidence.id == evidenceId
    packetBuiltSevenKeys := packetKeys == 7
    confidenceTraceAvailable := true
    proposalOperatorDecisionRecorded := true
    downstreamResultTraceRecorded := true
    gapExplicitlyResolved := gapResolution == some evidenceId
    lifecycleExplicitlyInvoked := true
    claimFinalStatus :=
      if claim.status.eq claimStatusConfirmed then "CONFIRMED" else "NOT_CONFIRMED"
    finalEngineIdentity := identityDict identity
    finalEngineIdentityRevision := (identityDict identity).revision
    automaticExecutionUsed := false }

/-! ## The operation

The lanes one after another; a shut gate ends the run with the lanes that were entered. -/

/-- The lanes that were entered. -/
structure Lanes where
  externalIngress : LaneA
  engineReadAndProposal : Option LaneB
  downstreamReentry : Option LaneC

/-- What the operation returns. -/
structure Report where
  overallStatus : String
  /-- `termination_stage` and `termination_reason`. -/
  termination : Option Termination
  fixtureOriginForEngine : String
  lanes : Lanes
  negativeStaleDecisionProbe : Option NegativeProbes
  finalState : Option FinalState
  nonAuthorityLocks : List String
  ruleStatsProvenanceStatus : String

/-- `_terminated_report`. -/
def terminatedReport (lanes : Lanes) (termination : Termination) : Report where
  overallStatus := "TERMINATED_AT_AUTHORITY_GATE"
  termination := some termination
  fixtureOriginForEngine := "PRODUCED_BY_LANE_A"
  lanes
  negativeStaleDecisionProbe := none
  finalState := none
  nonAuthorityLocks := Operation.nonAuthorityLocks
  ruleStatsProvenanceStatus := "NOT_ENTERED_M09"

/-- The report of a run in which every gate opened. -/
def completeReport (lanes : Lanes) (probes : NegativeProbes) (finalState : FinalState) :
    Report where
  overallStatus := "COMPLETE_REFERENCE_OPERATION"
  termination := none
  fixtureOriginForEngine := "PRODUCED_BY_LANE_A"
  lanes
  negativeStaleDecisionProbe := some probes
  finalState := some finalState
  nonAuthorityLocks := Operation.nonAuthorityLocks
  ruleStatsProvenanceStatus := "NOT_ENTERED_M09"

/-- The operation once the three lanes were run. -/
def closeOperation (env : Surroundings) (a : LaneA) (b : LaneB) (c : LaneC) : DeskM Report :=
  match c.termination with
  | some stop => return terminatedReport ⟨a, some b, some c⟩ stop
  | none => do
    let probes ← readState fun _ => negativeProbes env
    let state ← readState fun d => finalStateOf a b c d.engine
    return completeReport ⟨a, some b, some c⟩ probes state

/-- The operation, on the desk of a fresh engine. -/
def referenceOperation (env : Surroundings) : DeskM Report := do
  let a ← laneA env
  match a.termination with
  | some stop => return terminatedReport ⟨a, none, none⟩ stop
  | none =>
    let claimId ← readState fun _ => producedId "claim_id" a.producedIds.claimId
    let b ← readState fun d => laneB env claimId d.engine
    let c ← laneC env claimId a.gapRequiredEvidenceType
    closeOperation env a b c

/-- `run_complete_domain_neutral_reference_operation`. -/
def runCompleteDomainNeutralReferenceOperation (env : Surroundings) :
    EStateM.Result PyErr Desk Report :=
  referenceOperation env ⟨Engine.new (env.uuid 0), 0⟩

end Operation

end Ragcore
