import Ragcore.Operation.Reentry
import Ragcore.Proposal.Shape

/-!
# Ragcore — what the reference operation comes to

* **`laneA_gated`** — the lane that fills the fresh engine.
* **`laneB_clean`** — the lane that reads: on any engine in use no validator reports anything, and
  the trace, the legacy confidence and the identities agree.
* **`reference_operation_exact`** — the operation, for every role example and every way the six
  reviews go.
-/

namespace Ragcore

namespace Operation

open Inspector Proposal.Schema Proposal.Validator Role

/-! ## Lane A

The three calls of the lane always return, so only a gate can stop it. -/

/-- The calls of lane A on a fresh engine. -/
def ingressCalls : List Op := [
  .addEntity 1 0,
  .addClaim 1 1 0 0 0 baseConfidenceLiteral 0 0,
  .addGap 1 1 gapRequiredEvidenceType severityLiteral 0]

def LaneA.view : LaneView LaneA := ⟨explicitInvocationSequence, termination⟩

/-- What lane A reports when no gate stopped it. -/
structure IngressReport (lane : LaneA) : Prop where
  produced : lane.producedIds = { ProducedIds.empty with
    entityId := some 1, claimId := some 1, gapId := some 1 }
  required : lane.gapRequiredEvidenceType = gapRequiredEvidenceType

/-- What lane A leaves on a fresh engine. -/
structure IngressEffect (e : Engine) : Prop where
  sound : Sound e
  entity : ∃ entity, e.entities.get? 1 = some entity ∧ entity.id = .int 1
  claim : HasStatus e 1 claimStatusCandidate
  gap : ∃ gap, e.gaps.get? 1 = some gap ∧ gap.id = 1 ∧
    gap.requiredEvidenceType = .int gapRequiredEvidenceType
  refs : e.claimGapRefs.getD 1 ∅ = {1}
  resolutions : e.gapResolutions = ∅
  nextEvidence : e.nextCounter "evidence" = .ok 1
  revision : e.stateRevision = 3

theorem literals_admitted :
    (∃ score, ScoreValue.new (.float baseConfidenceLiteral) = .ok score) ∧
      ∃ score, ScoreValue.new (.float severityLiteral) = .ok score := by
  constructor
  · refine ⟨⟨3602879701896397 / 4503599627370496, by norm_num, by norm_num⟩, ?_⟩
    simp only [ScoreValue.new, baseConfidenceLiteral, Json.number?]
    norm_num
  · refine ⟨⟨1 / 2, by norm_num, by norm_num⟩, ?_⟩
    simp only [ScoreValue.new, severityLiteral, Json.number?]
    norm_num

theorem exists_ingress (uuid : UuidHex) :
    ∃ e₁ e₂ e₃, Engine.addEntity 1 0 (Engine.new uuid) = .ok 1 e₁ ∧
      Engine.addClaim 1 1 0 0 0 baseConfidenceLiteral 0 0 e₁ = .ok 1 e₂ ∧
      Engine.addGap 1 1 gapRequiredEvidenceType severityLiteral 0 e₂ = .ok 1 e₃ ∧
      IngressEffect e₃ := by
  obtain ⟨⟨base, hbase⟩, severity, hseverity⟩ := literals_admitted
  obtain ⟨e₁, he₁⟩ : ∃ e₁, e₁ = (Engine.new uuid).putEntity 1 ⟨.int 1, .int 1, .int 0⟩ := ⟨_, rfl⟩
  have hentity : Engine.addEntity 1 0 (Engine.new uuid) = .ok 1 e₁ := by
    rw [he₁]
    exact Engine.addEntity_ok rfl 1 0
  have hsound₁ : Sound e₁ :=
    (LeadsTo.op (o := .addEntity 1 0) (.new uuid) (run_map_ok hentity)).1
  obtain ⟨e₂, he₂⟩ : ∃ e₂, e₂ = e₁.putClaim 1
      ⟨1, .int 1, .int 1, .int 0, .int 0, .int 0, .int 0, some base, .int 0⟩ := ⟨_, rfl⟩
  have hclaim : Engine.addClaim 1 1 0 0 0 baseConfidenceLiteral 0 0 e₁ = .ok 1 e₂ := by
    rw [he₂]
    refine Engine.addClaim_ok ?_ (.inl rfl) hbase ?_ 1 0 0 0 0
    · rw [he₁]
      exact Dict.contains_of_get? (Dict.get?_insert_self _ _ _)
    · rw [he₁]
      with_unfolding_all rfl
  have hsound₂ : Sound e₂ := (LeadsTo.op (o := .addClaim 1 1 0 0 0 baseConfidenceLiteral 0 0)
    hsound₁ (run_map_ok hclaim)).1
  have hstored : e₂.claims.get? 1 =
      some ⟨1, .int 1, .int 1, .int 0, .int 0, .int 0, .int 0, some base, .int 0⟩ := by
    rw [he₂]
    exact Dict.get?_insert_self _ _ _
  -- no gap is known yet, so the call makes one
  have hunknown : e₂.gapDedupIndex.get?
      (Engine.dedupKey (.int 1) 0 1 gapRequiredEvidenceType) = none := by
    rw [he₂, he₁]
    rfl
  have hnext : e₂.nextCounter "gap" = .ok 1 := by
    rw [he₂, he₁]
    with_unfolding_all rfl
  obtain ⟨e₃, he₃⟩ : ∃ e₃, e₃ = e₂.putGap 1 1
      (Engine.dedupKey (.int 1) 0 1 gapRequiredEvidenceType)
      ⟨1, .int 1, .int 1, .int gapRequiredEvidenceType, some severity, .int 0⟩ := ⟨_, rfl⟩
  have hgap : Engine.addGap 1 1 gapRequiredEvidenceType severityLiteral 0 e₂ = .ok 1 e₃ := by
    rw [Engine.addGap_ok hstored rfl hseverity hnext, hunknown, he₃]
  have hsound₃ : Sound e₃ :=
    (LeadsTo.op (o := .addGap 1 1 gapRequiredEvidenceType severityLiteral 0) hsound₂
      (run_map_ok hgap)).1
  refine ⟨e₁, e₂, e₃, hentity, hclaim, hgap, hsound₃, ?_, ⟨_, by rw [he₃]; exact hstored, rfl⟩,
    ⟨_, by rw [he₃]; exact Dict.get?_insert_self _ _ _, rfl, rfl⟩, ?_, ?_, ?_, ?_⟩
  · refine ⟨⟨.int 1, .int 1, .int 0⟩, ?_, rfl⟩
    rw [he₃, he₂, he₁]
    exact Dict.get?_insert_self _ _ _
  · rw [he₃]
    show (e₂.claimGapRefs.insert 1 (insert 1 (e₂.claimGapRefs.getD 1 ∅))).getD 1 ∅ = {1}
    rw [Dict.getD_insert, if_pos rfl, he₂, he₁]
    rfl
  · rw [he₃, he₂, he₁]
    rfl
  · rw [he₃, he₂, he₁]
    with_unfolding_all rfl
  · rw [he₃, he₂, he₁]
    rfl

theorem laneA_gated (env : Surroundings) (uuid : UuidHex)
    (hroles : validateRoleAssignmentBoundaries env.folding env.roleExample = []) :
    Gated LaneA.view env.review (laneA env) 0 (Engine.new uuid) ingressCalls [] fun lane e =>
      IngressReport lane ∧ IngressEffect e := by
  obtain ⟨e₁, e₂, e₃, hentity, hclaim, hgap, heffect⟩ := exists_ingress uuid
  have hrun₁ : (Op.addEntity 1 0).run (Engine.new uuid) = .ok (.id 1) e₁ := run_map_ok hentity
  have hrun₂ : (Op.addClaim 1 1 0 0 0 baseConfidenceLiteral 0 0).run e₁ = .ok (.id 1) e₂ :=
    run_map_ok hclaim
  have hrun₃ : (Op.addGap 1 1 gapRequiredEvidenceType severityLiteral 0).run e₂ =
      .ok (.id 1) e₃ := run_map_ok hgap
  have h₁ : Sound e₁ := (LeadsTo.op (.new uuid) hrun₁).1
  have h₂ : Sound e₂ := (LeadsTo.op h₁ hrun₂).1
  -- the roles are clean, so the lane goes on to its first cycle
  have hgate : ¬(openLaneA env).roleValidationViolations ≠ [] := fun hne => hne hroles
  unfold laneA
  simp only [if_neg hgate]
  refine .cycle (.new uuid) rfl hentity hrun₁ (fun record stop => ⟨_, rfl, rfl, rfl⟩)
    fun record₁ => ?_
  refine .cycle h₁ rfl hclaim hrun₂ (fun record stop => ⟨_, rfl, rfl, rfl⟩) fun record₂ => ?_
  refine .cycle h₂ rfl hgap hrun₃ (fun record stop => ⟨_, rfl, rfl, rfl⟩) fun record₃ => ?_
  exact .done rfl rfl ⟨⟨rfl, rfl⟩, heffect⟩

/-! ## Lane B

The output and the proposal of the lane pass the validators of the repository. -/

/-- What lane B reports: no validator objects, and what it read about the claim agrees. -/
structure CleanLaneB (e : Engine) (claimId : Int) (lane : LaneB) : Prop where
  packet : buildEngineContextPacket e claimId = .ok lane.pr51Packet
  pr53 : lane.pr53PacketValidatorViolations = []
  pr55 : lane.proposal.pr55ShapeViolations = []
  pr56 : lane.proposal.pr56SafetyViolations = []
  legacy : lane.effectiveConfidenceTrace.traceEffectiveEqualsLegacy = true
  source : lane.effectiveConfidenceTrace.sourceStateIdentity = identityOf e
  before : lane.effectiveConfidenceTrace.identityBeforeTraceEqualToSource = true
  after : lane.effectiveConfidenceTrace.identityAfterTraceEqualToSource = true
  unchanged : lane.effectiveConfidenceTrace.identityBeforeEqualsIdentityAfter = true

theorem consumerOutput_keys (str : Lowering) :
    allKeys str consumerOutput = ["consumer_interpretation_kind"] := by
  have hlower : str.lower "consumer_interpretation_kind" = "consumer_interpretation_kind" := by
    rw [str.lower_ascii _ (by simp)]
    decide +kernel
  simp [allKeys, consumerOutput, dictOf, walkKeysAndValues, Inspector.walkEntries, hlower]

theorem consumerOutput_values (str : Lowering) :
    consumerOutputCarriesRefutationValue str consumerOutput = false := by
  have hlower : str.lower "neutral_summary" = "neutral_summary" := by
    rw [str.lower_ascii _ (by simp)]
    decide +kernel
  simp [consumerOutputCarriesRefutationValue, allStringValues, consumerOutput, dictOf,
    walkKeysAndValues, Inspector.walkEntries, hlower, autoRefutationValues]

/-- No packet makes the neutral output a forbidden reading. -/
theorem consumerOutput_clean (str : Lowering) (packet : ContextPacket) :
    validateConsumerPacketInterpretation str consumerOutput packet.asDict = .ok [] := by
  have hf5 := detectRefutation_eq str consumerOutput (asDict_refuted packet)
    fun _ => asDict_contradictions packet
  have hf7 := detectRefutation_eq str consumerOutput (asDict_refuted packet)
    fun _ => asDict_unresolvedGaps packet
  -- the keys and values of the output are fixed, so these evaluate
  have hf3 : detectF3ProbabilityLabelForStrength str consumerOutput = false := by
    rw [detectF3ProbabilityLabelForStrength, consumerOutput_keys]
    decide +kernel
  have hf10 : detectF10StatusVerdictRelabel str consumerOutput = false := by
    rw [detectF10StatusVerdictRelabel, consumerOutput_keys]
    decide +kernel
  have hf13 : detectF13EngineMutationIntent str consumerOutput = false := by
    rw [detectF13EngineMutationIntent, consumerOutput_keys]
    decide +kernel
  have hf12 : detectF12ThresholdAutoVerified str consumerOutput = false := rfl
  unfold validateConsumerPacketInterpretation detectF5ContradictionsAutoRefutation
    detectF7UnresolvedGapsRefutation
  rw [hf5, hf7, hf3, hf10, hf12, hf13, consumerOutput_values]
  simp only [Bool.and_false]
  rfl

/-- The proposal about a claim has the declared shape, against the packet of that claim. -/
theorem gapProposal_shape (str : Lowering) {claimId : Int} {packet : ContextPacket}
    (habout : packet.claim.id = claimId) :
    validateLlmProposalShape str (gapProposal claimId) packet.asDict = [] := by
  have hpacket : packetClaimId packet.asDict = .int claimId := habout ▸ asDict_claimId packet
  refine (validate_eq_nil_iff str hpacket).mpr ⟨⟨?_, ?_⟩, .inr ?_, .inr rfl, .inr trivial⟩
  · simp [requiredFields, HasField, PyValue.keys]
  · simp [PyValue.keys, allowedTopLevelFields, requiredFields]
  · exact ⟨"evidence_gap_question", by simp [allowedCategories], rfl⟩

theorem gapProposal_safe (str : Lowering) (claimId : Int) (packet : PyValue) :
    validateProposalSafety str (gapProposal claimId) packet = [] := by
  refine (safety_accepts_iff str _ packet).mpr fun key depth visible => ?_
  -- the proposal is flat: its keys are the three required fields
  have hkeys : depth = 0 ∧ key ∈ requiredFields := by
    cases visible with
    | here mem =>
      refine ⟨rfl, ?_⟩
      simp only [List.map_cons, List.map_nil, List.mem_cons, Prod.mk.injEq, PyKey.str.injEq,
        List.not_mem_nil, or_false] at mem
      rcases mem with ⟨rfl, _⟩ | ⟨rfl, _⟩ | ⟨rfl, _⟩ <;> simp [requiredFields]
    | entry mem inner =>
      simp only [List.map_cons, List.map_nil, List.mem_cons, Prod.mk.injEq, PyKey.str.injEq,
        List.not_mem_nil, or_false] at mem
      rcases mem with ⟨_, rfl⟩ | ⟨_, rfl⟩ | ⟨_, rfl⟩ <;> cases inner
  obtain ⟨rfl, hkey⟩ := hkeys
  have plain : ∀ name ∈ requiredFields, ∀ c ∈ name.toList, c.toNat < 128 := by
    simp [requiredFields]
  have hlower : str.lower key = asciiLower key := str.lower_ascii key (plain key hkey)
  refine ⟨fun hnested => absurd hnested (by omega), ?_, ?_⟩
  · have hnone : ∀ name ∈ requiredFields, isP2ProbabilityIdentifier (asciiLower name) = false := by
      decide +kernel
    rw [hlower]
    exact hnone key hkey
  · have hnone : ∀ name ∈ requiredFields, p8IntrusionComponents .ascii name = [] := by
      decide +kernel
    rw [p8IntrusionComponents, identifierComponents, hlower]
    exact hnone key hkey

theorem laneB_clean (env : Surroundings) {e : Engine} (h : Sound e) {claimId : Int}
    (hclaim : e.claims.contains claimId = true) :
    ∃ lane, laneB env claimId e = .ok lane ∧ CleanLaneB e claimId lane := by
  obtain ⟨claim, hget⟩ := Dict.contains_iff.mp hclaim
  obtain ⟨factors, hfactored, _⟩ := h.exists_factors hget
  obtain ⟨score, hscore, _⟩ := hfactored.effective
  obtain ⟨gaps, hgaps⟩ := h.gapsForClaim_returns hclaim
  obtain ⟨packet, hpacket, habout⟩ : ∃ packet, buildEngineContextPacket e claimId = .ok packet ∧
      packet.claim.id = claimId :=
    ⟨_, buildEngineContextPacket_eq h hget hscore hgaps, h.references.claimId hget⟩
  obtain ⟨trace, htrace, _⟩ := bind_ok_iff.mp hscore
  have hof := Engine.computeEffectiveConfidenceWithTrace_traceOf htrace
  have hidentity := Engine.stateIdentity_eq e
  have hsource : trace.sourceStateIdentity = ⟨e.stateIdentityToken.hex, e.stateRevision⟩ :=
    Except.ok.inj (hof.source.symm.trans hidentity)
  -- trace, legacy confidence and both identities are read off one state
  have hblock : ∃ block, traceBlock e claimId = .ok block ∧
      block.traceEffectiveEqualsLegacy = true ∧ block.sourceStateIdentity = identityOf e ∧
      block.identityBeforeTraceEqualToSource = true ∧
      block.identityAfterTraceEqualToSource = true ∧
      block.identityBeforeEqualsIdentityAfter = true := by
    refine ⟨_, bind_ok_iff.mpr ⟨_, hidentity, bind_ok_iff.mpr ⟨trace, htrace,
      bind_ok_iff.mpr ⟨_, hidentity, bind_ok_iff.mpr ⟨_, hof.untraced, rfl⟩⟩⟩⟩, ?_⟩
    simp only [hsource, decide_true, and_self, and_true, true_and]
    rfl
  obtain ⟨block, hblock, hblocks⟩ := hblock
  refine ⟨_, bind_ok_iff.mpr ⟨packet, hpacket, bind_ok_iff.mpr ⟨block, hblock,
    bind_ok_iff.mpr ⟨_, consumerOutput_clean env.lowering packet, rfl⟩⟩⟩, ?_⟩
  exact ⟨hpacket, rfl, gapProposal_shape env.lowering habout,
    gapProposal_safe env.lowering claimId packet.asDict,
    hblocks.1, hblocks.2.1, hblocks.2.2.1, hblocks.2.2.2.1, hblocks.2.2.2.2⟩

/-! ## The probes and the final state

What the probes find depends on the tokens alone. -/

/-- What the probes report: no stale identity is eligible. Two engines have one identity only if
they have one token. -/
structure ProbesExact (env : Surroundings) (probes : NegativeProbes) : Prop where
  caseB : probes.caseB.invocationSuppressed = true
  caseC : probes.caseC.invocationSuppressed = true ↔ env.uuid 2 ≠ env.uuid 3
  caseD : probes.caseD.invocationSuppressed = true

/-- One more entity, and the identity after it. -/
theorem run_identityAfterEntity {e : Engine} {n : Int} (hn : e.nextCounter "entity" = .ok n)
    (type : Int) :
    ∃ e', identityAfterEntity type e = .ok ⟨e.stateIdentityToken.hex, e.stateRevision + 1⟩ e' ∧
      e' = e.putEntity n ⟨.int n, .int type, .int 0⟩ := by
  refine ⟨_, ?_, rfl⟩
  rw [identityAfterEntity, run_bind, Engine.addEntity_ok hn]
  exact run_readState_ok (by rw [Engine.stateIdentity_eq]; rfl)

theorem identityAfterEntity_new (type : Int) (uuid : UuidHex) :
    outcome (identityAfterEntity type (Engine.new uuid)) = .ok ⟨uuid.hex, 1⟩ := by
  obtain ⟨e', hrun, _⟩ := run_identityAfterEntity (e := Engine.new uuid) (n := 1) rfl type
  rw [hrun]
  rfl

theorem probeB_new (uuid : UuidHex) :
    outcome (probeB (Engine.new uuid)) = .ok (probe (some ⟨uuid.hex, 1⟩) ⟨uuid.hex, 2⟩) := by
  obtain ⟨e₁, hfirst, he₁⟩ := run_identityAfterEntity (e := Engine.new uuid) (n := 1) rfl 1
  have hnext : e₁.nextCounter "entity" = .ok 2 := by
    rw [he₁]
    with_unfolding_all rfl
  obtain ⟨e₂, hsecond, _⟩ := run_identityAfterEntity hnext 2
  rw [probeB, run_bind, hfirst]
  simp only
  rw [run_bind, hsecond, he₁]
  rfl

theorem probe_suppressed_iff {captured current : IdentityDict} :
    (probe (some captured) current).invocationSuppressed = true ↔ captured ≠ current := by
  simp [probe]

theorem negativeProbes_exact (env : Surroundings) :
    ∃ probes, negativeProbes env = .ok probes ∧ ProbesExact env probes := by
  refine ⟨_, bind_ok_iff.mpr ⟨_, probeB_new _, bind_ok_iff.mpr ⟨_, identityAfterEntity_new 1 _,
    bind_ok_iff.mpr ⟨_, identityAfterEntity_new 1 _, bind_ok_iff.mpr ⟨_,
      identityAfterEntity_new 1 _, rfl⟩⟩⟩⟩, ?_, ?_, ?_⟩
  · exact probe_suppressed_iff.mpr fun heq => by simp at heq
  · refine probe_suppressed_iff.trans (not_congr ⟨fun heq => ?_, fun heq => by rw [heq]⟩)
    exact UuidHex.eq_of_hex (congrArg IdentityDict.engineToken heq)
  · have hmalformed : (probe (some malformedIdentity) ⟨(env.uuid 4).hex, 1⟩).invocationSuppressed =
        true := probe_suppressed_iff.mpr fun heq => by simp [malformedIdentity] at heq
    simp only [probeD, hmalformed, Bool.and_true]
    rfl

/-! ## The final state

After all three lanes the records of the run are there and the claim is confirmed. -/

/-- What the final state reports, and that it is what the engine holds. -/
structure Verified (e : Engine) (state : FinalState) : Prop where
  entity : e.entities.get? 1 = some state.entity
  claim : e.claims.get? 1 = some state.claim
  gap : e.gaps.get? 1 = some state.gap
  evidence : e.evidences.get? 1 = some state.evidence
  resolution : e.gapResolutions.get? 1 = state.gapResolution
  created : state.entityCreated = true ∧ state.claimCreated = true ∧ state.gapCreated = true ∧
    state.evidenceRegistered = true
  packet : state.packetBuiltSevenKeys = true
  resolved : state.gapExplicitlyResolved = true
  confirmed : state.claimFinalStatus = "CONFIRMED"
  identity : state.finalEngineIdentity = identityOf e ∧ state.finalEngineIdentityRevision = 6

/-- The gap is closed by the evidence, and the claim is confirmed. -/
theorem ReentryEffect.complete {e e' : Engine} {ids : List Int} {flag : Bool}
    (hstart : IngressEffect e)
    (h : ReentryEffect e 1 gapRequiredEvidenceType 1 ids flag e') :
    e'.gapResolutions.get? 1 = some 1 ∧ HasStatus e' 1 claimStatusConfirmed ∧
      e'.stateRevision = 6 := by
  -- the one gap of the claim is open and asks for the type
  have hone : 1 ∈ openGaps e 1 := by
    refine Finset.mem_filter.mpr ⟨by rw [hstart.refs]; exact Finset.mem_singleton_self _, ?_⟩
    rw [hstart.resolutions]
    rfl
  have hasks : Asks e 1 gapRequiredEvidenceType := by
    obtain ⟨gap, hgap, _, hrequired⟩ := hstart.gap
    exact ⟨gap, hgap, hrequired⟩
  have hids : 1 ∈ ids := (h.resolved 1).mpr ⟨hone, hasks⟩
  have hflag : flag = true := by
    refine h.confirmed.mpr ⟨hstart.claim, ⟨1, (Finset.mem_filter.mp hone).1⟩, fun g hg => ?_⟩
    have hg' := (Finset.mem_filter.mp hg).1
    rw [hstart.refs, Finset.mem_singleton] at hg'
    rw [hg']
    exact hasks
  refine ⟨by rw [h.resolutions, if_pos hids], ?_, ?_⟩
  · have hstatus := h.status _ hstart.claim
    rwa [hflag, if_pos rfl] at hstatus
  · rw [h.revision, hstart.revision, if_neg (List.ne_nil_of_mem hids), if_pos hflag]

theorem finalStateOf_verified {a : LaneA} (b : LaneB) {c : LaneC} {e e' : Engine} {ids : List Int}
    {flag : Bool} (ha : IngressReport a) (hc : c.producedIds.evidenceId = some 1)
    (hstart : IngressEffect e)
    (h : ReentryEffect e 1 gapRequiredEvidenceType 1 ids flag e') (hsound : Sound e') :
    ∃ state, finalStateOf a b c e' = .ok state ∧ Verified e' state := by
  obtain ⟨hresolution, ⟨claim, hclaim, hstatus⟩, hrevision⟩ := h.complete hstart
  obtain ⟨entity, hentity, hentityId⟩ := hstart.entity
  obtain ⟨gap, hgap, hgapId, _⟩ := hstart.gap
  obtain ⟨evidence, hevidence, hevidenceId, _⟩ := h.evidence
  -- what lane A stored is still there
  have hentity' := h.appendOnly.entities hentity
  have hgap' := h.appendOnly.gaps hgap
  have hresolved : e'.gapResolution 1 = .ok (some 1) :=
    bind_ok_iff.mpr ⟨(), Engine.assertExists_ok_iff.mpr (Dict.contains_of_get? hgap'),
      congrArg Except.ok hresolution⟩
  have hidentity := Engine.stateIdentity_eq e'
  have hpacket : b.pr51Packet.asDict.len = .ok 7 := rfl
  have hread : e'.getEntity 1 = .ok entity ∧ e'.getClaim 1 = .ok claim ∧ e'.getGap 1 = .ok gap ∧
      e'.getEvidence 1 = .ok evidence :=
    ⟨Engine.subscript_ok_iff.mpr hentity', Engine.subscript_ok_iff.mpr hclaim,
      Engine.subscript_ok_iff.mpr hgap', Engine.subscript_ok_iff.mpr hevidence⟩
  have hclaimId := hsound.references.claimId hclaim
  unfold finalStateOf
  rw [ha.produced, hc]
  simp only [producedId, hread.1, hread.2.1, hread.2.2.1, hread.2.2.2, hresolved, hidentity,
    hpacket, bind, Except.bind, pure, Except.pure]
  refine ⟨_, rfl, ⟨hentity', hclaim, hgap', hevidence, hresolution, ⟨?_, ?_, ?_, ?_⟩, rfl, rfl, ?_,
    rfl, ?_⟩⟩
  · simp only [hentityId]
    rfl
  · simp only [hclaimId, beq_self_eq_true]
  · simp only [hgapId, beq_self_eq_true]
  · simp only [hevidenceId, beq_self_eq_true]
  · simp only [hstatus]
    rfl
  · simp only [identityDict, hrevision]
    rfl

/-! ## The operation

Either a gate was shut, and the report says which, or every call was made. -/

/-- The six calls of the operation. -/
def referenceCalls : List Op := ingressCalls ++ reentryCalls 1 1 gapRequiredEvidenceType

/-- The records of the cycles that were opened, in order. -/
def Report.records (report : Report) : List CycleRecord :=
  report.lanes.externalIngress.explicitInvocationSequence ++
    match report.lanes.downstreamReentry with
    | some lane => lane.explicitInvocationSequence
    | none => []

/-- What the operation does and reports; `e` is the engine it leaves. -/
structure ReferenceExact (env : Surroundings) (report : Report) (e : Engine) : Prop where
  /-- Role violations stop it before the first cycle. -/
  roleGate : validateRoleAssignmentBoundaries env.folding env.roleExample ≠ [] →
    report.termination = some ⟨"lane_a.role_validation", .roleValidationViolations
      (validateRoleAssignmentBoundaries env.folding env.roleExample)⟩ ∧
    report.records = [] ∧ e = Engine.new (env.uuid 0)
  /-- Its calls are made in order, up to the first gate that is shut. -/
  gated : validateRoleAssignmentBoundaries env.folding env.roleExample = [] →
    GatedRun env.review 0 (Engine.new (env.uuid 0)) referenceCalls report.records
      report.termination e
  status : report.overallStatus =
    if report.termination.isNone then "COMPLETE_REFERENCE_OPERATION"
    else "TERMINATED_AT_AUTHORITY_GATE"
  /-- It is complete exactly when the roles are accepted and all six reviews pass. -/
  complete : report.termination = none ↔
    validateRoleAssignmentBoundaries env.folding env.roleExample = [] ∧
      ∀ i < 6, Passes (env.review i)
        ((Engine.new (env.uuid 0)).runCalls ((referenceCalls.take i).map .op))
  /-- Then, and only then, the final state is read and the probes are run. -/
  verified : report.termination = none → ∃ state probes, report.finalState = some state ∧
    report.negativeStaleDecisionProbe = some probes ∧ Verified e state ∧ ProbesExact env probes
  unverified : report.termination ≠ none →
    report.finalState = none ∧ report.negativeStaleDecisionProbe = none
  /-- Whenever lane B was run it read the engine that lane A left, and no validator objected. -/
  reading : ∀ lane ∈ report.lanes.engineReadAndProposal,
    CleanLaneB ((Engine.new (env.uuid 0)).runCalls (ingressCalls.map .op)) 1 lane

theorem ReferenceExact.of_gated {env : Surroundings} {report : Report} {e : Engine}
    (hroles : validateRoleAssignmentBoundaries env.folding env.roleExample = [])
    (hgated : GatedRun env.review 0 (Engine.new (env.uuid 0)) referenceCalls report.records
      report.termination e)
    (hstatus : report.overallStatus =
      if report.termination.isNone then "COMPLETE_REFERENCE_OPERATION"
      else "TERMINATED_AT_AUTHORITY_GATE")
    (hverified : report.termination = none → ∃ state probes, report.finalState = some state ∧
      report.negativeStaleDecisionProbe = some probes ∧ Verified e state ∧
        ProbesExact env probes)
    (hunverified : report.termination ≠ none →
      report.finalState = none ∧ report.negativeStaleDecisionProbe = none)
    (hreading : ∀ lane ∈ report.lanes.engineReadAndProposal,
      CleanLaneB ((Engine.new (env.uuid 0)).runCalls (ingressCalls.map .op)) 1 lane) :
    ReferenceExact env report e where
  roleGate hne := absurd hroles hne
  gated _ := hgated
  status := hstatus
  complete := by
    -- the run is cut at the first gate that shut
    have hsix : referenceCalls.length = 6 := rfl
    rw [hgated.completes_iff, hsix]
    simp only [Nat.zero_add, hroles, true_and]
  verified := hverified
  unverified := hunverified
  reading := hreading

/-- Role violations stop the operation before the first cycle. -/
theorem referenceOperation_roleGate {env : Surroundings}
    (hroles : validateRoleAssignmentBoundaries env.folding env.roleExample ≠ []) :
    ∃ report desk, runCompleteDomainNeutralReferenceOperation env = .ok report desk ∧
      ReferenceExact env report desk.engine := by
  obtain ⟨a, hrunA, hstop, hinvoked⟩ : ∃ a, laneA env ⟨Engine.new (env.uuid 0), 0⟩ =
      .ok a ⟨Engine.new (env.uuid 0), 0⟩ ∧
      a.termination = some ⟨"lane_a.role_validation", .roleValidationViolations
        (validateRoleAssignmentBoundaries env.folding env.roleExample)⟩ ∧
      a.explicitInvocationSequence = [] := by
    have hgate : (openLaneA env).roleValidationViolations ≠ [] := hroles
    refine ⟨{ openLaneA env with termination := some ⟨"lane_a.role_validation",
      .roleValidationViolations (openLaneA env).roleValidationViolations⟩ }, ?_, rfl, rfl⟩
    unfold laneA
    simp only [if_pos hgate]
    rfl
  refine ⟨terminatedReport ⟨a, none, none⟩ _, ⟨Engine.new (env.uuid 0), 0⟩, ?_, {
    roleGate := fun _ => ⟨rfl, ?_, rfl⟩
    gated := fun hnil => absurd hnil hroles
    status := rfl
    complete := ⟨fun hnone => (nomatch hnone), fun hpasses => absurd hpasses.1 hroles⟩
    verified := fun hnone => nomatch hnone
    unverified := fun _ => ⟨rfl, rfl⟩
    reading := fun lane hlane => nomatch hlane }⟩
  · rw [runCompleteDomainNeutralReferenceOperation, referenceOperation, run_bind, hrunA]
    simp only [hstop]
    rfl
  · show a.explicitInvocationSequence ++ [] = []
    rw [hinvoked]
    rfl

/-- A gate of lane A stops the operation: lanes B and C are not run. -/
theorem referenceOperation_stopped {env : Surroundings}
    (hroles : validateRoleAssignmentBoundaries env.folding env.roleExample = []) {a : LaneA}
    {desk : Desk} {stop : Termination}
    (hrunA : laneA env ⟨Engine.new (env.uuid 0), 0⟩ = .ok a desk)
    (hstop : a.termination = some stop)
    (hgated : GatedRun env.review 0 (Engine.new (env.uuid 0)) ingressCalls
      a.explicitInvocationSequence (some stop) desk.engine) :
    ∃ report desk, runCompleteDomainNeutralReferenceOperation env = .ok report desk ∧
      ReferenceExact env report desk.engine := by
  refine ⟨terminatedReport ⟨a, none, none⟩ stop, desk, ?_, .of_gated hroles ?_ rfl
    (fun hnone => nomatch hnone) (fun _ => ⟨rfl, rfl⟩) fun lane hlane => nomatch hlane⟩
  · rw [runCompleteDomainNeutralReferenceOperation, referenceOperation, run_bind, hrunA]
    simp only [hstop]
    rfl
  · have hrecords : (terminatedReport ⟨a, none, none⟩ stop).records =
        a.explicitInvocationSequence := List.append_nil _
    rw [hrecords]
    exact hgated.cut _

/-- The report after all three lanes, whether lane C was stopped or not. -/
theorem closeOperation_exact {env : Surroundings}
    (hroles : validateRoleAssignmentBoundaries env.folding env.roleExample = []) {a : LaneA}
    {b : LaneB} {c : LaneC} {e₁ : Engine} {desk : Desk} (hreport : IngressReport a)
    (hstart : IngressEffect e₁)
    (hingested : e₁ = (Engine.new (env.uuid 0)).runCalls (ingressCalls.map .op))
    (hclean : CleanLaneB e₁ 1 b)
    (hgated : GatedRun env.review 0 (Engine.new (env.uuid 0)) referenceCalls
      (a.explicitInvocationSequence ++ c.explicitInvocationSequence) c.termination desk.engine)
    (hdone : c.termination = none → ∃ ids flag, ReentryReport c 1 ids flag ∧
      ReentryEffect e₁ 1 gapRequiredEvidenceType 1 ids flag desk.engine) :
    ∃ report desk', closeOperation env a b c desk = .ok report desk' ∧
      ReferenceExact env report desk'.engine := by
  have hreading (lane : LaneB) (hlane : lane ∈ some b) :
      CleanLaneB ((Engine.new (env.uuid 0)).runCalls (ingressCalls.map .op)) 1 lane := by
    rw [← hingested]
    exact Option.mem_some_iff.mp hlane ▸ hclean
  -- lane C was stopped, or the operation is complete
  cases hstop : c.termination with
  | some stop =>
    rw [hstop] at hgated
    refine ⟨terminatedReport ⟨a, some b, some c⟩ stop, desk, ?_, .of_gated hroles hgated rfl
      (fun hnone => nomatch hnone) (fun _ => ⟨rfl, rfl⟩) hreading⟩
    simp only [closeOperation, hstop]
    rfl
  | none =>
    rw [hstop] at hgated
    obtain ⟨ids, flag, hreportC, heffect⟩ := hdone hstop
    have hsound : Sound desk.engine := hgated.sound (.new _)
    obtain ⟨state, hstate, hverified⟩ :=
      finalStateOf_verified b hreport hreportC.evidenceId hstart heffect hsound
    obtain ⟨probes, hprobes, hexact⟩ := negativeProbes_exact env
    refine ⟨completeReport ⟨a, some b, some c⟩ probes state, desk, ?_, .of_gated hroles hgated rfl
      (fun _ => ⟨state, probes, rfl, rfl, hverified, hexact⟩) (fun hne => absurd rfl hne) hreading⟩
    simp only [closeOperation, hstop]
    rw [run_readState_bind, hprobes]
    simp only
    rw [run_readState_bind, hstate]
    rfl

/-- Past lane A the other two lanes are run, and the calls of lane C follow those of lane A. -/
theorem referenceOperation_ingested {env : Surroundings}
    (hroles : validateRoleAssignmentBoundaries env.folding env.roleExample = []) {a : LaneA}
    {desk : Desk} (hrunA : laneA env ⟨Engine.new (env.uuid 0), 0⟩ = .ok a desk)
    (hstop : a.termination = none) (hreport : IngressReport a) (hstart : IngressEffect desk.engine)
    (hgatedA : GatedRun env.review 0 (Engine.new (env.uuid 0)) ingressCalls
      a.explicitInvocationSequence none desk.engine) :
    ∃ report desk, runCompleteDomainNeutralReferenceOperation env = .ok report desk ∧
      ReferenceExact env report desk.engine := by
  obtain ⟨e₁, ids₁⟩ := desk
  have hclaim : e₁.claims.contains 1 = true := by
    obtain ⟨claim, hget, _⟩ := hstart.claim
    exact Dict.contains_of_get? hget
  obtain ⟨b, hrunB, hclean⟩ := laneB_clean env hstart.sound hclaim
  obtain ⟨c, desk₂, records, hrunC, hrecords, hgatedC, hdoneC⟩ :=
    laneC_gated env hstart.sound hclaim hstart.nextEvidence gapRequiredEvidenceType ids₁
  obtain rfl : c.explicitInvocationSequence = records := hrecords
  have hclaimId : producedId "claim_id" a.producedIds.claimId = .ok 1 := by
    rw [hreport.produced]
    rfl
  have hrun : runCompleteDomainNeutralReferenceOperation env = closeOperation env a b c desk₂ := by
    rw [runCompleteDomainNeutralReferenceOperation, referenceOperation, run_bind, hrunA]
    simp only [hstop]
    rw [run_readState_bind, hclaimId]
    simp only
    rw [run_readState_bind, hrunB]
    simp only
    rw [run_bind, hreport.required, hrunC]
  rw [hrun]
  exact closeOperation_exact hroles hreport hstart hgatedA.engine_eq hclean
    (hgatedA.append hgatedC) hdoneC

/-- **The reference operation is exact**, for every role example and every way the six reviews
go. -/
theorem reference_operation_exact (env : Surroundings) :
    ∃ report desk, runCompleteDomainNeutralReferenceOperation env = .ok report desk ∧
      ReferenceExact env report desk.engine := by
  by_cases hroles : validateRoleAssignmentBoundaries env.folding env.roleExample = []
  · obtain ⟨a, desk, records, hrunA, hrecords, hgated, hdone⟩ :=
      laneA_gated env (env.uuid 0) hroles 0
    obtain rfl : a.explicitInvocationSequence = records := hrecords
    have hview : LaneA.view.stop a = a.termination := rfl
    rw [hview] at hgated hdone
    -- lane A was stopped, or the run goes on
    cases hstop : a.termination with
    | some stop =>
      rw [hstop] at hgated
      exact referenceOperation_stopped hroles hrunA hstop hgated
    | none =>
      rw [hstop] at hgated
      obtain ⟨hreport, hstart⟩ := hdone hstop
      exact referenceOperation_ingested hroles hrunA hstop hreport hstart hgated
  · exact referenceOperation_roleGate hroles

end Operation

end Ragcore
