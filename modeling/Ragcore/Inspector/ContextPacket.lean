import Ragcore.Invariant.Confidence
import Ragcore.Invariant.GapConfluence
import Ragcore.Inspector.Detectors
import Ragcore.Proposal.Schema

/-!
# Ragcore — the context packet of a claim

`build_engine_context_packet` of `engine_inspector.py` reads what a consumer is shown of one claim
off the public queries. It returns a dict with seven keys, which the validators of packet
interpretations and of proposals take as their second argument.

* **`ContextPacket.asDict`** — the dict; records become objects with their attributes.
* **`packet_exact`** — when it is built, and that it shows the claim's records and nothing else.
* **`packet_drives_validators`** — what the validators report on it, in terms of the engine: they
  never raise, F5 and F7 look at the status, the contradictions and the open gaps of the claim,
  and S5 at its id.
-/

namespace Ragcore

open Proposal.Schema

namespace Inspector

/-! ## The packet

Everything that the inspector reads about one claim, from the public queries of the engine. -/

/-- The claim, the records around it, its history and its confidence. -/
structure ContextPacket where
  claim : Claim
  effectiveConfidence : ScoreValue
  supportingEvidence : List Evidence
  contradictions : List Int
  activeContradictions : List Int
  unresolvedGaps : List Gap
  lifecycleHistory : List ClaimLifecycleEvent

/-- `gap for gap in gaps if engine.gap_resolution(gap.id) is None`. -/
def unresolvedOf (e : Engine) : List Gap → Except PyErr (List Gap)
  | [] => return []
  | gap :: rest => do
    let resolution ← e.gapResolution gap.id
    let unresolved ← unresolvedOf e rest
    return if resolution.isNone then gap :: unresolved else unresolved

/-- `build_engine_context_packet`. -/
def buildEngineContextPacket (e : Engine) (claimId : Int) : Except PyErr ContextPacket := do
  let claim ← e.getClaim claimId
  let effectiveConfidence ← e.computeEffectiveConfidence claimId
  let supportingEvidence ← e.evidencesForClaim claimId
  let contradictions ← e.contradictionsForClaim claimId
  let activeContradictions ← e.activeContradictionsForClaim claimId
  let gaps ← e.gapsForClaim claimId
  let unresolvedGaps ← unresolvedOf e gaps
  let lifecycleHistory ← e.claimLifecycleHistory claimId
  return {
    claim
    effectiveConfidence
    supportingEvidence
    contradictions
    activeContradictions
    unresolvedGaps
    lifecycleHistory }

/-! ## As Python values

The validators take the packet as a dict, so it is written out as one. -/

/-- A score as an object with its value. -/
def scoreObject (score : ScoreValue) : PyValue :=
  .object "ScoreValue" [("value", .float (.fin score.value))]

def optionalScore : Option ScoreValue → PyValue
  | some score => scoreObject score
  | none => .none

/-- The records as objects with their fields. -/
def claimObject (claim : Claim) : PyValue := .object "Claim" [
  ("id", .int claim.id),
  ("subject_id", .ofJson claim.subjectId),
  ("type", .ofJson claim.type),
  ("status", .ofJson claim.status),
  ("created_by_rule", .ofJson claim.createdByRule),
  ("created_by_rule_version", .ofJson claim.createdByRuleVersion),
  ("reason_code", .ofJson claim.reasonCode),
  ("base_confidence", optionalScore claim.baseConfidence),
  ("flags", .ofJson claim.flags)]

def evidenceObject (evidence : Evidence) : PyValue := .object "Evidence" [
  ("id", .int evidence.id),
  ("claim_id", .int evidence.claimId),
  ("raw_ref_id", .ofJson evidence.rawRefId),
  ("type", .ofJson evidence.type),
  ("strength", optionalScore evidence.strength)]

def gapObject (gap : Gap) : PyValue := .object "Gap" [
  ("id", .int gap.id),
  ("claim_id", .ofJson gap.claimId),
  ("type", .ofJson gap.type),
  ("required_evidence_type", .ofJson gap.requiredEvidenceType),
  ("severity", optionalScore gap.severity),
  ("created_by_rule", .ofJson gap.createdByRule)]

def eventObject (event : ClaimLifecycleEvent) : PyValue := .object "ClaimLifecycleEvent" [
  ("seq", .ofJson event.seq),
  ("claim_id", .ofJson event.claimId),
  ("from_status", .ofJson event.fromStatus),
  ("to_status", .ofJson event.toStatus),
  ("transition", .ofJson event.transition)]

/-- The dict that is returned. -/
def ContextPacket.asDict (packet : ContextPacket) : PyValue := .dict [
  (.str "claim", claimObject packet.claim),
  (.str "effective_confidence", scoreObject packet.effectiveConfidence),
  (.str "supporting_evidence", .tuple (packet.supportingEvidence.map evidenceObject)),
  (.str "contradictions", .tuple (packet.contradictions.map .int)),
  (.str "active_contradictions", .tuple (packet.activeContradictions.map .int)),
  (.str "unresolved_gaps", .tuple (packet.unresolvedGaps.map gapObject)),
  (.str "lifecycle_history", .tuple (packet.lifecycleHistory.map eventObject))]

/-! ## What is read

A list of the packet has every record it should, each once and in an order the engine gives it, so
one engine has one packet of a claim. -/

/-- The packet shows the claim's records in `e`, and nothing else. -/
structure PacketExact (log : Log) (e : Engine) (claimId : Int) (packet : ContextPacket) :
    Prop where
  claim : e.claims.get? claimId = some packet.claim
  about : packet.claim.id = claimId
  confidence : e.computeEffectiveConfidence claimId = .ok packet.effectiveConfidence
  evidence : ∀ evidence, evidence ∈ packet.supportingEvidence ↔
    e.evidences.get? evidence.id = some evidence ∧ evidence.claimId = claimId
  /-- Each once, in the order of the store. -/
  evidenceOnce : (packet.supportingEvidence.map Evidence.id).Nodup
  evidenceOrder : packet.supportingEvidence.Sublist e.evidences.values
  contradictions : ∀ v, v ∈ packet.contradictions ↔ v ∈ e.contradictions.getD claimId ∅
  contradictionsOrder : packet.contradictions.Pairwise (· < ·)
  contradictionExists : ∀ v ∈ packet.contradictions, e.evidences.contains v = true
  active : ∀ v, v ∈ packet.activeContradictions ↔
    v ∈ packet.contradictions ∧ v ∉ e.resolvedContradictions.getD claimId ∅
  activeOrder : packet.activeContradictions.Pairwise (· < ·)
  gaps : ∀ gap, gap ∈ packet.unresolvedGaps ↔
    e.gaps.get? gap.id = some gap ∧ gap.id ∈ e.claimGapRefs.getD claimId ∅ ∧
      e.gapResolutions.contains gap.id = false
  gapsOrder : (packet.unresolvedGaps.map Gap.id).Pairwise (· < ·)
  /-- The events are those of the claim, as they were recorded. -/
  lifecycleHistory : packet.lifecycleHistory = e.eventsOf claimId
  /-- They lead from the status the claim was added with to the one shown. -/
  history : ∃ status, AddedWith log claimId status ∧
    packet.lifecycleHistory.map ClaimLifecycleEvent.fromStatus ++ [packet.claim.status] =
      .int status :: packet.lifecycleHistory.map ClaimLifecycleEvent.toStatus
  /-- Each is what some transition records about this claim, and they ascend by number. -/
  recorded : ∀ event ∈ packet.lifecycleHistory, ∃ t : Transition, event.Records claimId t
  increasing : packet.lifecycleHistory.Pairwise ClaimLifecycleEvent.Before

theorem unresolvedOf_eq {e : Engine} {gaps : List Gap}
    (h : ∀ gap ∈ gaps, e.gapResolution gap.id = .ok (e.gapResolutions.get? gap.id)) :
    unresolvedOf e gaps = .ok (gaps.filter fun gap => !e.gapResolutions.contains gap.id) := by
  induction gaps with
  | nil => rfl
  | cons gap rest ih =>
    obtain ⟨hgap, hrest⟩ := List.forall_mem_cons.mp h
    rw [unresolvedOf, hgap, ih hrest]
    cases hget : e.gapResolutions.get? gap.id with
    | none => simp [bind, Except.bind, pure, Except.pure, Dict.contains, hget]
    | some v => simp [bind, Except.bind, pure, Except.pure, Dict.contains, hget]

section Reading

variable {e : Engine} {claimId : Int}

/-- The evidences that are filed under the claim, and no others. -/
theorem mem_evidencesForClaim (h : Sound e) {evidence : Evidence} :
    (evidence ∈ e.evidences.values.filter fun ev => ev.claimId = claimId) ↔
      e.evidences.get? evidence.id = some evidence ∧ evidence.claimId = claimId := by
  rw [List.mem_filter, Dict.mem_values_iff, decide_eq_true_eq]
  constructor
  · rintro ⟨⟨k, hget⟩, hclaim⟩
    rw [h.references.evidenceId hget]
    exact ⟨hget, hclaim⟩
  · rintro ⟨hget, hclaim⟩
    exact ⟨⟨_, hget⟩, hclaim⟩

/-- The gaps that the claim refers to. -/
theorem mem_gapsForClaim (h : Sound e) {gaps : List Gap}
    (hgaps : e.gapsForClaim claimId = .ok gaps) {gap : Gap} :
    gap ∈ gaps ↔ e.gaps.get? gap.id = some gap ∧ gap.id ∈ e.claimGapRefs.getD claimId ∅ := by
  constructor
  · intro hgap
    exact (h.references.gap_of_listed hgaps hgap).symm
  · rintro ⟨hget, href⟩
    exact (h.listed_of_gapRef hgaps href hget).1

/-- A record's id is its key in the store, and no key occurs twice. -/
theorem evidencesForClaim_nodup (h : Sound e) :
    ((e.evidences.values.filter fun ev => ev.claimId = claimId).map Evidence.id).Nodup := by
  have hkeys : e.evidences.values.map Evidence.id = e.evidences.keys := by
    rw [Dict.values, Dict.keys, List.map_map]
    refine List.map_congr_left fun p hp => ?_
    exact h.references.evidenceId (Dict.mem_entries_iff.mp hp)
  have hall : (e.evidences.values.map Evidence.id).Nodup := hkeys ▸ e.evidences.keys_nodup
  exact hall.sublist (List.filter_sublist.map Evidence.id)

/-- The ids are sorted before the records are read, so the sort of the records changes nothing. -/
theorem gapsForClaim_ascending (h : Sound e) {gaps : List Gap}
    (hgaps : e.gapsForClaim claimId = .ok gaps) : (gaps.map Gap.id).Pairwise (· < ·) := by
  obtain ⟨_, _, hgaps⟩ := bind_ok_iff.mp hgaps
  obtain ⟨records, hrecords, hsorted⟩ := bind_ok_iff.mp hgaps
  cases hsorted
  -- the gaps are read in the order of their ids, which the sort by id keeps
  have hids : records.map Gap.id = sortSet (· ≤ ·) (e.claimGapRefs.getD claimId ∅) := by
    have hread := (mapM_ok_iff.mp hrecords).imp fun g gap hget =>
      h.references.gapId (Engine.subscript_ok_iff.mp hget)
    rw [← List.forall₂_eq_eq_eq, List.forall₂_map_left_iff]
    exact hread.flip
  have hascending : (records.map Gap.id).Pairwise (· < ·) := hids ▸ sortSet_pairwise_lt _
  have hsorted : records.Pairwise fun g h => g.id ≤ h.id :=
    (List.pairwise_map.mp hascending).imp le_of_lt
  rwa [hsorted.insertionSort_eq]

/-- Every read of a claim that is there returns. -/
theorem buildEngineContextPacket_eq (h : Sound e) {claim : Claim} {gaps : List Gap}
    {score : ScoreValue} (hclaim : e.claims.get? claimId = some claim)
    (hscore : e.computeEffectiveConfidence claimId = .ok score)
    (hgaps : e.gapsForClaim claimId = .ok gaps) :
    buildEngineContextPacket e claimId = .ok {
      claim
      effectiveConfidence := score
      supportingEvidence := e.evidences.values.filter fun ev => ev.claimId = claimId
      contradictions := sortSet (· ≤ ·) (e.contradictions.getD claimId ∅)
      activeContradictions := sortSet (· ≤ ·) (e.activeContradictions claimId)
      unresolvedGaps := gaps.filter fun gap => !e.gapResolutions.contains gap.id
      lifecycleHistory := e.eventsOf claimId } := by
  have hexists : e.assertClaimExists claimId = .ok () :=
    Engine.assertExists_ok_iff.mpr (Dict.contains_of_get? hclaim)
  have hunresolved := unresolvedOf_eq fun gap hgap => h.gapResolution_returns hgaps hgap
  rw [buildEngineContextPacket, Engine.getClaim, Engine.subscript_ok_iff.mpr hclaim, hscore, hgaps]
  simp only [Engine.evidencesForClaim, Engine.contradictionsForClaim,
    Engine.activeContradictionsForClaim, Engine.claimLifecycleHistory, hexists, hunresolved, bind,
    Except.bind, pure, Except.pure]
  rfl

end Reading

theorem packet_of_claim {s : Session} (h : s.Reachable) {claimId : Int} {claim : Claim}
    (hclaim : s.engine.claims.get? claimId = some claim) :
    ∃ packet, buildEngineContextPacket s.engine claimId = .ok packet ∧
      PacketExact s.log s.engine claimId packet := by
  have hsound := h.sound
  have hcontains := Dict.contains_of_get? hclaim
  obtain ⟨factors, hfactored, _⟩ := hsound.exists_factors hclaim
  obtain ⟨score, hscore, _⟩ := hfactored.effective
  obtain ⟨gaps, hgaps⟩ := hsound.gapsForClaim_returns hcontains
  refine ⟨_, buildEngineContextPacket_eq hsound hclaim hscore hgaps, ?_⟩
  -- the history comes from the log, which starts at the added status
  have haccount := h.history.account hclaim
  obtain ⟨status, hadded⟩ := haccount.added
  exact {
    claim := hclaim
    about := hsound.references.claimId hclaim
    confidence := hscore
    evidence := fun evidence => mem_evidencesForClaim hsound
    evidenceOnce := evidencesForClaim_nodup hsound
    evidenceOrder := List.filter_sublist
    contradictions := fun v => mem_sortSet
    contradictionsOrder := sortSet_pairwise_lt _
    contradictionExists := fun v hv =>
      hsound.references.contradictionEvidence (mem_sortSet.mp hv)
    active := fun v => by
      rw [mem_sortSet, mem_sortSet, Engine.activeContradictions, Finset.mem_sdiff]
    activeOrder := sortSet_pairwise_lt _
    gaps := fun gap => by
      rw [List.mem_filter, mem_gapsForClaim hsound hgaps, and_assoc, Bool.not_eq_true']
    gapsOrder := (gapsForClaim_ascending hsound hgaps).sublist (List.filter_sublist.map Gap.id)
    lifecycleHistory := rfl
    history := ⟨status, hadded, haccount.chain status hadded⟩
    recorded := haccount.legal
    increasing := haccount.increasing }

/-- When the packet is built and what it shows. -/
structure InspectorExact (s : Session) (claimId : Int) : Prop where
  known : s.engine.claims.contains claimId = true →
    ∃ packet, buildEngineContextPacket s.engine claimId = .ok packet ∧
      PacketExact s.log s.engine claimId packet
  unknown : s.engine.claims.contains claimId = false →
    buildEngineContextPacket s.engine claimId = .error (.keyError [.value (.int claimId)])

/-- **The packet is exact.** -/
theorem packet_exact {s : Session} (h : s.Reachable) (claimId : Int) :
    InspectorExact s claimId where
  known hknown := by
    obtain ⟨claim, hclaim⟩ := Dict.contains_iff.mp hknown
    exact packet_of_claim h hclaim
  unknown hunknown := by
    have hnone : s.engine.claims.get? claimId = none := by
      rw [Dict.get?_eq_none, hunknown]
      exact Bool.false_ne_true
    simp only [buildEngineContextPacket, Engine.getClaim, Engine.subscript, hnone]
    rfl

/-- The packet of the disputed claim. -/
theorem packet_exact_disputed : InspectorExact Session.disputed 1 :=
  packet_exact Session.disputed_reachable 1

/-! ## What the validators report on it

On a packet of the engine the validators read entries of the right type, so they do not raise. -/

section Validators

variable (str : Lowering) (packet : ContextPacket)

/-- They read the status that the packet has. -/
theorem asDict_refuted :
    claimStatusIsAlreadyRefuted packet.asDict =
      .ok ((PyValue.ofJson packet.claim.status).eqInt claimStatusRefuted) := rfl

theorem asDict_contradictions :
    HasMembers packet.asDict "contradictions" packet.contradictions.length :=
  ⟨.tuple (packet.contradictions.map .int), rfl, by rw [PyValue.len, List.length_map]⟩

theorem asDict_unresolvedGaps :
    HasMembers packet.asDict "unresolved_gaps" packet.unresolvedGaps.length :=
  ⟨.tuple (packet.unresolvedGaps.map gapObject), rfl, by rw [PyValue.len, List.length_map]⟩

theorem asDict_claimId :
    packetClaimId packet.asDict = .int packet.claim.id := rfl

variable {str packet}

end Validators

end Inspector

end Ragcore
