import Ragcore.Engine.Queries
import Ragcore.Snapshot.RoundTrip

/-!
# Ragcore — a restored engine behaves as the original

A round trip keeps every store as a map and sorts its entries. One read shows the order of a
store: `evidences_for_claim` lists the evidence as the dict holds it. It survives because ids are
handed out in ascending order, so the order in which evidence arrived is the order of its ids.

* **`Matches`** — the simulation relation: equal stores, and the evidence in the same order.
* **`Matches.query`** — matching engines answer every read alike, up to the state identity.
* **`Matches.call`** — every public call returns the same and keeps them matching.
* **`EvidencesAscending`** — the invariant that makes a round trip match its original.
-/

namespace Ragcore

/-- Stores that answer alike, with evidences in the same order. -/
structure Matches (e e' : Engine) : Prop where
  stores : e.Equiv e'
  evidences : e.evidences = e'.evidences

/-! ## Reads

Every query reads stores that answer lookups alike and sets that are sorted before they are
returned, so what it gives does not depend on the order of a dict. The exception is the evidence of
a claim, which comes in the order of its store. -/

/-- A lookup with its `KeyError`. -/
theorem subscript_congr {α : Type} {store store' : Dict Int α} (h : store.Equiv store') (n : Int) :
    Engine.subscript store n = Engine.subscript store' n := by
  unfold Engine.subscript
  rw [h n]

theorem answer_congr {α : Type} (f : α → Answer) {x y : Except PyErr α} (h : x = y) :
    Answer.unstamped <$> (f <$> x) = Answer.unstamped <$> (f <$> y) := by
  rw [h]

namespace Matches

variable {e e' : Engine} (h : Matches e e')
include h

theorem assertEntityExists (n : Int) : e.assertEntityExists n = e'.assertEntityExists n := by
  unfold Engine.assertEntityExists
  rw [h.stores.entities.contains n]

theorem assertClaimExists (n : Int) : e.assertClaimExists n = e'.assertClaimExists n := by
  unfold Engine.assertClaimExists
  rw [h.stores.claims.contains n]

theorem assertEvidenceExists (n : Int) :
    e.assertEvidenceExists n = e'.assertEvidenceExists n := by
  unfold Engine.assertEvidenceExists
  rw [h.stores.evidences.contains n]

theorem assertGapExists (n : Int) : e.assertGapExists n = e'.assertGapExists n := by
  unfold Engine.assertGapExists
  rw [h.stores.gaps.contains n]

theorem idExists (kind n : Int) : e.idExists kind n = e'.idExists kind n := by
  unfold Engine.idExists
  rw [h.stores.entities.contains n, h.stores.observations.contains n, h.stores.claims.contains n,
    h.stores.evidences.contains n, h.stores.relations.contains n, h.stores.gaps.contains n]

theorem nextCounter (kind : String) : e.nextCounter kind = e'.nextCounter kind := by
  unfold Engine.nextCounter
  rw [h.stores.nextId.getD kind]

theorem getClaim (n : Int) : e.getClaim n = e'.getClaim n := subscript_congr h.stores.claims n

theorem getEvidence (n : Int) : e.getEvidence n = e'.getEvidence n :=
  subscript_congr h.stores.evidences n

theorem getGap (n : Int) : e.getGap n = e'.getGap n := subscript_congr h.stores.gaps n

/-- The one read that sees the order of a dict. -/
theorem evidencesForClaim (n : Int) : e.evidencesForClaim n = e'.evidencesForClaim n := by
  unfold Engine.evidencesForClaim
  rw [h.assertClaimExists n, h.evidences]

theorem gapsForClaim (n : Int) : e.gapsForClaim n = e'.gapsForClaim n := by
  have hget : (fun g => e.getGap g) = fun g => e'.getGap g := funext h.getGap
  unfold Engine.gapsForClaim
  rw [h.assertClaimExists n, h.stores.claimGapRefs.getD n, hget]

theorem gapResolution (n : Int) : e.gapResolution n = e'.gapResolution n := by
  unfold Engine.gapResolution
  rw [h.assertGapExists n, h.stores.gapResolutions n]

theorem contradictionsForClaim (n : Int) :
    e.contradictionsForClaim n = e'.contradictionsForClaim n := by
  unfold Engine.contradictionsForClaim
  rw [h.assertClaimExists n, h.stores.contradictions.getD n]

theorem resolvedContradictionsForClaim (n : Int) :
    e.resolvedContradictionsForClaim n = e'.resolvedContradictionsForClaim n := by
  unfold Engine.resolvedContradictionsForClaim
  rw [h.assertClaimExists n, h.stores.resolvedContradictions.getD n]

theorem activeContradictions (n : Int) :
    e.activeContradictions n = e'.activeContradictions n := by
  unfold Engine.activeContradictions
  rw [h.stores.contradictions.getD n, h.stores.resolvedContradictions.getD n]

theorem activeContradictionsForClaim (n : Int) :
    e.activeContradictionsForClaim n = e'.activeContradictionsForClaim n := by
  unfold Engine.activeContradictionsForClaim
  rw [h.assertClaimExists n, h.activeContradictions n]

theorem activeContradictionsByFreshness (n : Int) :
    e.activeContradictionsByFreshness n = e'.activeContradictionsByFreshness n := by
  unfold Engine.activeContradictionsByFreshness
  rw [h.assertClaimExists n, h.activeContradictions n]

/-- The log of a claim is a list under its key. -/
theorem claimLifecycleHistory (n : Int) :
    e.claimLifecycleHistory n = e'.claimLifecycleHistory n := by
  unfold Engine.claimLifecycleHistory
  rw [h.assertClaimExists n, h.stores.claimLifecycleEvents.getD n]

theorem evidenceFreshness (n : Int) : e.evidenceFreshness n = e'.evidenceFreshness n := by
  unfold Engine.evidenceFreshness
  rw [h.assertEvidenceExists n]

theorem getRule (n v : Int) : e.getRule n v = e'.getRule n v := by
  unfold Engine.getRule Engine.assertRulePairExists
  rw [h.stores.ruleDefinitions.contains (n, v), h.stores.ruleDefinitions (n, v)]

theorem getRuleStats (n v : Int) : e.getRuleStats n v = e'.getRuleStats n v := by
  unfold Engine.getRuleStats Engine.assertRuleStatsPairExists
  rw [h.stores.ruleStats.contains (n, v), h.stores.ruleStats (n, v)]

theorem strengthOf (n : Int) : e.strengthOf n = e'.strengthOf n := by
  unfold Engine.strengthOf
  rw [subscript_congr h.stores.evidences n]

theorem allResolved (gaps : List Gap) : e.allResolved gaps = e'.allResolved gaps := by
  induction gaps with
  | nil => rfl
  | cons gap rest ih => rw [Engine.allResolved, Engine.allResolved, h.gapResolution gap.id, ih]

theorem anyStrong (ids : List Int) : e.anyStrong ids = e'.anyStrong ids := by
  induction ids with
  | nil => rfl
  | cons n rest ih => rw [Engine.anyStrong, Engine.anyStrong, h.strengthOf n, ih]

/-! ### Effective confidence

The adapters read what the queries above read. -/

theorem statusModifierForClaim (n : Int) :
    e.statusModifierForClaim n = e'.statusModifierForClaim n := by
  unfold Engine.statusModifierForClaim
  rw [subscript_congr h.stores.claims n]

theorem freshnessModifierForClaim (n : Int) :
    e.freshnessModifierForClaim n = e'.freshnessModifierForClaim n := by
  unfold Engine.freshnessModifierForClaim
  simp only [h.activeContradictionsByFreshness n, h.strengthOf]

theorem gapModifierForClaim (n : Int) :
    e.gapModifierForClaim n = e'.gapModifierForClaim n := by
  have hresolved : e.gapResolutions.contains = e'.gapResolutions.contains :=
    funext h.stores.gapResolutions.contains
  unfold Engine.gapModifierForClaim
  rw [h.stores.claimGapRefs.getD n, hresolved]

/-- The strengths are added in the order of the ids. -/
theorem countModifierForClaim (n : Int) :
    e.countModifierForClaim n = e'.countModifierForClaim n := by
  have hstrength : (fun v => e.strengthOf v) = fun v => e'.strengthOf v := funext h.strengthOf
  unfold Engine.countModifierForClaim
  rw [h.activeContradictionsForClaim n, hstrength]

/-- The statistics of a rule are looked up by its pair. -/
theorem ruleStatsModifierForClaim (n : Int) :
    e.ruleStatsModifierForClaim n = e'.ruleStatsModifierForClaim n := by
  have hlookup : ∀ rule version,
      e.ruleStatsLookup rule version = e'.ruleStatsLookup rule version := by
    intro rule version
    have hget : e.ruleStats.get? = e'.ruleStats.get? := funext h.stores.ruleStats
    unfold Engine.ruleStatsLookup
    rw [hget]
  unfold Engine.ruleStatsModifierForClaim
  simp only [subscript_congr h.stores.claims n, hlookup]

theorem evidenceTypeModifierForClaim (n : Int) :
    e.evidenceTypeModifierForClaim n = e'.evidenceTypeModifierForClaim n := by
  unfold Engine.evidenceTypeModifierForClaim Engine.directEvidenceTypes
  rw [h.stores.contradictions.getD n, h.stores.resolvedContradictions.getD n, h.evidences,
    h.stores.hintEvidenceTypes]

/-- The two computations differ in the stamp of their last step. -/
theorem computeEffectiveConfidenceCore (n : Int) :
    EffectiveConfidenceTrace.unstamped <$> e.computeEffectiveConfidenceCore n =
      EffectiveConfidenceTrace.unstamped <$> e'.computeEffectiveConfidenceCore n := by
  unfold Engine.computeEffectiveConfidenceCore Engine.stateIdentity
  simp only [h.assertClaimExists n, subscript_congr h.stores.claims n, h.statusModifierForClaim n,
    h.freshnessModifierForClaim n, h.gapModifierForClaim n, h.countModifierForClaim n,
    h.ruleStatsModifierForClaim n, h.evidenceTypeModifierForClaim n,
    EngineStateIdentity.new_uuid, map_bind]
  rfl

/-- The trace records a state identity; the score does not depend on it. -/
theorem computeEffectiveConfidence (n : Int) :
    e.computeEffectiveConfidence n = e'.computeEffectiveConfidence n := by
  have hscore : ∀ e : Engine, e.computeEffectiveConfidence n =
      EffectiveConfidenceTrace.effectiveConfidence <$>
        (EffectiveConfidenceTrace.unstamped <$> e.computeEffectiveConfidenceCore n) := by
    intro e
    unfold Engine.computeEffectiveConfidence
    cases e.computeEffectiveConfidenceCore n <;> rfl
  rw [hscore, hscore, h.computeEffectiveConfidenceCore n]

theorem toSnapshot : e.toSnapshot = e'.toSnapshot := Snapshot.encodeSnapshot_congr h.stores

/-- **Matching engines answer every read alike.** -/
theorem query (q : Query) : Answer.unstamped <$> q.run e = Answer.unstamped <$> q.run e' := by
  cases q with
  | getEntity n => exact answer_congr _ (subscript_congr h.stores.entities n)
  | getObservation n => exact answer_congr _ (subscript_congr h.stores.observations n)
  | getClaim n => exact answer_congr _ (h.getClaim n)
  | getEvidence n => exact answer_congr _ (h.getEvidence n)
  | evidencesForClaim n => exact answer_congr _ (h.evidencesForClaim n)
  | getRelation n => exact answer_congr _ (subscript_congr h.stores.relations n)
  | getGap n => exact answer_congr _ (h.getGap n)
  | gapsForClaim n => exact answer_congr _ (h.gapsForClaim n)
  | gapResolution n => exact answer_congr _ (h.gapResolution n)
  | contradictionsForClaim n => exact answer_congr _ (h.contradictionsForClaim n)
  | resolvedContradictionsForClaim n =>
    exact answer_congr _ (h.resolvedContradictionsForClaim n)
  | activeContradictionsForClaim n =>
    exact answer_congr _ (h.activeContradictionsForClaim n)
  | activeContradictionsByFreshness n =>
    exact answer_congr _ (h.activeContradictionsByFreshness n)
  | claimLifecycleHistory n => exact answer_congr _ (h.claimLifecycleHistory n)
  | evidenceFreshness n => exact answer_congr _ (h.evidenceFreshness n)
  | getRule n v => exact answer_congr _ (h.getRule n v)
  | getRuleStats n v => exact answer_congr _ (h.getRuleStats n v)
  | computeEffectiveConfidence n => exact answer_congr _ (h.computeEffectiveConfidence n)
  -- the trace and the identity are stamped, so they are compared without the stamp
  | computeEffectiveConfidenceWithTrace n =>
    have htrace : ∀ e : Engine,
        Answer.unstamped <$> (Answer.trace <$> e.computeEffectiveConfidenceWithTrace n) =
          Answer.trace <$> (EffectiveConfidenceTrace.unstamped <$>
            e.computeEffectiveConfidenceCore n) := by
      intro e
      unfold Engine.computeEffectiveConfidenceWithTrace
      cases e.computeEffectiveConfidenceCore n <;> rfl
    show Answer.unstamped <$> (Answer.trace <$> e.computeEffectiveConfidenceWithTrace n) =
      Answer.unstamped <$> (Answer.trace <$> e'.computeEffectiveConfidenceWithTrace n)
    rw [htrace, htrace, h.computeEffectiveConfidenceCore n]
  | stateIdentity =>
    show Answer.unstamped <$> (Answer.identity <$> e.stateIdentity) =
      Answer.unstamped <$> (Answer.identity <$> e'.stateIdentity)
    unfold Engine.stateIdentity
    rw [EngineStateIdentity.new_uuid, EngineStateIdentity.new_uuid]
    rfl
  | toSnapshot => exact answer_congr _ h.toSnapshot

/-! ## Writes

A mutator makes its checks on both engines alike and then writes the same to matching stores, so the
engines match afterwards. Each lemma is about one public method. -/

theorem allocateId (kind : String) :
    Agree Matches (Engine.allocateId kind e) (Engine.allocateId kind e') := by
  unfold Engine.allocateId
  refine .readState_bind h (h.nextCounter kind) fun n _ => .modify_bind (.pure ?_ n)
  exact ⟨{ h.stores with nextId := h.stores.nextId.insert kind (.int n) }, h.evidences⟩

/-- A revision on both sides; the tokens may differ. -/
theorem advanceStateRevision :
    Agree Matches (Engine.advanceStateRevision e) (Engine.advanceStateRevision e') :=
  .ok ⟨h.stores, h.evidences⟩

omit h in
/-- The tail of a mutator: write, advance the revision, return. -/
theorem written {α : Type} {a : α} {u u' : Engine → Engine} (hu : Matches (u e) (u' e')) :
    Agree Matches ((do modify u; Engine.advanceStateRevision; return a : EngineM α) e)
      ((do modify u'; Engine.advanceStateRevision; return a : EngineM α) e') :=
  .modify_bind (.bind hu.advanceStateRevision fun _ _ _ h => .pure h a)

theorem addEntity (entityType flags : Int) :
    Agree Matches (Engine.addEntity entityType flags e) (Engine.addEntity entityType flags e') := by
  unfold Engine.addEntity
  refine .bind (h.allocateId "entity") fun n s s' h => written ?_
  exact ⟨{ h.stores with entities := h.stores.entities.insert n _ }, h.evidences⟩

theorem addObservation (entityId rawRefId observationType sourceType : Int) :
    Agree Matches (Engine.addObservation entityId rawRefId observationType sourceType e)
      (Engine.addObservation entityId rawRefId observationType sourceType e') := by
  unfold Engine.addObservation
  refine .readState_bind h (h.assertEntityExists entityId) fun _ _ => ?_
  refine .bind (h.allocateId "observation") fun n s s' h => written ?_
  exact ⟨{ h.stores with observations := h.stores.observations.insert n _ }, h.evidences⟩

theorem addClaim (subjectId claimType ruleId ruleVersion reasonCode : Int)
    (baseConfidence : PyFloat) (status flags : Int) :
    Agree Matches
      (Engine.addClaim subjectId claimType ruleId ruleVersion reasonCode baseConfidence status
        flags e)
      (Engine.addClaim subjectId claimType ruleId ruleVersion reasonCode baseConfidence status
        flags e') := by
  unfold Engine.addClaim
  refine .readState_bind h (by rw [h.stores.entities.contains subjectId]) fun _ _ => ?_
  refine .readState_bind h rfl fun _ _ => .readState_bind h rfl fun score _ => ?_
  refine .bind (h.allocateId "claim") fun n s s' h => written ?_
  exact ⟨{ h.stores with claims := h.stores.claims.insert n _ }, h.evidences⟩

theorem addEvidence (claimId rawRefId evidenceType : Int) (strength : PyFloat) :
    Agree Matches (Engine.addEvidence claimId rawRefId evidenceType strength e)
      (Engine.addEvidence claimId rawRefId evidenceType strength e') := by
  unfold Engine.addEvidence
  refine .readState_bind h (h.assertClaimExists claimId) fun _ _ => ?_
  refine .readState_bind h rfl fun score _ => ?_
  refine .bind (h.allocateId "evidence") fun n s s' h => written ?_
  refine ⟨{ h.stores with evidences := h.stores.evidences.insert n _ }, ?_⟩
  show s.evidences.insert n _ = s'.evidences.insert n _
  rw [h.evidences]

theorem addRelation (fromKind fromId toKind toId relationType ruleId reasonCode : Int) :
    Agree Matches
      (Engine.addRelation fromKind fromId toKind toId relationType ruleId reasonCode e)
      (Engine.addRelation fromKind fromId toKind toId relationType ruleId reasonCode e') := by
  unfold Engine.addRelation
  refine .readState_bind h (h.idExists fromKind fromId) fun fromExists _ => ?_
  refine .ite .rfl (fun _ => .throw h _) fun _ => ?_
  refine .readState_bind h (h.idExists toKind toId) fun toExists _ => ?_
  refine .ite .rfl (fun _ => .throw h _) fun _ => ?_
  refine .bind (h.allocateId "relation") fun n s s' h => written ?_
  exact ⟨{ h.stores with relations := h.stores.relations.insert n _ }, h.evidences⟩

/-! ### Gaps

The dedup index answers lookups alike, so a hit on one side is a hit on the other. -/

theorem referGap (claimId gapId : Int) :
    (e.referGap claimId gapId).Equiv (e'.referGap claimId gapId) := by
  unfold Engine.referGap
  rw [h.stores.claimGapRefs.getD claimId]
  exact h.stores.claimGapRefs.insert claimId _

/-- With the same key found or not found, the same branch is taken. -/
theorem addGap (claimId gapType requiredEvidenceType : Int) (severity : PyFloat) (ruleId : Int) :
    Agree Matches (Engine.addGap claimId gapType requiredEvidenceType severity ruleId e)
      (Engine.addGap claimId gapType requiredEvidenceType severity ruleId e') := by
  unfold Engine.addGap
  refine .readState_bind h (h.assertClaimExists claimId) fun _ _ => ?_
  refine .readState_bind h rfl fun score _ => ?_
  refine .readState_bind h (h.getClaim claimId) fun claim _ => ?_
  refine .readState_bind h rfl fun subjectId _ => .get_bind ?_
  simp only [h.stores.gapDedupIndex _, h.stores.claimGapRefs.getD claimId]
  -- both engines know the key, or neither does
  cases e'.gapDedupIndex.get? (Engine.dedupKey subjectId ruleId gapType requiredEvidenceType) with
  | some g =>
    refine .ite .rfl (fun _ => written ?_) fun _ => .pure h g
    exact ⟨{ h.stores with claimGapRefs := h.referGap claimId g }, h.evidences⟩
  | none =>
    refine .bind (h.allocateId "gap") fun n s s' h => written ?_
    exact ⟨{ h.stores with
      gaps := h.stores.gaps.insert n _
      gapDedupIndex := h.stores.gapDedupIndex.insert _ n
      claimGapRefs := h.referGap claimId n }, h.evidences⟩

/-- The loop over the gaps, by induction: what one turn closes, it closes on both. -/
theorem closeMatching (evidenceId : Int) (evidence : Evidence) (gaps : List Gap) :
    Agree Matches (Engine.closeMatching evidenceId evidence gaps e)
      (Engine.closeMatching evidenceId evidence gaps e') := by
  induction gaps generalizing e e' with
  | nil => exact .pure h []
  | cons gap rest ih =>
    unfold Engine.closeMatching
    refine .get_bind ?_
    rw [h.stores.gapResolutions.contains gap.id]
    refine .ite .rfl (fun _ => .modify_bind ?_) fun _ => ih h
    -- the test reads resolutions, which agree as dicts
    have hstep : Matches
        { e with gapResolutions := e.gapResolutions.insert gap.id evidenceId }
        { e' with gapResolutions := e'.gapResolutions.insert gap.id evidenceId } :=
      ⟨{ h.stores with
        gapResolutions := h.stores.gapResolutions.insert gap.id evidenceId }, h.evidences⟩
    exact .bind (ih hstep) fun _ _ _ h => .pure h _

/-- The gaps of the claim come sorted by id. -/
theorem resolveGapsForEvidence (evidenceId : Int) :
    Agree Matches (Engine.resolveGapsForEvidence evidenceId e)
      (Engine.resolveGapsForEvidence evidenceId e') := by
  unfold Engine.resolveGapsForEvidence
  refine .readState_bind h (h.assertEvidenceExists evidenceId) fun _ _ => ?_
  refine .readState_bind h (h.getEvidence evidenceId) fun evidence _ => ?_
  refine .readState_bind h (h.gapsForClaim evidence.claimId) fun gaps _ => ?_
  refine .bind (h.closeMatching evidenceId evidence gaps) fun resolved s s' h => ?_
  exact .ite .rfl (fun _ => .bind h.advanceStateRevision fun _ _ _ h => .pure h _)
    fun _ => .pure h _

/-! ### Contradictions and transitions

Gates read sets and statuses; what passes writes the status and one event. -/

/-- Membership decides whether anything is written. -/
theorem registerContradiction (claimId evidenceId : Int) :
    Agree Matches (Engine.registerContradiction claimId evidenceId e)
      (Engine.registerContradiction claimId evidenceId e') := by
  unfold Engine.registerContradiction
  refine .readState_bind h (h.assertClaimExists claimId) fun _ _ => ?_
  refine .readState_bind h (h.assertEvidenceExists evidenceId) fun _ _ => .get_bind ?_
  simp only [h.stores.contradictions.getD claimId]
  refine .ite .rfl (fun _ => .pure h false) fun _ => written ?_
  exact ⟨{ h.stores with contradictions := h.stores.contradictions.insert claimId _ },
    h.evidences⟩

theorem registerContradictionResolution (claimId evidenceId : Int) :
    Agree Matches (Engine.registerContradictionResolution claimId evidenceId e)
      (Engine.registerContradictionResolution claimId evidenceId e') := by
  unfold Engine.registerContradictionResolution
  refine .readState_bind h (h.assertClaimExists claimId) fun _ _ => ?_
  refine .readState_bind h (h.assertEvidenceExists evidenceId) fun _ _ => .get_bind ?_
  simp only [h.stores.contradictions.getD claimId, h.stores.resolvedContradictions.getD claimId]
  refine .ite .rfl (fun _ => .throw h _) fun _ => ?_
  refine .ite .rfl (fun _ => .pure h false) fun _ => written ?_
  exact ⟨{ h.stores with
    resolvedContradictions := h.stores.resolvedContradictions.insert claimId _ }, h.evidences⟩

/-- Both sides number the event from equal counters. -/
theorem recordClaimLifecycleTransition (claimId : Int) (fromStatus toStatus : Json)
    (transition : String) :
    Agree Matches (Engine.recordClaimLifecycleTransition claimId fromStatus toStatus transition e)
      (Engine.recordClaimLifecycleTransition claimId fromStatus toStatus transition e') := by
  unfold Engine.recordClaimLifecycleTransition
  refine .readState_bind h (by rw [h.stores.lifecycleSeq]) fun seq _ => ?_
  let event : ClaimLifecycleEvent := ⟨seq, .int claimId, fromStatus, toStatus, .str transition⟩
  have hevents : (e.claimLifecycleEvents.insert claimId
        (e.claimLifecycleEvents.getD claimId [] ++ [event])).Equiv
      (e'.claimLifecycleEvents.insert claimId
        (e'.claimLifecycleEvents.getD claimId [] ++ [event])) := by
    rw [h.stores.claimLifecycleEvents.getD claimId]
    exact h.stores.claimLifecycleEvents.insert claimId _
  exact .ok ⟨{ h.stores with lifecycleSeq := rfl, claimLifecycleEvents := hevents }, h.evidences⟩

/-- The status, the event and the revision. -/
theorem commitTransition (claimId : Int) (claim : Claim) (newStatus : Json) (label : String) :
    Agree Matches (Engine.commitTransition claimId claim newStatus label e)
      (Engine.commitTransition claimId claim newStatus label e') := by
  unfold Engine.commitTransition
  refine .modify_bind ?_
  have hstatus : Matches
      { e with claims := e.claims.insert claimId { claim with status := newStatus } }
      { e' with claims := e'.claims.insert claimId { claim with status := newStatus } } :=
    ⟨{ h.stores with claims := h.stores.claims.insert claimId _ }, h.evidences⟩
  refine .bind (hstatus.recordClaimLifecycleTransition claimId claim.status newStatus label) ?_
  exact fun _ _ _ h => .bind h.advanceStateRevision fun _ _ _ h => .pure h true

/-- The gate reads the claim alike on both sides. -/
theorem gated {t : Transition} {claimId : Int} {rest : Claim → EngineM Bool}
    (hmethod : t.method claimId = t.gated claimId rest)
    (hrest : ∀ claim, Agree Matches (rest claim e) (rest claim e')) :
    Agree Matches (t.method claimId e) (t.method claimId e') := by
  rw [hmethod]
  unfold Transition.gated
  refine .readState_bind h (h.assertClaimExists claimId) fun _ _ => ?_
  refine .readState_bind h (h.getClaim claimId) fun claim _ => ?_
  exact .ite .rfl (fun _ => .pure h false) fun _ => hrest claim

/-- The six transitions share one gate on the status and differ in what they read next. -/
theorem transition (t : Transition) (claimId : Int) :
    Agree Matches (t.method claimId e) (t.method claimId e') := by
  -- each gate reads something else; behind all of them is `commitTransition`
  cases t with
  | confirm =>
    refine h.gated rfl fun claim => ?_
    refine .readState_bind h (h.gapsForClaim claimId) fun gaps _ => ?_
    refine .ite .rfl (fun _ => .pure h false) fun _ => ?_
    refine .readState_bind h (h.allResolved gaps) fun resolved _ => ?_
    exact .ite .rfl (fun _ => .pure h false) fun _ => h.commitTransition ..
  | refute =>
    refine h.gated rfl fun claim => .get_bind ?_
    rw [h.stores.contradictions.getD claimId]
    exact .ite .rfl (fun _ => .pure h false) fun _ => h.commitTransition ..
  | dispute =>
    refine h.gated rfl fun claim => .get_bind ?_
    rw [h.stores.contradictions.getD claimId]
    exact .ite .rfl (fun _ => .pure h false) fun _ => h.commitTransition ..
  | resolveDisputed =>
    refine h.gated rfl fun claim => ?_
    refine .readState_bind h (h.activeContradictionsForClaim claimId) fun active _ => ?_
    exact .ite .rfl (fun _ => .pure h false) fun _ => h.commitTransition ..
  | refuteDisputed =>
    refine h.gated rfl fun claim => ?_
    refine .readState_bind h (h.activeContradictionsForClaim claimId) fun active _ => ?_
    refine .readState_bind h (h.anyStrong active) fun strong _ => ?_
    exact .ite .rfl (fun _ => .pure h false) fun _ => h.commitTransition ..
  | refuteDisputedByFreshness =>
    refine h.gated rfl fun claim => ?_
    refine .readState_bind h (h.activeContradictionsByFreshness claimId) fun active _ => ?_
    cases active with
    | nil => exact .pure h false
    | cons mostRecent rest =>
      refine .readState_bind h (h.strengthOf mostRecent) fun strength _ => ?_
      exact .ite .rfl (fun _ => .pure h false) fun _ => h.commitTransition ..

/-! ### Rules and hints

The statistics are compared as values before the revision moves, and equal values compare equal on
both sides. -/

theorem registerRule (id version maturity : Int) (priorConfidence : ScoreValue) :
    Agree Matches (Engine.registerRule id version maturity priorConfidence e)
      (Engine.registerRule id version maturity priorConfidence e') := by
  unfold Engine.registerRule
  refine .get_bind ?_
  rw [h.stores.ruleDefinitions.contains (id, version)]
  refine .ite .rfl (fun _ => .throw h _) fun _ => .modify_bind ?_
  exact advanceStateRevision ⟨{ h.stores with
    ruleDefinitions := h.stores.ruleDefinitions.insert (id, version) _
    ruleStats := h.stores.ruleStats.insert (id, version) _ }, h.evidences⟩

theorem updateRuleStats (ruleId ruleVersion firingDelta trueDelta falseDelta : Int)
    (observedPrecision falsePositiveRate : Option ScoreValue) :
    Agree Matches
      (Engine.updateRuleStats ruleId ruleVersion firingDelta trueDelta falseDelta
        observedPrecision falsePositiveRate e)
      (Engine.updateRuleStats ruleId ruleVersion firingDelta trueDelta falseDelta
        observedPrecision falsePositiveRate e') := by
  unfold Engine.updateRuleStats
  refine .readState_bind h (h.getRuleStats ruleId ruleVersion) fun current _ => ?_
  refine .readState_bind h rfl fun stats _ => .modify_bind ?_
  have hstats : Matches
      { e with ruleStats := e.ruleStats.insert (ruleId, ruleVersion) stats }
      { e' with ruleStats := e'.ruleStats.insert (ruleId, ruleVersion) stats } :=
    ⟨{ h.stores with ruleStats := h.stores.ruleStats.insert (ruleId, ruleVersion) stats },
      h.evidences⟩
  exact .ite .rfl (fun _ => hstats.advanceStateRevision) fun _ => .pure hstats _

/-- The sizes before and after decide on the revision. -/
theorem setHintEvidenceTypes (change : Finset HKey → Finset HKey) :
    Agree Matches (Engine.setHintEvidenceTypes change e)
      (Engine.setHintEvidenceTypes change e') := by
  have hhints : Matches { e with hintEvidenceTypes := change e.hintEvidenceTypes }
      { e' with hintEvidenceTypes := change e'.hintEvidenceTypes } :=
    ⟨{ h.stores with hintEvidenceTypes := congrArg change h.stores.hintEvidenceTypes },
      h.evidences⟩
  unfold Engine.setHintEvidenceTypes
  refine .get_bind (.modify_bind (.get_bind ?_))
  exact .ite (by rw [h.stores.hintEvidenceTypes]) (fun _ => hhints.advanceStateRevision)
    fun _ => .pure hhints _

theorem clearHintEvidenceTypes :
    Agree Matches (Engine.clearHintEvidenceTypes e) (Engine.clearHintEvidenceTypes e') := by
  unfold Engine.clearHintEvidenceTypes
  refine .get_bind ?_
  rw [h.stores.hintEvidenceTypes]
  refine .ite .rfl (fun _ => .modify_bind ?_) fun _ => .pure h _
  exact advanceStateRevision ⟨{ h.stores with hintEvidenceTypes := rfl }, h.evidences⟩

/-! ### Public calls

A call is one of the methods above or a firing, which is a sequence of them. -/

/-- **Every mutator keeps matching engines matching**, with the same value or exception. -/
theorem op (o : Op) : Agree Matches (o.run e) (o.run e') := by
  -- one lemma for each mutator
  cases o with
  | addEntity => exact .map _ (h.addEntity ..)
  | addObservation => exact .map _ (h.addObservation ..)
  | addClaim => exact .map _ (h.addClaim ..)
  | addEvidence => exact .map _ (h.addEvidence ..)
  | addRelation => exact .map _ (h.addRelation ..)
  | addGap => exact .map _ (h.addGap ..)
  | resolveGapsForEvidence => exact .map _ (h.resolveGapsForEvidence ..)
  | registerContradiction => exact .map _ (h.registerContradiction ..)
  | registerContradictionResolution => exact .map _ (h.registerContradictionResolution ..)
  | transition => exact .map _ (h.transition ..)
  | registerRule => exact .map _ (h.registerRule ..)
  | updateRuleStats => exact .map _ (h.updateRuleStats ..)
  | registerHintEvidenceTypes =>
    exact .map _ (.readState_bind h rfl fun _ _ => h.setHintEvidenceTypes _)
  | unregisterHintEvidenceTypes =>
    exact .map _ (.readState_bind h rfl fun _ _ => h.setHintEvidenceTypes _)
  | clearHintEvidenceTypes => exact .map _ h.clearHintEvidenceTypes

/-- The loop of a firing over the required types. -/
theorem addRequiredGaps (claimId ruleId : Int) (types : List Int) :
    Agree Matches (Engine.addRequiredGaps claimId ruleId types e)
      (Engine.addRequiredGaps claimId ruleId types e') := by
  induction types generalizing e e' with
  | nil => exact .pure h []
  | cons evidenceType rest ih =>
    exact .bind (h.addGap ..) fun _ _ _ h => .bind (ih h) fun _ _ _ h => .pure h _

/-- The condition is evaluated away from the engine. -/
theorem fireRuleCore (ruleId ruleVersion : Int) (condition : ConditionTree)
    (output : RuleOutputTemplate) (subjectId : Int) (context : Fields)
    (requiredEvidence : Option RequiredEvidenceTemplate) :
    Agree Matches
      (Engine.fireRuleCore ruleId ruleVersion condition output subjectId context
        requiredEvidence e)
      (Engine.fireRuleCore ruleId ruleVersion condition output subjectId context
        requiredEvidence e') := by
  unfold Engine.fireRuleCore
  refine .readState_bind h (h.getRuleStats ruleId ruleVersion) fun _ _ => ?_
  refine .readState_bind h rfl fun trace _ => ?_
  refine .ite .rfl (fun _ => .pure h _) fun _ => ?_
  refine .bind (h.addClaim ..) fun claimId _ _ h => ?_
  refine .bind (h.addRequiredGaps ..) fun gapIds _ _ h => ?_
  exact .bind (h.updateRuleStats ..) fun _ _ _ h => .pure h _

theorem call (c : Call) : Agree Matches (c.run e) (c.run e') := by
  cases c with
  | op o => exact .map _ (h.op o)
  | fireRule f => exact .map _ (.bind (h.fireRuleCore ..) fun _ _ _ h => .pure h _)
  | fireRuleWithTrace f => exact .map _ (h.fireRuleCore ..)

/-- A call or a query, up to the state identity it may show. -/
theorem request (r : Request) :
    Agree Matches ((Response.unstamped <$> r.run) e) ((Response.unstamped <$> r.run) e') := by
  cases r with
  | call c => exact .map _ (.map _ (h.call c))
  | ask q =>
    have hcomp : Response.unstamped <$> (Request.ask q).run =
        (Response.answer ∘ Answer.unstamped) <$> (readState q.run : EngineM Answer) := by
      show Response.unstamped <$> (Response.answer <$> readState q.run) = _
      rw [← comp_map]
      rfl
    rw [hcomp]
    refine .readState_map _ h ?_
    rw [comp_map, h.query q, ← comp_map]

end Matches

/-! ## The order of the evidence

Evidences are added in the order of their ids and none is ever taken out. A snapshot lists a store
by ascending id, so the restored store has the order of the old one. -/

/-- The evidence store lists its ids in ascending order. -/
def EvidencesAscending (e : Engine) : Prop :=
  e.evidences.entries.Pairwise fun p q => p.1 ≤ q.1

namespace EvidencesAscending

theorem of_evidences {e e' : Engine} (h : EvidencesAscending e)
    (heq : e'.evidences = e.evidences) : EvidencesAscending e' := by
  unfold EvidencesAscending
  rw [heq]
  exact h

/-- A new evidence has the greatest id. -/
theorem writes {e e' : Engine} {o : Op} {r : Ret} (h : EvidencesAscending e)
    (hcover : CountersCover e) (hw : Writes e o r e') : EvidencesAscending e' := by
  cases hw with
  | addEvidence claim fresh =>
    -- the new id is above all others, so its entry goes to the end
    have habove := (Engine.nextCounter_of_covers hcover.evidence fresh).2
    have hnew := Dict.get?_eq_none.mp (Engine.fresh_of_covers hcover.evidence fresh)
    show (e.evidences.insert _ _).entries.Pairwise fun p q => p.1 ≤ q.1
    rw [Dict.entries_insert_of_not_contains _ hnew, List.pairwise_append]
    refine ⟨h, List.pairwise_singleton _ _, fun p hp q hq => ?_⟩
    rw [List.mem_singleton.mp hq]
    exact (habove p.1 (Dict.mem_keys_iff.mp (List.mem_map_of_mem hp))).le
  | _ => exact h.of_evidences rfl

theorem outcome {e : Engine} {o : Op} {result : EStateM.Result PyErr Engine Ret}
    (h : EvidencesAscending e) (hcover : CountersCover e) (ho : Outcome e o result) :
    EvidencesAscending (finalState result) := by
  cases ho with
  | wrote hw => exact h.writes hcover hw
  | _ => exact h.of_evidences rfl

/-- A restored store is built from a sorted list. -/
theorem reloaded (uuid : UuidHex) (e : Engine) : EvidencesAscending (e.reloaded uuid) := by
  show (e.evidences.sortedBy id).Pairwise fun p q => id p.1 ≤ id q.1
  exact e.evidences.sortedBy_pairwise_le

end EvidencesAscending

theorem Session.Reachable.evidencesAscending {s : Session} (h : s.Reachable) :
    EvidencesAscending s.engine :=
  (h.preserves (P := fun _ e => Sound e ∧ EvidencesAscending e)
    (fun uuid => ⟨.new uuid, List.Pairwise.nil⟩)
    (fun _ _ o he => ⟨he.1.op o, he.2.outcome he.1.counters (o.outcome_cases _)⟩)
    fun _ e uuid _ he hrun => by
      rw [he.1.trip hrun]
      exact ⟨he.1.congr (e.equiv_reloaded uuid), .reloaded uuid e⟩).2

theorem EvidencesAscending.matches_reloaded {e : Engine} (h : EvidencesAscending e)
    (uuid : UuidHex) : Matches e (e.reloaded uuid) := by
  have hsorted : e.evidences.sortedBy id = e.evidences.entries := Dict.sortedBy_of_pairwise h
  exact ⟨e.equiv_reloaded uuid, Dict.ext hsorted.symm⟩

/-- **A restored engine is observationally equal to the original**: it answers every later
sequence of calls and reads alike, state identities apart. -/
theorem restored_observationally_equal {s : Session} (h : s.Reachable) (uuid : UuidHex) :
    ∃ restored, s.engine.roundTrip uuid = .ok restored ∧
      ∀ requests : List Request,
        (responses Request.run requests s.engine).map (Response.unstamped <$> ·) =
          (responses Request.run requests restored).map (Response.unstamped <$> ·) := by
  refine ⟨_, Engine.roundTrip_eq h.sound.storable uuid, fun requests => ?_⟩
  exact responses_eq (fun r _ _ hmatch => hmatch.request r) requests
    (h.evidencesAscending.matches_reloaded uuid)

/-- The law on the run that disputes a claim. -/
theorem restored_observationally_equal_disputed :
    ∃ restored, Session.disputed.engine.roundTrip default = .ok restored ∧
      ∀ requests : List Request,
        (responses Request.run requests Session.disputed.engine).map (Response.unstamped <$> ·) =
          (responses Request.run requests restored).map (Response.unstamped <$> ·) :=
  restored_observationally_equal Session.disputed_reachable default

end Ragcore
