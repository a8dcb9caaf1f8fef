import Ragcore.Invariant.Dedup
import Ragcore.Invariant.Disputed
import Ragcore.Invariant.Observation

/-!
# Ragcore — two engines a claim cannot tell apart

A client that watches one claim sees what the public requests about it answer. Other clients work
on other claims meanwhile: they transition them, contradict them and close their gaps.

* **`Request.bears`** — the requests that bear on a claim: those about it, those that close gaps on
  its subject, and those that create records or write what all claims share.
* **`SameFor`** — two engines the watcher cannot tell apart: the shared stores are equal, and of the
  others what is kept for the claim. An event counts without its number, which all claims share.
* **`SameFor.addGap`**, **`SameFor.fireRuleCore`**, **`SameFor.commitTransition`** — a call that
  bears on the claim does the same on both.
-/

namespace Ragcore

/-! ## What bears on a claim

The watcher hears the requests that bear on its claim and no others. Gaps make a claim depend on its
subject: they are shared by all claims on one entity, so closing a gap there is heard too. -/

namespace Engine

/-- The claim is there and its subject is entity `n`. -/
def onSubject (e : Engine) (n claimId : Int) : Bool :=
  match e.claims.get? claimId with
  | some claim => claim.subjectId.key? = some (.int n)
  | none => false

/-- The index files the gap under another subject than `n`. -/
def filedElsewhere (e : Engine) (n gapId : Int) : Bool :=
  e.gapDedupIndex.entries.any fun entry => entry.2 = gapId ∧ entry.1.1 ≠ .int n

end Engine

namespace Op

/-- Whether a mutator bears on claim `c`, whose subject is entity `n`. -/
def bears (c n : Int) (e : Engine) : Op → Bool
  | registerContradiction claimId _ => claimId = c
  | registerContradictionResolution claimId _ => claimId = c
  | transition _ claimId => claimId = c
  | resolveGapsForEvidence evidenceId =>
    match e.evidences.get? evidenceId with
    | some evidence => e.onSubject n evidence.claimId
    | none => true
  | _ => true

end Op

/-- Whether the answer to a query may depend on what is kept for claim `c`. -/
def Query.bears (c n : Int) (e : Engine) : Query → Bool
  | getClaim claimId => claimId = c
  | contradictionsForClaim claimId => claimId = c
  | resolvedContradictionsForClaim claimId => claimId = c
  | activeContradictionsForClaim claimId => claimId = c
  | activeContradictionsByFreshness claimId => claimId = c
  | claimLifecycleHistory claimId => claimId = c
  | computeEffectiveConfidence claimId => claimId = c
  | computeEffectiveConfidenceWithTrace claimId => claimId = c
  | gapResolution gapId => !e.filedElsewhere n gapId
  | stateIdentity => false
  | toSnapshot => false
  | _ => true

/-- A firing creates a claim and counts in the shared statistics, so it always bears. -/
def Request.bears (c n : Int) (e : Engine) : Request → Bool
  | call (.op o) => o.bears c n e
  | call _ => true
  | ask q => q.bears c n e

/-- An event without its number. -/
def ClaimLifecycleEvent.unnumbered (event : ClaimLifecycleEvent) : ClaimLifecycleEvent :=
  { event with seq := .null }

/-- A history without the numbers of its events; any other answer without its state identity. -/
def Answer.unnumbered : Answer → Answer
  | history events => history (events.map ClaimLifecycleEvent.unnumbered)
  | answer => answer.unstamped

/-- Mutators return no numbers. -/
def Response.unnumbered : Response → Response
  | ret r => ret r
  | answer a => answer a.unnumbered

/-- A request, answered without state identities and event numbers. -/
def Request.respond (r : Request) : EngineM Response := Response.unnumbered <$> r.run

/-! ## Engines that look the same

Equality where a store is shared, and agreement at `c` where a store is kept claim by claim. The
lifecycle sequence, the revision and the state identity are left out: every claim moves them. -/

/-- A claim without its status. -/
def Claim.unjudged (claim : Claim) : Claim := { claim with status := .null }

/-- Two engines that a watcher of claim `c`, about entity `n`, cannot tell apart. -/
structure SameFor (c n : Int) (e e' : Engine) : Prop where
  nextId : e.nextId = e'.nextId
  entities : e.entities = e'.entities
  observations : e.observations = e'.observations
  evidences : e.evidences = e'.evidences
  relations : e.relations = e'.relations
  gaps : e.gaps = e'.gaps
  ruleDefinitions : e.ruleDefinitions = e'.ruleDefinitions
  ruleStats : e.ruleStats = e'.ruleStats
  gapDedupIndex : e.gapDedupIndex = e'.gapDedupIndex
  claimGapRefs : e.claimGapRefs = e'.claimGapRefs
  hintEvidenceTypes : e.hintEvidenceTypes = e'.hintEvidenceTypes
  /-- Another claim may differ in its status. -/
  records : ∀ k, (e.claims.get? k).map Claim.unjudged = (e'.claims.get? k).map Claim.unjudged
  claim : e.claims.get? c = e'.claims.get? c
  contradictions : e.contradictions.getD c ∅ = e'.contradictions.getD c ∅
  resolved : e.resolvedContradictions.getD c ∅ = e'.resolvedContradictions.getD c ∅
  resolutions : ∀ g, e.filedElsewhere n g = false →
    e.gapResolutions.get? g = e'.gapResolutions.get? g
  events : (e.eventsOf c).map ClaimLifecycleEvent.unnumbered =
    (e'.eventsOf c).map ClaimLifecycleEvent.unnumbered

/-- The scan of the index, as a lookup. -/
theorem filedElsewhere_iff {e : Engine} {n g : Int} :
    e.filedElsewhere n g = true ↔ ∃ key, e.gapDedupIndex.get? key = some g ∧ key.1 ≠ .int n := by
  simp only [Engine.filedElsewhere, List.any_eq_true, decide_eq_true_eq]
  constructor
  · rintro ⟨⟨key, g'⟩, hmem, rfl, hne⟩
    exact ⟨key, Dict.mem_entries_iff.mp hmem, hne⟩
  · rintro ⟨key, hget, hne⟩
    exact ⟨(key, g), Dict.mem_entries_iff.mpr hget, rfl, hne⟩

theorem getD_insert_self {κ ν : Type} [DecidableEq κ] (d : Dict κ ν) (k : κ) (v default : ν) :
    (d.insert k v).getD k default = v := Dict.getD_of_get? (Dict.get?_insert_self d k v)

theorem insert_congr {κ ν : Type} [DecidableEq κ] {d d' : Dict κ ν} (h : d = d') (k : κ) (v : ν) :
    d.insert k v = d'.insert k v := by rw [h]

/-- The record of a claim under a new status, in stores whose records agree. -/
theorem records_insert {claims claims' : Dict Int Claim}
    (h : ∀ k, (claims.get? k).map Claim.unjudged = (claims'.get? k).map Claim.unjudged)
    {claimId : Int} {claim claim' : Claim} (hclaim : claim.unjudged = claim'.unjudged) (k : Int) :
    ((claims.insert claimId claim).get? k).map Claim.unjudged =
      ((claims'.insert claimId claim').get? k).map Claim.unjudged := by
  rw [Dict.get?_insert, Dict.get?_insert]
  split
  · rw [Option.map_some, Option.map_some, hclaim]
  · exact h k

namespace SameFor

theorem refl (c n : Int) (e : Engine) : SameFor c n e e := by
  constructor <;> intros <;> rfl

variable {c n : Int} {e e' : Engine} (h : SameFor c n e e')
include h

/-! ### Reads

A read that bears on the claim touches only what the two engines share, so it gives the same on
both, exceptions included. -/

theorem contains (k : Int) : e.claims.contains k = e'.claims.contains k := by
  have hrecord := congrArg Option.isSome (h.records k)
  rwa [Option.isSome_map, Option.isSome_map] at hrecord

theorem onSubject (k : Int) : e.onSubject n k = e'.onSubject n k := by
  have hrecord := h.records k
  unfold Engine.onSubject
  -- the claim is there on both sides or on neither
  cases hk : e.claims.get? k with
  | none =>
    rw [hk, Option.map_none, eq_comm, Option.map_eq_none_iff] at hrecord
    rw [hrecord]
  | some claim =>
    rw [hk, Option.map_some, eq_comm, Option.map_eq_some_iff] at hrecord
    obtain ⟨claim', hk', hsame⟩ := hrecord
    have hunjudged := congrArg Claim.subjectId hsame
    have hsubject : claim'.subjectId = claim.subjectId := hunjudged
    rw [hk']
    simp only [hsubject]

theorem filedElsewhere (g : Int) : e.filedElsewhere n g = e'.filedElsewhere n g := by
  unfold Engine.filedElsewhere
  rw [h.gapDedupIndex]

theorem assertClaimExists (k : Int) : e.assertClaimExists k = e'.assertClaimExists k := by
  unfold Engine.assertClaimExists
  rw [h.contains k]

theorem assertEvidenceExists (v : Int) : e.assertEvidenceExists v = e'.assertEvidenceExists v := by
  unfold Engine.assertEvidenceExists
  rw [h.evidences]

theorem idExists (kind k : Int) : e.idExists kind k = e'.idExists kind k := by
  unfold Engine.idExists
  rw [h.entities, h.observations, h.contains k, h.evidences, h.relations, h.gaps]

theorem nextCounter (kind : String) : e.nextCounter kind = e'.nextCounter kind := by
  unfold Engine.nextCounter
  rw [h.nextId]

theorem getClaim : e.getClaim c = e'.getClaim c := by
  unfold Engine.getClaim Engine.subscript
  rw [h.claim]

theorem getEvidence (v : Int) : e.getEvidence v = e'.getEvidence v := by
  unfold Engine.getEvidence
  rw [h.evidences]

theorem gapsForClaim (k : Int) : e.gapsForClaim k = e'.gapsForClaim k := by
  have hget : (fun g => e.getGap g) = fun g => e'.getGap g := by
    unfold Engine.getGap
    rw [h.gaps]
  unfold Engine.gapsForClaim
  rw [h.assertClaimExists k, h.claimGapRefs, hget]

/-- A gap on the watched subject has the same resolver. -/
theorem gapResolution {g : Int} (hg : e.filedElsewhere n g = false) :
    e.gapResolution g = e'.gapResolution g := by
  unfold Engine.gapResolution Engine.assertGapExists
  rw [h.gaps, h.resolutions g hg]

/-- So the gaps of the claim are all resolved on both or on neither. -/
theorem allResolved {gaps : List Gap} (hgaps : ∀ gap ∈ gaps, e.filedElsewhere n gap.id = false) :
    e.allResolved gaps = e'.allResolved gaps := by
  induction gaps with
  | nil => rfl
  | cons gap rest ih =>
    obtain ⟨hgap, hrest⟩ := List.forall_mem_cons.mp hgaps
    rw [Engine.allResolved, Engine.allResolved, h.gapResolution hgap, ih hrest]

/-- What is active is a difference of two sets kept for the claim. -/
theorem activeContradictions : e.activeContradictions c = e'.activeContradictions c := by
  unfold Engine.activeContradictions
  rw [h.contradictions, h.resolved]

theorem activeContradictionsForClaim :
    e.activeContradictionsForClaim c = e'.activeContradictionsForClaim c := by
  unfold Engine.activeContradictionsForClaim
  rw [h.assertClaimExists c, h.activeContradictions]

/-- The order of freshness comes from the evidences, which are shared. -/
theorem activeContradictionsByFreshness :
    e.activeContradictionsByFreshness c = e'.activeContradictionsByFreshness c := by
  unfold Engine.activeContradictionsByFreshness
  rw [h.assertClaimExists c, h.activeContradictions]

theorem strengthOf (v : Int) : e.strengthOf v = e'.strengthOf v := by
  unfold Engine.strengthOf
  rw [h.evidences]

theorem anyStrong (ids : List Int) : e.anyStrong ids = e'.anyStrong ids := by
  induction ids with
  | nil => rfl
  | cons v rest ih => rw [Engine.anyStrong, Engine.anyStrong, h.strengthOf v, ih]

/-! ### Calls that create records or write what all claims share

Each call makes the same checks, takes the same id and writes the same record on both sides. Only
the fields it writes have to be compared again. -/

theorem allocateId (kind : String) :
    Agree (SameFor c n) (Engine.allocateId kind e) (Engine.allocateId kind e') := by
  unfold Engine.allocateId
  refine .readState_bind h (h.nextCounter kind) fun k _ => .modify_bind (.pure ?_ k)
  exact { h with nextId := insert_congr h.nextId kind _ }

/-- The revision is not compared. -/
theorem advanceStateRevision :
    Agree (SameFor c n) (Engine.advanceStateRevision e) (Engine.advanceStateRevision e') :=
  .ok { h with }

omit h in
/-- The tail of a mutator: write, advance the revision, return. -/
theorem written {α : Type} {a : α} {u u' : Engine → Engine} (hu : SameFor c n (u e) (u' e')) :
    Agree (SameFor c n) ((do modify u; Engine.advanceStateRevision; return a : EngineM α) e)
      ((do modify u'; Engine.advanceStateRevision; return a : EngineM α) e') :=
  .modify_bind (.bind hu.advanceStateRevision fun _ _ _ h => .pure h a)

theorem addEntity (entityType flags : Int) :
    Agree (SameFor c n) (Engine.addEntity entityType flags e)
      (Engine.addEntity entityType flags e') := by
  unfold Engine.addEntity
  refine .bind (h.allocateId "entity") fun k s s' h => written ?_
  exact { h with entities := insert_congr h.entities k _ }

theorem addObservation (entityId rawRefId observationType sourceType : Int) :
    Agree (SameFor c n)
      (Engine.addObservation entityId rawRefId observationType sourceType e)
      (Engine.addObservation entityId rawRefId observationType sourceType e') := by
  unfold Engine.addObservation
  refine .readState_bind h ?_ fun _ _ => ?_
  · unfold Engine.assertEntityExists
    rw [h.entities]
  refine .bind (h.allocateId "observation") fun k s s' h => written ?_
  exact { h with observations := insert_congr h.observations k _ }

/-- The new claim may be the watched one of a later watcher, so its record is written alike. -/
theorem addClaim (subjectId claimType ruleId ruleVersion reasonCode : Int)
    (baseConfidence : PyFloat) (status flags : Int) :
    Agree (SameFor c n)
      (Engine.addClaim subjectId claimType ruleId ruleVersion reasonCode baseConfidence status
        flags e)
      (Engine.addClaim subjectId claimType ruleId ruleVersion reasonCode baseConfidence status
        flags e') := by
  unfold Engine.addClaim
  refine .readState_bind h (by rw [h.entities]) fun _ _ => ?_
  refine .readState_bind h rfl fun _ _ => .readState_bind h rfl fun score _ => ?_
  refine .bind (h.allocateId "claim") fun k s s' h => written ?_
  -- the id is the same on both sides, because the counters are
  exact { h with
    records := records_insert h.records rfl
    claim := by
      show (s.claims.insert k _).get? c = (s'.claims.insert k _).get? c
      rw [Dict.get?_insert, Dict.get?_insert, h.claim] }

theorem addEvidence (claimId rawRefId evidenceType : Int) (strength : PyFloat) :
    Agree (SameFor c n) (Engine.addEvidence claimId rawRefId evidenceType strength e)
      (Engine.addEvidence claimId rawRefId evidenceType strength e') := by
  unfold Engine.addEvidence
  refine .readState_bind h (h.assertClaimExists claimId) fun _ _ => ?_
  refine .readState_bind h rfl fun score _ => ?_
  refine .bind (h.allocateId "evidence") fun k s s' h => written ?_
  exact { h with evidences := insert_congr h.evidences k _ }

theorem addRelation (fromKind fromId toKind toId relationType ruleId reasonCode : Int) :
    Agree (SameFor c n)
      (Engine.addRelation fromKind fromId toKind toId relationType ruleId reasonCode e)
      (Engine.addRelation fromKind fromId toKind toId relationType ruleId reasonCode e') := by
  unfold Engine.addRelation
  refine .readState_bind h (h.idExists fromKind fromId) fun fromExists _ => ?_
  refine .ite .rfl (fun _ => .throw h _) fun _ => ?_
  refine .readState_bind h (h.idExists toKind toId) fun toExists _ => ?_
  refine .ite .rfl (fun _ => .throw h _) fun _ => ?_
  refine .bind (h.allocateId "relation") fun k s s' h => written ?_
  exact { h with relations := insert_congr h.relations k _ }

/-- The claim a gap is added for is read on both sides, perhaps under another status. -/
theorem getClaim_subject (k : Int) :
    SameOutcome (fun a b : Claim => a.subjectId = b.subjectId) (e.getClaim k) (e'.getClaim k) := by
  have hrecord := h.records k
  unfold Engine.getClaim Engine.subscript
  -- the claim is there on both sides or on neither
  cases hk : e.claims.get? k with
  | none =>
    rw [hk, Option.map_none, eq_comm, Option.map_eq_none_iff] at hrecord
    rw [hrecord]
    exact .error _
  | some claim =>
    rw [hk, Option.map_some, eq_comm, Option.map_eq_some_iff] at hrecord
    obtain ⟨claim', hk', hsame⟩ := hrecord
    have hsubject := congrArg Claim.subjectId hsame
    rw [hk']
    exact .ok hsubject.symm

theorem referGap (claimId gapId : Int) :
    e.referGap claimId gapId = e'.referGap claimId gapId := by
  unfold Engine.referGap
  rw [h.claimGapRefs]

omit h in
/-- A gap that is filed elsewhere stays so when another key is added. -/
theorem filedElsewhere_insert {s : Engine} {key : DedupKey} {k g : Int}
    (hunknown : s.gapDedupIndex.get? key = none)
    (hfiled : Engine.filedElsewhere { s with gapDedupIndex := s.gapDedupIndex.insert key k } n g =
      false) : s.filedElsewhere n g = false := by
  rw [← Bool.not_eq_true] at hfiled ⊢
  rw [filedElsewhere_iff] at hfiled ⊢
  rintro ⟨other, hother, hne⟩
  refine hfiled ⟨other, (Dict.get?_insert_of_ne _ _ ?_).trans hother, hne⟩
  rintro rfl
  rw [hunknown] at hother
  cases hother

/-- A dedup hit only adds a reference; a miss files a new gap under the subject of its claim. -/
theorem addGap (claimId gapType requiredEvidenceType : Int) (severity : PyFloat) (ruleId : Int) :
    Agree (SameFor c n) (Engine.addGap claimId gapType requiredEvidenceType severity ruleId e)
      (Engine.addGap claimId gapType requiredEvidenceType severity ruleId e') := by
  unfold Engine.addGap
  refine .readState_bind h (h.assertClaimExists claimId) fun _ _ => ?_
  refine .readState_bind h rfl fun score _ => ?_
  refine .readState_bind_of h (h.getClaim_subject claimId) fun claim claim' hsubject => ?_
  refine .readState_bind h (by rw [hsubject]) fun subjectId _ => .get_bind ?_
  simp only [← h.gapDedupIndex, ← h.claimGapRefs]
  cases hkey : e.gapDedupIndex.get?
      (Engine.dedupKey subjectId ruleId gapType requiredEvidenceType) with
  | some g =>
    refine .ite .rfl (fun _ => written ?_) fun _ => .pure h g
    exact { h with claimGapRefs := h.referGap claimId g }
  | none =>
    -- the new gap is filed under the subject of its claim, and no other gap moves
    simp only
    rw [Engine.run_allocateId_bind, Engine.run_allocateId_bind, ← h.nextCounter "gap"]
    cases e.nextCounter "gap" with
    | error err => exact .error h
    | ok k =>
      refine written ?_
      exact { h with
        nextId := insert_congr h.nextId "gap" _
        gaps := insert_congr h.gaps k _
        gapDedupIndex := insert_congr h.gapDedupIndex _ k
        claimGapRefs := h.referGap claimId k
        resolutions := fun g hfiled => h.resolutions g (filedElsewhere_insert hkey hfiled) }

theorem registerRule (id version maturity : Int) (priorConfidence : ScoreValue) :
    Agree (SameFor c n) (Engine.registerRule id version maturity priorConfidence e)
      (Engine.registerRule id version maturity priorConfidence e') := by
  unfold Engine.registerRule
  refine .get_bind ?_
  rw [← h.ruleDefinitions]
  refine .ite .rfl (fun _ => .throw h _) fun _ => .modify_bind ?_
  apply advanceStateRevision
  exact { h with
    ruleDefinitions := insert_congr h.ruleDefinitions (id, version) _
    ruleStats := insert_congr h.ruleStats (id, version) _ }

theorem getRuleStats (k v : Int) : e.getRuleStats k v = e'.getRuleStats k v := by
  unfold Engine.getRuleStats Engine.assertRuleStatsPairExists
  rw [h.ruleStats]

theorem updateRuleStats (ruleId ruleVersion firingDelta trueDelta falseDelta : Int)
    (observedPrecision falsePositiveRate : Option ScoreValue) :
    Agree (SameFor c n)
      (Engine.updateRuleStats ruleId ruleVersion firingDelta trueDelta falseDelta
        observedPrecision falsePositiveRate e)
      (Engine.updateRuleStats ruleId ruleVersion firingDelta trueDelta falseDelta
        observedPrecision falsePositiveRate e') := by
  unfold Engine.updateRuleStats
  refine .readState_bind h (h.getRuleStats ruleId ruleVersion) fun current _ => ?_
  refine .readState_bind h rfl fun stats _ => .modify_bind ?_
  -- the insert comes before the comparison that decides on the revision
  have hstats : SameFor c n
      { e with ruleStats := e.ruleStats.insert (ruleId, ruleVersion) stats }
      { e' with ruleStats := e'.ruleStats.insert (ruleId, ruleVersion) stats } :=
    { h with ruleStats := insert_congr h.ruleStats (ruleId, ruleVersion) stats }
  exact .ite .rfl (fun _ => hstats.advanceStateRevision) fun _ => .pure hstats _

theorem setHintEvidenceTypes (change : Finset HKey → Finset HKey) :
    Agree (SameFor c n) (Engine.setHintEvidenceTypes change e)
      (Engine.setHintEvidenceTypes change e') := by
  have hhints : SameFor c n { e with hintEvidenceTypes := change e.hintEvidenceTypes }
      { e' with hintEvidenceTypes := change e'.hintEvidenceTypes } :=
    { h with hintEvidenceTypes := congrArg change h.hintEvidenceTypes }
  unfold Engine.setHintEvidenceTypes
  refine .get_bind (.modify_bind (.get_bind ?_))
  exact .ite (by rw [h.hintEvidenceTypes]) (fun _ => hhints.advanceStateRevision)
    fun _ => .pure hhints _

theorem clearHintEvidenceTypes :
    Agree (SameFor c n) (Engine.clearHintEvidenceTypes e) (Engine.clearHintEvidenceTypes e') := by
  unfold Engine.clearHintEvidenceTypes
  refine .get_bind ?_
  rw [h.hintEvidenceTypes]
  refine .ite .rfl (fun _ => .modify_bind ?_) fun _ => .pure h _
  apply advanceStateRevision
  exact { h with hintEvidenceTypes := rfl }

theorem addRequiredGaps (claimId ruleId : Int) (types : List Int) :
    Agree (SameFor c n) (Engine.addRequiredGaps claimId ruleId types e)
      (Engine.addRequiredGaps claimId ruleId types e') := by
  induction types generalizing e e' with
  | nil => exact .pure h []
  | cons evidenceType rest ih =>
    exact .bind (h.addGap ..) fun _ _ _ h => .bind (ih h) fun _ _ _ h => .pure h _

/-- A firing is the calls above, one after another. -/
theorem fireRuleCore (ruleId ruleVersion : Int) (condition : ConditionTree)
    (output : RuleOutputTemplate) (subjectId : Int) (context : Fields)
    (requiredEvidence : Option RequiredEvidenceTemplate) :
    Agree (SameFor c n)
      (Engine.fireRuleCore ruleId ruleVersion condition output subjectId context
        requiredEvidence e)
      (Engine.fireRuleCore ruleId ruleVersion condition output subjectId context
        requiredEvidence e') := by
  unfold Engine.fireRuleCore
  refine .readState_bind h (h.getRuleStats ruleId ruleVersion) fun _ _ => ?_
  refine .readState_bind h rfl fun trace _ => ?_
  refine .ite .rfl (fun _ => .pure h _) fun _ => ?_
  refine .bind (h.addClaim ..) fun claimId _ _ h => ?_
  refine .bind (h.addRequiredGaps ..) fun gapIds _ _ h => ?_
  exact .bind (h.updateRuleStats ..) fun _ _ _ h => .pure h _

/-! ### Calls on the claim

The sets and the log of claim `c` itself agree, and what is written to them is written on both
sides. -/

/-- The set of the claim grows by the same evidence. -/
theorem registerContradiction (evidenceId : Int) :
    Agree (SameFor c n) (Engine.registerContradiction c evidenceId e)
      (Engine.registerContradiction c evidenceId e') := by
  unfold Engine.registerContradiction
  refine .readState_bind h (h.assertClaimExists c) fun _ _ => ?_
  refine .readState_bind h (h.assertEvidenceExists evidenceId) fun _ _ => .get_bind ?_
  simp only [← h.contradictions]
  refine .ite .rfl (fun _ => .pure h false) fun _ => written ?_
  exact { h with
    contradictions := (getD_insert_self _ _ _ _).trans (getD_insert_self _ _ _ _).symm }

/-- The gate asks whether the contradiction was registered, which both sides answer alike. -/
theorem registerContradictionResolution (evidenceId : Int) :
    Agree (SameFor c n) (Engine.registerContradictionResolution c evidenceId e)
      (Engine.registerContradictionResolution c evidenceId e') := by
  unfold Engine.registerContradictionResolution
  refine .readState_bind h (h.assertClaimExists c) fun _ _ => ?_
  refine .readState_bind h (h.assertEvidenceExists evidenceId) fun _ _ => .get_bind ?_
  simp only [← h.contradictions, ← h.resolved]
  refine .ite .rfl (fun _ => .throw h _) fun _ => ?_
  refine .ite .rfl (fun _ => .pure h false) fun _ => written ?_
  exact { h with
    resolved := (getD_insert_self _ _ _ _).trans (getD_insert_self _ _ _ _).symm }

/-- The recorders number the event each in its own sequence. -/
theorem commitTransition (hsound : Sound e) (hsound' : Sound e') (claim : Claim)
    (newStatus : Json) (label : String) :
    Agree (SameFor c n) (Engine.commitTransition c claim newStatus label e)
      (Engine.commitTransition c claim newStatus label e') := by
  obtain ⟨seq, _, hrun⟩ := hsound.commitTransition_eq c claim newStatus label
  obtain ⟨seq', _, hrun'⟩ := hsound'.commitTransition_eq c claim newStatus label
  rw [hrun, hrun']
  refine .ok { h with
    records := records_insert h.records rfl
    claim := (Dict.get?_insert_self _ _ _).trans (Dict.get?_insert_self _ _ _).symm
    events := ?_ }
  rw [Engine.eventsOf_putTransition, Engine.eventsOf_putTransition, if_pos rfl, if_pos rfl,
    List.map_append, List.map_append, h.events]
  rfl

/-- The gate reads the claim alike on both sides. -/
theorem gated {t : Transition} {rest : Claim → EngineM Bool}
    (hmethod : t.method c = t.gated c rest)
    (hrest : ∀ claim, Agree (SameFor c n) (rest claim e) (rest claim e')) :
    Agree (SameFor c n) (t.method c e) (t.method c e') := by
  rw [hmethod]
  unfold Transition.gated
  refine .readState_bind h (h.assertClaimExists c) fun _ _ => ?_
  refine .readState_bind h h.getClaim fun claim _ => ?_
  exact .ite .rfl (fun _ => .pure h false) fun _ => hrest claim

end SameFor

end Ragcore
