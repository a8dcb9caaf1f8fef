import Ragcore.Engine.Confidence
import Ragcore.Snapshot.RoundTrip

/-!
# Ragcore — no read of an existing claim fails

`Sound` says that no reference dangles and no field has the wrong type. Here that is turned into
what a caller sees: every query about an existing claim returns, the ids it returns can be looked
up, and none of the six transition methods raises.
-/

namespace Ragcore

namespace Sound

variable {e : Engine} (h : Sound e)
include h

omit h in
/-- An evidence that exists is read. -/
theorem getEvidence_returns {v : Int} (hv : e.evidences.contains v = true) :
    ∃ evidence, e.getEvidence v = .ok evidence := by
  obtain ⟨evidence, hget⟩ := Dict.contains_iff.mp hv
  exact ⟨evidence, Engine.subscript_ok_iff.mpr hget⟩

theorem strengthOf_returns {v : Int} (hv : e.evidences.contains v = true) :
    ∃ strength, e.strengthOf v = .ok strength := by
  obtain ⟨evidence, hget⟩ := Dict.contains_iff.mp hv
  obtain ⟨score, hscore⟩ := Option.isSome_iff_exists.mp (h.typed.evidence hget).strength
  exact ⟨score.value, Engine.strengthOf_ok_iff.mpr ⟨evidence, score, hget, hscore, rfl⟩⟩

/-- An active contradiction is an evidence that exists. -/
theorem active_exists {c v : Int} (hv : v ∈ e.activeContradictions c) :
    e.evidences.contains v = true :=
  h.references.contradictionEvidence (Finset.mem_sdiff.mp hv).1

variable {claimId : Int} (hclaim : e.claims.contains claimId = true)
include hclaim

/-- The gaps a claim refers to exist, so the list is built. -/
theorem gapsForClaim_returns : ∃ gaps, e.gapsForClaim claimId = .ok gaps := by
  have hrecords : ∀ g ∈ sortSet (· ≤ ·) (e.claimGapRefs.getD claimId ∅),
      ∃ gap, e.getGap g = .ok gap := by
    intro g hg
    obtain ⟨gap, hget⟩ := Dict.contains_iff.mp (h.references.gapRefGap (mem_sortSet.mp hg))
    exact ⟨gap, Engine.subscript_ok_iff.mpr hget⟩
  obtain ⟨gaps, hgaps⟩ := mapM_isOk hrecords
  exact ⟨_, bind_ok_iff.mpr ⟨(), Engine.assertExists_ok_iff.mpr hclaim,
    bind_ok_iff.mpr ⟨gaps, hgaps, rfl⟩⟩⟩

omit hclaim in
/-- And for each of them the resolution is looked up. -/
theorem gapResolution_returns {gaps : List Gap} (hgaps : e.gapsForClaim claimId = .ok gaps)
    {gap : Gap} (hgap : gap ∈ gaps) :
    e.gapResolution gap.id = .ok (e.gapResolutions.get? gap.id) := by
  have hget := (h.references.gap_of_listed hgaps hgap).2
  exact bind_ok_iff.mpr
    ⟨(), Engine.assertExists_ok_iff.mpr (Dict.contains_of_get? hget), rfl⟩

omit hclaim in
/-- So the gate of the confirmation has an answer. -/
theorem allResolved_returns {gaps all : List Gap} (hall : e.gapsForClaim claimId = .ok all)
    (hsub : ∀ gap ∈ gaps, gap ∈ all) : ∃ b, e.allResolved gaps = .ok b := by
  induction gaps with
  | nil => exact ⟨true, rfl⟩
  | cons gap rest ih =>
    obtain ⟨hgap, hrest⟩ := List.forall_mem_cons.mp hsub
    refine bind_isOk (h.gapResolution_returns hall hgap) ?_
    split
    · exact ih hrest
    · exact ⟨false, rfl⟩

omit hclaim in
/-- And so has the gate of the refutation. -/
theorem anyStrong_returns {ids : List Int} (hids : ∀ v ∈ ids, e.evidences.contains v = true) :
    ∃ b, e.anyStrong ids = .ok b := by
  induction ids with
  | nil => exact ⟨false, rfl⟩
  | cons v rest ih =>
    obtain ⟨hv, hrest⟩ := List.forall_mem_cons.mp hids
    obtain ⟨strength, hs⟩ := h.strengthOf_returns hv
    refine bind_isOk hs ?_
    split
    · exact ⟨true, rfl⟩
    · exact ih hrest

omit h hclaim in
theorem hintTestable (types : List Json) (htypes : ∀ t ∈ types, IsInt t) (hints : Finset HKey) :
    Confidence.HintTestable hints types := by
  induction types with
  | nil => trivial
  | cons t rest ih =>
    obtain ⟨ht, hrest⟩ := List.forall_mem_cons.mp htypes
    obtain ⟨n, rfl⟩ := ht
    exact ⟨_, Json.key?_int n, fun _ => ih hrest⟩

omit hclaim in
/-- Typed records are all the confidence computation asks for. -/
theorem confidenceReady {claim : Claim} (hget : e.claims.get? claimId = some claim) :
    e.ConfidenceReady claimId claim where
  base := by
    have hsome := (h.typed.claim hget).baseConfidence
    rw [Option.isSome_iff_ne_none] at hsome
    exact hsome
  strengths := fun _ hv => h.strengthOf_returns (h.active_exists hv)
  ruleStats := by
    obtain ⟨rule, hrule⟩ := (h.typed.claim hget).createdByRule
    obtain ⟨version, hversion⟩ := (h.typed.claim hget).createdByRuleVersion
    refine .inr ⟨e.ruleStats.get? (rule, version), ?_, fun record hrecord => .inr ?_⟩
    · rw [hrule, hversion]
      simp [Engine.ruleStatsLookup, bind, Except.bind, pure, Except.pure]
    · obtain ⟨n, hn⟩ := (h.typed.ruleStats hrecord).firingCount
      exact ⟨.fin n, by rw [hn]; rfl, fun obj hobj => by cases hobj⟩
  hints := by
    refine .inr (hintTestable _ (fun t ht => ?_) _)
    obtain ⟨evidence, hmem, rfl⟩ := List.mem_map.mp ht
    obtain ⟨k, hk⟩ := Dict.mem_values_iff.mp (List.mem_filter.mp hmem).1
    exact (h.typed.evidence hk).type

omit hclaim in
/-- The next number is there, so the commit goes through. -/
theorem commitTransition_returns (claim : Claim) (status : Json) (label : String) :
    Returns (Engine.commitTransition claimId claim status label) e := by
  rcases Engine.commitTransition_cases claimId claim status label e with
    ⟨err, hcount, _⟩ | ⟨seq, _, hrun⟩
  · obtain ⟨n, hn⟩ := h.typed.lifecycleSeq
    rw [hn] at hcount
    cases hcount
  · exact ⟨true, _, hrun⟩

/-- **No transition method raises on an existing claim.** -/
theorem transition_returns (t : Transition) : Returns (t.method claimId) e := by
  obtain ⟨claim, hget⟩ := Dict.contains_iff.mp hclaim
  have hassert : e.assertClaimExists claimId = .ok () := Engine.assertExists_ok_iff.mpr hclaim
  have hclaim' : e.getClaim claimId = .ok claim := Engine.subscript_ok_iff.mpr hget
  have hactive := Engine.activeContradictionsForClaim_eq hclaim
  have hfresh := Engine.activeContradictionsByFreshness_eq hclaim
  -- the number of the next event is an int, so a commit returns
  have hcommit : ∀ status label,
      Returns (Engine.commitTransition claimId claim status label) e :=
    h.commitTransition_returns claim
  cases t <;> refine .readState_bind hassert (.readState_bind hclaim'
    (.ite (fun _ => .pure _ _) fun _ => ?_))
  case confirm =>
    obtain ⟨gaps, hgaps⟩ := h.gapsForClaim_returns hclaim
    obtain ⟨resolved, hresolved⟩ := h.allResolved_returns hgaps fun _ hgap => hgap
    refine .readState_bind hgaps (.ite (fun _ => .pure _ _) fun _ => ?_)
    exact .readState_bind hresolved (.ite (fun _ => .pure _ _) fun _ => hcommit _ _)
  case refute => exact .get_bind (.ite (fun _ => .pure _ _) fun _ => hcommit _ _)
  case dispute => exact .get_bind (.ite (fun _ => .pure _ _) fun _ => hcommit _ _)
  case resolveDisputed =>
    exact .readState_bind hactive (.ite (fun _ => .pure _ _) fun _ => hcommit _ _)
  case refuteDisputed =>
    have hids : ∀ v ∈ sortSet (· ≤ ·) (e.activeContradictions claimId),
        e.evidences.contains v = true := fun v hv => h.active_exists (mem_sortSet.mp hv)
    obtain ⟨strong, hstrong⟩ := h.anyStrong_returns hids
    exact .readState_bind hactive (.readState_bind hstrong
      (.ite (fun _ => .pure _ _) fun _ => hcommit _ _))
  case refuteDisputedByFreshness =>
    refine .readState_bind hfresh ?_
    cases hsorted : sortSet (· ≥ ·) (e.activeContradictions claimId) with
    | nil => exact .pure _ _
    | cons mostRecent rest =>
      have hmem := mem_of_sortSet_desc_cons hsorted
      obtain ⟨strength, hs⟩ := h.strengthOf_returns (h.active_exists hmem)
      exact .readState_bind hs (.ite (fun _ => .pure _ _) fun _ => hcommit _ _)

end Sound

/-! ## What a caller sees

Every query about a claim that exists is answered. -/

/-- What can be read about a claim, and looked up from there. -/
structure ClaimReadable (e : Engine) (claimId : Int) : Prop where
  evidences : ∃ list, e.evidencesForClaim claimId = .ok list
  gaps : ∃ gaps, e.gapsForClaim claimId = .ok gaps ∧ ∀ gap ∈ gaps,
    ∃ resolver, e.gapResolution gap.id = .ok resolver ∧
      ∀ v ∈ resolver, ∃ evidence, e.getEvidence v = .ok evidence
  contradictions : ∃ ids, e.contradictionsForClaim claimId = .ok ids ∧
    ∀ v ∈ ids, ∃ evidence, e.getEvidence v = .ok evidence
  resolved : ∃ ids, e.resolvedContradictionsForClaim claimId = .ok ids ∧
    ∀ v ∈ ids, ∃ evidence, e.getEvidence v = .ok evidence
  active : ∃ ids, e.activeContradictionsForClaim claimId = .ok ids ∧
    ∀ v ∈ ids, ∃ evidence, e.getEvidence v = .ok evidence
  byFreshness : ∃ ids, e.activeContradictionsByFreshness claimId = .ok ids
  history : ∃ events, e.claimLifecycleHistory claimId = .ok events
  confidence : ∃ score, e.computeEffectiveConfidence claimId = .ok score
  transitions : ∀ t : Transition, Returns (t.method claimId) e

theorem Sound.claimReadable {e : Engine} (h : Sound e) {claimId : Int}
    (hclaim : e.claims.contains claimId = true) : ClaimReadable e claimId := by
  have hassert : e.assertClaimExists claimId = .ok () := Engine.assertExists_ok_iff.mpr hclaim
  -- what the claim names is there, so no lookup fails
  have hlookup : ∀ {ids : Finset Int}, (∀ v ∈ ids, e.evidences.contains v = true) →
      ∀ v ∈ sortSet (· ≤ ·) ids, ∃ evidence, e.getEvidence v = .ok evidence :=
    fun hids v hv => getEvidence_returns (hids v (mem_sortSet.mp hv))
  obtain ⟨claim, hget⟩ := Dict.contains_iff.mp hclaim
  exact {
    evidences := ⟨_, bind_ok_iff.mpr ⟨(), hassert, rfl⟩⟩
    gaps := by
      obtain ⟨gaps, hgaps⟩ := h.gapsForClaim_returns hclaim
      refine ⟨gaps, hgaps, fun gap hgap => ⟨_, h.gapResolution_returns hgaps hgap, ?_⟩⟩
      exact fun v hv => getEvidence_returns (h.references.resolutionEvidence hv)
    contradictions := ⟨_, bind_ok_iff.mpr ⟨(), hassert, rfl⟩,
      hlookup fun _ hv => h.references.contradictionEvidence hv⟩
    resolved := ⟨_, bind_ok_iff.mpr ⟨(), hassert, rfl⟩,
      hlookup fun _ hv => h.references.contradictionEvidence (h.references.resolvedSubset hv)⟩
    active := ⟨_, bind_ok_iff.mpr ⟨(), hassert, rfl⟩, hlookup fun _ hv => h.active_exists hv⟩
    byFreshness := ⟨_, bind_ok_iff.mpr ⟨(), hassert, rfl⟩⟩
    history := ⟨_, bind_ok_iff.mpr ⟨(), hassert, rfl⟩⟩
    confidence := (Engine.computeEffectiveConfidence_isOk_iff hget
      (h.references.status hget)).mpr (h.confidenceReady hget)
    transitions := h.transition_returns hclaim }

theorem Session.Reachable.endpoints {s : Session} (h : s.Reachable) : Endpoints s.engine :=
  (h.preserves (P := fun _ e => Sound e ∧ Endpoints e) (fun uuid => ⟨.new uuid, .new uuid⟩)
    (fun _ e o he => ⟨he.1.op o, he.2.outcome (o.outcome_cases e)⟩)
    fun _ e uuid _ he hrun => by
      rw [he.1.trip hrun]
      exact ⟨he.1.congr (e.equiv_reloaded uuid), he.2.congr (e.equiv_reloaded uuid)⟩).2

/-- **Referential integrity over whole runs.** From any origin the references a restore checks
hold and no read of an existing claim fails; from a fresh engine, round trips included, the
references it does not check hold too. -/
theorem referential_integrity :
    (∀ e, Reached e → Referential e ∧
      ∀ claimId, e.claims.contains claimId = true → ClaimReadable e claimId) ∧
    ∀ s : Session, s.Reachable → Referential s.engine ∧ Endpoints s.engine :=
  ⟨fun _ h => ⟨h.referential, fun _ hclaim => h.sound.claimReadable hclaim⟩,
    fun _ h => ⟨h.sound.references, h.endpoints⟩⟩

/-- The law on the run that disputes a claim. -/
theorem referential_integrity_disputed :
    ClaimReadable ((Engine.new default).runCalls Session.disputedRun) 1 ∧
      Endpoints Session.disputed.engine :=
  ⟨(referential_integrity.1 _ ⟨_, _, .fresh default, rfl⟩).2 1 (by with_unfolding_all rfl),
    (referential_integrity.2 _ Session.disputed_reachable).2⟩

end Ragcore
