import Ragcore.Engine.Crud

/-!
# Ragcore — gaps

`ragcore/_engine/gaps.py`. A gap is shared by every claim on the same subject that asks for
the same evidence under the same rule: `add_gap` looks its key up in `gapDedupIndex` and, on a
hit, only adds a reference from the calling claim. `resolve_gaps_for_evidence` closes the open
gaps of the evidence's claim that ask for its type; a gap already resolved keeps its resolver.

`add_gap` asks for the severity before the dedup decision, and its key needs the hash of the
claim's subject, so both failures come before the first write.
-/

namespace Ragcore.Engine

def dedupKey (subject : HKey) (ruleId gapType requiredEvidenceType : Int) : DedupKey :=
  (subject, ruleId, gapType, requiredEvidenceType)

/-- `_claim_gap_refs.setdefault(claim_id, set()).add(gap_id)`. -/
def referGap (claimId gapId : Int) (e : Engine) : Dict Int (Finset Int) :=
  e.claimGapRefs.insert claimId (Insert.insert gapId (e.claimGapRefs.getD claimId ∅))

def addGap (claimId gapType requiredEvidenceType : Int) (severity : PyFloat) (ruleId : Int) :
    EngineM Int := do
  readState (assertClaimExists claimId)
  let validatedSeverity ← readState fun _ => ScoreValue.new (.float severity)
  let claim ← readState (getClaim claimId)
  let subjectId ← readState fun _ => claim.subjectId.hash
  let key := dedupKey subjectId ruleId gapType requiredEvidenceType
  let e ← get
  match e.gapDedupIndex.get? key with
  | some existingGapId =>
    let refs := e.claimGapRefs.getD claimId ∅
    if existingGapId ∉ refs then
      modify fun e => { e with claimGapRefs := e.referGap claimId existingGapId }
      advanceStateRevision
    return existingGapId
  | none =>
    let gapId ← allocateId "gap"
    modify fun e => { e with
      gaps := e.gaps.insert gapId
        { id := gapId
          claimId := .int claimId
          type := .int gapType
          requiredEvidenceType := .int requiredEvidenceType
          severity := some validatedSeverity
          createdByRule := .int ruleId }
      gapDedupIndex := e.gapDedupIndex.insert key gapId
      claimGapRefs := e.referGap claimId gapId }
    advanceStateRevision
    return gapId

def getGap (gapId : Int) (e : Engine) : Except PyErr Gap := subscript e.gaps gapId

/-- The gaps a claim references, by ascending id. -/
def gapsForClaim (claimId : Int) (e : Engine) : Except PyErr (List Gap) := do
  e.assertClaimExists claimId
  let gapIds := e.claimGapRefs.getD claimId ∅
  let gaps ← (sortSet (· ≤ ·) gapIds).mapM fun gid => e.getGap gid
  return gaps.insertionSort fun g h => g.id ≤ h.id

/-- The evidence that resolved the gap, or `none`. -/
def gapResolution (gapId : Int) (e : Engine) : Except PyErr (Option Int) := do
  e.assertGapExists gapId
  return e.gapResolutions.get? gapId

/-- The loop of `resolve_gaps_for_evidence`; returns the ids it resolved, in loop order. -/
def closeMatching (evidenceId : Int) (evidence : Evidence) : List Gap → EngineM (List Int)
  | [] => return []
  | gap :: rest => do
    let e ← get
    if gap.requiredEvidenceType.eq evidence.type && !e.gapResolutions.contains gap.id then
      modify fun e => { e with gapResolutions := e.gapResolutions.insert gap.id evidenceId }
      let newlyResolved ← closeMatching evidenceId evidence rest
      return gap.id :: newlyResolved
    else
      closeMatching evidenceId evidence rest

def resolveGapsForEvidence (evidenceId : Int) : EngineM (List Int) := do
  readState (assertEvidenceExists evidenceId)
  let evidence ← readState (getEvidence evidenceId)
  let gaps ← readState (gapsForClaim evidence.claimId)
  let newlyResolved ← closeMatching evidenceId evidence gaps
  if newlyResolved ≠ [] then
    advanceStateRevision
  return newlyResolved.insertionSort (· ≤ ·)

/-! ## What a completed call writes

A call of `add_gap` shares a gap or stores one; the two are different writes. -/

def putGapRef (e : Engine) (claimId gapId : Int) : Engine :=
  { e with
    claimGapRefs := e.referGap claimId gapId
    stateRevision := e.stateRevision + 1 }

def putGap (e : Engine) (claimId n : Int) (key : DedupKey) (record : Gap) : Engine :=
  { e with
    nextId := e.nextId.insert "gap" (.int n)
    gaps := e.gaps.insert n record
    gapDedupIndex := e.gapDedupIndex.insert key n
    claimGapRefs := e.referGap claimId n
    stateRevision := e.stateRevision + 1 }

/-- `gap_resolutions` after the ids `resolved` were closed by `evidenceId`. -/
def resolveAll (evidenceId : Int) (resolved : List Int) (resolutions : Dict Int Int) :
    Dict Int Int :=
  resolved.foldl (fun d gapId => d.insert gapId evidenceId) resolutions

def putResolutions (e : Engine) (evidenceId : Int) (resolved : List Int) : Engine :=
  { e with
    gapResolutions := resolveAll evidenceId resolved e.gapResolutions
    stateRevision := e.stateRevision + 1 }

theorem addGap_cases (claimId gapType requiredEvidenceType : Int) (severity : PyFloat)
    (ruleId : Int) (e : Engine) :
    (∃ err, addGap claimId gapType requiredEvidenceType severity ruleId e = .error err e) ∨
      ∃ claim subject score, e.claims.get? claimId = some claim ∧
        claim.subjectId.hash = .ok subject ∧ ScoreValue.new (.float severity) = .ok score ∧
        ((∃ g, e.gapDedupIndex.get? (dedupKey subject ruleId gapType requiredEvidenceType) =
              some g ∧
            ((g ∈ e.claimGapRefs.getD claimId ∅ ∧
                addGap claimId gapType requiredEvidenceType severity ruleId e = .ok g e) ∨
              (g ∉ e.claimGapRefs.getD claimId ∅ ∧
                addGap claimId gapType requiredEvidenceType severity ruleId e =
                  .ok g (e.putGapRef claimId g)))) ∨
          (e.gapDedupIndex.get? (dedupKey subject ruleId gapType requiredEvidenceType) = none ∧
            ∃ n, e.nextCounter "gap" = .ok n ∧
              addGap claimId gapType requiredEvidenceType severity ruleId e =
                .ok n (e.putGap claimId n
                  (dedupKey subject ruleId gapType requiredEvidenceType)
                  ⟨n, .int claimId, .int gapType, .int requiredEvidenceType, some score,
                    .int ruleId⟩))) := by
  rw [addGap, run_readState_bind]
  cases hcl : e.assertClaimExists claimId with
  | error err => exact .inl ⟨err, rfl⟩
  | ok _ =>
    simp only
    rw [run_readState_bind]
    cases hsc : ScoreValue.new (.float severity) with
    | error err => exact .inl ⟨err, rfl⟩
    | ok score =>
      simp only
      rw [run_readState_bind]
      cases hclaim : e.getClaim claimId with
      | error err => exact .inl ⟨err, rfl⟩
      | ok claim =>
        simp only
        rw [run_readState_bind]
        cases hsub : claim.subjectId.hash with
        | error err => exact .inl ⟨err, rfl⟩
        | ok subject =>
          simp only
          rw [run_get_bind]
          have hclaim' := subscript_ok_iff.mp hclaim
          -- the index decides whether a gap is shared or made
          cases hkey : e.gapDedupIndex.get?
              (dedupKey subject ruleId gapType requiredEvidenceType) with
          | some g =>
            refine .inr ⟨claim, subject, score, hclaim', hsub, rfl, .inl ⟨g, hkey, ?_⟩⟩
            by_cases hmem : g ∈ e.claimGapRefs.getD claimId ∅
            · refine .inl ⟨hmem, ?_⟩
              simp only [hmem, not_true_eq_false, if_false]
              rfl
            · refine .inr ⟨hmem, ?_⟩
              simp only [hmem, not_false_eq_true, if_true]
              rfl
          | none =>
            simp only
            rw [run_allocateId_bind]
            cases h : e.nextCounter "gap" with
            | error err => exact .inl ⟨err, rfl⟩
            | ok n =>
              exact .inr ⟨claim, subject, score, hclaim', hsub, rfl, .inr ⟨hkey, n, rfl, rfl⟩⟩

/-- A call whose claim is there and whose severity is admitted, by the state of the index. -/
theorem addGap_ok {e : Engine} {claimId gapType requiredEvidenceType ruleId n : Int}
    {severity : PyFloat} {claim : Claim} {subject : HKey} {score : ScoreValue}
    (hclaim : e.claims.get? claimId = some claim) (hsubject : claim.subjectId.hash = .ok subject)
    (hscore : ScoreValue.new (.float severity) = .ok score)
    (hn : e.nextCounter "gap" = .ok n) :
    addGap claimId gapType requiredEvidenceType severity ruleId e =
      match e.gapDedupIndex.get? (dedupKey subject ruleId gapType requiredEvidenceType) with
      | some g =>
        if g ∈ e.claimGapRefs.getD claimId ∅ then .ok g e else .ok g (e.putGapRef claimId g)
      | none => .ok n (e.putGap claimId n (dedupKey subject ruleId gapType requiredEvidenceType)
          ⟨n, .int claimId, .int gapType, .int requiredEvidenceType, some score, .int ruleId⟩) := by
  have hexists : e.assertClaimExists claimId = .ok () :=
    assertExists_ok_iff.mpr (Dict.contains_of_get? hclaim)
  have hget : e.getClaim claimId = .ok claim := subscript_ok_iff.mpr hclaim
  rw [addGap, run_readState_bind, hexists]
  simp only
  rw [run_readState_bind, hscore]
  simp only
  rw [run_readState_bind, hget]
  simp only
  rw [run_readState_bind, hsubject]
  simp only
  rw [run_get_bind]
  -- a known key shares its gap, an unknown one stores a new gap
  cases e.gapDedupIndex.get? (dedupKey subject ruleId gapType requiredEvidenceType) with
  | some g =>
    by_cases hmem : g ∈ e.claimGapRefs.getD claimId ∅
    · simp only [hmem, not_true_eq_false, if_false, if_true]
      rfl
    · simp only [hmem, not_false_eq_true, if_true, if_false]
      rfl
  | none =>
    simp only
    rw [run_allocateId_bind, hn]
    rfl

/-! ## The resolving loop

The loop visits the gaps that the claim listed when the call began, and closes those that are open
and ask for the type. -/

/-- The ids the loop closes, each decided against the resolutions of the ones before. -/
def closedBy (evidenceId : Int) (evidence : Evidence) : List Gap → Dict Int Int → List Int
  | [], _ => []
  | gap :: rest, resolutions =>
    if gap.requiredEvidenceType.eq evidence.type && !resolutions.contains gap.id then
      gap.id :: closedBy evidenceId evidence rest (resolutions.insert gap.id evidenceId)
    else
      closedBy evidenceId evidence rest resolutions

theorem run_closeMatching (evidenceId : Int) (evidence : Evidence) (gaps : List Gap)
    (e : Engine) :
    closeMatching evidenceId evidence gaps e =
      .ok (closedBy evidenceId evidence gaps e.gapResolutions)
        { e with
          gapResolutions := resolveAll evidenceId
            (closedBy evidenceId evidence gaps e.gapResolutions) e.gapResolutions } := by
  -- the loop writes the resolutions as it goes, so the state is general
  induction gaps generalizing e with
  | nil => rfl
  | cons gap rest ih =>
    rw [closeMatching, run_get_bind, closedBy]
    split
    · rw [run_modify_bind, run_bind, ih]
      rfl
    · rw [ih]

/-- A closed gap asked for the evidence's type and was open. -/
theorem mem_closedBy {evidenceId : Int} {evidence : Evidence} {gaps : List Gap}
    {resolutions : Dict Int Int} {gapId : Int}
    (h : gapId ∈ closedBy evidenceId evidence gaps resolutions) :
    ∃ gap ∈ gaps, gap.id = gapId ∧ gap.requiredEvidenceType.eq evidence.type = true ∧
      resolutions.contains gapId = false := by
  -- the resolutions are general: the loop closes gaps for the later rounds
  induction gaps generalizing resolutions with
  | nil => simp [closedBy] at h
  | cons gap rest ih =>
    rw [closedBy] at h
    split at h
    · rename_i hcond
      simp only [Bool.and_eq_true, Bool.not_eq_eq_eq_not, Bool.not_true] at hcond
      rcases List.mem_cons.mp h with rfl | hrest
      · exact ⟨gap, by simp, rfl, hcond.1, hcond.2⟩
      · obtain ⟨g, hg, hid, htype, hopen⟩ := ih hrest
        simp only [Dict.contains_insert, Bool.or_eq_false_iff] at hopen
        exact ⟨g, by simp [hg], hid, htype, hopen.2⟩
    · obtain ⟨g, hg, hid, htype, hopen⟩ := ih h
      exact ⟨g, by simp [hg], hid, htype, hopen⟩

/-- Every gap that asks for the evidence's type is closed or was resolved before. -/
theorem closedBy_complete {evidenceId : Int} {evidence : Evidence} {gaps : List Gap}
    {resolutions : Dict Int Int} {gap : Gap} (hmem : gap ∈ gaps)
    (htype : gap.requiredEvidenceType.eq evidence.type = true)
    (hopen : resolutions.contains gap.id = false) :
    gap.id ∈ closedBy evidenceId evidence gaps resolutions := by
  induction gaps generalizing resolutions with
  | nil => simp at hmem
  | cons g rest ih =>
    rw [closedBy]
    split
    · -- a gap that occurs twice was closed in an earlier round
      by_cases hid : g.id = gap.id
      · simp [hid]
      · rcases List.mem_cons.mp hmem with rfl | hrest
        · exact absurd rfl hid
        · exact List.mem_cons_of_mem _ (ih hrest (by simp [hid, hopen]))
    · rename_i hcond
      rcases List.mem_cons.mp hmem with rfl | hrest
      · simp [htype, hopen] at hcond
      · exact ih hrest hopen

theorem get?_resolveAll {evidenceId : Int} {resolved : List Int} {resolutions : Dict Int Int}
    {gapId : Int} :
    (resolveAll evidenceId resolved resolutions).get? gapId =
      if gapId ∈ resolved then some evidenceId else resolutions.get? gapId := by
  induction resolved generalizing resolutions with
  | nil => simp [resolveAll]
  | cons g rest ih =>
    change (resolveAll evidenceId rest (resolutions.insert g evidenceId)).get? gapId = _
    rw [ih, Dict.get?_insert]
    -- a gap that comes again is written again, for the same evidence
    by_cases hrest : gapId ∈ rest
    · simp [hrest]
    · by_cases hg : g = gapId
      · simp [hg]
      · simp [hrest, hg, Ne.symm hg]

/-- A call whose evidence is there and whose claim's gaps can be listed. -/
theorem resolveGapsForEvidence_ok {e : Engine} {evidenceId : Int} {evidence : Evidence}
    {gaps : List Gap} (hget : e.evidences.get? evidenceId = some evidence)
    (hgaps : e.gapsForClaim evidence.claimId = .ok gaps) :
    resolveGapsForEvidence evidenceId e =
      if closedBy evidenceId evidence gaps e.gapResolutions = [] then .ok [] e
      else .ok ((closedBy evidenceId evidence gaps e.gapResolutions).insertionSort (· ≤ ·))
        (e.putResolutions evidenceId (closedBy evidenceId evidence gaps e.gapResolutions)) := by
  have hexists : e.assertEvidenceExists evidenceId = .ok () :=
    assertExists_ok_iff.mpr (Dict.contains_of_get? hget)
  have hev : e.getEvidence evidenceId = .ok evidence := subscript_ok_iff.mpr hget
  rw [resolveGapsForEvidence, run_readState_bind, hexists]
  simp only
  rw [run_readState_bind, hev]
  simp only
  rw [run_readState_bind, hgaps]
  simp only
  rw [run_bind, run_closeMatching]
  -- the revision only moves when a gap was closed
  by_cases hnil : closedBy evidenceId evidence gaps e.gapResolutions = []
  · simp only [hnil, ne_eq, not_true_eq_false, if_false, if_true]
    rfl
  · simp only [hnil, ne_eq, not_false_eq_true, if_true, if_false]
    rfl

theorem resolveGapsForEvidence_cases (evidenceId : Int) (e : Engine) :
    (∃ err, resolveGapsForEvidence evidenceId e = .error err e) ∨
      ∃ evidence gaps, e.evidences.get? evidenceId = some evidence ∧
        e.gapsForClaim evidence.claimId = .ok gaps ∧
        ((closedBy evidenceId evidence gaps e.gapResolutions = [] ∧
            resolveGapsForEvidence evidenceId e = .ok [] e) ∨
          (closedBy evidenceId evidence gaps e.gapResolutions ≠ [] ∧
            resolveGapsForEvidence evidenceId e =
              .ok ((closedBy evidenceId evidence gaps e.gapResolutions).insertionSort (· ≤ ·))
                (e.putResolutions evidenceId
                  (closedBy evidenceId evidence gaps e.gapResolutions)))) := by
  cases hex : e.assertEvidenceExists evidenceId with
  | error err =>
    rw [resolveGapsForEvidence, run_readState_bind, hex]
    exact .inl ⟨err, rfl⟩
  | ok _ =>
    obtain ⟨evidence, hget⟩ := Dict.contains_iff.mp (assertExists_ok_iff.mp hex)
    have hev : e.getEvidence evidenceId = .ok evidence := subscript_ok_iff.mpr hget
    cases hgaps : e.gapsForClaim evidence.claimId with
    | error err =>
      rw [resolveGapsForEvidence, run_readState_bind, hex]
      simp only
      rw [run_readState_bind, hev]
      simp only
      rw [run_readState_bind, hgaps]
      exact .inl ⟨err, rfl⟩
    | ok gaps =>
      refine .inr ⟨evidence, gaps, hget, hgaps, ?_⟩
      have hrun := resolveGapsForEvidence_ok hget hgaps
      -- nothing to close is a call that changes nothing
      by_cases hnil : closedBy evidenceId evidence gaps e.gapResolutions = []
      · exact .inl ⟨hnil, by rw [hrun, if_pos hnil]⟩
      · exact .inr ⟨hnil, by rw [hrun, if_neg hnil]⟩

end Ragcore.Engine
