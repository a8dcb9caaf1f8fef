import Ragcore.Engine.Gaps

/-!
# Ragcore — claim lifecycle, contradictions and history

`ragcore/_engine/lifecycle.py` and `ragcore/_engine/lifecycle_history.py`. The six transition
methods differ in the status they ask for, in their guard and in the label they record; what
they do once enabled is the same three writes, here `commitTransition`. The recorder adds one
to `lifecycleSeq` after the status has been replaced, so a restored `lifecycleSeq` that takes
no addition makes the call raise between the two writes (`putStatus`).
-/

namespace Ragcore

namespace Engine

/-! ## History

A transition is recorded under its claim, with a number that is counted over the whole engine. -/

/-- The number is taken before the event is filed. -/
def recordClaimLifecycleTransition (claimId : Int) (fromStatus toStatus : Json)
    (transition : String) : EngineM Unit := do
  let seq ← readState fun e => e.lifecycleSeq.addInt 1
  modify fun e => { e with
    lifecycleSeq := seq
    claimLifecycleEvents := e.claimLifecycleEvents.insert claimId
      (e.claimLifecycleEvents.getD claimId [] ++
        [⟨seq, .int claimId, fromStatus, toStatus, .str transition⟩]) }

/-- The events of a claim, in the order in which they were recorded. -/
def claimLifecycleHistory (claimId : Int) (e : Engine) :
    Except PyErr (List ClaimLifecycleEvent) := do
  e.assertClaimExists claimId
  return e.claimLifecycleEvents.getD claimId []

/-! ## Contradictions

Registered once, resolved at most once, and active in between. -/

/-- Both ids have to exist; a second registration is a no-op. -/
def registerContradiction (claimId evidenceId : Int) : EngineM Bool := do
  readState (assertClaimExists claimId)
  readState (assertEvidenceExists evidenceId)
  let e ← get
  let bucket := e.contradictions.getD claimId ∅
  if evidenceId ∈ bucket then
    return false
  modify fun e => { e with
    contradictions := e.contradictions.insert claimId (insert evidenceId bucket) }
  advanceStateRevision
  return true

/-- `sorted` of the registered ones. -/
def contradictionsForClaim (claimId : Int) (e : Engine) : Except PyErr (List Int) := do
  e.assertClaimExists claimId
  return sortSet (· ≤ ·) (e.contradictions.getD claimId ∅)

/-- Only a registered contradiction can be resolved. -/
def registerContradictionResolution (claimId evidenceId : Int) : EngineM Bool := do
  readState (assertClaimExists claimId)
  readState (assertEvidenceExists evidenceId)
  let e ← get
  let contras := e.contradictions.getD claimId ∅
  if evidenceId ∉ contras then
    throw (.valueError
      [s!"evidence {evidenceId} is not registered as a contradiction for claim {claimId}"])
  let resolved := e.resolvedContradictions.getD claimId ∅
  if evidenceId ∈ resolved then
    return false
  modify fun e => { e with
    resolvedContradictions := e.resolvedContradictions.insert claimId
      (insert evidenceId resolved) }
  advanceStateRevision
  return true

/-- `sorted` of the resolved ones. -/
def resolvedContradictionsForClaim (claimId : Int) (e : Engine) : Except PyErr (List Int) := do
  e.assertClaimExists claimId
  return sortSet (· ≤ ·) (e.resolvedContradictions.getD claimId ∅)

/-- `contras - resolved`. -/
def activeContradictions (claimId : Int) (e : Engine) : Finset Int :=
  e.contradictions.getD claimId ∅ \ e.resolvedContradictions.getD claimId ∅

/-- The registered ones that are not resolved. -/
def activeContradictionsForClaim (claimId : Int) (e : Engine) : Except PyErr (List Int) := do
  e.assertClaimExists claimId
  return sortSet (· ≤ ·) (e.activeContradictions claimId)

/-- The newest first, which is the one with the greatest id. -/
def activeContradictionsByFreshness (claimId : Int) (e : Engine) : Except PyErr (List Int) := do
  e.assertClaimExists claimId
  return sortSet (· ≥ ·) (e.activeContradictions claimId)

/-! ## Transitions

Each method asks for the claim, its status and its own evidence before it commits. `False` is an
answer, not an error. -/

/-- Replace the status, record the event, advance the revision: the tail every transition
method shares. -/
def commitTransition (claimId : Int) (claim : Claim) (newStatus : Json) (label : String) :
    EngineM Bool := do
  let oldStatus := claim.status
  modify fun e => { e with claims := e.claims.insert claimId { claim with status := newStatus } }
  recordClaimLifecycleTransition claimId oldStatus newStatus label
  advanceStateRevision
  return true

/-- `all(self.gap_resolution(g.id) is not None for g in gaps)`. -/
def allResolved (e : Engine) : List Gap → Except PyErr Bool
  | [] => .ok true
  | gap :: rest => do
    let resolution ← e.gapResolution gap.id
    if resolution.isSome then allResolved e rest else return false

/-- A candidate that has gaps, all of them resolved. -/
def confirmClaimIfReady (claimId : Int) : EngineM Bool := do
  readState (assertClaimExists claimId)
  let claim ← readState (getClaim claimId)
  if !claim.status.eq claimStatusCandidate then
    return false
  let gaps ← readState (gapsForClaim claimId)
  if gaps.isEmpty then
    return false
  let resolved ← readState fun e => e.allResolved gaps
  if !resolved then
    return false
  commitTransition claimId claim claimStatusConfirmed "confirm_if_ready"

/-- A candidate with a registered contradiction, resolved or not. -/
def refuteClaimIfReady (claimId : Int) : EngineM Bool := do
  readState (assertClaimExists claimId)
  let claim ← readState (getClaim claimId)
  if !claim.status.eq claimStatusCandidate then
    return false
  let e ← get
  if e.contradictions.getD claimId ∅ = ∅ then
    return false
  commitTransition claimId claim claimStatusRefuted "refute_if_ready"

/-- A confirmed claim with a registered contradiction, resolved or not. -/
def disputeClaimIfReady (claimId : Int) : EngineM Bool := do
  readState (assertClaimExists claimId)
  let claim ← readState (getClaim claimId)
  if !claim.status.eq claimStatusConfirmed then
    return false
  let e ← get
  if e.contradictions.getD claimId ∅ = ∅ then
    return false
  commitTransition claimId claim claimStatusDisputed "dispute_if_ready"

/-- A disputed claim whose contradictions are all resolved. -/
def resolveDisputedClaimIfReady (claimId : Int) : EngineM Bool := do
  readState (assertClaimExists claimId)
  let claim ← readState (getClaim claimId)
  if !claim.status.eq claimStatusDisputed then
    return false
  let active ← readState (activeContradictionsForClaim claimId)
  if !active.isEmpty then
    return false
  commitTransition claimId claim claimStatusConfirmed "resolve_disputed_if_ready"

/-- `_REFUTATION_STRENGTH_THRESHOLD`. The literal `0.8` is the least double not below `4/5`,
so a float passes one bound exactly when it passes the other. -/
def refutationStrengthThreshold : ℚ := 4 / 5

/-- `self._evidences[evidence_id].strength.value`. -/
def strengthOf (evidenceId : Int) (e : Engine) : Except PyErr ℚ := do
  let evidence ← subscript e.evidences evidenceId
  match evidence.strength with
  | some strength => return strength.value
  | none => throw (.attributeError ["'NoneType' object has no attribute 'value'"])

/-- The search loop of `refute_disputed_claim_if_ready`. -/
def anyStrong (e : Engine) : List Int → Except PyErr Bool
  | [] => .ok false
  | evidenceId :: rest => do
    let strength ← e.strengthOf evidenceId
    if refutationStrengthThreshold ≤ strength then return true else anyStrong e rest

/-- A disputed claim with a strong active contradiction. -/
def refuteDisputedClaimIfReady (claimId : Int) : EngineM Bool := do
  readState (assertClaimExists claimId)
  let claim ← readState (getClaim claimId)
  if !claim.status.eq claimStatusDisputed then
    return false
  let active ← readState (activeContradictionsForClaim claimId)
  let strong ← readState fun e => e.anyStrong active
  if !strong then
    return false
  commitTransition claimId claim claimStatusRefuted "refute_disputed_if_ready"

/-- Here the newest active contradiction has to be the strong one. -/
def refuteDisputedClaimIfReadyByFreshness (claimId : Int) : EngineM Bool := do
  readState (assertClaimExists claimId)
  let claim ← readState (getClaim claimId)
  if !claim.status.eq claimStatusDisputed then
    return false
  let active ← readState (activeContradictionsByFreshness claimId)
  match active with
  | [] => return false
  | mostRecent :: _ =>
    let strength ← readState (strengthOf mostRecent)
    if !decide (refutationStrengthThreshold ≤ strength) then
      return false
    commitTransition claimId claim claimStatusRefuted "refute_disputed_by_freshness_if_ready"

/-! ## What a completed call writes

The state after each call that returned, so that no later proof has to run it again. -/

/-- One more registered contradiction. -/
def putContradiction (e : Engine) (claimId evidenceId : Int) : Engine :=
  { e with
    contradictions := e.contradictions.insert claimId
      (insert evidenceId (e.contradictions.getD claimId ∅))
    stateRevision := e.stateRevision + 1 }

def putContradictionResolution (e : Engine) (claimId evidenceId : Int) : Engine :=
  { e with
    resolvedContradictions := e.resolvedContradictions.insert claimId
      (insert evidenceId (e.resolvedContradictions.getD claimId ∅))
    stateRevision := e.stateRevision + 1 }

/-- The status replaced and nothing recorded. -/
def putStatus (e : Engine) (claimId : Int) (claim : Claim) (newStatus : Json) : Engine :=
  { e with claims := e.claims.insert claimId { claim with status := newStatus } }

/-- The new status, the event and the next number. -/
def putTransition (e : Engine) (claimId : Int) (claim : Claim) (newStatus seq : Json)
    (label : String) : Engine :=
  { e with
    claims := e.claims.insert claimId { claim with status := newStatus }
    lifecycleSeq := seq
    claimLifecycleEvents := e.claimLifecycleEvents.insert claimId
      (e.claimLifecycleEvents.getD claimId [] ++
        [⟨seq, .int claimId, claim.status, newStatus, .str label⟩])
    stateRevision := e.stateRevision + 1 }

/-- A commit replaces the status first: where the number cannot be counted on, it raises with the
status written and no event. -/
theorem commitTransition_cases (claimId : Int) (claim : Claim) (newStatus : Json)
    (label : String) (e : Engine) :
    (∃ err, e.lifecycleSeq.addInt 1 = .error err ∧
        commitTransition claimId claim newStatus label e =
          .error err (e.putStatus claimId claim newStatus)) ∨
      ∃ seq, e.lifecycleSeq.addInt 1 = .ok seq ∧
        commitTransition claimId claim newStatus label e =
          .ok true (e.putTransition claimId claim newStatus seq label) := by
  simp only [commitTransition]
  rw [run_modify_bind, run_bind, recordClaimLifecycleTransition, run_readState_bind]
  simp only
  -- the status is written by now
  cases h : e.lifecycleSeq.addInt 1 with
  | error err => exact .inl ⟨err, rfl, rfl⟩
  | ok seq => exact .inr ⟨seq, rfl, rfl⟩

theorem registerContradiction_cases (claimId evidenceId : Int) (e : Engine) :
    (∃ err, registerContradiction claimId evidenceId e = .error err e) ∨
      (e.claims.contains claimId = true ∧ e.evidences.contains evidenceId = true ∧
        ((evidenceId ∈ e.contradictions.getD claimId ∅ ∧
            registerContradiction claimId evidenceId e = .ok false e) ∨
          (evidenceId ∉ e.contradictions.getD claimId ∅ ∧
            registerContradiction claimId evidenceId e =
              .ok true (e.putContradiction claimId evidenceId)))) := by
  rw [registerContradiction, run_readState_bind]
  -- the two ids are asked for in this order
  cases hcl : e.assertClaimExists claimId with
  | error err => exact .inl ⟨err, rfl⟩
  | ok _ =>
    simp only
    rw [run_readState_bind]
    cases hev : e.assertEvidenceExists evidenceId with
    | error err => exact .inl ⟨err, rfl⟩
    | ok _ =>
      refine .inr ⟨assertExists_ok_iff.mp hcl, assertExists_ok_iff.mp hev, ?_⟩
      simp only
      rw [run_get_bind]
      by_cases hmem : evidenceId ∈ e.contradictions.getD claimId ∅
      · refine .inl ⟨hmem, ?_⟩
        simp only [hmem, if_true]
        rfl
      · refine .inr ⟨hmem, ?_⟩
        simp only [hmem, if_false]
        rfl

theorem registerContradictionResolution_cases (claimId evidenceId : Int) (e : Engine) :
    (∃ err, registerContradictionResolution claimId evidenceId e = .error err e) ∨
      (e.claims.contains claimId = true ∧ e.evidences.contains evidenceId = true ∧
        evidenceId ∈ e.contradictions.getD claimId ∅ ∧
        ((evidenceId ∈ e.resolvedContradictions.getD claimId ∅ ∧
            registerContradictionResolution claimId evidenceId e = .ok false e) ∨
          (evidenceId ∉ e.resolvedContradictions.getD claimId ∅ ∧
            registerContradictionResolution claimId evidenceId e =
              .ok true (e.putContradictionResolution claimId evidenceId)))) := by
  rw [registerContradictionResolution, run_readState_bind]
  cases hcl : e.assertClaimExists claimId with
  | error err => exact .inl ⟨err, rfl⟩
  | ok _ =>
    simp only
    rw [run_readState_bind]
    cases hev : e.assertEvidenceExists evidenceId with
    | error err => exact .inl ⟨err, rfl⟩
    | ok _ =>
      simp only
      rw [run_get_bind]
      by_cases hcon : evidenceId ∈ e.contradictions.getD claimId ∅
      · refine .inr ⟨assertExists_ok_iff.mp hcl, assertExists_ok_iff.mp hev, hcon, ?_⟩
        simp only [hcon, not_true_eq_false, if_false]
        -- a second resolution is a no-op
        by_cases hmem : evidenceId ∈ e.resolvedContradictions.getD claimId ∅
        · refine .inl ⟨hmem, ?_⟩
          simp only [hmem, if_true]
          rfl
        · refine .inr ⟨hmem, ?_⟩
          simp only [hmem, if_false]
          rfl
      · simp only [hcon, not_false_eq_true, if_true]
        exact .inl ⟨_, rfl⟩

theorem registerContradiction_ok {e : Engine} {claimId evidenceId : Int}
    (hclaim : e.claims.contains claimId = true) (hevidence : e.evidences.contains evidenceId = true)
    (hnew : evidenceId ∉ e.contradictions.getD claimId ∅) :
    registerContradiction claimId evidenceId e =
      .ok true (e.putContradiction claimId evidenceId) := by
  have hclaim' : e.assertClaimExists claimId = .ok () := assertExists_ok_iff.mpr hclaim
  have hevidence' : e.assertEvidenceExists evidenceId = .ok () := assertExists_ok_iff.mpr hevidence
  rw [registerContradiction, run_readState_bind, hclaim']
  simp only
  rw [run_readState_bind, hevidence']
  simp only
  rw [run_get_bind]
  simp only [hnew, if_false]
  rfl

theorem registerContradictionResolution_ok {e : Engine} {claimId evidenceId : Int}
    (hclaim : e.claims.contains claimId = true) (hevidence : e.evidences.contains evidenceId = true)
    (hregistered : evidenceId ∈ e.contradictions.getD claimId ∅)
    (hnew : evidenceId ∉ e.resolvedContradictions.getD claimId ∅) :
    registerContradictionResolution claimId evidenceId e =
      .ok true (e.putContradictionResolution claimId evidenceId) := by
  have hclaim' : e.assertClaimExists claimId = .ok () := assertExists_ok_iff.mpr hclaim
  have hevidence' : e.assertEvidenceExists evidenceId = .ok () := assertExists_ok_iff.mpr hevidence
  rw [registerContradictionResolution, run_readState_bind, hclaim']
  simp only
  rw [run_readState_bind, hevidence']
  simp only
  rw [run_get_bind]
  simp only [hregistered, hnew, not_true_eq_false, if_false]
  rfl

/-! ## The six transitions as one family

They differ in the status they start from, the one they end in, their label and their guard; the
rest is shared. -/

end Engine

/-- The six methods. -/
inductive Transition where
  | confirm
  | refute
  | dispute
  | resolveDisputed
  | refuteDisputed
  | refuteDisputedByFreshness
  deriving DecidableEq, Repr

namespace Transition

/-- The status a claim must have. -/
def source : Transition → Json
  | confirm => claimStatusCandidate
  | refute => claimStatusCandidate
  | dispute => claimStatusConfirmed
  | resolveDisputed => claimStatusDisputed
  | refuteDisputed => claimStatusDisputed
  | refuteDisputedByFreshness => claimStatusDisputed

/-- The status a transition ends in. -/
def target : Transition → Json
  | confirm => claimStatusConfirmed
  | refute => claimStatusRefuted
  | dispute => claimStatusDisputed
  | resolveDisputed => claimStatusConfirmed
  | refuteDisputed => claimStatusRefuted
  | refuteDisputedByFreshness => claimStatusRefuted

/-- The name it is recorded under. -/
def label : Transition → String
  | confirm => "confirm_if_ready"
  | refute => "refute_if_ready"
  | dispute => "dispute_if_ready"
  | resolveDisputed => "resolve_disputed_if_ready"
  | refuteDisputed => "refute_disputed_if_ready"
  | refuteDisputedByFreshness => "refute_disputed_by_freshness_if_ready"

/-- The method of the source. -/
def method : Transition → Int → EngineM Bool
  | confirm => Engine.confirmClaimIfReady
  | refute => Engine.refuteClaimIfReady
  | dispute => Engine.disputeClaimIfReady
  | resolveDisputed => Engine.resolveDisputedClaimIfReady
  | refuteDisputed => Engine.refuteDisputedClaimIfReady
  | refuteDisputedByFreshness => Engine.refuteDisputedClaimIfReadyByFreshness

/-- How every method begins: the claim must exist, and its status be the source. `rest` is what the
method does after that. -/
def gated (t : Transition) (claimId : Int) (rest : Claim → EngineM Bool) : EngineM Bool := do
  readState (Engine.assertClaimExists claimId)
  let claim ← readState (Engine.getClaim claimId)
  if !claim.status.eq t.source then
    return false
  rest claim

/-- What a transition asks of the stores besides the status. -/
def Guard (e : Engine) (claimId : Int) : Transition → Prop
  | confirm => ∃ gaps, e.gapsForClaim claimId = .ok gaps ∧ gaps ≠ [] ∧
      e.allResolved gaps = .ok true
  | refute => e.contradictions.getD claimId ∅ ≠ ∅
  | dispute => e.contradictions.getD claimId ∅ ≠ ∅
  | resolveDisputed => e.activeContradictions claimId = ∅
  | refuteDisputed => ∃ evidenceId ∈ e.activeContradictions claimId,
      ∃ strength, e.strengthOf evidenceId = .ok strength ∧
        Engine.refutationStrengthThreshold ≤ strength
  | refuteDisputedByFreshness => ∃ evidenceId rest,
      sortSet (· ≥ ·) (e.activeContradictions claimId) = evidenceId :: rest ∧
        ∃ strength, e.strengthOf evidenceId = .ok strength ∧
          Engine.refutationStrengthThreshold ≤ strength

end Transition

namespace Engine

/-- A strength is read off a stored record that has one. -/
theorem strengthOf_ok_iff {e : Engine} {evidenceId : Int} {strength : ℚ} :
    e.strengthOf evidenceId = .ok strength ↔
      ∃ evidence score, e.evidences.get? evidenceId = some evidence ∧
        evidence.strength = some score ∧ score.value = strength := by
  constructor
  · intro h
    obtain ⟨evidence, hget, h⟩ := bind_ok_iff.mp h
    -- an evidence whose strength is `None` has no `value`
    cases hscore : evidence.strength with
    | none =>
      rw [hscore] at h
      cases h
    | some score =>
      rw [hscore] at h
      exact ⟨evidence, score, subscript_ok_iff.mp hget, hscore, Except.ok.inj h⟩
  · rintro ⟨evidence, score, hget, hscore, rfl⟩
    refine bind_ok_iff.mpr ⟨evidence, subscript_ok_iff.mpr hget, ?_⟩
    rw [hscore]
    rfl

/-- On a claim that exists, the sorted set. -/
theorem activeContradictionsForClaim_eq {e : Engine} {claimId : Int}
    (hclaim : e.claims.contains claimId = true) :
    e.activeContradictionsForClaim claimId =
      .ok (sortSet (· ≤ ·) (e.activeContradictions claimId)) :=
  bind_ok_iff.mpr ⟨(), assertExists_ok_iff.mpr hclaim, rfl⟩

theorem activeContradictionsByFreshness_eq {e : Engine} {claimId : Int}
    (hclaim : e.claims.contains claimId = true) :
    e.activeContradictionsByFreshness claimId =
      .ok (sortSet (· ≥ ·) (e.activeContradictions claimId)) :=
  bind_ok_iff.mpr ⟨(), assertExists_ok_iff.mpr hclaim, rfl⟩

/-- The loop found a strength that it could read. -/
theorem anyStrong_true {e : Engine} {ids : List Int} (h : e.anyStrong ids = .ok true) :
    ∃ evidenceId ∈ ids, ∃ strength, e.strengthOf evidenceId = .ok strength ∧
      refutationStrengthThreshold ≤ strength := by
  induction ids with
  | nil => simp [anyStrong] at h
  | cons evidenceId rest ih =>
    rw [anyStrong] at h
    obtain ⟨strength, hs, h⟩ := bind_ok_iff.mp h
    split at h
    · exact ⟨evidenceId, by simp, strength, hs, ‹_›⟩
    · obtain ⟨ev, hev, hstrong⟩ := ih h
      exact ⟨ev, by simp [hev], hstrong⟩

/-- The gate closed, or what comes after it decided. -/
theorem gate_cases {t : Transition} {claimId : Int} {e : Engine} {rest : Claim → EngineM Bool}
    (hmethod : t.method claimId = t.gated claimId rest)
    (hrest : ∀ claim, (∃ err, rest claim e = .error err e) ∨ rest claim e = .ok false e ∨
      t.Guard e claimId ∧
        rest claim e = commitTransition claimId claim t.target t.label e) :
    (∃ err, t.method claimId e = .error err e) ∨ t.method claimId e = .ok false e ∨
      ∃ claim, e.claims.get? claimId = some claim ∧ claim.status.eq t.source = true ∧
        t.Guard e claimId ∧
        t.method claimId e = commitTransition claimId claim t.target t.label e := by
  rw [hmethod, Transition.gated, run_readState_bind]
  -- the claim, its record and its status are asked for before the guard
  cases e.assertClaimExists claimId with
  | error err => exact .inl ⟨err, rfl⟩
  | ok _ =>
    simp only
    rw [run_readState_bind]
    cases hclaim : e.getClaim claimId with
    | error err => exact .inl ⟨err, rfl⟩
    | ok claim =>
      cases hst : claim.status.eq t.source with
      | false => exact .inr (.inl (by simp only [hst]; rfl))
      | true =>
        simp only [hst, Bool.not_true, Bool.false_eq_true, if_false]
        rcases hrest claim with herr | hfalse | ⟨hguard, hcommit⟩
        · exact .inl herr
        · exact .inr (.inl hfalse)
        · exact .inr (.inr ⟨claim, subscript_ok_iff.mp hclaim, hst, hguard, hcommit⟩)

/-- The guard of `refute_claim_if_ready` and `dispute_claim_if_ready`. -/
theorem contradicted_cases (claimId : Int) (commit : EngineM Bool) (e : Engine) :
    (get >>= fun e : Engine =>
        if e.contradictions.getD claimId ∅ = ∅ then return false else commit) e = .ok false e ∨
      e.contradictions.getD claimId ∅ ≠ ∅ ∧
        (get >>= fun e : Engine =>
          if e.contradictions.getD claimId ∅ = ∅ then return false else commit) e = commit e := by
  rw [run_get_bind]
  by_cases hnone : e.contradictions.getD claimId ∅ = ∅
  · rw [if_pos hnone]
    exact .inl rfl
  · rw [if_neg hnone]
    exact .inr ⟨hnone, rfl⟩

theorem activeContradictionsForClaim_ok {e : Engine} {claimId : Int} {active : List Int}
    (h : e.activeContradictionsForClaim claimId = .ok active) :
    sortSet (· ≤ ·) (e.activeContradictions claimId) = active := by
  obtain ⟨_, _, hsorted⟩ := bind_ok_iff.mp h
  exact Except.ok.inj hsorted

theorem activeContradictionsByFreshness_ok {e : Engine} {claimId : Int} {active : List Int}
    (h : e.activeContradictionsByFreshness claimId = .ok active) :
    sortSet (· ≥ ·) (e.activeContradictions claimId) = active := by
  obtain ⟨_, _, hsorted⟩ := bind_ok_iff.mp h
  exact Except.ok.inj hsorted

/-- **What one call of a transition method does.** It raises or returns `False` with nothing
written, or its claim has the source status, its guard holds and it commits. -/
theorem transition_cases (t : Transition) (claimId : Int) (e : Engine) :
    (∃ err, t.method claimId e = .error err e) ∨ t.method claimId e = .ok false e ∨
      ∃ claim, e.claims.get? claimId = some claim ∧ claim.status.eq t.source = true ∧
        t.Guard e claimId ∧
        t.method claimId e = commitTransition claimId claim t.target t.label e := by
  cases t with
  | confirm =>
    refine gate_cases rfl fun claim => ?_
    rw [run_readState_bind]
    cases hgaps : e.gapsForClaim claimId with
    | error err => exact .inl ⟨err, rfl⟩
    | ok gaps =>
      cases hempty : gaps.isEmpty with
      | true => exact .inr (.inl (by simp only [hempty]; rfl))
      | false =>
        simp only [hempty, Bool.false_eq_true, if_false]
        rw [run_readState_bind]
        cases hres : e.allResolved gaps with
        | error err => exact .inl ⟨err, rfl⟩
        | ok resolved =>
          -- a single open gap keeps the claim a candidate
          cases resolved with
          | false => exact .inr (.inl rfl)
          | true => exact .inr (.inr ⟨⟨gaps, hgaps, by simpa using hempty, hres⟩, rfl⟩)
  | refute =>
    refine gate_cases rfl fun claim => ?_
    rcases contradicted_cases claimId
      (commitTransition claimId claim claimStatusRefuted "refute_if_ready") e with hnone | hsome
    · exact .inr (.inl hnone)
    · exact .inr (.inr hsome)
  | dispute =>
    refine gate_cases rfl fun claim => ?_
    rcases contradicted_cases claimId
      (commitTransition claimId claim claimStatusDisputed "dispute_if_ready") e with hnone | hsome
    · exact .inr (.inl hnone)
    · exact .inr (.inr hsome)
  | resolveDisputed =>
    refine gate_cases rfl fun claim => ?_
    rw [run_readState_bind]
    cases hact : e.activeContradictionsForClaim claimId with
    | error err => exact .inl ⟨err, rfl⟩
    | ok active =>
      have hsorted := activeContradictionsForClaim_ok hact
      cases active with
      | cons a rest => exact .inr (.inl rfl)
      | nil =>
        -- an empty sorted list comes from an empty set
        refine .inr (.inr ⟨?_, rfl⟩)
        show e.activeContradictions claimId = ∅
        exact Finset.eq_empty_of_forall_notMem fun a ha => by
          simpa [hsorted] using mem_sortSet.mpr ha
  | refuteDisputed =>
    refine gate_cases rfl fun claim => ?_
    rw [run_readState_bind]
    cases hact : e.activeContradictionsForClaim claimId with
    | error err => exact .inl ⟨err, rfl⟩
    | ok active =>
      simp only
      rw [run_readState_bind]
      cases hstrong : e.anyStrong active with
      | error err => exact .inl ⟨err, rfl⟩
      | ok strong =>
        cases strong with
        | false => exact .inr (.inl rfl)
        | true =>
          have hsorted := activeContradictionsForClaim_ok hact
          obtain ⟨evidenceId, hmem, hs⟩ := anyStrong_true hstrong
          rw [← hsorted] at hmem
          exact .inr (.inr ⟨⟨evidenceId, mem_sortSet.mp hmem, hs⟩, rfl⟩)
  | refuteDisputedByFreshness =>
    refine gate_cases rfl fun claim => ?_
    rw [run_readState_bind]
    cases hact : e.activeContradictionsByFreshness claimId with
    | error err => exact .inl ⟨err, rfl⟩
    | ok active =>
      have hsorted := activeContradictionsByFreshness_ok hact
      cases active with
      | nil => exact .inr (.inl rfl)
      | cons mostRecent rest =>
        simp only
        rw [run_readState_bind]
        cases hs : e.strengthOf mostRecent with
        | error err => exact .inl ⟨err, rfl⟩
        | ok strength =>
          -- only the newest one is asked; a weak one ends the method whatever comes after it
          by_cases hle : refutationStrengthThreshold ≤ strength
          · refine .inr (.inr ⟨⟨mostRecent, rest, hsorted, strength, hs, hle⟩, ?_⟩)
            simp only [hle, decide_true, Bool.not_true, Bool.false_eq_true, if_false,
              Transition.target, Transition.label]
          · refine .inr (.inl ?_)
            simp only [hle, decide_false, Bool.not_false, if_true]
            rfl

end Engine

end Ragcore
