import Ragcore.Engine.State

/-!
# Ragcore — entities, observations, claims and evidence

`ragcore/_engine/crud.py`, with the status admission of `ragcore/_engine/confidence.py` that
`add_claim` calls. Each `add_*` checks its reference, admits its arguments and only then
allocates an id, so a call either raises before the first write or completes; the `_cases`
lemmas say so and name the state a completed call leaves.
-/

namespace Ragcore

/-- `_VALID_CLAIM_STATUSES`. -/
def validClaimStatuses : List Int := [0, 1, 2, 3]

/-- `_validate_claim_status_admission`. -/
def validateClaimStatusAdmission (value : Json) : Except PyErr Unit :=
  match value.exactInt? with
  | none =>
    .error (.typeError
      [s!"Claim.status must be a built-in int and one of CLAIM_STATUS_CANDIDATE / CLAIM_STATUS_CONFIRMED / CLAIM_STATUS_REFUTED / CLAIM_STATUS_DISPUTED, not {value.typeName}"])
  | some n =>
    if n ∈ validClaimStatuses then .ok ()
    else .error (.valueError
      [s!"Claim.status {n} is not admissible; admissible values: [0, 1, 2, 3]"])

/-- A status the admission check lets through. -/
def ValidStatus (status : Json) : Prop :=
  status = claimStatusCandidate ∨ status = claimStatusConfirmed ∨
    status = claimStatusRefuted ∨ status = claimStatusDisputed

/-- Exactly the four statuses are admitted. -/
theorem validateClaimStatusAdmission_ok_iff {value : Json} :
    validateClaimStatusAdmission value = .ok () ↔ ValidStatus value := by
  unfold validateClaimStatusAdmission ValidStatus
  cases value with
  | int n =>
    simp [claimStatusCandidate, claimStatusConfirmed, claimStatusRefuted, claimStatusDisputed,
      validClaimStatuses]
    omega
  | _ =>
    simp [Json.exactInt?, claimStatusCandidate, claimStatusConfirmed, claimStatusRefuted,
      claimStatusDisputed]

namespace Engine

/-! ## Entities

A record without references. -/

/-- The id is taken, the record is filed, the revision moves. -/
def addEntity (entityType flags : Int) : EngineM Int := do
  let entityId ← allocateId "entity"
  modify fun e => { e with
    entities := e.entities.insert entityId
      { id := .int entityId, type := .int entityType, flags := .int flags } }
  advanceStateRevision
  return entityId

def getEntity (entityId : Int) (e : Engine) : Except PyErr Entity := subscript e.entities entityId

/-! ## Observations

A record of an entity. -/

/-- The entity is asked for first. -/
def addObservation (entityId rawRefId observationType sourceType : Int) : EngineM Int := do
  readState (assertEntityExists entityId)
  let obsId ← allocateId "observation"
  modify fun e => { e with
    observations := e.observations.insert obsId
      { id := .int obsId
        entityId := .int entityId
        rawRefId := .int rawRefId
        type := .int observationType
        sourceType := .int sourceType } }
  advanceStateRevision
  return obsId

def getObservation (observationId : Int) (e : Engine) : Except PyErr Observation :=
  subscript e.observations observationId

/-! ## Claims

The subject, the status and the score are checked before an id is taken. -/

/-- A failed check leaves the counter where it was. -/
def addClaim (subjectId claimType ruleId ruleVersion reasonCode : Int)
    (baseConfidence : PyFloat) (status flags : Int) : EngineM Int := do
  readState fun e =>
    assertExists (e.entities.contains subjectId) s!"unknown subject_id (entity): {subjectId}"
  readState fun _ => validateClaimStatusAdmission (.int status)
  let validatedBaseConfidence ← readState fun _ => ScoreValue.new (.float baseConfidence)
  let claimId ← allocateId "claim"
  modify fun e => { e with
    claims := e.claims.insert claimId
      { id := claimId
        subjectId := .int subjectId
        type := .int claimType
        status := .int status
        createdByRule := .int ruleId
        createdByRuleVersion := .int ruleVersion
        reasonCode := .int reasonCode
        baseConfidence := some validatedBaseConfidence
        flags := .int flags } }
  advanceStateRevision
  return claimId

def getClaim (claimId : Int) (e : Engine) : Except PyErr Claim := subscript e.claims claimId

/-! ## Evidence

An evidence belongs to one claim, under which it is listed as well. -/

/-- The claim and the score are checked before an id is taken. -/
def addEvidence (claimId rawRefId evidenceType : Int) (strength : PyFloat) : EngineM Int := do
  readState (assertClaimExists claimId)
  let validatedStrength ← readState fun _ => ScoreValue.new (.float strength)
  let evidenceId ← allocateId "evidence"
  modify fun e => { e with
    evidences := e.evidences.insert evidenceId
      { id := evidenceId
        claimId := claimId
        rawRefId := .int rawRefId
        type := .int evidenceType
        strength := some validatedStrength } }
  advanceStateRevision
  return evidenceId

def getEvidence (evidenceId : Int) (e : Engine) : Except PyErr Evidence :=
  subscript e.evidences evidenceId

/-- The evidences of a claim, in the order the dict holds them. -/
def evidencesForClaim (claimId : Int) (e : Engine) : Except PyErr (List Evidence) := do
  e.assertClaimExists claimId
  return e.evidences.values.filter fun ev => ev.claimId = claimId

/-! ## What a completed call writes

The engine after a call that returned, as one update. -/

/-- The counter, the record and the revision. -/
def putEntity (e : Engine) (n : Int) (record : Entity) : Engine :=
  { e with
    nextId := e.nextId.insert "entity" (.int n)
    entities := e.entities.insert n record
    stateRevision := e.stateRevision + 1 }

def putObservation (e : Engine) (n : Int) (record : Observation) : Engine :=
  { e with
    nextId := e.nextId.insert "observation" (.int n)
    observations := e.observations.insert n record
    stateRevision := e.stateRevision + 1 }

def putClaim (e : Engine) (n : Int) (record : Claim) : Engine :=
  { e with
    nextId := e.nextId.insert "claim" (.int n)
    claims := e.claims.insert n record
    stateRevision := e.stateRevision + 1 }

def putEvidence (e : Engine) (n : Int) (record : Evidence) : Engine :=
  { e with
    nextId := e.nextId.insert "evidence" (.int n)
    evidences := e.evidences.insert n record
    stateRevision := e.stateRevision + 1 }

/-- Taking an id raises where the counter is no int. -/
theorem run_allocateId_bind {β : Type} (kind : String) (f : Int → EngineM β) (e : Engine) :
    (allocateId kind >>= f) e =
      match e.nextCounter kind with
      | .ok n => f n { e with nextId := e.nextId.insert kind (.int n) }
      | .error err => .error err e := by
  rw [allocateId, run_bind, run_readState_bind]
  cases e.nextCounter kind <;> rfl

/-- A call raises and changes nothing, or files its record under the next id. -/
theorem addEntity_cases (entityType flags : Int) (e : Engine) :
    (∃ err, addEntity entityType flags e = .error err e) ∨
      ∃ n, e.nextCounter "entity" = .ok n ∧
        addEntity entityType flags e =
          .ok n (e.putEntity n ⟨.int n, .int entityType, .int flags⟩) := by
  rw [addEntity, run_allocateId_bind]
  cases h : e.nextCounter "entity" with
  | error err => exact .inl ⟨err, rfl⟩
  | ok n => exact .inr ⟨n, rfl, rfl⟩

theorem addObservation_cases (entityId rawRefId observationType sourceType : Int) (e : Engine) :
    (∃ err, addObservation entityId rawRefId observationType sourceType e = .error err e) ∨
      ∃ n, e.entities.contains entityId = true ∧ e.nextCounter "observation" = .ok n ∧
        addObservation entityId rawRefId observationType sourceType e =
          .ok n (e.putObservation n
            ⟨.int n, .int entityId, .int rawRefId, .int observationType, .int sourceType⟩) := by
  rw [addObservation, run_readState_bind]
  -- the entity is asked for before the counter
  cases hent : e.assertEntityExists entityId with
  | error err => exact .inl ⟨err, rfl⟩
  | ok _ =>
    simp only
    rw [run_allocateId_bind]
    cases h : e.nextCounter "observation" with
    | error err => exact .inl ⟨err, rfl⟩
    | ok n => exact .inr ⟨n, assertExists_ok_iff.mp hent, rfl, rfl⟩

theorem addClaim_cases (subjectId claimType ruleId ruleVersion reasonCode : Int)
    (baseConfidence : PyFloat) (status flags : Int) (e : Engine) :
    (∃ err, addClaim subjectId claimType ruleId ruleVersion reasonCode baseConfidence status
        flags e = .error err e) ∨
      ∃ n score, e.entities.contains subjectId = true ∧ ValidStatus (.int status) ∧
        ScoreValue.new (.float baseConfidence) = .ok score ∧ e.nextCounter "claim" = .ok n ∧
        addClaim subjectId claimType ruleId ruleVersion reasonCode baseConfidence status flags e =
          .ok n (e.putClaim n
            ⟨n, .int subjectId, .int claimType, .int status, .int ruleId, .int ruleVersion,
              .int reasonCode, some score, .int flags⟩) := by
  rw [addClaim, run_readState_bind]
  -- the checks of the source, in its order
  cases hsub : assertExists (e.entities.contains subjectId)
      s!"unknown subject_id (entity): {subjectId}" with
  | error err => exact .inl ⟨err, rfl⟩
  | ok _ =>
    simp only
    rw [run_readState_bind]
    cases hst : validateClaimStatusAdmission (.int status) with
    | error err => exact .inl ⟨err, rfl⟩
    | ok _ =>
      simp only
      rw [run_readState_bind]
      cases hsc : ScoreValue.new (.float baseConfidence) with
      | error err => exact .inl ⟨err, rfl⟩
      | ok score =>
        simp only
        rw [run_allocateId_bind]
        cases h : e.nextCounter "claim" with
        | error err => exact .inl ⟨err, rfl⟩
        | ok n =>
          exact .inr ⟨n, score, assertExists_ok_iff.mp hsub,
            validateClaimStatusAdmission_ok_iff.mp hst, rfl, rfl, rfl⟩

theorem addEvidence_cases (claimId rawRefId evidenceType : Int) (strength : PyFloat)
    (e : Engine) :
    (∃ err, addEvidence claimId rawRefId evidenceType strength e = .error err e) ∨
      ∃ n score, e.claims.contains claimId = true ∧
        ScoreValue.new (.float strength) = .ok score ∧ e.nextCounter "evidence" = .ok n ∧
        addEvidence claimId rawRefId evidenceType strength e =
          .ok n (e.putEvidence n
            ⟨n, claimId, .int rawRefId, .int evidenceType, some score⟩) := by
  rw [addEvidence, run_readState_bind]
  -- claim, score, counter: each may raise, and nothing was written yet
  cases hcl : e.assertClaimExists claimId with
  | error err => exact .inl ⟨err, rfl⟩
  | ok _ =>
    simp only
    rw [run_readState_bind]
    cases hsc : ScoreValue.new (.float strength) with
    | error err => exact .inl ⟨err, rfl⟩
    | ok score =>
      simp only
      rw [run_allocateId_bind]
      cases h : e.nextCounter "evidence" with
      | error err => exact .inl ⟨err, rfl⟩
      | ok n => exact .inr ⟨n, score, assertExists_ok_iff.mp hcl, rfl, rfl, rfl⟩

/-! ### Calls whose checks pass

For runs on known engines. -/

theorem addEntity_ok {e : Engine} {n : Int} (hn : e.nextCounter "entity" = .ok n)
    (entityType flags : Int) :
    addEntity entityType flags e = .ok n (e.putEntity n ⟨.int n, .int entityType, .int flags⟩) := by
  rw [addEntity, run_allocateId_bind, hn]
  rfl

theorem addClaim_ok {e : Engine} {subjectId status n : Int} {baseConfidence : PyFloat}
    {score : ScoreValue} (hsubject : e.entities.contains subjectId = true)
    (hstatus : ValidStatus (.int status))
    (hscore : ScoreValue.new (.float baseConfidence) = .ok score)
    (hn : e.nextCounter "claim" = .ok n) (claimType ruleId ruleVersion reasonCode flags : Int) :
    addClaim subjectId claimType ruleId ruleVersion reasonCode baseConfidence status flags e =
      .ok n (e.putClaim n
        ⟨n, .int subjectId, .int claimType, .int status, .int ruleId, .int ruleVersion,
          .int reasonCode, some score, .int flags⟩) := by
  rw [addClaim, run_readState_bind, assertExists_ok_iff.mpr hsubject]
  simp only
  rw [run_readState_bind, validateClaimStatusAdmission_ok_iff.mpr hstatus]
  simp only
  rw [run_readState_bind, hscore]
  simp only
  rw [run_allocateId_bind, hn]
  rfl

theorem addEvidence_ok {e : Engine} {claimId n : Int} {strength : PyFloat} {score : ScoreValue}
    (hclaim : e.claims.contains claimId = true)
    (hscore : ScoreValue.new (.float strength) = .ok score)
    (hn : e.nextCounter "evidence" = .ok n) (rawRefId evidenceType : Int) :
    addEvidence claimId rawRefId evidenceType strength e =
      .ok n (e.putEvidence n ⟨n, claimId, .int rawRefId, .int evidenceType, some score⟩) := by
  have hexists : e.assertClaimExists claimId = .ok () := assertExists_ok_iff.mpr hclaim
  rw [addEvidence, run_readState_bind, hexists]
  simp only
  rw [run_readState_bind, hscore]
  simp only
  rw [run_allocateId_bind, hn]
  rfl

end Engine

end Ragcore
