import Ragcore.Invariant.Identity
import Ragcore.Lib.Optimistic
import Ragcore.Role.Validator

/-!
# Ragcore — the authority-gated mutation cycle

`_run_cycle` of `complete_domain_neutral_reference_operation.py`. A consumer builds a candidate
call, an operator reviews it, and the call is made only behind three gates: the review approved
it, and at two moments the engine is still in the state the decision was recorded on.

The review is a module global that a caller may replace, and the one place where the cycle gives
control away: it is a parameter, and may call the engine before it answers. The keyword arguments
of a call are an `Op`, the method's name included; a deep copy of a record is the record.

* **`openCycle`**, **`closeCycle`** — the cycle up to the review, and from the answer on.
* **`closeCycle_eq`** — the three gates as a case distinction.
* **`cycle_gates`** — what a cycle does, by what the review answered and did.
-/

namespace Ragcore

namespace Operation

/-! ## The desk

The engine beside the counter for record ids. A run of the examples is a program over both. -/

/-- The engine, and the counter that the records of one operation share. -/
structure Desk where
  engine : Engine
  ids : Nat

/-- A program at the desk. -/
abbrev DeskM := EStateM PyErr Desk

/-- The engine method `x`, called from the desk. -/
def onEngine {α : Type} (x : EngineM α) : DeskM α := fun d =>
  match x d.engine with
  | .ok a e => .ok a { d with engine := e }
  | .error err e => .error err { d with engine := e }

/-- `next_id`, of `_next_id_factory`. -/
def nextId (kind : String) : DeskM String := do
  modify fun d => { d with ids := d.ids + 1 }
  let d ← get
  return s!"{kind}-{d.ids}"

/-! ## Records

What a cycle leaves behind, record by record, with the fields that its checks read. -/

/-- `{"engine_token": …, "revision": …}`. -/
structure IdentityDict where
  engineToken : String
  revision : Int
  deriving DecidableEq, Repr

/-- `_identity_dict`. -/
def identityDict (identity : EngineStateIdentity) : IdentityDict :=
  ⟨identity.engineToken, identity.revision⟩

/-- What is proposed, and the state at which it was. -/
structure Candidate where
  recordKind : String
  candidateId : String
  targetMethod : String
  arguments : Op
  sourceBasis : PyValue
  expectedEffect : String
  policyAssumptions : List String
  materializedAtRevision : Nat

/-- What the operator said, and at which state. -/
structure Decision where
  recordKind : String
  status : String
  decisionRecordId : String
  decisionFamily : String
  subjectSnapshot : Candidate
  disposition : String
  decisionStateIdentity : IdentityDict
  supersedes : Option String
  note : String

/-- The candidate as it goes into the call. -/
structure Request where
  recordKind : String
  requestId : String
  approvedCandidateSnapshot : Candidate
  approvedDecisionRecordId : String
  targetMethod : String
  arguments : Op
  decisionStateIdentity : IdentityDict

/-- The states before and after the call, and what it returned. -/
structure Receipt where
  recordKind : String
  receiptId : String
  requestId : String
  targetMethod : String
  reviewedArguments : Op
  identityBefore : IdentityDict
  identityAfter : IdentityDict
  result : Ret

/-- The identity of the decision against the current one. -/
structure Revalidation where
  moment : String
  status : String
  decisionStateIdentity : IdentityDict
  currentStateIdentity : IdentityDict
  verdict : String

/-- `{"stage_5_5_materialization": .., "stage_6_invocation": ..}`. -/
structure Revalidations where
  materialization : Option Revalidation
  invocation : Option Revalidation

/-- The records of one cycle; those after a shut gate are missing. -/
structure CycleRecord where
  status : String
  targetMethod : String
  arguments : Op
  candidate : Candidate
  operatorDecisionRecord : Decision
  reviewedMutationRequest : Option Request
  revalidations : Revalidations
  callReceipt : Option Receipt
  /-- The entries of `extra_record_fields`. -/
  extra : Entries
  /-- The entry that `result_fields` adds. -/
  returned : Option (String × Ret)

/-- Which of the two gates was shut. -/
inductive TerminationReason where
  | disposition (disposition : String)
  | revalidation (record : Revalidation)
  | roleValidationViolations (violations : List Role.Violation)

/-- The stage at which a run ended, and why. -/
structure Termination where
  terminationStage : String
  terminationReason : TerminationReason

/-- `("ok", result)` or `("terminated", termination)`. -/
inductive CycleOutcome (α : Type) where
  | ok (result : α)
  | terminated (termination : Termination)

/-- What a caller of `_run_cycle` says about its call. -/
structure Proposed where
  targetMethod : String
  arguments : Op
  sourceBasis : PyValue
  expectedEffect : String
  policyAssumptions : List String
  extraRecordFields : Entries

/-- `_build_candidate`. -/
def buildCandidate (p : Proposed) (materializedAtRevision : Nat) : DeskM Candidate := do
  let candidateId ← nextId "cand"
  return {
    recordKind := "engine_input_candidate"
    candidateId
    targetMethod := p.targetMethod
    arguments := p.arguments
    sourceBasis := p.sourceBasis
    expectedEffect := p.expectedEffect
    policyAssumptions := p.policyAssumptions
    materializedAtRevision }

/-- `_build_decision`. -/
def buildDecision (decisionFamily : String) (subjectSnapshot : Candidate) (disposition : String)
    (decisionStateIdentity : IdentityDict) (supersedes : Option String) (note : String) :
    DeskM Decision := do
  let decisionRecordId ← nextId "dec"
  return {
    recordKind := "operator_decision_record"
    status := "OPERATOR_REVIEW"
    decisionRecordId
    decisionFamily
    subjectSnapshot
    disposition
    decisionStateIdentity
    supersedes
    note }

/-- `_build_request`. -/
def buildRequest (candidate : Candidate) (decisionRecordId : String)
    (decisionStateIdentity : IdentityDict) : DeskM Request := do
  let requestId ← nextId "req"
  return {
    recordKind := "reviewed_mutation_request"
    requestId
    approvedCandidateSnapshot := candidate
    approvedDecisionRecordId := decisionRecordId
    targetMethod := candidate.targetMethod
    arguments := candidate.arguments
    decisionStateIdentity }

/-- `_build_receipt`. -/
def buildReceipt (request : Request) (identityBefore identityAfter : IdentityDict)
    (result : Ret) : DeskM Receipt := do
  let receiptId ← nextId "rcpt"
  return {
    recordKind := "call_receipt"
    receiptId
    requestId := request.requestId
    targetMethod := request.targetMethod
    reviewedArguments := request.arguments
    identityBefore
    identityAfter
    result }

/-- `_revalidate`. -/
def revalidate (decisionIdentity currentIdentity : IdentityDict) (moment : String) :
    Revalidation where
  moment
  status := "STATE_REVALIDATED"
  decisionStateIdentity := decisionIdentity
  currentStateIdentity := currentIdentity
  verdict := if decisionIdentity = currentIdentity then "eligible" else "not_eligible"

/-- `_termination`. -/
def termination (stage : String) (reason : TerminationReason) : Termination := ⟨stage, reason⟩

/-- `lambda rec, res: rec.__setitem__(name, res)`. -/
def returning {α : Type} (name : String) (ret : α → Ret) (result : α) : String × Ret :=
  (name, ret result)

/-! ## The review

Whatever is asked for a disposition may call the engine before it answers. The review of the source
does not, but the second gate is there for one that does. -/

/-- `_explicit_review`. -/
def explicitReview (approved : Bool) (note : String) : String :=
  if approved then "approved" else note

/-- What is called as `_explicit_review(True, "")`: it makes some calls, if any, and answers. -/
structure Review where
  calls : List Call
  disposition : String

/-- The review of the module. -/
def Review.explicit : Review := ⟨[], explicitReview true ""⟩

/-- The calls of the review are made before it answers. -/
def Review.run (review : Review) : DeskM String := fun d =>
  .ok review.disposition { d with engine := d.engine.runCalls review.calls }

/-! ## The cycle

Candidate, review, gate, revalidation, gate, call, receipt, in this order. -/

/-- `_identity_dict(engine.state_identity())`. -/
def currentIdentity : DeskM IdentityDict :=
  readState fun d => identityDict <$> d.engine.stateIdentity

/-- What the cycle holds while the review is under way. -/
structure Opened where
  candidate : Candidate
  decisionIdentity : IdentityDict
  extraRecordFields : Entries

/-- `_run_cycle` up to the review. -/
def openCycle (p : Proposed) : DeskM Opened := do
  let identity ← readState fun d => d.engine.stateIdentity
  let candidate ← buildCandidate p identity.revision
  let decisionIdentity ← currentIdentity
  return ⟨candidate, decisionIdentity, p.extraRecordFields⟩

/-- `_run_cycle` from the review's answer on. -/
def closeCycle {α : Type} (opened : Opened) (disposition : String) (invoke : Op → EngineM α)
    (resultFields : α → String × Ret) : DeskM (CycleRecord × CycleOutcome α) := do
  let candidate := opened.candidate
  let decisionIdentity := opened.decisionIdentity
  let decision ← buildDecision "mutation_review" candidate disposition decisionIdentity none
    "approved on local consumer review"
  let record : CycleRecord := {
    status := "EXPLICIT_INVOCATION"
    targetMethod := candidate.targetMethod
    arguments := candidate.arguments
    candidate
    operatorDecisionRecord := decision
    reviewedMutationRequest := none
    revalidations := ⟨none, none⟩
    callReceipt := none
    extra := opened.extraRecordFields
    returned := none }
  if decision.disposition ≠ "approved" then
    return (record, .terminated (termination s!"{candidate.targetMethod}.operator_review"
      (.disposition decision.disposition)))
  let current ← currentIdentity
  let reval55 := revalidate decisionIdentity current "stage_5_5_materialization"
  let record := { record with revalidations := ⟨some reval55, none⟩ }
  if reval55.verdict ≠ "eligible" then
    return (record, .terminated (termination
      s!"{candidate.targetMethod}.stage_5_5_materialization" (.revalidation reval55)))
  let request ← buildRequest candidate decision.decisionRecordId decisionIdentity
  let record := { record with reviewedMutationRequest := some request }
  let current ← currentIdentity
  let reval6 := revalidate decisionIdentity current "stage_6_invocation"
  let record := { record with revalidations := ⟨some reval55, some reval6⟩ }
  if reval6.verdict ≠ "eligible" then
    return (record, .terminated (termination s!"{candidate.targetMethod}.stage_6_invocation"
      (.revalidation reval6)))
  let idBefore ← currentIdentity
  let result ← onEngine (invoke request.arguments)
  let idAfter ← currentIdentity
  let receipt ← buildReceipt request idBefore idAfter (resultFields result).2
  return ({ record with callReceipt := some receipt, returned := some (resultFields result) },
    .ok result)

/-- `_run_cycle`. -/
def runCycle {α : Type} (review : Review) (p : Proposed) (invoke : Op → EngineM α)
    (resultFields : α → String × Ret) : DeskM (CycleRecord × CycleOutcome α) := do
  let opened ← openCycle p
  let disposition ← review.run
  closeCycle opened disposition invoke resultFields

/-! ## Running on a desk

The effect of each step, so that a cycle is run by rewriting. -/

/-- The identity of the engine, as the records carry it. -/
def identityOf (e : Engine) : IdentityDict := ⟨e.stateIdentityToken.hex, e.stateRevision⟩

/-- The identity is read, nothing is written. -/
@[simp] theorem run_currentIdentity (d : Desk) :
    currentIdentity d = .ok (identityOf d.engine) d :=
  run_readState_ok (by rw [Engine.stateIdentity_eq]; rfl)

theorem run_currentIdentity_bind {α : Type} (f : IdentityDict → DeskM α) (d : Desk) :
    (currentIdentity >>= f) d = f (identityOf d.engine) d := by
  rw [run_bind, run_currentIdentity]

theorem run_nextId_bind {α : Type} (kind : String) (f : String → DeskM α) (d : Desk) :
    (nextId kind >>= f) d = f s!"{kind}-{d.ids + 1}" { d with ids := d.ids + 1 } := rfl

/-- A call on the engine leaves the counter. -/
theorem run_onEngine_ok {α : Type} {x : EngineM α} {d : Desk} {a : α} {e : Engine}
    (h : x d.engine = .ok a e) : onEngine x d = .ok a { d with engine := e } := by
  simp only [onEngine, h]

theorem run_onEngine_error {α : Type} {x : EngineM α} {d : Desk} {err : PyErr} {e : Engine}
    (h : x d.engine = .error err e) : onEngine x d = .error err { d with engine := e } := by
  simp only [onEngine, h]

/-- The candidate that a cycle opens with. -/
def candidateOf (p : Proposed) (e : Engine) (ids : Nat) : Candidate where
  recordKind := "engine_input_candidate"
  candidateId := s!"cand-{ids + 1}"
  targetMethod := p.targetMethod
  arguments := p.arguments
  sourceBasis := p.sourceBasis
  expectedEffect := p.expectedEffect
  policyAssumptions := p.policyAssumptions
  materializedAtRevision := e.stateRevision

/-- What a cycle that opens on `e` holds. -/
def openedOn (p : Proposed) (e : Engine) (ids : Nat) : Opened :=
  ⟨candidateOf p e ids, identityOf e, p.extraRecordFields⟩

/-- Opening leaves the engine alone. -/
theorem openCycle_eq (p : Proposed) (e : Engine) (ids : Nat) :
    openCycle p ⟨e, ids⟩ = .ok (openedOn p e ids) ⟨e, ids + 1⟩ := by
  simp only [openCycle, buildCandidate, run_readState_bind, Engine.stateIdentity_eq, bind_assoc,
    pure_bind, run_nextId_bind, run_currentIdentity_bind]
  rfl

theorem runCycle_eq {α : Type} (review : Review) (p : Proposed) (invoke : Op → EngineM α)
    (resultFields : α → String × Ret) (e : Engine) (ids : Nat) :
    runCycle review p invoke resultFields ⟨e, ids⟩ =
      closeCycle (openedOn p e ids) review.disposition invoke resultFields
        ⟨e.runCalls review.calls, ids + 1⟩ := by
  unfold runCycle
  rw [run_bind, openCycle_eq]
  rfl

/-! ## The gates

What a closed gate leaves behind: the records so far and the engine as it was. -/

/-- The record of a cycle that a gate stopped before a request was made. -/
structure Stopped (opened : Opened) (disposition : String) (record : CycleRecord) : Prop where
  candidate : record.candidate = opened.candidate
  decided : record.operatorDecisionRecord.disposition = disposition
  request : record.reviewedMutationRequest = none
  receipt : record.callReceipt = none
  returned : record.returned = none

/-- The record of a cycle whose call went from `before` to `after`, under the entry
`returned`. -/
structure Receipted (opened : Opened) (before after : Engine) (returned : String × Ret)
    (record : CycleRecord) : Prop where
  candidate : record.candidate = opened.candidate
  decided : record.operatorDecisionRecord.decisionStateIdentity = opened.decisionIdentity
  receipt : ∃ request receipt, record.reviewedMutationRequest = some request ∧
    record.callReceipt = some receipt ∧
    request.approvedCandidateSnapshot = opened.candidate ∧
    request.approvedDecisionRecordId = record.operatorDecisionRecord.decisionRecordId ∧
    receipt.requestId = request.requestId ∧
    receipt.reviewedArguments = opened.candidate.arguments ∧
    receipt.identityBefore = identityOf before ∧ receipt.identityAfter = identityOf after ∧
    receipt.result = returned.2
  entry : record.returned = some returned

section Gates

variable {α : Type} (opened : Opened) (disposition : String) (invoke : Op → EngineM α)
  (resultFields : α → String × Ret) (e : Engine) (ids : Nat)

/-- Any answer but approval shuts the first gate. -/
theorem closeCycle_rejected (h : disposition ≠ "approved") :
    ∃ record, closeCycle opened disposition invoke resultFields ⟨e, ids⟩ =
      .ok (record, .terminated ⟨s!"{opened.candidate.targetMethod}.operator_review",
        .disposition disposition⟩) ⟨e, ids + 1⟩ ∧ Stopped opened disposition record := by
  simp only [closeCycle, buildDecision, bind_assoc, pure_bind, run_nextId_bind, ne_eq, h,
    not_false_eq_true, if_true]
  exact ⟨_, rfl, rfl, rfl, rfl, rfl, rfl⟩

/-- A state that moved since the decision shuts the second. -/
theorem closeCycle_stale (h : disposition = "approved")
    (hstale : opened.decisionIdentity ≠ identityOf e) :
    ∃ record, closeCycle opened disposition invoke resultFields ⟨e, ids⟩ =
      .ok (record, .terminated
        ⟨s!"{opened.candidate.targetMethod}.stage_5_5_materialization",
          .revalidation (revalidate opened.decisionIdentity (identityOf e)
            "stage_5_5_materialization")⟩) ⟨e, ids + 1⟩ ∧
      Stopped opened disposition record := by
  subst h
  have hverdict : (revalidate opened.decisionIdentity (identityOf e)
      "stage_5_5_materialization").verdict = "not_eligible" := if_neg hstale
  simp only [closeCycle, buildDecision, bind_assoc, pure_bind, run_nextId_bind,
    run_currentIdentity_bind, ne_eq, not_true_eq_false, if_false, hverdict]
  exact ⟨_, rfl, rfl, rfl, rfl, rfl, rfl⟩

/-- Past the first two gates nothing happens to the engine before the call, so the third one
passes. -/
theorem closeCycle_raised (h : disposition = "approved")
    (hcurrent : opened.decisionIdentity = identityOf e) {err : PyErr} {e' : Engine}
    (hinvoke : invoke opened.candidate.arguments e = .error err e') :
    closeCycle opened disposition invoke resultFields ⟨e, ids⟩ = .error err ⟨e', ids + 2⟩ := by
  subst h
  have hverdict (moment : String) : (revalidate opened.decisionIdentity (identityOf e)
      moment).verdict = "eligible" := if_pos hcurrent
  simp only [closeCycle, buildDecision, buildRequest, bind_assoc, pure_bind, run_nextId_bind,
    run_currentIdentity_bind, ne_eq, not_true_eq_false, if_false, hverdict]
  rw [run_bind, run_onEngine_error hinvoke]

/-- Otherwise the call is made, and its result is received. -/
theorem closeCycle_invoked (h : disposition = "approved")
    (hcurrent : opened.decisionIdentity = identityOf e) {result : α} {e' : Engine}
    (hinvoke : invoke opened.candidate.arguments e = .ok result e') :
    ∃ record, closeCycle opened disposition invoke resultFields ⟨e, ids⟩ =
      .ok (record, .ok result) ⟨e', ids + 3⟩ ∧
      Receipted opened e e' (resultFields result) record := by
  subst h
  have hverdict (moment : String) : (revalidate opened.decisionIdentity (identityOf e)
      moment).verdict = "eligible" := if_pos hcurrent
  simp only [closeCycle, buildDecision, buildRequest, buildReceipt, bind_assoc, pure_bind,
    run_nextId_bind, run_currentIdentity_bind, ne_eq, not_true_eq_false, if_false, hverdict]
  rw [run_bind, run_onEngine_ok hinvoke]
  simp only [run_currentIdentity_bind, run_nextId_bind]
  exact ⟨_, rfl, rfl, rfl, ⟨_, _, rfl, rfl, rfl, rfl, rfl, rfl, rfl, rfl, rfl⟩, rfl⟩

end Gates

/-! ## The identity as a version

Token and revision are an optimistic lock: equal identities mean that nothing was committed in
between. -/

/-- The record determines token and revision. -/
theorem identityOf_inj {e e' : Engine} (h : identityOf e' = identityOf e) :
    e'.stateIdentityToken = e.stateIdentityToken ∧ e'.stateRevision = e.stateRevision := by
  simp only [identityOf, IdentityDict.mk.injEq, Nat.cast_inj] at h
  exact ⟨UuidHex.eq_of_hex h.1, h.2⟩

/-- An engine object, under the identity that the gates compare. -/
def versioned : Versioned Engine IdentityDict where
  version := identityOf
  Later := Engine.Later
  stays := Engine.Later.stays
  trans := Engine.Later.trans
  antisymm := Engine.Later.antisymm
  exact h heq := h.same (identityOf_inj heq).2

/-- What a cycle does on the engine of `s`, by what its review answered and did. -/
structure CycleGates {α : Type} (s : Session) (ids : Nat) (review : Review) (p : Proposed)
    (invoke : Op → EngineM α) (resultFields : α → String × Ret) : Prop where
  rejected : review.disposition ≠ "approved" →
    ∃ record, runCycle review p invoke resultFields ⟨s.engine, ids⟩ =
      .ok (record, .terminated ⟨s!"{p.targetMethod}.operator_review",
        .disposition review.disposition⟩) ⟨s.engine.runCalls review.calls, ids + 2⟩ ∧
      Stopped (openedOn p s.engine ids) review.disposition record
  stale : review.disposition = "approved" → s.engine.runCalls review.calls ≠ s.engine →
    ∃ record revalidation, runCycle review p invoke resultFields ⟨s.engine, ids⟩ =
      .ok (record, .terminated ⟨s!"{p.targetMethod}.stage_5_5_materialization",
        .revalidation revalidation⟩) ⟨s.engine.runCalls review.calls, ids + 2⟩ ∧
      revalidation.verdict = "not_eligible" ∧
      Stopped (openedOn p s.engine ids) review.disposition record
  invoked : review.disposition = "approved" → s.engine.runCalls review.calls = s.engine →
    ∀ result e', invoke p.arguments s.engine = .ok result e' →
      ∃ record, runCycle review p invoke resultFields ⟨s.engine, ids⟩ =
        .ok (record, .ok result) ⟨e', ids + 4⟩ ∧
        Receipted (openedOn p s.engine ids) s.engine e' (resultFields result) record
  raised : review.disposition = "approved" → s.engine.runCalls review.calls = s.engine →
    ∀ err e', invoke p.arguments s.engine = .error err e' →
      runCycle review p invoke resultFields ⟨s.engine, ids⟩ = .error err ⟨e', ids + 3⟩

/-- **The gates.** The cycle makes its call exactly when the review approved it and left the
engine as it was, and then makes it on the state the candidate was built on. The gates compare
identities only; that an identity comes back only with its state makes them compare states. -/
theorem cycle_gates {α : Type} {s : Session} (h : s.Reachable) (ids : Nat) (review : Review)
    (p : Proposed) (invoke : Op → EngineM α) (resultFields : α → String × Ret) :
    CycleGates s ids review p invoke resultFields where
  rejected hdisposition := by
    rw [runCycle_eq]
    exact closeCycle_rejected _ _ _ _ _ _ hdisposition
  stale hdisposition hchanged := by
    have hlater := Engine.later_runCalls h.sound.typed review.calls
    -- a review that committed something moved the identity
    have hstale : identityOf s.engine ≠ identityOf (s.engine.runCalls review.calls) :=
      fun heq => hchanged (versioned.exact hlater heq.symm)
    rw [runCycle_eq]
    obtain ⟨record, hrun, hstopped⟩ := closeCycle_stale (openedOn p s.engine ids) _ invoke
      resultFields (s.engine.runCalls review.calls) (ids + 1) hdisposition hstale
    exact ⟨record, _, hrun, if_neg hstale, hstopped⟩
  invoked hdisposition hsame result e' hinvoke := by
    rw [runCycle_eq, hsame]
    exact closeCycle_invoked _ _ _ _ _ _ hdisposition rfl hinvoke
  raised hdisposition hsame err e' hinvoke := by
    rw [runCycle_eq, hsame]
    exact closeCycle_raised _ _ _ _ _ _ hdisposition rfl hinvoke

/-- A proposal to refute the first claim. -/
def proposeRefute : Proposed where
  targetMethod := "refute_disputed_claim_if_ready"
  arguments := .transition .refuteDisputed 1
  sourceBasis := .none
  expectedEffect := "refute the claim"
  policyAssumptions := []
  extraRecordFields := []

/-- The gates for a review that adds an entity before it approves. -/
theorem cycle_gates_disputed :
    CycleGates Session.disputed 0 ⟨[.op (.addEntity 1 0)], "approved"⟩ proposeRefute Op.run
      (returning "returned_lifecycle_flag" id) :=
  cycle_gates Session.disputed_reachable 0 _ proposeRefute Op.run _

end Operation

end Ragcore
