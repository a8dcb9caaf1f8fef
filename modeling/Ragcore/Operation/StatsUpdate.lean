import Ragcore.Operation.Cycle
import Ragcore.Snapshot.RoundTrip

/-!
# Ragcore — the provenance of a statistics update

`rule_stats_update_provenance_example.py`. One update of rule statistics is reviewed and, behind two
checks that the engine is still the one it was reviewed on, made. `update_rule_stats` returns
nothing: the receipt says what the update did by what it read before and after. An update of a
pair that no rule has is given up when the read before it fails.

The example makes a fresh engine for each case; the parts of a case that follow are programs on any
engine. Copies of a record are the record.

* **`gatedUpdate`**, **`gatedAttempt`** — the cases, on the engine they find.
* **`successfulCase`**, **`rejectedUnknownPairCase`** — the cases of the example.
* **`stats_update_provenance`** — what the receipts say is what happened to the engine, in the cases
  of the example and on any engine in use.
-/

namespace Ragcore

namespace Operation

namespace StatsUpdate

/-! ## Records

The records of a statistics update. Each carries where it comes from, which the general cycle does
not ask for. -/

/-- The `arguments` of a candidate. -/
structure Arguments where
  ruleId : Int
  ruleVersion : Int
  firingDelta : Int
  trueDelta : Int
  falseDelta : Int
  observedPrecision : Option ScoreValue
  falsePositiveRate : Option ScoreValue

/-- Where an update comes from, in six separate entries. -/
structure Provenance where
  callerIdentityReference : PyValue
  updateReason : PyValue
  sourceObservationReferences : PyValue
  deltaProvenance : PyValue
  precisionInputBasis : PyValue
  policyReference : PyValue

/-- The deltas that are proposed, with the effect they are expected to have. -/
structure Candidate extends Provenance where
  recordKind : String
  candidateId : String
  targetMethod : String
  ruleId : Int
  ruleVersion : Int
  arguments : Arguments
  scoreActions : PyValue
  expectedEffect : String
  explicitNonEffects : List String
  materializedAtStateIdentity : IdentityDict

/-- The operator's decision on them. -/
structure Decision where
  recordKind : String
  status : String
  decisionRecordId : String
  decisionFamily : String
  subjectSnapshot : Candidate
  disposition : String
  decisionStateIdentity : IdentityDict
  note : String

structure Revalidation extends Operation.Revalidation where
  invocationSuppressed : Bool

/-- The candidate under that decision. -/
structure Request where
  recordKind : String
  requestId : String
  approvedCandidateSnapshot : Candidate
  approvedDecisionRecordId : String
  targetMethod : String
  arguments : Arguments
  decisionStateIdentity : IdentityDict

/-- The statistics before and after, next to the identities. -/
structure SuccessReceipt where
  recordKind : String
  receiptId : String
  requestId : String
  targetMethod : String
  reviewedArguments : Arguments
  identityBefore : IdentityDict
  identityAfter : IdentityDict
  ruleStatsBefore : RuleStats
  ruleStatsAfter : RuleStats
  engineReturnValue : Unit
  actualEffect : String
  updateInvoked : Bool

/-- The cause of the rejection, and the same identity twice. -/
structure FailedAttemptReceipt where
  recordKind : String
  receiptId : String
  requestId : String
  targetMethod : String
  reviewedArguments : Arguments
  identityBeforeAttempt : IdentityDict
  rejectionCause : List MsgPart
  actualEffect : String
  updateInvoked : Bool
  availableFactsOnly : Bool

/-- What `_review_and_revalidate` returns. -/
structure Reviewed where
  candidate : Candidate
  operatorDecisionRecord : Decision
  reviewedMutationRequest : Option Request
  materialization : Revalidation
  invocation : Option Revalidation
  decisionDisposition : String
  stage55Eligible : Bool
  stage6Eligible : Bool

/-- `_assemble_case`, around either receipt. -/
structure Case (α : Type) where
  pair : Int × Int
  candidate : Candidate
  operatorDecisionRecord : Decision
  reviewedMutationRequest : Option Request
  materialization : Revalidation
  invocation : Option Revalidation
  receipt : α

/-- What the caller of a case says about the update. -/
structure Proposed where
  ruleId : Int
  ruleVersion : Int
  arguments : Arguments
  scoreActions : PyValue
  provenance : Provenance

/-! ## Review

Candidate, decision, revalidation and request, up to the call. -/

/-- `_build_candidate`. -/
def buildCandidate (p : Proposed) (expectedEffect : String)
    (materializedAtStateIdentity : IdentityDict) : DeskM Candidate := do
  let candidateId ← nextId "cand"
  return {
    toProvenance := p.provenance
    recordKind := "rule_stats_update_candidate"
    candidateId
    targetMethod := "update_rule_stats"
    ruleId := p.ruleId
    ruleVersion := p.ruleVersion
    arguments := p.arguments
    scoreActions := p.scoreActions
    expectedEffect
    explicitNonEffects := [
      "does not transition any Claim lifecycle state",
      "does not assert the rule is correct or high quality",
      "does not register a new rule"]
    materializedAtStateIdentity }

/-- `_build_operator_decision`. -/
def buildOperatorDecision (candidate : Candidate) (decisionStateIdentity : IdentityDict) :
    DeskM Decision := do
  let decisionRecordId ← nextId "dec"
  return {
    recordKind := "operator_decision_record"
    status := "OPERATOR_REVIEW"
    decisionRecordId
    decisionFamily := "rule_stats_update_review"
    subjectSnapshot := candidate
    disposition := "approved"
    decisionStateIdentity
    note := "approved on local consumer review" }

/-- `_revalidate`, which here also says that a stale decision suppresses the call. -/
def revalidate (decisionStateIdentity currentStateIdentity : IdentityDict) (moment : String) :
    Revalidation where
  toRevalidation := Operation.revalidate decisionStateIdentity currentStateIdentity moment
  invocationSuppressed := decide (decisionStateIdentity ≠ currentStateIdentity)

/-- `_build_reviewed_request`. -/
def buildReviewedRequest (candidate : Candidate) (decisionRecordId : String)
    (decisionStateIdentity : IdentityDict) : DeskM Request := do
  let requestId ← nextId "req"
  return {
    recordKind := "reviewed_mutation_request"
    requestId
    approvedCandidateSnapshot := candidate
    approvedDecisionRecordId := decisionRecordId
    targetMethod := candidate.targetMethod
    arguments := candidate.arguments
    decisionStateIdentity }

/-- The review, up to the check of the identity. -/
def reviewAndRevalidate (p : Proposed) (expectedEffect : String) : DeskM Reviewed := do
  let materializedIdentity ← currentIdentity
  let candidate ← buildCandidate p expectedEffect materializedIdentity
  let decisionIdentity ← currentIdentity
  let decision ← buildOperatorDecision candidate decisionIdentity
  let current ← currentIdentity
  let reval55 := revalidate decisionIdentity current "stage_5_5_materialization"
  let eligible55 := decide (reval55.verdict = "eligible")
  if decision.disposition = "approved" ∧ reval55.verdict = "eligible" then
    let request ← buildReviewedRequest candidate decision.decisionRecordId decisionIdentity
    let current ← currentIdentity
    let reval6 := revalidate decisionIdentity current "stage_6_invocation"
    return ⟨candidate, decision, some request, reval55, some reval6, decision.disposition,
      eligible55, decide (reval6.verdict = "eligible")⟩
  else
    return ⟨candidate, decision, none, reval55, none, decision.disposition, eligible55, false⟩

/-- The case as the report holds it. -/
def assembleCase {α : Type} (reviewed : Reviewed) (receipt : α) (p : Proposed) : Case α where
  pair := (p.ruleId, p.ruleVersion)
  candidate := reviewed.candidate
  operatorDecisionRecord := reviewed.operatorDecisionRecord
  reviewedMutationRequest := reviewed.reviewedMutationRequest
  materialization := reviewed.materialization
  invocation := reviewed.invocation
  receipt

/-- A subscript of the request, which may be `None`. -/
def requestOf (reviewed : Reviewed) : Except PyErr Request :=
  match reviewed.reviewedMutationRequest with
  | some request => .ok request
  | none => .error (.typeError ["'NoneType' object is not subscriptable"])

/-! ## The update that is made

The case of a registered rule. -/

/-- `_build_success_receipt`. -/
def buildSuccessReceipt (request : Request) (identityBefore identityAfter : IdentityDict)
    (ruleStatsBefore ruleStatsAfter : RuleStats) (engineReturnValue : Unit)
    (actualEffect : String) : DeskM SuccessReceipt := do
  let receiptId ← nextId "rcpt"
  return {
    recordKind := "rule_stats_update_receipt"
    receiptId
    requestId := request.requestId
    targetMethod := request.targetMethod
    reviewedArguments := request.arguments
    identityBefore
    identityAfter
    ruleStatsBefore
    ruleStatsAfter
    engineReturnValue
    actualEffect
    updateInvoked := true }

/-- The effect is read off the statistics: the call returns `None` either way. -/
def effectOf (before after : RuleStats) : String :=
  if !before.eq after then "VALUE_CHANGED" else "NO_VALUE_CHANGE"

/-- `_successful_case` once its rule is registered; `none` is its `AssertionError`. -/
def gatedUpdate (p : Proposed) (expectedEffect : String) :
    DeskM (Option (Case SuccessReceipt)) := do
  let reviewed ← reviewAndRevalidate p expectedEffect
  if reviewed.stage6Eligible then
    let request ← readState fun _ => requestOf reviewed
    let args := request.arguments
    let identityBefore ← currentIdentity
    let statsBefore ← readState fun d => d.engine.getRuleStats p.ruleId p.ruleVersion
    let result ← onEngine (Engine.updateRuleStats p.ruleId p.ruleVersion args.firingDelta
      args.trueDelta args.falseDelta args.observedPrecision args.falsePositiveRate)
    let identityAfter ← currentIdentity
    let statsAfter ← readState fun d => d.engine.getRuleStats p.ruleId p.ruleVersion
    let receipt ← buildSuccessReceipt request identityBefore identityAfter statsBefore statsAfter
      result (effectOf statsBefore statsAfter)
    return some (assembleCase reviewed receipt p)
  else
    return none

/-- `Engine()`. -/
def freshEngine (uuid : UuidHex) : DeskM Unit :=
  modify fun d => { d with engine := Engine.new uuid }

/-- `RULE_MATURITY_STABLE`. -/
def ruleMaturityStable : Int := 1

/-- `_successful_case`. -/
def successfulCase (uuid : UuidHex) (p : Proposed) (expectedEffect : String) :
    DeskM (Option (Case SuccessReceipt)) := do
  freshEngine uuid
  let priorConfidence ← readState fun _ => ScoreValue.new (.float (.fin (1 / 2)))
  onEngine (Engine.registerRule p.ruleId p.ruleVersion ruleMaturityStable priorConfidence)
  gatedUpdate p expectedEffect

/-! ## The attempt that is given up

The case of a rule that is not registered, which ends in `KeyError`. -/

/-- `_build_failed_attempt_receipt`. -/
def buildFailedAttemptReceipt (request : Request) (identityBeforeAttempt : IdentityDict)
    (rejectionCause : List MsgPart) : DeskM FailedAttemptReceipt := do
  let receiptId ← nextId "rcpt"
  return {
    recordKind := "rule_stats_update_failed_attempt_receipt"
    receiptId
    requestId := request.requestId
    targetMethod := request.targetMethod
    reviewedArguments := request.arguments
    identityBeforeAttempt
    rejectionCause
    actualEffect := "REJECTED"
    updateInvoked := false
    availableFactsOnly := true }

/-- `{exc.args[0]!r}`, where the argument is a text. -/
def quoted (exc : PyErr) : List MsgPart :=
  match exc.message with
  | [.text s] => [.repr (.str s)]
  | parts => parts

/-- The read before the update, with its `except KeyError`. -/
def rejectionCause (ruleId ruleVersion : Int) (e : Engine) : Except PyErr (List MsgPart) :=
  match e.getRuleStats ruleId ruleVersion with
  | .ok _ => .ok ["unknown pair did not reject at pre-read; invocation still suppressed " ++
      "(available-facts-only)"]
  | .error exc =>
    if exc.kind = .keyError then
      .ok (.text "pre-read engine.get_rule_stats failed for an unknown (rule_id, rule_version) pair: "
        :: (quoted exc ++ [.text "; update_rule_stats invocation suppressed"]))
    else .error exc

/-- `_rejected_unknown_pair_case` on the engine it finds. -/
def gatedAttempt (p : Proposed) : DeskM (Case FailedAttemptReceipt) := do
  let reviewed ← reviewAndRevalidate p "attempt a RuleStats update for an unknown pair"
  let identityBeforeAttempt ← currentIdentity
  let cause ← readState fun d => rejectionCause p.ruleId p.ruleVersion d.engine
  let request ← readState fun _ => requestOf reviewed
  let receipt ← buildFailedAttemptReceipt request identityBeforeAttempt cause
  return assembleCase reviewed receipt p

/-- `_rejected_unknown_pair_case`. -/
def rejectedUnknownPairCase (uuid : UuidHex) (p : Proposed) : DeskM (Case FailedAttemptReceipt) := do
  freshEngine uuid
  gatedAttempt p

/-! ## The review passes

Nothing comes between the decision and its check, so the identity is always the current one. -/

/-- What a review on `e` leaves: the engine is still the one it was decided on. -/
structure Eligible (p : Proposed) (e : Engine) (reviewed : Reviewed) (request : Request) :
    Prop where
  requested : reviewed.reviewedMutationRequest = some request
  stage6 : reviewed.stage6Eligible = true
  arguments : request.arguments = p.arguments
  snapshot : request.approvedCandidateSnapshot = reviewed.candidate
  materialized : reviewed.candidate.materializedAtStateIdentity = identityOf e
  decided : reviewed.operatorDecisionRecord.decisionStateIdentity = identityOf e

/-- The review ends with an eligible request. -/
theorem reviewAndRevalidate_eligible (p : Proposed) (expectedEffect : String) (e : Engine)
    (ids : Nat) :
    ∃ reviewed request, reviewAndRevalidate p expectedEffect ⟨e, ids⟩ =
      .ok reviewed ⟨e, ids + 3⟩ ∧ Eligible p e reviewed request := by
  have hverdict (moment : String) :
      (revalidate (identityOf e) (identityOf e) moment).verdict = "eligible" := if_pos rfl
  simp only [reviewAndRevalidate, buildCandidate, buildOperatorDecision, buildReviewedRequest,
    bind_assoc, pure_bind, run_currentIdentity_bind, run_nextId_bind, hverdict, and_self, if_true,
    decide_true]
  exact ⟨_, _, rfl, rfl, rfl, rfl, rfl, rfl, rfl⟩

theorem Eligible.requestOf {p : Proposed} {e : Engine} {reviewed : Reviewed} {request : Request}
    (h : Eligible p e reviewed request) : requestOf reviewed = .ok request := by
  rw [StatsUpdate.requestOf, h.requested]

end StatsUpdate

end Operation

/-! ## What the update does

The statistics after the call, and the revision, which only moves when they do. -/

/-- An unknown pair is a `KeyError`. -/
theorem Engine.getRuleStats_unknown {e : Engine} {ruleId ruleVersion : Int}
    (h : e.ruleStats.get? (ruleId, ruleVersion) = none) :
    e.getRuleStats ruleId ruleVersion =
      .error (.keyError [s!"unknown rule: rule_id={ruleId}, version={ruleVersion}"]) := by
  have habsent : e.ruleStats.contains (ruleId, ruleVersion) = false := by
    rw [Dict.contains, h]
    rfl
  simp only [getRuleStats, assertRuleStatsPairExists, assertExists, habsent, Bool.false_eq_true,
    if_false]
  rfl

/-- On statistics of ints the update never fails. -/
theorem RuleStats.Typed.exists_updated {current : RuleStats} (h : current.Typed)
    (firingDelta trueDelta falseDelta : Int) (precision rate : Option ScoreValue) :
    ∃ stats, Engine.updatedStats current firingDelta trueDelta falseDelta precision rate =
      .ok stats ∧
      (stats = current ↔ (firingDelta = 0 ∧ trueDelta = 0 ∧ falseDelta = 0) ∧
        precision.or current.observedPrecision = current.observedPrecision ∧
        rate.or current.falsePositiveRate = current.falsePositiveRate) := by
  obtain ⟨firing, hfiring⟩ := h.firingCount
  obtain ⟨confirmed, hconfirmed⟩ := h.confirmedTrueCount
  obtain ⟨refuted, hrefuted⟩ := h.confirmedFalseCount
  -- the counts are ints, so the three sums are
  refine ⟨{ current with
    firingCount := .int (firing + firingDelta)
    confirmedTrueCount := .int (confirmed + trueDelta)
    confirmedFalseCount := .int (refuted + falseDelta)
    observedPrecision := precision.or current.observedPrecision
    falsePositiveRate := rate.or current.falsePositiveRate }, ?_, ?_⟩
  · rw [Engine.updatedStats, hfiring, hconfirmed, hrefuted]
    rfl
  · obtain ⟨_, _, _, _, _, _, _⟩ := current
    simp only at hfiring hconfirmed hrefuted
    subst hfiring hconfirmed hrefuted
    simp only [RuleStats.mk.injEq, Json.int.injEq, true_and, add_eq_left]
    tauto

/-- `==` of statistics whose fields are typed is equality. -/
theorem RuleStats.Typed.eq_iff {a b : RuleStats} (ha : a.Typed) (hb : b.Typed) :
    a.eq b = true ↔ a = b := by
  constructor
  · exact ha.eq_of_eq hb
  · rintro rfl
    exact ha.eq_self

/-- **An update** of a known pair leads to the next state, or stays where nothing changes. -/
theorem Sound.updateRuleStats_exact {e : Engine} (h : Sound e) {ruleId ruleVersion : Int}
    {current stats : RuleStats} (hget : e.ruleStats.get? (ruleId, ruleVersion) = some current)
    {firingDelta trueDelta falseDelta : Int} {precision rate : Option ScoreValue}
    (hstats : Engine.updatedStats current firingDelta trueDelta falseDelta precision rate =
      .ok stats) :
    Engine.updateRuleStats ruleId ruleVersion firingDelta trueDelta falseDelta precision rate e =
      .ok () (if stats.eq current then e else e.putStats (ruleId, ruleVersion) stats) := by
  have htyped := h.typed.ruleStats hget
  rcases Engine.updateRuleStats_cases ruleId ruleVersion firingDelta trueDelta falseDelta precision
    rate e with ⟨err, herr⟩ | ⟨current', stats', hget', hstats', hrun⟩
  · -- neither the read nor the sum can fail
    rw [Engine.updateRuleStats, run_readState_bind, Engine.getRuleStats_ok_iff.mpr hget] at herr
    simp only at herr
    rw [run_readState_bind, hstats] at herr
    simp only at herr
    rw [run_modify_bind] at herr
    split at herr
    · cases herr
    · cases herr
  · cases hget.symm.trans hget'
    cases hstats.symm.trans hstats'
    rcases hrun with ⟨hsame, hrun⟩ | ⟨hdiff, hrun⟩
    · -- an equal record is written back over itself
      rw [hrun, hsame, if_pos rfl, (htyped.updated hstats).eq_of_eq htyped hsame,
        Dict.insert_self hget]
    · rw [hrun, hdiff, if_neg Bool.false_ne_true]

namespace Operation

namespace StatsUpdate

/-! ## The receipts

The fields of a receipt, compared with the engine before and after the call. -/

/-- The receipt of an update that went from `e`, with statistics `current`, to `e'`. -/
structure ReceiptExact (p : Proposed) (e : Engine) (current : RuleStats)
    (receipt : SuccessReceipt) (e' : Engine) : Prop where
  reviewed : receipt.reviewedArguments = p.arguments
  before : receipt.ruleStatsBefore = current ∧ receipt.identityBefore = identityOf e
  after : e'.ruleStats.get? (p.ruleId, p.ruleVersion) = some receipt.ruleStatsAfter ∧
    receipt.identityAfter = identityOf e'
  /-- The deltas are added, and the scores that are given are set. -/
  added : Engine.updatedStats current p.arguments.firingDelta p.arguments.trueDelta
    p.arguments.falseDelta p.arguments.observedPrecision p.arguments.falsePositiveRate =
      .ok receipt.ruleStatsAfter
  effect : receipt.actualEffect = "VALUE_CHANGED" ∧
      e' = e.putStats (p.ruleId, p.ruleVersion) receipt.ruleStatsAfter ∨
    receipt.actualEffect = "NO_VALUE_CHANGE" ∧ e' = e
  /-- The receipt claims a change exactly when the identity of the engine's state moved. -/
  moved : receipt.actualEffect = "VALUE_CHANGED" ↔ receipt.identityAfter ≠ receipt.identityBefore
  /-- Nothing changes exactly when there is nothing to add and every score given is there. -/
  neutral : receipt.actualEffect = "NO_VALUE_CHANGE" ↔
    (p.arguments.firingDelta = 0 ∧ p.arguments.trueDelta = 0 ∧ p.arguments.falseDelta = 0) ∧
      p.arguments.observedPrecision.or current.observedPrecision = current.observedPrecision ∧
      p.arguments.falsePositiveRate.or current.falsePositiveRate = current.falsePositiveRate

/-- The engine after an update to `stats`. -/
def settled (p : Proposed) (e : Engine) (current stats : RuleStats) : Engine :=
  if stats.eq current then e else e.putStats (p.ruleId, p.ruleVersion) stats

/-- The statistics after the update are the ones that are read back. -/
theorem settled_get? {e : Engine} (h : Sound e) (p : Proposed) {current stats : RuleStats}
    (hget : e.ruleStats.get? (p.ruleId, p.ruleVersion) = some current) (htyped : stats.Typed) :
    (settled p e current stats).ruleStats.get? (p.ruleId, p.ruleVersion) = some stats := by
  unfold settled
  split
  · rename_i hsame
    rw [hget, htyped.eq_of_eq (h.typed.ruleStats hget) hsame]
  · exact Dict.get?_insert_self _ _ _

/-- An update that writes advances the revision. -/
theorem identityOf_putStats_ne (e : Engine) (key : Int × Int) (stats : RuleStats) :
    identityOf (e.putStats key stats) ≠ identityOf e := by
  intro hidentity
  have hrevision : ((e.stateRevision + 1 : ℕ) : ℤ) = e.stateRevision :=
    congrArg IdentityDict.revision hidentity
  omega

/-- What a receipt says of the effect is right when its statistics and identities are. -/
theorem receiptExact_of_recorded {e : Engine} (h : Sound e) {p : Proposed} {current : RuleStats}
    (hget : e.ruleStats.get? (p.ruleId, p.ruleVersion) = some current) {receipt : SuccessReceipt}
    (hreviewed : receipt.reviewedArguments = p.arguments)
    (hbefore : receipt.ruleStatsBefore = current ∧ receipt.identityBefore = identityOf e)
    (hstats : Engine.updatedStats current p.arguments.firingDelta p.arguments.trueDelta
      p.arguments.falseDelta p.arguments.observedPrecision p.arguments.falsePositiveRate =
        .ok receipt.ruleStatsAfter)
    (hidentity : receipt.identityAfter = identityOf (settled p e current receipt.ruleStatsAfter))
    (heffect : receipt.actualEffect = effectOf current receipt.ruleStatsAfter) :
    ReceiptExact p e current receipt (settled p e current receipt.ruleStatsAfter) := by
  have htyped := h.typed.ruleStats hget
  have htyped' := htyped.updated hstats
  have hafter := settled_get? h p hget htyped'
  obtain ⟨stats, hstats', hneutral⟩ := htyped.exists_updated p.arguments.firingDelta
    p.arguments.trueDelta p.arguments.falseDelta p.arguments.observedPrecision
    p.arguments.falsePositiveRate
  obtain rfl : receipt.ruleStatsAfter = stats := Except.ok.inj (hstats.symm.trans hstats')
  -- the engine compares the new record with the old one, the example the old with the new
  have hsame : current.eq receipt.ruleStatsAfter = receipt.ruleStatsAfter.eq current := by
    rw [Bool.eq_iff_iff, htyped.eq_iff htyped', htyped'.eq_iff htyped, eq_comm]
  cases hcase : receipt.ruleStatsAfter.eq current with
  | true =>
    have hnone : receipt.actualEffect = "NO_VALUE_CHANGE" := by
      rw [heffect, effectOf, hsame, hcase]
      rfl
    have hstay : settled p e current receipt.ruleStatsAfter = e := by
      rw [settled, hcase, if_pos rfl]
    exact {
      reviewed := hreviewed
      before := hbefore
      after := ⟨hafter, hidentity⟩
      added := hstats
      effect := .inr ⟨hnone, hstay⟩
      moved := ⟨fun hchanged => absurd (hnone.symm.trans hchanged) (by decide),
        fun hne => absurd (hidentity.trans ((congrArg identityOf hstay).trans
          hbefore.2.symm)) hne⟩
      neutral := ⟨fun _ => hneutral.mp ((htyped'.eq_iff htyped).mp hcase), fun _ => hnone⟩ }
  | false =>
    have hchanged : receipt.actualEffect = "VALUE_CHANGED" := by
      rw [heffect, effectOf, hsame, hcase]
      rfl
    have hmove : settled p e current receipt.ruleStatsAfter =
        e.putStats (p.ruleId, p.ruleVersion) receipt.ruleStatsAfter := by
      rw [settled, hcase, if_neg Bool.false_ne_true]
    have hmoved : receipt.identityAfter ≠ receipt.identityBefore := by
      rw [hidentity, hmove, hbefore.2]
      exact identityOf_putStats_ne e _ _
    have hdiffer : receipt.ruleStatsAfter ≠ current := by
      intro hequal
      rw [(htyped'.eq_iff htyped).mpr hequal] at hcase
      cases hcase
    exact {
      reviewed := hreviewed
      before := hbefore
      after := ⟨hafter, hidentity⟩
      added := hstats
      effect := .inl ⟨hchanged, hmove⟩
      moved := ⟨fun _ => hmoved, fun _ => hchanged⟩
      neutral := ⟨fun hnone => absurd (hchanged.symm.trans hnone) (by decide),
        fun hnothing => absurd (hneutral.mpr hnothing) hdiffer⟩ }

/-- On a registered rule the update is made and received. -/
theorem gatedUpdate_made {e : Engine} (h : Sound e) (p : Proposed) {current : RuleStats}
    (hget : e.ruleStats.get? (p.ruleId, p.ruleVersion) = some current) (expectedEffect : String)
    (ids : Nat) :
    ∃ made e', gatedUpdate p expectedEffect ⟨e, ids⟩ = .ok (some made) ⟨e', ids + 4⟩ ∧
      ReceiptExact p e current made.receipt e' := by
  obtain ⟨reviewed, request, hreview, heligible⟩ :=
    reviewAndRevalidate_eligible p expectedEffect e ids
  have htyped := h.typed.ruleStats hget
  obtain ⟨stats, hstats, _⟩ := htyped.exists_updated p.arguments.firingDelta
    p.arguments.trueDelta p.arguments.falseDelta p.arguments.observedPrecision
    p.arguments.falsePositiveRate
  have hafter := settled_get? h p hget (htyped.updated hstats)
  have hrun : Engine.updateRuleStats p.ruleId p.ruleVersion request.arguments.firingDelta
      request.arguments.trueDelta request.arguments.falseDelta request.arguments.observedPrecision
      request.arguments.falsePositiveRate e = .ok () (settled p e current stats) := by
    rw [heligible.arguments]
    exact h.updateRuleStats_exact hget hstats
  refine ⟨assembleCase reviewed {
    recordKind := "rule_stats_update_receipt"
    receiptId := s!"rcpt-{ids + 3 + 1}"
    requestId := request.requestId
    targetMethod := request.targetMethod
    reviewedArguments := request.arguments
    identityBefore := identityOf e
    identityAfter := identityOf (settled p e current stats)
    ruleStatsBefore := current
    ruleStatsAfter := stats
    engineReturnValue := ()
    actualEffect := effectOf current stats
    updateInvoked := true } p, settled p e current stats, ?_,
    receiptExact_of_recorded h hget heligible.arguments ⟨rfl, rfl⟩ hstats rfl rfl⟩
  unfold gatedUpdate
  rw [run_bind, hreview]
  simp only [heligible.stage6, if_true]
  rw [run_readState_bind, heligible.requestOf]
  simp only
  rw [run_currentIdentity_bind, run_readState_bind, Engine.getRuleStats_ok_iff.mpr hget]
  simp only
  rw [run_bind, run_onEngine_ok hrun]
  simp only
  -- the read after the call finds what the call wrote
  rw [run_currentIdentity_bind, run_readState_bind, Engine.getRuleStats_ok_iff.mpr hafter]
  rfl

/-- Without statistics to read, no call is made. -/
theorem gatedUpdate_unknown {e : Engine} (p : Proposed)
    (hnone : e.ruleStats.get? (p.ruleId, p.ruleVersion) = none) (expectedEffect : String)
    (ids : Nat) :
    gatedUpdate p expectedEffect ⟨e, ids⟩ = .error (.keyError
      [s!"unknown rule: rule_id={p.ruleId}, version={p.ruleVersion}"]) ⟨e, ids + 3⟩ := by
  obtain ⟨reviewed, request, hreview, heligible⟩ :=
    reviewAndRevalidate_eligible p expectedEffect e ids
  unfold gatedUpdate
  rw [run_bind, hreview]
  simp only [heligible.stage6, if_true]
  rw [run_readState_bind, heligible.requestOf]
  simp only
  rw [run_currentIdentity_bind, run_readState_bind, Engine.getRuleStats_unknown hnone]

/-- The receipt of an attempt on `e`. -/
structure AttemptExact (p : Proposed) (e : Engine) (receipt : FailedAttemptReceipt) : Prop where
  reviewed : receipt.reviewedArguments = p.arguments
  before : receipt.identityBeforeAttempt = identityOf e
  rejected : receipt.actualEffect = "REJECTED" ∧ receipt.updateInvoked = false
  cause : e.ruleStats.get? (p.ruleId, p.ruleVersion) = none → receipt.rejectionCause = [
    .text "pre-read engine.get_rule_stats failed for an unknown (rule_id, rule_version) pair: ",
    .repr (.str s!"unknown rule: rule_id={p.ruleId}, version={p.ruleVersion}"),
    .text "; update_rule_stats invocation suppressed"]

/-- The read fails with a `KeyError` or not at all. -/
theorem rejectionCause_unknown {e : Engine} {ruleId ruleVersion : Int}
    (h : e.ruleStats.get? (ruleId, ruleVersion) = none) :
    rejectionCause ruleId ruleVersion e = .ok [
      "pre-read engine.get_rule_stats failed for an unknown (rule_id, rule_version) pair: ",
      .repr (.str s!"unknown rule: rule_id={ruleId}, version={ruleVersion}"),
      "; update_rule_stats invocation suppressed"] := by
  rw [rejectionCause, Engine.getRuleStats_unknown h]
  rfl

/-- The attempt always has a cause of its own. -/
theorem exists_rejectionCause (e : Engine) (ruleId ruleVersion : Int) :
    ∃ cause, rejectionCause ruleId ruleVersion e = .ok cause := by
  cases hget : e.ruleStats.get? (ruleId, ruleVersion) with
  | none => exact ⟨_, rejectionCause_unknown hget⟩
  | some current =>
    rw [rejectionCause, Engine.getRuleStats_ok_iff.mpr hget]
    exact ⟨_, rfl⟩

/-- On any other the attempt leaves the engine as it was. -/
theorem gatedAttempt_rejected (p : Proposed) (e : Engine) (ids : Nat) :
    ∃ attempt, gatedAttempt p ⟨e, ids⟩ = .ok attempt ⟨e, ids + 4⟩ ∧
      AttemptExact p e attempt.receipt := by
  obtain ⟨reviewed, request, hreview, heligible⟩ :=
    reviewAndRevalidate_eligible p "attempt a RuleStats update for an unknown pair" e ids
  obtain ⟨cause, hcause⟩ := exists_rejectionCause e p.ruleId p.ruleVersion
  refine ⟨assembleCase reviewed {
    recordKind := "rule_stats_update_failed_attempt_receipt"
    receiptId := s!"rcpt-{ids + 3 + 1}"
    requestId := request.requestId
    targetMethod := request.targetMethod
    reviewedArguments := request.arguments
    identityBeforeAttempt := identityOf e
    rejectionCause := cause
    actualEffect := "REJECTED"
    updateInvoked := false
    availableFactsOnly := true } p, ?_, heligible.arguments, rfl, ⟨rfl, rfl⟩, fun hnone =>
      Except.ok.inj (hcause.symm.trans (rejectionCause_unknown hnone))⟩
  unfold gatedAttempt
  rw [run_bind, hreview]
  simp only
  rw [run_currentIdentity_bind, run_readState_bind, hcause]
  simp only
  rw [run_readState_bind, heligible.requestOf]
  rfl

/-! ## The example

The two cases of the source, on an engine of their own. -/

/-- The engine of a case of the example, once its rule is registered. -/
def registered (uuid : UuidHex) (p : Proposed) (priorConfidence : ScoreValue) : Engine :=
  (Engine.new uuid).putRule p.ruleId p.ruleVersion ruleMaturityStable priorConfidence

/-- The case is the update on an engine with one rule. -/
theorem successfulCase_eq (uuid : UuidHex) (p : Proposed) (expectedEffect : String) (d : Desk) :
    ∃ priorConfidence, successfulCase uuid p expectedEffect d =
      gatedUpdate p expectedEffect ⟨registered uuid p priorConfidence, d.ids⟩ ∧
      Sound (registered uuid p priorConfidence) := by
  obtain ⟨prior, hprior⟩ : ∃ prior, ScoreValue.new (.float (.fin (1 / 2))) = .ok prior :=
    ⟨_, ScoreValue.new_value ⟨1 / 2, one_half_pos.le, one_half_lt_one.le⟩⟩
  have hrun : Engine.registerRule p.ruleId p.ruleVersion ruleMaturityStable prior
      (Engine.new uuid) = .ok () (registered uuid p prior) := rfl
  refine ⟨prior, ?_, ?_⟩
  · unfold successfulCase freshEngine
    rw [run_modify_bind, run_readState_bind, hprior]
    simp only
    rw [run_bind, run_onEngine_ok hrun]
  · have hsound := (Sound.new uuid).op
      (.registerRule p.ruleId p.ruleVersion ruleMaturityStable prior)
    exact hsound

/-- The cases of the example end as they are named. -/
structure CasesExact (p : Proposed) (uuid : UuidHex) (expectedEffect : String) (d : Desk) :
    Prop where
  successful : ∃ priorConfidence made e',
    successfulCase uuid p expectedEffect d = .ok (some made) ⟨e', d.ids + 4⟩ ∧
    ReceiptExact p (registered uuid p priorConfidence) (Engine.freshStats p.ruleId p.ruleVersion)
      made.receipt e'
  /-- On the engine it makes, every pair is unknown. -/
  rejected : ∃ attempt,
    rejectedUnknownPairCase uuid p d = .ok attempt ⟨Engine.new uuid, d.ids + 4⟩ ∧
    AttemptExact p (Engine.new uuid) attempt.receipt

/-- So what holds of every update holds of it. -/
theorem casesExact (p : Proposed) (uuid : UuidHex) (expectedEffect : String) (d : Desk) :
    CasesExact p uuid expectedEffect d where
  successful := by
    obtain ⟨prior, hcase, hsound⟩ := successfulCase_eq uuid p expectedEffect d
    obtain ⟨made, e', hrun, hexact⟩ :=
      gatedUpdate_made hsound p (Dict.get?_insert_self _ _ _) expectedEffect d.ids
    exact ⟨prior, made, e', hcase.trans hrun, hexact⟩
  rejected := gatedAttempt_rejected p (Engine.new uuid) d.ids

/-! ## Any engine in use

The same for an engine that has been used, with any statistics. -/

/-- What the two programs do on an engine, and that their receipts say so. -/
structure ProvenanceExact (p : Proposed) (e : Engine) : Prop where
  made : ∀ current, e.ruleStats.get? (p.ruleId, p.ruleVersion) = some current →
    ∀ expectedEffect ids, ∃ made e',
      gatedUpdate p expectedEffect ⟨e, ids⟩ = .ok (some made) ⟨e', ids + 4⟩ ∧
      ReceiptExact p e current made.receipt e'
  /-- The update of an unknown pair ends at the read before it. -/
  unknown : e.ruleStats.get? (p.ruleId, p.ruleVersion) = none → ∀ expectedEffect ids,
    gatedUpdate p expectedEffect ⟨e, ids⟩ = .error (.keyError
      [s!"unknown rule: rule_id={p.ruleId}, version={p.ruleVersion}"]) ⟨e, ids + 3⟩
  /-- The attempt never touches the engine, whether the pair is known or not. -/
  attempt : ∀ ids, ∃ attempt, gatedAttempt p ⟨e, ids⟩ = .ok attempt ⟨e, ids + 4⟩ ∧
    AttemptExact p e attempt.receipt

theorem provenanceExact (p : Proposed) {e : Engine} (h : Sound e) : ProvenanceExact p e where
  made _ hget := gatedUpdate_made h p hget
  unknown := gatedUpdate_unknown p
  attempt := gatedAttempt_rejected p e

/-- **The receipts say what happened**, in the cases of the example and on every engine in use. -/
theorem stats_update_provenance (p : Proposed) :
    (∀ uuid expectedEffect d, CasesExact p uuid expectedEffect d) ∧
      ∀ session : Session, session.Reachable → ProvenanceExact p session.engine :=
  ⟨casesExact p, fun _ h => provenanceExact p h.sound⟩

/-- `ScoreValue(0.75)`. -/
def threeQuarters : ScoreValue := ⟨3 / 4, by norm_num, by norm_num⟩

/-- One firing, confirmed true, of rule 101, with its observed precision. -/
def firingConfirmed : Proposed where
  ruleId := 101
  ruleVersion := 1
  arguments := ⟨101, 1, 1, 1, 0, some threeQuarters, none⟩
  scoreActions := .none
  provenance := ⟨.none, .none, .none, .none, .none, .none⟩

/-- The rule is registered in the run before. -/
def ruleRun : List Action := [
  .call (.op (.registerRule 101 1 ruleMaturityStable threeQuarters))]

theorem stats_update_provenance_firing :
    ∃ made e', gatedUpdate firingConfirmed "advance firing_count"
        ⟨((Session.start default).run ruleRun).engine, 0⟩ = .ok (some made) ⟨e', 4⟩ ∧
      made.receipt.actualEffect = "VALUE_CHANGED" := by
  have hexact := (stats_update_provenance firingConfirmed).2 _ ⟨default, ruleRun, rfl⟩
  obtain ⟨made, e', hrun, hreceipt⟩ :=
    hexact.made (Engine.freshStats 101 1) (by with_unfolding_all rfl) "advance firing_count" 0
  refine ⟨made, e', hrun, ?_⟩
  rcases hreceipt.effect with ⟨hchanged, -⟩ | ⟨hnone, -⟩
  · exact hchanged
  · -- the firing is added, so something changes
    obtain ⟨⟨hzero, -⟩, -⟩ := hreceipt.neutral.mp hnone
    exact absurd hzero (by decide)

end StatsUpdate

end Operation

end Ragcore
