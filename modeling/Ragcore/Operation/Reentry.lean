import Ragcore.Invariant.Progress
import Ragcore.Operation.Lanes

/-!
# Ragcore — runs of gated calls, and the lane that brings evidence back

A lane is a sequence of cycles. Whatever the reviews answer and do meanwhile, it makes its calls
in order up to the first cycle that a gate stops.

* **`Passes`** — what a review has to do for its cycle to make its call.
* **`GatedRun`** — the calls that were made, the records, and where they led.
* **`GatedRun.completes_iff`** — all calls are made exactly when every review passes on the state
  it finds.
* **`reentry_exact`** — lane C on any engine in use: which gaps it closes, and when it confirms the
  claim.
-/

namespace Ragcore

namespace Operation

/-! ## One cycle

A proposal names its method next to the arguments, and the records and the gates carry that name.
The lanes name the method that they call, which is a hypothesis here and `rfl` for each of them. -/

/-- The review approves, and leaves the engine as it was. -/
structure Passes (review : Review) (e : Engine) : Prop where
  approved : review.disposition = "approved"
  unchanged : e.runCalls review.calls = e

/-- The name of the method that a transition calls. -/
def transitionName : Transition → String
  | .confirm => "confirm_claim_if_ready"
  | .refute => "refute_claim_if_ready"
  | .dispute => "dispute_claim_if_ready"
  | .resolveDisputed => "resolve_disputed_claim_if_ready"
  | .refuteDisputed => "refute_disputed_claim_if_ready"
  | .refuteDisputedByFreshness => "refute_disputed_claim_if_ready_by_freshness"

/-- The name of the method that the call is one of. -/
def methodName : Op → String
  | .addEntity .. => "add_entity"
  | .addObservation .. => "add_observation"
  | .addClaim .. => "add_claim"
  | .addEvidence .. => "add_evidence"
  | .addRelation .. => "add_relation"
  | .addGap .. => "add_gap"
  | .resolveGapsForEvidence .. => "resolve_gaps_for_evidence"
  | .registerContradiction .. => "register_contradiction"
  | .registerContradictionResolution .. => "register_contradiction_resolution"
  | .transition t _ => transitionName t
  | .registerRule .. => "register_rule"
  | .updateRuleStats .. => "update_rule_stats"
  | .registerHintEvidenceTypes .. => "register_hint_evidence_types"
  | .unregisterHintEvidenceTypes .. => "unregister_hint_evidence_types"
  | .clearHintEvidenceTypes => "clear_hint_evidence_types"

/-- The record of the call `op`, which returned `ret`. -/
structure CalledRecord (op : Op) (before after : Engine) (ret : Ret) (record : CycleRecord) :
    Prop where
  target : record.candidate.targetMethod = methodName op
  arguments : record.candidate.arguments = op
  receipt : ∃ receipt, record.callReceipt = some receipt ∧ receipt.reviewedArguments = op ∧
    receipt.identityBefore = identityOf before ∧ receipt.identityAfter = identityOf after ∧
    receipt.result = ret

/-- The gate that stops a cycle, by what the review answered. -/
def shutGate (targetMethod : String) (review : Review) : String :=
  if review.disposition = "approved" then s!"{targetMethod}.stage_5_5_materialization"
  else s!"{targetMethod}.operator_review"

/-- The record of the call `op`, which was not made. -/
structure StoppedRecord (op : Op) (review : Review) (record : CycleRecord) (stop : Termination) :
    Prop where
  target : record.candidate.targetMethod = methodName op
  arguments : record.candidate.arguments = op
  request : record.reviewedMutationRequest = none
  receipt : record.callReceipt = none
  gate : stop.terminationStage = shutGate (methodName op) review

section Cycle

variable {α : Type} {e : Engine} (h : Sound e) (ids : Nat) {review : Review} (p : Proposed)
  (named : p.targetMethod = methodName p.arguments) (invoke : Op → EngineM α)
  (resultFields : α → String × Ret)
include named

include h in
theorem runCycle_shut (hshut : ¬Passes review e) :
    ∃ record stop, runCycle review p invoke resultFields ⟨e, ids⟩ =
      .ok (record, .terminated stop) ⟨e.runCalls review.calls, ids + 2⟩ ∧
      StoppedRecord p.arguments review record stop := by
  rw [runCycle_eq]
  by_cases happroved : review.disposition = "approved"
  · have hlater := Engine.later_runCalls h.typed review.calls
    -- the calls of the review changed something, which the identity shows
    have hstale : identityOf e ≠ identityOf (e.runCalls review.calls) :=
      fun heq => hshut ⟨happroved, versioned.exact hlater heq.symm⟩
    obtain ⟨record, hrun, hstopped⟩ := closeCycle_stale (openedOn p e ids) review.disposition invoke
      resultFields (e.runCalls review.calls) (ids + 1) happroved hstale
    refine ⟨record, _, hrun, ?_, ?_, hstopped.request, hstopped.receipt, ?_⟩
    · rw [hstopped.candidate]
      exact named
    · rw [hstopped.candidate]
      rfl
    · rw [← named, shutGate, if_pos happroved]
      rfl
  · obtain ⟨record, hrun, hstopped⟩ := closeCycle_rejected (openedOn p e ids) review.disposition
      invoke resultFields (e.runCalls review.calls) (ids + 1) happroved
    refine ⟨record, _, hrun, ?_, ?_, hstopped.request, hstopped.receipt, ?_⟩
    · rw [hstopped.candidate]
      exact named
    · rw [hstopped.candidate]
      rfl
    · rw [← named, shutGate, if_neg happroved]
      rfl

theorem runCycle_open (hpasses : Passes review e) {result : α} {e' : Engine}
    (hinvoke : invoke p.arguments e = .ok result e') :
    ∃ record, runCycle review p invoke resultFields ⟨e, ids⟩ =
      .ok (record, .ok result) ⟨e', ids + 4⟩ ∧
      CalledRecord p.arguments e e' (resultFields result).2 record := by
  rw [runCycle_eq, hpasses.unchanged]
  obtain ⟨record, hrun, hreceipted⟩ := closeCycle_invoked (openedOn p e ids) review.disposition
    invoke resultFields e (ids + 1) hpasses.approved rfl hinvoke
  obtain ⟨request, receipt, _, hreceipt, _, _, _, harguments, hbefore, hafter, hresult⟩ :=
    hreceipted.receipt
  refine ⟨record, hrun, ?_, ?_, receipt, hreceipt, harguments, hbefore, hafter, hresult⟩
  · rw [hreceipted.candidate]
    exact named
  · rw [hreceipted.candidate]
    rfl

end Cycle

/-! ## Runs

The calls of a lane with the identity and the answer of the review at each gate. -/

/-- `GatedRun review n e ops records stop e'`: the calls `ops` go through a cycle each, the first
one under the `n`-th review, and lead from `e` to `e'`. Up to the first gate that is shut they are
made; `stop` is that gate. -/
inductive GatedRun (review : Nat → Review) :
    Nat → Engine → List Op → List CycleRecord → Option Termination → Engine → Prop
  | done {n : Nat} {e : Engine} : GatedRun review n e [] [] none e
  | stopped {n : Nat} {e : Engine} {op : Op} {ops : List Op} {record : CycleRecord}
      {stop : Termination} (shut : ¬Passes (review n) e)
      (turned : StoppedRecord op (review n) record stop) :
      GatedRun review n e (op :: ops) [record] (some stop) (e.runCalls (review n).calls)
  | called {n : Nat} {e e' e'' : Engine} {op : Op} {ops : List Op} {ret : Ret}
      {record : CycleRecord} {records : List CycleRecord} {stop : Option Termination}
      (passes : Passes (review n) e) (run : op.run e = .ok ret e')
      (made : CalledRecord op e e' ret record)
      (rest : GatedRun review (n + 1) e' ops records stop e'') :
      GatedRun review n e (op :: ops) (record :: records) stop e''

namespace GatedRun

variable {review : Nat → Review} {n : Nat} {e e' : Engine} {ops : List Op}
  {records : List CycleRecord} {stop : Option Termination}

/-- A run that made all its calls goes on. -/
theorem append {e'' : Engine} {ops' : List Op} {records' : List CycleRecord}
    (h : GatedRun review n e ops records none e')
    (h' : GatedRun review (n + ops.length) e' ops' records' stop e'') :
    GatedRun review n e (ops ++ ops') (records ++ records') stop e'' := by
  generalize hnone : none = none' at h
  induction h with
  | done => exact h'
  | stopped => cases hnone
  | called passes run made rest ih =>
    refine .called passes run made (ih ?_ hnone)
    rwa [List.length_cons, ← Nat.add_assoc, Nat.add_right_comm] at h'

/-- What comes after the call that was stopped is not reached. -/
theorem cut {stop : Termination} (h : GatedRun review n e ops records (some stop) e')
    (later : List Op) : GatedRun review n e (ops ++ later) records (some stop) e' := by
  generalize hsome : some stop = some' at h
  induction h with
  | done => cases hsome
  | stopped shut turned => exact .stopped shut turned
  | called passes run made rest ih => exact .called passes run made (ih hsome)

/-- **When all calls are made.** -/
theorem completes_iff (h : GatedRun review n e ops records stop e') :
    stop = none ↔
      ∀ i < ops.length, Passes (review (n + i)) (e.runCalls ((ops.take i).map .op)) := by
  induction h with
  | done => simp
  | stopped shut turned =>
    refine ⟨fun hnone => (Option.some_ne_none _ hnone).elim, fun hpasses => ?_⟩
    exact absurd (hpasses 0 (by simp)) shut
  | @called n e e₁ e₂ op ops ret record records stop passes run made rest ih =>
    rw [ih]
    constructor
    · -- review `0` is this call's, the others belong to the rest of the run
      intro hrest i hi
      cases i with
      | zero => exact passes
      | succ i =>
        rw [List.take_succ_cons, List.map_cons, Engine.runCalls_op run]
        have hlater := hrest i (by simpa using hi)
        rwa [Nat.add_assoc, Nat.add_comm 1 i] at hlater
    · intro hall i hi
      have hlater := hall (i + 1) (by simpa using hi)
      rw [List.take_succ_cons, List.map_cons, Engine.runCalls_op run] at hlater
      rwa [Nat.add_assoc, Nat.add_comm 1 i]

/-- Where a run leads that made all its calls. -/
theorem engine_eq (h : GatedRun review n e ops records none e') :
    e' = e.runCalls (ops.map .op) := by
  generalize hnone : none = none' at h
  induction h with
  | done => rfl
  | stopped => cases hnone
  | called passes run made rest ih =>
    rw [List.map_cons, Engine.runCalls_op run]
    exact ih hnone

theorem sound (h : GatedRun review n e ops records stop e') (he : Sound e) : Sound e' := by
  induction h with
  | done => exact he
  | stopped => exact he.runCalls _
  | @called _ e _ _ op _ _ _ _ _ _ run _ _ ih =>
    have hstep := he.op op
    rw [run] at hstep
    exact ih hstep

end GatedRun

/-! ## Programs that are gated runs

The rules by which a lane is recognized as such a run, cycle by cycle. -/

/-- Where the value of a lane keeps its records and the gate that stopped it. -/
structure LaneView (β : Type) where
  records : β → List CycleRecord
  stop : β → Option Termination

/-- On `e` the program `x` is a gated run of `ops` from the `n`-th review on. It puts its records
behind `before`, and ends in `Q` when no gate stopped it. -/
def Gated {β : Type} (view : LaneView β) (review : Nat → Review) (x : DeskM β) (n : Nat)
    (e : Engine) (ops : List Op) (before : List CycleRecord) (Q : β → Engine → Prop) : Prop :=
  ∀ ids, ∃ b desk records, x ⟨e, ids⟩ = .ok b desk ∧ view.records b = before ++ records ∧
    GatedRun review n e ops records (view.stop b) desk.engine ∧
    (view.stop b = none → Q b desk.engine)

section Rules

variable {α β : Type} {view : LaneView β} {review : Nat → Review} {n : Nat} {e : Engine}
  {before : List CycleRecord} {Q : β → Engine → Prop}

theorem Gated.done {b : β} (hrecords : view.records b = before) (hstop : view.stop b = none)
    (hQ : Q b e) : Gated view review (pure b) n e [] before Q := by
  intro ids
  refine ⟨b, ⟨e, ids⟩, [], rfl, by rw [hrecords, List.append_nil], ?_, fun _ => hQ⟩
  rw [hstop]
  exact .done

/-- **The rule of a cycle.** The program returns at a gate that is shut, and goes on with what
the call returned otherwise. -/
theorem Gated.cycle (h : Sound e) {p : Proposed} {invoke : Op → EngineM α}
    {resultFields : α → String × Ret} {f : CycleRecord × CycleOutcome α → DeskM β} {result : α}
    {e' : Engine} {ops : List Op} (named : p.targetMethod = methodName p.arguments)
    (hinvoke : invoke p.arguments e = .ok result e')
    (hrun : p.arguments.run e = .ok (resultFields result).2 e')
    (hstopped : ∀ record stop, ∃ b, f (record, .terminated stop) = pure b ∧
      view.records b = before ++ [record] ∧ view.stop b = some stop)
    (hcalled : ∀ record, Gated view review (f (record, .ok result)) (n + 1) e' ops
      (before ++ [record]) Q) :
    Gated view review (runCycle (review n) p invoke resultFields >>= f) n e (p.arguments :: ops)
      before Q := by
  intro ids
  rw [run_bind]
  by_cases hpasses : Passes (review n) e
  · -- the call is made and the lane goes on
    obtain ⟨record, hcycle, hmade⟩ := runCycle_open ids p named invoke resultFields hpasses
      hinvoke
    obtain ⟨b, desk, records, hrest, hrecords, hgated, hQ⟩ := hcalled record (ids + 4)
    refine ⟨b, desk, record :: records, by rw [hcycle]; exact hrest, ?_, ?_, hQ⟩
    · rw [hrecords, List.append_assoc, List.singleton_append]
    · exact .called hpasses hrun hmade hgated
  · -- the lane ends with this record
    obtain ⟨record, stop, hcycle, hturned⟩ :=
      runCycle_shut h ids p named invoke resultFields hpasses
    obtain ⟨b, hf, hrecords, hstop⟩ := hstopped record stop
    refine ⟨b, ⟨e.runCalls (review n).calls, ids + 2⟩, [record], ?_, hrecords, ?_, ?_⟩
    · rw [hcycle]
      simp only
      rw [hf]
      rfl
    · rw [hstop]
      exact .stopped hpasses hturned
    · intro hnone
      rw [hstop] at hnone
      cases hnone

end Rules

/-! ## What the calls of lane C do

Evidence, resolution, confirmation: the effect of each and of the three together. -/

/-- The gap asks for evidence of that type. -/
def Asks (e : Engine) (g type : Int) : Prop :=
  ∃ gap, e.gaps.get? g = some gap ∧ gap.requiredEvidenceType = .int type

end Operation

/-- What a transition method leaves; `flag` says whether the transition took place. -/
structure TransitionLeaves (e : Engine) (c : Int) (t : Transition) (flag : Bool) (e' : Engine) :
    Prop where
  evidences : e'.evidences = e.evidences
  gapResolutions : e'.gapResolutions = e.gapResolutions
  status : ∀ status, HasStatus e c status → HasStatus e' c (if flag then t.target else status)
  revision : e'.stateRevision = e.stateRevision + if flag then 1 else 0
  /-- The transition, or nothing. -/
  frame : ∃ claim seq, e.claims.get? c = some claim ∧ e.lifecycleSeq.addInt 1 = .ok seq ∧
    e' = if flag then e.putTransition c claim t.target seq t.label else e

namespace Sound

variable {e : Engine} (h : Sound e) {c : Int}
include h

theorem appendOnly_of_run {o : Op} {r : Ret} {e' : Engine} (hrun : o.run e = .ok r e') :
    AppendOnly e e' := by
  have hframe := (Op.frame h o).toAppendOnly
  rwa [hrun] at hframe

/-- **What `resolve_gaps_for_evidence` returns and leaves.** -/
theorem resolveGaps_exact {v : Int} {evidence : Evidence}
    (hget : e.evidences.get? v = some evidence) :
    ∃ ids e', Engine.resolveGapsForEvidence v e = .ok ids e' ∧
      (∀ g, g ∈ ids ↔ Closes e v g ∧ e.gapResolutions.contains g = false) ∧
      (∀ g, e'.gapResolutions.get? g = if g ∈ ids then some v else e.gapResolutions.get? g) ∧
      ∃ resolutions, e' = { e with
        gapResolutions := resolutions
        stateRevision := e.stateRevision + if ids = [] then 0 else 1 } := by
  obtain ⟨gaps, hgaps⟩ := h.gapsForClaim_returns (h.references.evidenceClaim hget)
  have hclosed : ∀ g, g ∈ Engine.closedBy v evidence gaps e.gapResolutions ↔
      Closes e v g ∧ e.gapResolutions.contains g = false :=
    fun g => h.mem_closedBy_iff hget hgaps
  rw [Engine.resolveGapsForEvidence_ok hget hgaps]
  split
  · rename_i hnil
    rw [hnil] at hclosed
    exact ⟨[], e, rfl, hclosed, fun g => by simp, e.gapResolutions, rfl⟩
  · rename_i hne
    -- the call returns the closed gaps in ascending order
    have hsorted : ∀ g, g ∈ (Engine.closedBy v evidence gaps e.gapResolutions).insertionSort
        (· ≤ ·) ↔ g ∈ Engine.closedBy v evidence gaps e.gapResolutions :=
      fun g => (List.perm_insertionSort _ _).mem_iff
    have hids : (Engine.closedBy v evidence gaps e.gapResolutions).insertionSort (· ≤ ·) ≠ [] := by
      intro hnil
      have hperm :=
        List.perm_insertionSort (· ≤ ·) (Engine.closedBy v evidence gaps e.gapResolutions)
      rw [hnil] at hperm
      exact hne hperm.nil_eq.symm
    refine ⟨_, _, rfl, fun g => (hsorted g).trans (hclosed g), fun g => ?_,
      Engine.resolveAll v (Engine.closedBy v evidence gaps e.gapResolutions) e.gapResolutions, ?_⟩
    · rw [Engine.putResolutions, Engine.get?_resolveAll]
      simp only [hsorted]
    · rw [if_neg hids]
      rfl

/-- **What a transition method returns and leaves.** -/
theorem transition_exact (hclaim : e.claims.contains c = true) (t : Transition) :
    ∃ flag e', t.method c e = .ok flag e' ∧
      (flag = true ↔ HasStatus e c t.source ∧ t.Guard e c) ∧
      ∃ claim seq, e.claims.get? c = some claim ∧ e.lifecycleSeq.addInt 1 = .ok seq ∧
        e' = if flag then e.putTransition c claim t.target seq t.label else e := by
  -- status and guard together decide what the method answers
  by_cases henabled : HasStatus e c t.source ∧ t.Guard e c
  · obtain ⟨⟨claim, hget, hstatus⟩, hguard⟩ := henabled
    obtain ⟨seq, hseq, hrun⟩ := h.run_enabled hget hstatus hguard
    exact ⟨true, _, hrun, ⟨fun _ => ⟨⟨claim, hget, hstatus⟩, hguard⟩, fun _ => rfl⟩, claim, seq,
      hget, hseq, rfl⟩
  · have hnot : ¬t.Enabled e c := fun hon => henabled (h.enabled_iff.mp hon)
    obtain ⟨flag, e', hrun⟩ := h.transition_returns hclaim t
    rcases Engine.transition_cases t c e with
      ⟨err, herr⟩ | hfalse | ⟨claim, hget, hstatus, hguard, hcommit⟩
    · rw [herr] at hrun
      cases hrun
    · obtain ⟨claim, hget⟩ := Dict.contains_iff.mp hclaim
      obtain ⟨seq, hseq, _⟩ := h.commitTransition_eq c claim t.target t.label
      exact ⟨false, e, hfalse, ⟨fun ht => (Bool.noConfusion ht), fun hon => absurd hon henabled⟩,
        claim, seq, hget, hseq, rfl⟩
    · obtain ⟨seq, _, hcommitted⟩ := h.commitTransition_eq c claim t.target t.label
      exact absurd ⟨_, hcommit.trans hcommitted⟩ hnot

/-- A new evidence id is no id of an evidence. -/
theorem evidence_fresh {v : Int} (hv : e.nextCounter "evidence" = .ok v) :
    e.evidences.contains v = false := by
  rw [← Bool.not_eq_true]
  intro hpresent
  have hbelow := @CountersCover.above _ h.counters .evidence _ hv _ hpresent
  omega

/-- **What a transition method returns**, and what it leaves of a claim. -/
theorem transition_leaves (hclaim : e.claims.contains c = true) (t : Transition) :
    ∃ flag e', t.method c e = .ok flag e' ∧
      (flag = true ↔ HasStatus e c t.source ∧ t.Guard e c) ∧ TransitionLeaves e c t flag e' := by
  obtain ⟨flag, e', hrun, hflag, claim, seq, hget, hseq, rfl⟩ := h.transition_exact hclaim t
  refine ⟨flag, _, hrun, hflag, ?_⟩
  cases flag with
  | false =>
    exact ⟨rfl, rfl, fun status hstatus => hstatus, (add_zero _).symm,
      claim, seq, hget, hseq, rfl⟩
  | true =>
    exact ⟨rfl, rfl, fun status _ => ⟨_, Dict.get?_insert_self _ _ _, rfl⟩, rfl,
      claim, seq, hget, hseq, rfl⟩

end Sound

namespace Operation

theorem strength_admitted : ∃ score, ScoreValue.new (.float strengthLiteral) = .ok score := by
  refine ⟨⟨5404319552844595 / 9007199254740992, by norm_num, by norm_num⟩, ?_⟩
  simp only [ScoreValue.new, strengthLiteral, Json.number?]
  norm_num

/-- An evidence that was just added closes the gaps of its claim that ask for its type. -/
theorem closes_added_iff {e : Engine} {c type v g : Int} {evidence : Evidence}
    (hclaim : evidence.claimId = c) (htype : evidence.type = .int type) :
    Closes (e.putEvidence v evidence) v g ↔ g ∈ e.claimGapRefs.getD c ∅ ∧ Asks e g type := by
  have hget : (e.putEvidence v evidence).evidences.get? v = some evidence :=
    Dict.get?_insert_self _ _ _
  constructor
  · rintro ⟨evidence', gap, hget', hgap, href, hasks⟩
    obtain rfl := Option.some.inj (hget'.symm.trans hget)
    exact ⟨hclaim ▸ href, gap, hgap, hasks.trans htype⟩
  · rintro ⟨href, gap, hgap, hasks⟩
    exact ⟨evidence, gap, hget, hgap, hclaim.symm ▸ href, hasks.trans htype.symm⟩

/-- The calls of lane C; `v` is the id of the evidence. -/
def reentryCalls (v c type : Int) : List Op := [
  .addEvidence c 1 type strengthLiteral,
  .resolveGapsForEvidence v,
  .transition .confirm c]

/-- What the three calls do: `v`, `ids` and `flag` are what they return. -/
structure ReentryEffect (e : Engine) (c type v : Int) (ids : List Int) (flag : Bool)
    (e' : Engine) : Prop where
  fresh : e.evidences.contains v = false
  evidence : ∃ evidence, e'.evidences.get? v = some evidence ∧ evidence.id = v ∧
    evidence.claimId = c ∧ evidence.type = .int type
  resolved : ∀ g, g ∈ ids ↔ g ∈ openGaps e c ∧ Asks e g type
  /-- The open gaps that ask for the type are closed by the evidence, and no other. -/
  resolutions : ∀ g, e'.gapResolutions.get? g =
    if g ∈ ids then some v else e.gapResolutions.get? g
  /-- The claim is confirmed when it was a candidate and its last open gaps are closed by this. -/
  confirmed : flag = true ↔ HasStatus e c claimStatusCandidate ∧
    (e.claimGapRefs.getD c ∅).Nonempty ∧ ∀ g ∈ openGaps e c, Asks e g type
  status : ∀ status, HasStatus e c status →
    HasStatus e' c (if flag then claimStatusConfirmed else status)
  /-- Nothing that was stored is taken back. -/
  appendOnly : AppendOnly e e'
  revision : e'.stateRevision =
    e.stateRevision + 1 + (if ids = [] then 0 else 1) + if flag then 1 else 0
  /-- Nothing else of the engine changes: the calls write the evidence with its counter and the
  resolutions, and the transition writes the claim's status and its history. -/
  frame : ∃ record resolutions revision claim seq, e.claims.get? c = some claim ∧
    e.lifecycleSeq.addInt 1 = .ok seq ∧
    let closed := { e with
      nextId := e.nextId.insert "evidence" (.int v)
      evidences := e.evidences.insert v record
      gapResolutions := resolutions
      stateRevision := revision }
    e' = if flag then closed.putTransition c claim claimStatusConfirmed seq "confirm_if_ready"
      else closed

/-- All gaps of the claim are closed now exactly when those that were open ask for the type. -/
theorem forall_closed_iff {e e' : Engine} {c type : Int} {ids : List Int}
    (hids : ∀ g, g ∈ ids ↔ g ∈ openGaps e c ∧ Asks e g type)
    (hclosed : ∀ g, e'.gapResolutions.contains g = true ↔
      g ∈ ids ∨ e.gapResolutions.contains g = true) :
    (∀ g ∈ e.claimGapRefs.getD c ∅, e'.gapResolutions.contains g = true) ↔
      ∀ g ∈ openGaps e c, Asks e g type := by
  simp only [hclosed, hids, openGaps, Finset.mem_filter]
  constructor
  · intro hall g hg
    rcases hall g hg.1 with hnow | hbefore
    · exact hnow.2
    · rw [hg.2] at hbefore
      cases hbefore
  · intro hall g href
    -- a gap was closed before, or is by this call
    by_cases hg : e.gapResolutions.contains g = true
    · exact .inr hg
    · have hnot := Bool.not_eq_true _ ▸ hg
      exact .inl ⟨⟨href, hnot⟩, hall g ⟨href, hnot⟩⟩

theorem exists_reentry {e : Engine} (h : Sound e) {c v : Int} (hclaim : e.claims.contains c = true)
    (hv : e.nextCounter "evidence" = .ok v) (type : Int) :
    ∃ ids flag e₁ e₂ e', Engine.addEvidence c 1 type strengthLiteral e = .ok v e₁ ∧
      Engine.resolveGapsForEvidence v e₁ = .ok ids e₂ ∧
      Engine.confirmClaimIfReady c e₂ = .ok flag e' ∧ ReentryEffect e c type v ids flag e' := by
  -- the evidence
  obtain ⟨score, hscore⟩ := strength_admitted
  have hadd := Engine.addEvidence_ok hclaim hscore hv 1 type
  obtain ⟨e₁, he₁⟩ : ∃ e₁, e₁ = e.putEvidence v ⟨v, c, .int 1, .int type, some score⟩ := ⟨_, rfl⟩
  rw [← he₁] at hadd
  have hrun₁ : (Op.addEvidence c 1 type strengthLiteral).run e = .ok (.id v) e₁ := run_map_ok hadd
  have hsound₁ : Sound e₁ := (LeadsTo.op h hrun₁).1
  have hevidence : e₁.evidences.get? v = some ⟨v, c, .int 1, .int type, some score⟩ := by
    rw [he₁]
    exact Dict.get?_insert_self _ _ _
  have hresolutions₁ : e₁.gapResolutions = e.gapResolutions := by rw [he₁]; rfl
  -- the gaps it closes
  obtain ⟨ids, e₂, hresolve, hids, hresolutions, hframe⟩ := hsound₁.resolveGaps_exact hevidence
  have hrun₂ : (Op.resolveGapsForEvidence v).run e₁ = .ok (.ids ids) e₂ := run_map_ok hresolve
  have hsound₂ : Sound e₂ := (LeadsTo.op hsound₁ hrun₂).1
  have hsame : e₂.claims = e.claims ∧ e₂.claimGapRefs = e.claimGapRefs ∧
      e₂.evidences = e₁.evidences := by
    obtain ⟨_, rfl⟩ := hframe
    rw [he₁]
    exact ⟨rfl, rfl, rfl⟩
  have hrevision : e₂.stateRevision = e.stateRevision + 1 + if ids = [] then 0 else 1 := by
    obtain ⟨_, rfl⟩ := hframe
    rw [he₁]
    rfl
  have hclosed₂ : ∃ resolutions revision, e₂ = { e with
      nextId := e.nextId.insert "evidence" (.int v)
      evidences := e.evidences.insert v ⟨v, c, .int 1, .int type, some score⟩
      gapResolutions := resolutions
      stateRevision := revision } := by
    obtain ⟨resolutions, rfl⟩ := hframe
    rw [he₁]
    exact ⟨resolutions, _, rfl⟩
  have hids' (g : Int) : g ∈ ids ↔ g ∈ openGaps e c ∧ Asks e g type := by
    rw [hids, he₁, closes_added_iff rfl rfl, openGaps, Finset.mem_filter, ← he₁, hresolutions₁]
    tauto
  have hclosed (g : Int) : e₂.gapResolutions.contains g = true ↔
      g ∈ ids ∨ e.gapResolutions.contains g = true := by
    rw [Dict.contains, hresolutions, hresolutions₁]
    by_cases hg : g ∈ ids <;> simp [hg, Dict.contains]
  -- the claim
  have hclaim₂ : e₂.claims.contains c = true := by rw [hsame.1]; exact hclaim
  have hstatus₂ (status : Json) : HasStatus e₂ c status ↔ HasStatus e c status := by
    unfold HasStatus
    rw [hsame.1]
  obtain ⟨flag, e', hconfirm, hflag, hleft⟩ := hsound₂.transition_leaves hclaim₂ .confirm
  have hrun₃ : (Op.transition .confirm c).run e₂ = .ok (.flag flag) e' := run_map_ok hconfirm
  refine ⟨ids, flag, e₁, e₂, e', hadd, hresolve, hconfirm, {
    fresh := h.evidence_fresh hv
    evidence := ⟨_, by rw [hleft.evidences, hsame.2.2]; exact hevidence, rfl, rfl, rfl⟩
    resolved := hids'
    resolutions := fun g => by rw [hleft.gapResolutions, hresolutions, hresolutions₁]
    confirmed := ?_
    status := fun status hstatus => hleft.status status ((hstatus₂ status).mpr hstatus)
    appendOnly := (h.appendOnly_of_run hrun₁).trans
      ((hsound₁.appendOnly_of_run hrun₂).trans (hsound₂.appendOnly_of_run hrun₃))
    revision := by rw [hleft.revision, hrevision]
    frame := by
      obtain ⟨resolutions, revision, hstores⟩ := hclosed₂
      obtain ⟨claim, seq, hget, hseq, hleft⟩ := hleft.frame
      rw [hstores] at hget hseq hleft
      exact ⟨_, resolutions, revision, claim, seq, hget, hseq, hleft⟩ }⟩
  rw [hflag, hstatus₂, hsound₂.guard_confirm_iff hclaim₂, hsame.2.1,
    forall_closed_iff hids' hclosed]
  rfl

/-! ## The lane

On an engine in use, for any claim. -/

/-- What lane C reports when no gate stopped it. -/
structure ReentryReport (lane : LaneC) (v : Int) (ids : List Int) (flag : Bool) : Prop where
  evidenceId : lane.producedIds.evidenceId = some v
  resolvedGapIds : lane.producedIds.resolvedGapIds = some ids
  confirmedFlag : lane.lifecycleConfirmedFlag = some flag
  stageStatus : lane.stageStatus = "COMPLETED"

def LaneC.view : LaneView LaneC := ⟨explicitInvocationSequence, termination⟩

theorem laneC_gated (env : Surroundings) {e : Engine} (h : Sound e) {c v : Int}
    (hclaim : e.claims.contains c = true) (hv : e.nextCounter "evidence" = .ok v) (type : Int) :
    Gated LaneC.view env.review (laneC env c type) 3 e (reentryCalls v c type) [] fun lane e' =>
      ∃ ids flag, ReentryReport lane v ids flag ∧ ReentryEffect e c type v ids flag e' := by
  obtain ⟨ids, flag, e₁, e₂, e', hadd, hresolve, hconfirm, heffect⟩ :=
    exists_reentry h hclaim hv type
  -- the three calls, each on the engine the one before it left
  have hrun₁ : (Op.addEvidence c 1 type strengthLiteral).run e = .ok (.id v) e₁ := run_map_ok hadd
  have hrun₂ : (Op.resolveGapsForEvidence v).run e₁ = .ok (.ids ids) e₂ := run_map_ok hresolve
  have hrun₃ : (Op.transition .confirm c).run e₂ = .ok (.flag flag) e' := run_map_ok hconfirm
  have h₁ : Sound e₁ := (LeadsTo.op h hrun₁).1
  have h₂ : Sound e₂ := (LeadsTo.op h₁ hrun₂).1
  refine .cycle h rfl hadd hrun₁ (fun record stop => ⟨_, rfl, rfl, rfl⟩) fun record₁ => ?_
  refine .cycle h₁ rfl hresolve hrun₂ (fun record stop => ⟨_, rfl, rfl, rfl⟩) fun record₂ => ?_
  refine .cycle h₂ rfl hconfirm hrun₃ (fun record stop => ⟨_, rfl, rfl, rfl⟩) fun record₃ => ?_
  exact .done rfl rfl ⟨ids, flag, ⟨rfl, rfl, rfl, rfl⟩, heffect⟩

/-- What lane C does on `e`, for every claim and every way the reviews go. -/
structure ReentryExact (env : Surroundings) (e : Engine) (c type : Int) : Prop where
  known : e.claims.contains c = true →
    ∃ v, Gated LaneC.view env.review (laneC env c type) 3 e (reentryCalls v c type) []
      fun lane e' =>
        ∃ ids flag, ReentryReport lane v ids flag ∧ ReentryEffect e c type v ids flag e'
  unknown : e.claims.contains c = false → Passes (env.review 3) e → ∀ ids,
    laneC env c type ⟨e, ids⟩ = .error (.keyError [s!"unknown claim_id: {c}"]) ⟨e, ids + 3⟩
  /-- A gate that is shut is met before the claim is looked up. -/
  unknownShut : e.claims.contains c = false → ¬Passes (env.review 3) e → ∀ ids,
    ∃ lane record stop,
      laneC env c type ⟨e, ids⟩ = .ok lane ⟨e.runCalls (env.review 3).calls, ids + 2⟩ ∧
      lane.explicitInvocationSequence = [record] ∧ lane.termination = some stop ∧
      StoppedRecord (.addEvidence c 1 type strengthLiteral) (env.review 3) record stop

/-- **The lane that brings evidence back is exact.** On any engine in use it makes its three calls
up to the first gate that is shut. When no gate is, the new evidence has closed the open gaps of
the claim that ask for its type, the claim is confirmed exactly when it was a candidate and these
were its last, and nothing else changed. An unknown claim raises once the first gate is open. -/
theorem reentry_exact (env : Surroundings) {s : Session} (h : s.Reachable) (c type : Int) :
    ReentryExact env s.engine c type where
  known hclaim := by
    obtain ⟨v, hv⟩ := h.sound.counters.next .evidence
    exact ⟨v, laneC_gated env h.sound hclaim hv type⟩
  unknown hunknown hpasses ids := by
    -- on an unknown claim the first call raises, and no record of it is made
    have hraise : invokeAddEvidence (proposeEvidence c type).arguments s.engine =
        .error (.keyError [s!"unknown claim_id: {c}"]) s.engine := by
      show Engine.addEvidence c 1 type strengthLiteral s.engine = _
      rw [Engine.addEvidence, run_readState_bind, Engine.assertClaimExists, hunknown]
      rfl
    have hcycle := closeCycle_raised (openedOn (proposeEvidence c type) s.engine ids) _
      invokeAddEvidence (returning "returned_id" Ret.id) s.engine (ids + 1) hpasses.approved rfl
      hraise
    rw [laneC, run_bind, runCycle_eq, hpasses.unchanged, hcycle]
  unknownShut _ hshut ids := by
    obtain ⟨record, stop, hcycle, hturned⟩ := runCycle_shut h.sound ids (proposeEvidence c type) rfl
      invokeAddEvidence (returning "returned_id" Ret.id) hshut
    obtain ⟨lane, hlane, hrecords, hstop⟩ : ∃ lane, laneC env c type ⟨s.engine, ids⟩ =
        .ok lane ⟨s.engine.runCalls (env.review 3).calls, ids + 2⟩ ∧
        lane.explicitInvocationSequence = [record] ∧ lane.termination = some stop := by
      rw [laneC, run_bind, hcycle]
      exact ⟨_, rfl, rfl, rfl⟩
    exact ⟨lane, record, stop, hlane, hrecords, hstop, hturned⟩

/-- Reviews that approve and do nothing else, around values that no cycle reads. -/
def Surroundings.approving : Surroundings where
  trace := .none
  roleExample := .none
  folding := .ascii
  lowering := .ascii
  review := fun _ => .explicit
  uuid := fun _ => default

set_option maxRecDepth 4000 in
/-- The lane on a candidate with one gap, open and of the type: it closes the gap, and confirms the
claim. -/
theorem reentry_exact_rivals :
    openGaps Session.rivals.engine 1 = {1} ∧ ReentryExact .approving Session.rivals.engine 1 7 ∧
      (outcome (laneC .approving 1 7 ⟨Session.rivals.engine, 0⟩)).toOption.map (fun lane =>
        (lane.producedIds.evidenceId, lane.producedIds.resolvedGapIds,
          lane.lifecycleConfirmedFlag)) = some (some 5, some [1], some true) :=
  ⟨by decide +kernel, reentry_exact .approving Session.rivals_reachable 1 7, by decide +kernel⟩

end Operation

end Ragcore
