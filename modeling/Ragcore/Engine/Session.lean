import Ragcore.Engine.Ops
import Ragcore.Snapshot.Decode
import Ragcore.Snapshot.Encode

/-!
# Ragcore — runs of an engine

A run starts from `Engine()` or from a restored engine and makes public calls: the twenty
mutators and the two rule firings, which are clients of the mutators (`Call.steps`). An action
may also be a snapshot round trip, after which the run goes on with the restored engine.

* **`Session`** — an engine and the record of the mutator calls made in its run, those inside
  rule firings included.
* **`Session.preserves`** — the induction rule for runs with round trips.
-/

namespace Ragcore

/-! ## Public calls

What a caller can do: one of the mutators, or the firing of a rule. -/

/-- The arguments of a rule firing; of the definition it reads id and version. -/
structure Firing where
  ruleId : Int
  ruleVersion : Int
  condition : ConditionTree
  output : RuleOutputTemplate
  subjectId : Int
  context : Fields
  requiredEvidence : Option RequiredEvidenceTemplate

/-- A call with its arguments. -/
inductive Call where
  | op (o : Op)
  | fireRule (f : Firing)
  | fireRuleWithTrace (f : Firing)

/-- What it returns. -/
inductive CallRet where
  | ret (r : Ret)
  | claimId (id : Option Int)
  | trace (t : FiringTrace)

namespace Firing

/-- The firing with the trace of its condition. -/
def core (f : Firing) : EngineM FiringTrace :=
  Engine.fireRuleCore f.ruleId f.ruleVersion f.condition f.output f.subjectId f.context
    f.requiredEvidence

/-- The claim of a firing, as the call that adds it. -/
def claimOp (f : Firing) : Op :=
  .addClaim f.subjectId f.output.claimType f.ruleId f.ruleVersion f.output.reasonCode
    (.fin f.output.baseConfidence.value) f.output.status 0

def evidenceTypes (f : Firing) : List Int :=
  match f.requiredEvidence with
  | some template => template.evidenceTypes
  | none => []

/-- The gap of one required type. -/
def gapOp (f : Firing) (claimId evidenceType : Int) : Op :=
  .addGap claimId gapTypeMissingEvidence evidenceType defaultGapSeverity f.ruleId

/-- And the update of the statistics. -/
def statsOp (f : Firing) : Op := .updateRuleStats f.ruleId f.ruleVersion 1 0 0 none none

/-- The mutator calls a firing makes, with their results. -/
def records (f : Firing) (e : Engine) : List (CallRecord Op PyErr Ret) :=
  match e.getRuleStats f.ruleId f.ruleVersion, Condition.evaluateWithTrace f.context f.condition with
  | .ok _, .ok trace =>
    if trace.result then
      match f.claimOp.run e with
      | .ok (.id claimId) e' =>
        ⟨f.claimOp, .ok (.id claimId)⟩ ::
          script Op.run (f.evidenceTypes.map (f.gapOp claimId) ++ [f.statsOp]) e'
      | result => [⟨f.claimOp, outcome result⟩]
    else []
  | _, _ => []

end Firing

namespace Call

/-- A call as a program over the engine. -/
def run : Call → EngineM CallRet
  | op o => CallRet.ret <$> o.run
  | fireRule f => CallRet.claimId <$> Engine.fireRule f.ruleId f.ruleVersion f.condition f.output
      f.subjectId f.context f.requiredEvidence
  | fireRuleWithTrace f => CallRet.trace <$> Engine.fireRuleWithTrace f.ruleId f.ruleVersion
      f.condition f.output f.subjectId f.context f.requiredEvidence

def records (c : Call) (e : Engine) : List (CallRecord Op PyErr Ret) :=
  match c with
  | op o => [⟨o, outcome (o.run e)⟩]
  | fireRule f => f.records e
  | fireRuleWithTrace f => f.records e

end Call

/-- The gap loop and the statistics update are the script of their calls. -/
theorem addRequiredGaps_steps (f : Firing) (claimId : Int) (types : List Int)
    (next : List Int → EngineM FiringTrace)
    (hnext : ∀ gapIds e, finalState (next gapIds e) = finalState (f.statsOp.run e)) (e : Engine) :
    Steps Op.run e (script Op.run (types.map (f.gapOp claimId) ++ [f.statsOp]) e)
      (finalState ((Engine.addRequiredGaps claimId f.ruleId types >>= next) e)) := by
  induction types generalizing e next with
  | nil =>
    change Steps Op.run e _ (finalState (next [] e))
    rw [hnext]
    have hscript : script Op.run [f.statsOp] e = [⟨f.statsOp, outcome (f.statsOp.run e)⟩] := by
      simp only [script]
      cases f.statsOp.run e <;> rfl
    rw [List.map_nil, List.nil_append, hscript]
    exact .single _ _
  | cons evidenceType rest ih =>
    -- the call in the script is the method of the loop, up to how the id is wrapped
    have hop : (f.gapOp claimId evidenceType).run e =
        (Ret.id <$> Engine.addGap claimId gapTypeMissingEvidence evidenceType defaultGapSeverity
          f.ruleId) e := rfl
    rw [run_map] at hop
    rw [Engine.addRequiredGaps, bind_assoc, run_bind, List.map_cons, List.cons_append, script]
    cases hgap : Engine.addGap claimId gapTypeMissingEvidence evidenceType defaultGapSeverity
        f.ruleId e with
    | error err e' =>
      rw [hgap] at hop
      simp only [hop]
      -- a gap that raises ends the loop and the script
      exact .of_error hop
    | ok gapId e' =>
      rw [hgap] at hop
      simp only [hop, bind_assoc, pure_bind]
      exact .of_ok hop (ih (fun gapIds => next (gapId :: gapIds)) (fun gapIds => hnext _) e')

/-- The recorded calls lead from the state before to the state after. -/
theorem Firing.steps (f : Firing) (e : Engine) :
    Steps Op.run e (f.records e) (finalState (f.core e)) := by
  rw [Firing.core, Engine.fireRuleCore.eq_def, run_readState_bind, Firing.records]
  -- a firing that does not fire has made no call
  cases e.getRuleStats f.ruleId f.ruleVersion with
  -- no statistics, no trace, or a condition that is false: nothing is called
  | error err => exact .nil e
  | ok stats =>
    simp only
    rw [run_readState_bind]
    cases Condition.evaluateWithTrace f.context f.condition with
    | error err => exact .nil e
    | ok trace =>
      cases htrace : trace.result with
      | false =>
        simp only [htrace, Bool.not_false, if_true, Bool.false_eq_true, if_false]
        exact .nil e
      | true =>
        simp only [htrace, Bool.not_true, Bool.false_eq_true, if_false, if_true]
        -- the condition holds: the claim, its gaps, then the statistics
        have hop : f.claimOp.run e = (Ret.id <$> Engine.addClaim f.subjectId f.output.claimType
            f.ruleId f.ruleVersion f.output.reasonCode (.fin f.output.baseConfidence.value)
            f.output.status 0) e := rfl
        rw [run_map] at hop
        rw [run_bind]
        cases hclaim : Engine.addClaim f.subjectId f.output.claimType f.ruleId f.ruleVersion
            f.output.reasonCode (.fin f.output.baseConfidence.value) f.output.status 0 e with
        | error err e' =>
          rw [hclaim] at hop
          simp only [hop]
          exact .of_error hop
        | ok claimId e' =>
          rw [hclaim] at hop
          simp only [hop]
          have hrest := addRequiredGaps_steps f claimId f.evidenceTypes
            (fun gapIds => do
              Engine.updateRuleStats f.ruleId f.ruleVersion 1 0 0 none none
              return ⟨f.ruleId, f.ruleVersion, f.subjectId, true, trace, some claimId, gapIds⟩)
            (fun gapIds e => by
              rw [run_bind, Firing.statsOp, Op.run, finalState_map]
              cases Engine.updateRuleStats f.ruleId f.ruleVersion 1 0 0 none none e <;> rfl) e'
          exact .of_ok hop hrest

/-- The public call ends in the state of its core. -/
theorem Firing.run_fireRule (f : Firing) (e : Engine) :
    finalState (Call.run (.fireRule f) e) = finalState (f.core e) := by
  rw [Call.run, finalState_map, Engine.fireRule, run_bind, Firing.core]
  cases Engine.fireRuleCore f.ruleId f.ruleVersion f.condition f.output f.subjectId f.context
    f.requiredEvidence e <;> rfl

/-- **Every public call is a sequence of mutator calls.** -/
theorem Call.steps (c : Call) (e : Engine) :
    Steps Op.run e (c.records e) (finalState (c.run e)) := by
  cases c with
  | op o =>
    rw [Call.run, finalState_map]
    exact .single o e
  | fireRule f =>
    rw [f.run_fireRule]
    exact f.steps e
  | fireRuleWithTrace f =>
    rw [Call.run, finalState_map]
    exact f.steps e

/-! ## Sessions

An engine from `Engine()` on, through calls and round trips, with the log of its calls. -/

/-- A call, or a round trip through a snapshot. -/
inductive Action where
  | call (c : Call)
  /-- `from_snapshot(to_snapshot(engine))`; the fresh engine gets the token `uuid`. -/
  | roundTrip (uuid : UuidHex)

/-- The engine and the calls so far. -/
structure Session where
  engine : Engine
  log : List (CallRecord Op PyErr Ret)

namespace Engine

/-- `Engine.from_snapshot(engine.to_snapshot())`. -/
def roundTrip (uuid : UuidHex) (e : Engine) : Except PyErr Engine := do
  let snapshot ← e.toSnapshot
  fromSnapshot uuid snapshot

end Engine

namespace Session

/-- `Engine()`. -/
def start (uuid : UuidHex) : Session := ⟨Engine.new uuid, []⟩

/-- A round trip that raises leaves the run with the engine it had. -/
def act (s : Session) : Action → Session
  | .call c => ⟨finalState (c.run s.engine), s.log ++ c.records s.engine⟩
  | .roundTrip uuid =>
    match s.engine.roundTrip uuid with
    | .ok engine => { s with engine }
    | .error _ => s

def run (s : Session) (actions : List Action) : Session := actions.foldl act s

/-- A session that some run from `Engine()` leads to. -/
def Reachable (s : Session) : Prop := ∃ uuid actions, s = (start uuid).run actions

/-- **The induction rule for runs.** What every mutator call and every successful round trip
keeps holds throughout a run. -/
theorem preserves {P : List (CallRecord Op PyErr Ret) → Engine → Prop}
    (hop : ∀ log e o, P log e → P (log ++ [⟨o, outcome (o.run e)⟩]) (finalState (o.run e)))
    (htrip : ∀ log e uuid e', P log e → e.roundTrip uuid = .ok e' → P log e')
    {s : Session} (hP : P s.log s.engine) (actions : List Action) :
    P (s.run actions).log (s.run actions).engine := by
  induction actions generalizing s with
  | nil => exact hP
  | cons action rest ih =>
    refine ih (s := s.act action) ?_
    cases action with
    | call c => exact (c.steps s.engine).preserves hop hP
    | roundTrip uuid =>
      simp only [act]
      -- a round trip that raises leaves the session as it was
      cases h : s.engine.roundTrip uuid with
      | ok engine => exact htrip _ _ _ _ hP h
      | error err => exact hP

/-- What holds at the start, and is kept by calls and by round trips, holds of every session. -/
theorem Reachable.preserves {P : List (CallRecord Op PyErr Ret) → Engine → Prop}
    (hnew : ∀ uuid, P [] (Engine.new uuid))
    (hop : ∀ log e o, P log e → P (log ++ [⟨o, outcome (o.run e)⟩]) (finalState (o.run e)))
    (htrip : ∀ log e uuid e', P log e → e.roundTrip uuid = .ok e' → P log e')
    {s : Session} (h : s.Reachable) : P s.log s.engine := by
  obtain ⟨uuid, actions, rfl⟩ := h
  exact Session.preserves hop htrip (hnew uuid) actions

/-- A claim's way to `DISPUTED`: its gap is closed, it is confirmed, then contradicted. -/
def disputedRun : List Call := [
  .op (.addEntity 1 0),
  .op (.addClaim 1 1 0 1 1 (.fin (9 / 10)) 0 0),
  .op (.addGap 1 1 7 (.fin (1 / 2)) 0),
  .op (.addEvidence 1 1 7 (.fin (9 / 10))),
  .op (.resolveGapsForEvidence 1),
  .op (.transition .confirm 1),
  .op (.registerContradiction 1 1),
  .op (.transition .dispute 1)]

/-- The session that makes these calls and then a round trip. -/
def disputed : Session := (start default).run (disputedRun.map .call ++ [.roundTrip default])

theorem disputed_reachable : disputed.Reachable := ⟨default, _, rfl⟩

/-- Two claims about one entity that share an open gap: the second `add_gap` is a dedup hit, either
claim has an evidence of the required type, and two evidences of the first claim speak against the
second. -/
def rivalsRun : List Call := [
  .op (.addEntity 1 0),
  .op (.addClaim 1 1 0 1 1 (.fin (9 / 10)) 0 0),
  .op (.addClaim 1 2 0 1 1 (.fin (9 / 10)) 0 0),
  .op (.addGap 1 1 7 (.fin (1 / 2)) 0),
  .op (.addGap 2 1 7 (.fin (1 / 4)) 0),
  .op (.addEvidence 1 1 7 (.fin (1 / 4))),
  .op (.addEvidence 2 2 7 (.fin (1 / 2))),
  .op (.addEvidence 1 3 8 (.fin (1 / 2))),
  .op (.addEvidence 1 4 9 (.fin (3 / 4))),
  .op (.registerContradiction 2 1),
  .op (.registerContradiction 2 3)]

def rivals : Session := (start default).run (rivalsRun.map .call)

theorem rivals_reachable : rivals.Reachable := ⟨default, _, rfl⟩

end Session

/-- The states a run of public calls on one engine goes through. -/
def Engine.runCalls (e : Engine) (calls : List Call) : Engine :=
  calls.foldl (fun e c => finalState (c.run e)) e

/-- What every mutator keeps is kept by a run of calls. -/
theorem Engine.runCalls_preserves {P : Engine → Prop}
    (hop : ∀ e (o : Op), P e → P (finalState (o.run e)))
    {e : Engine} (hP : P e) (calls : List Call) : P (e.runCalls calls) := by
  induction calls generalizing e with
  | nil => exact hP
  | cons c rest ih => exact ih ((c.steps e).preserves_state hop hP)

end Ragcore
