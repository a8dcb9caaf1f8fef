import Ragcore.Engine.Confidence
import Ragcore.Engine.Session
import Ragcore.Lib.Simulation

/-!
# Ragcore — the public surface as requests and responses

* **`Query`** — the public reads, `to_snapshot` among them; none changes the engine.
* **`Request`** — a public call or a read, with the **`Response`** its caller gets.
* **`Response.unstamped`** — a response without the state identity, which names the lineage
  of the engine that gave it.
-/

namespace Ragcore

/-- The public reads. -/
inductive Query where
  | getEntity (entityId : Int)
  | getObservation (observationId : Int)
  | getClaim (claimId : Int)
  | getEvidence (evidenceId : Int)
  | evidencesForClaim (claimId : Int)
  | getRelation (relationId : Int)
  | getGap (gapId : Int)
  | gapsForClaim (claimId : Int)
  | gapResolution (gapId : Int)
  | contradictionsForClaim (claimId : Int)
  | resolvedContradictionsForClaim (claimId : Int)
  | activeContradictionsForClaim (claimId : Int)
  | activeContradictionsByFreshness (claimId : Int)
  | claimLifecycleHistory (claimId : Int)
  | evidenceFreshness (evidenceId : Int)
  | getRule (ruleId ruleVersion : Int)
  | getRuleStats (ruleId ruleVersion : Int)
  | computeEffectiveConfidence (claimId : Int)
  | computeEffectiveConfidenceWithTrace (claimId : Int)
  | stateIdentity
  | toSnapshot

/-- What they return. -/
inductive Answer where
  | entity (record : Entity)
  | observation (record : Observation)
  | claim (record : Claim)
  | evidence (record : Evidence)
  | evidences (records : List Evidence)
  | relation (record : Relation)
  | gap (record : Gap)
  | gaps (records : List Gap)
  | resolution (evidenceId : Option Int)
  | ids (ids : List Int)
  | freshness (n : Int)
  | history (events : List ClaimLifecycleEvent)
  | rule (definition : RuleDefinition)
  | stats (stats : RuleStats)
  | score (score : ScoreValue)
  | trace (trace : EffectiveConfidenceTrace)
  | identity (identity : EngineStateIdentity)
  | snapshot (snapshot : Json)

/-- A read never writes. -/
def Query.run (q : Query) (e : Engine) : Except PyErr Answer :=
  match q with
  | getEntity n => Answer.entity <$> e.getEntity n
  | getObservation n => Answer.observation <$> e.getObservation n
  | getClaim n => Answer.claim <$> e.getClaim n
  | getEvidence n => Answer.evidence <$> e.getEvidence n
  | evidencesForClaim n => Answer.evidences <$> e.evidencesForClaim n
  | getRelation n => Answer.relation <$> e.getRelation n
  | getGap n => Answer.gap <$> e.getGap n
  | gapsForClaim n => Answer.gaps <$> e.gapsForClaim n
  | gapResolution n => Answer.resolution <$> e.gapResolution n
  | contradictionsForClaim n => Answer.ids <$> e.contradictionsForClaim n
  | resolvedContradictionsForClaim n => Answer.ids <$> e.resolvedContradictionsForClaim n
  | activeContradictionsForClaim n => Answer.ids <$> e.activeContradictionsForClaim n
  | activeContradictionsByFreshness n => Answer.ids <$> e.activeContradictionsByFreshness n
  | claimLifecycleHistory n => Answer.history <$> e.claimLifecycleHistory n
  | evidenceFreshness n => Answer.freshness <$> e.evidenceFreshness n
  | getRule n v => Answer.rule <$> e.getRule n v
  | getRuleStats n v => Answer.stats <$> e.getRuleStats n v
  | computeEffectiveConfidence n => Answer.score <$> e.computeEffectiveConfidence n
  | computeEffectiveConfidenceWithTrace n =>
    Answer.trace <$> e.computeEffectiveConfidenceWithTrace n
  | stateIdentity => Answer.identity <$> e.stateIdentity
  | toSnapshot => Answer.snapshot <$> e.toSnapshot

/-- The trace without the identity of the state it was computed on. -/
def EffectiveConfidenceTrace.unstamped (trace : EffectiveConfidenceTrace) :
    EffectiveConfidenceTrace := { trace with sourceStateIdentity := ⟨"", 0⟩ }

def Answer.unstamped : Answer → Answer
  | trace t => trace t.unstamped
  | identity _ => identity ⟨"", 0⟩
  | answer => answer

/-- What a caller may ask for: a call or a read. -/
inductive Request where
  | call (c : Call)
  | ask (q : Query)

inductive Response where
  | ret (r : CallRet)
  | answer (a : Answer)

/-- Calls and reads, as programs over the engine. -/
def Request.run : Request → EngineM Response
  | call c => Response.ret <$> c.run
  | ask q => Response.answer <$> readState q.run

def Response.unstamped : Response → Response
  | ret r => ret r
  | answer a => answer a.unstamped

end Ragcore
