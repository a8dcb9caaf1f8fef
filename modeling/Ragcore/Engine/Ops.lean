import Ragcore.Engine.Relations
import Ragcore.Engine.RuleRuntime
import Ragcore.Lib.Runs

/-!
# Ragcore — the twenty mutators as one machine

* **`Op`** — a call of one of the twenty state-mutating methods, with its arguments;
  `Op.run` is the method.
* **`Writes`** — everything such a call can write, one constructor for each kind of write, with
  the facts the method has checked by then. Every invariant is proved by cases on it.
* **`Op.outcome_cases`** — a call raises with nothing written, returns with nothing written, or
  `Writes`. Two further outcomes belong to restored engines whose records are not typed: a status
  replaced before the recorder raised, and statistics written back equal.
-/

namespace Ragcore

/-! ## Calls

The public mutators with their arguments, as data, so that a run is a list. -/

inductive Op where
  | addEntity (entityType flags : Int)
  | addObservation (entityId rawRefId observationType sourceType : Int)
  | addClaim (subjectId claimType ruleId ruleVersion reasonCode : Int)
      (baseConfidence : PyFloat) (status flags : Int)
  | addEvidence (claimId rawRefId evidenceType : Int) (strength : PyFloat)
  | addRelation (fromKind fromId toKind toId relationType ruleId reasonCode : Int)
  | addGap (claimId gapType requiredEvidenceType : Int) (severity : PyFloat) (ruleId : Int)
  | resolveGapsForEvidence (evidenceId : Int)
  | registerContradiction (claimId evidenceId : Int)
  | registerContradictionResolution (claimId evidenceId : Int)
  | transition (t : Transition) (claimId : Int)
  | registerRule (id version maturity : Int) (priorConfidence : ScoreValue)
  | updateRuleStats (ruleId ruleVersion firingDelta trueDelta falseDelta : Int)
      (observedPrecision falsePositiveRate : Option ScoreValue)
  | registerHintEvidenceTypes (types : Json)
  | unregisterHintEvidenceTypes (types : Json)
  | clearHintEvidenceTypes

inductive Ret where
  | id (n : Int)
  | ids (ns : List Int)
  | flag (b : Bool)
  | none
  deriving DecidableEq, Repr

namespace Op

def run : Op → EngineM Ret
  | addEntity entityType flags => Ret.id <$> Engine.addEntity entityType flags
  | addObservation entityId rawRefId observationType sourceType =>
    Ret.id <$> Engine.addObservation entityId rawRefId observationType sourceType
  | addClaim subjectId claimType ruleId ruleVersion reasonCode baseConfidence status flags =>
    Ret.id <$> Engine.addClaim subjectId claimType ruleId ruleVersion reasonCode baseConfidence
      status flags
  | addEvidence claimId rawRefId evidenceType strength =>
    Ret.id <$> Engine.addEvidence claimId rawRefId evidenceType strength
  | addRelation fromKind fromId toKind toId relationType ruleId reasonCode =>
    Ret.id <$> Engine.addRelation fromKind fromId toKind toId relationType ruleId reasonCode
  | addGap claimId gapType requiredEvidenceType severity ruleId =>
    Ret.id <$> Engine.addGap claimId gapType requiredEvidenceType severity ruleId
  | resolveGapsForEvidence evidenceId => Ret.ids <$> Engine.resolveGapsForEvidence evidenceId
  | registerContradiction claimId evidenceId =>
    Ret.flag <$> Engine.registerContradiction claimId evidenceId
  | registerContradictionResolution claimId evidenceId =>
    Ret.flag <$> Engine.registerContradictionResolution claimId evidenceId
  | transition t claimId => Ret.flag <$> t.method claimId
  | registerRule id version maturity priorConfidence =>
    (fun _ => Ret.none) <$> Engine.registerRule id version maturity priorConfidence
  | updateRuleStats ruleId ruleVersion firingDelta trueDelta falseDelta observedPrecision
      falsePositiveRate =>
    (fun _ => Ret.none) <$> Engine.updateRuleStats ruleId ruleVersion firingDelta trueDelta
      falseDelta observedPrecision falsePositiveRate
  | registerHintEvidenceTypes types =>
    (fun _ => Ret.none) <$> Engine.registerHintEvidenceTypes types
  | unregisterHintEvidenceTypes types =>
    (fun _ => Ret.none) <$> Engine.unregisterHintEvidenceTypes types
  | clearHintEvidenceTypes => (fun _ => Ret.none) <$> Engine.clearHintEvidenceTypes

/-- Whether the call is one of the three on the hint set. -/
def onHints : Op → Bool
  | registerHintEvidenceTypes _ => true
  | unregisterHintEvidenceTypes _ => true
  | clearHintEvidenceTypes => true
  | _ => false

/-- The status an `add_claim` gives its claim. -/
def initialStatus? : Op → Option Int
  | addClaim _ _ _ _ _ _ status _ => some status
  | _ => none

end Op

/-- The id a method returned. -/
def Ret.id? : Ret → Option Int
  | id n => some n
  | _ => Option.none

/-! ## What a call can write

One inversion for all mutators: the call raised, or changed nothing, or made one of the writes below
under the checks that are listed with it. -/

/-- `Writes e o r e'`: the call `o` on `e` returns `r` and leaves `e'`, which differs. -/
inductive Writes (e : Engine) : Op → Ret → Engine → Prop
  | addEntity {entityType flags n : Int} (fresh : e.nextCounter "entity" = .ok n) :
      Writes e (.addEntity entityType flags) (.id n)
        (e.putEntity n ⟨.int n, .int entityType, .int flags⟩)
  | addObservation {entityId rawRefId observationType sourceType n : Int}
      (entity : e.entities.contains entityId = true)
      (fresh : e.nextCounter "observation" = .ok n) :
      Writes e (.addObservation entityId rawRefId observationType sourceType) (.id n)
        (e.putObservation n
          ⟨.int n, .int entityId, .int rawRefId, .int observationType, .int sourceType⟩)
  | addClaim {subjectId claimType ruleId ruleVersion reasonCode status flags n : Int}
      {baseConfidence : PyFloat} {score : ScoreValue}
      (subject : e.entities.contains subjectId = true)
      (valid : ValidStatus (.int status))
      (fresh : e.nextCounter "claim" = .ok n) :
      Writes e
        (.addClaim subjectId claimType ruleId ruleVersion reasonCode baseConfidence status flags)
        (.id n)
        (e.putClaim n ⟨n, .int subjectId, .int claimType, .int status, .int ruleId,
          .int ruleVersion, .int reasonCode, some score, .int flags⟩)
  | addEvidence {claimId rawRefId evidenceType n : Int} {strength : PyFloat}
      {score : ScoreValue} (claim : e.claims.contains claimId = true)
      (fresh : e.nextCounter "evidence" = .ok n) :
      Writes e (.addEvidence claimId rawRefId evidenceType strength) (.id n)
        (e.putEvidence n ⟨n, claimId, .int rawRefId, .int evidenceType, some score⟩)
  | addRelation {fromKind fromId toKind toId relationType ruleId reasonCode n : Int}
      (source : e.idExists fromKind fromId = .ok true)
      (target : e.idExists toKind toId = .ok true)
      (fresh : e.nextCounter "relation" = .ok n) :
      Writes e (.addRelation fromKind fromId toKind toId relationType ruleId reasonCode) (.id n)
        (e.putRelation n ⟨.int n, .int fromKind, .int fromId, .int toKind, .int toId,
          .int relationType, .int ruleId, .int reasonCode⟩)
  /-- A dedup hit from a claim that had no reference to the gap yet. -/
  | shareGap {claimId gapType requiredEvidenceType ruleId g : Int} {severity : PyFloat}
      {claim : Claim} {subject : HKey} (found : e.claims.get? claimId = some claim)
      (hashed : claim.subjectId.key? = some subject)
      (known : e.gapDedupIndex.get?
        (Engine.dedupKey subject ruleId gapType requiredEvidenceType) = some g)
      (absent : g ∉ e.claimGapRefs.getD claimId ∅) :
      Writes e (.addGap claimId gapType requiredEvidenceType severity ruleId) (.id g)
        (e.putGapRef claimId g)
  | addGap {claimId gapType requiredEvidenceType ruleId n : Int} {severity : PyFloat}
      {claim : Claim} {subject : HKey} {score : ScoreValue}
      (found : e.claims.get? claimId = some claim)
      (hashed : claim.subjectId.key? = some subject)
      (unknown : e.gapDedupIndex.get?
        (Engine.dedupKey subject ruleId gapType requiredEvidenceType) = none)
      (admitted : ScoreValue.new (.float severity) = .ok score)
      (fresh : e.nextCounter "gap" = .ok n) :
      Writes e (.addGap claimId gapType requiredEvidenceType severity ruleId) (.id n)
        (e.putGap claimId n (Engine.dedupKey subject ruleId gapType requiredEvidenceType)
          ⟨n, .int claimId, .int gapType, .int requiredEvidenceType, some score, .int ruleId⟩)
  | resolveGaps {evidenceId : Int} {evidence : Evidence} {gaps : List Gap} {ret : List Int}
      (found : e.evidences.get? evidenceId = some evidence)
      (listed : e.gapsForClaim evidence.claimId = .ok gaps)
      (closed : Engine.closedBy evidenceId evidence gaps e.gapResolutions ≠ []) :
      Writes e (.resolveGapsForEvidence evidenceId) (.ids ret)
        (e.putResolutions evidenceId (Engine.closedBy evidenceId evidence gaps e.gapResolutions))
  | registerContradiction {claimId evidenceId : Int}
      (claim : e.claims.contains claimId = true)
      (evidence : e.evidences.contains evidenceId = true)
      (absent : evidenceId ∉ e.contradictions.getD claimId ∅) :
      Writes e (.registerContradiction claimId evidenceId) (.flag true)
        (e.putContradiction claimId evidenceId)
  | registerContradictionResolution {claimId evidenceId : Int}
      (claim : e.claims.contains claimId = true)
      (registered : evidenceId ∈ e.contradictions.getD claimId ∅)
      (absent : evidenceId ∉ e.resolvedContradictions.getD claimId ∅) :
      Writes e (.registerContradictionResolution claimId evidenceId) (.flag true)
        (e.putContradictionResolution claimId evidenceId)
  | transition {t : Transition} {claimId : Int} {claim : Claim} {seq : Json}
      (found : e.claims.get? claimId = some claim)
      (source : claim.status.eq t.source = true) (guard : t.Guard e claimId)
      (counted : e.lifecycleSeq.addInt 1 = .ok seq) :
      Writes e (.transition t claimId) (.flag true)
        (e.putTransition claimId claim t.target seq t.label)
  | registerRule {id version maturity : Int} {priorConfidence : ScoreValue}
      (absent : e.ruleDefinitions.contains (id, version) = false) :
      Writes e (.registerRule id version maturity priorConfidence) .none
        (e.putRule id version maturity priorConfidence)
  | updateRuleStats {ruleId ruleVersion firingDelta trueDelta falseDelta : Int}
      {observedPrecision falsePositiveRate : Option ScoreValue} {current stats : RuleStats}
      (found : e.ruleStats.get? (ruleId, ruleVersion) = some current)
      (updated : Engine.updatedStats current firingDelta trueDelta falseDelta observedPrecision
        falsePositiveRate = .ok stats)
      (changed : stats.eq current = false) :
      Writes e (.updateRuleStats ruleId ruleVersion firingDelta trueDelta falseDelta
        observedPrecision falsePositiveRate) .none (e.putStats (ruleId, ruleVersion) stats)
  | setHints {o : Op} {hints : Finset HKey} (onHints : o.onHints = true)
      (ints : ∀ key ∈ hints, key ∈ e.hintEvidenceTypes ∨ ∃ n : Int, key = .int n)
      (changed : hints ≠ e.hintEvidenceTypes) :
      Writes e o .none (e.putHints hints)

/-- What a call ends in. -/
inductive Outcome (e : Engine) : Op → EStateM.Result PyErr Engine Ret → Prop
  | raised {o : Op} (err : PyErr) : Outcome e o (.error err e)
  | idle {o : Op} (r : Ret) (noId : r.id? = none) : Outcome e o (.ok r e)
  /-- A dedup hit from a claim that references the gap already. -/
  | knownGap {claimId gapType requiredEvidenceType ruleId g : Int} {severity : PyFloat}
      {claim : Claim} {subject : HKey} (found : e.claims.get? claimId = some claim)
      (hashed : claim.subjectId.key? = some subject)
      (known : e.gapDedupIndex.get?
        (Engine.dedupKey subject ruleId gapType requiredEvidenceType) = some g)
      (referenced : g ∈ e.claimGapRefs.getD claimId ∅) :
      Outcome e (.addGap claimId gapType requiredEvidenceType severity ruleId) (.ok (.id g) e)
  | wrote {o : Op} {r : Ret} {e' : Engine} (writes : Writes e o r e') : Outcome e o (.ok r e')
  /-- The recorder raised on a `lifecycle_seq` that takes no addition. -/
  | torn {t : Transition} {claimId : Int} {claim : Claim} {err : PyErr}
      (found : e.claims.get? claimId = some claim)
      (uncounted : e.lifecycleSeq.addInt 1 = .error err) :
      Outcome e (.transition t claimId) (.error err (e.putStatus claimId claim t.target))
  /-- Statistics that compare equal to the ones they replace. -/
  | restated {ruleId ruleVersion firingDelta trueDelta falseDelta : Int}
      {observedPrecision falsePositiveRate : Option ScoreValue} {current stats : RuleStats}
      (found : e.ruleStats.get? (ruleId, ruleVersion) = some current)
      (updated : Engine.updatedStats current firingDelta trueDelta falseDelta observedPrecision
        falsePositiveRate = .ok stats)
      (equal : stats.eq current = true) :
      Outcome e (.updateRuleStats ruleId ruleVersion firingDelta trueDelta falseDelta
        observedPrecision falsePositiveRate)
        (.ok .none { e with ruleStats := e.ruleStats.insert (ruleId, ruleVersion) stats })

theorem run_map_ok {α β : Type} {f : α → β} {x : EngineM α} {e e' : Engine} {a : α}
    (h : x e = .ok a e') : (f <$> x) e = .ok (f a) e' := by
  rw [run_map, h]

theorem run_map_error {α β : Type} {f : α → β} {x : EngineM α} {e e' : Engine} {err : PyErr}
    (h : x e = .error err e') : (f <$> x) e = .error err e' := by
  rw [run_map, h]

namespace Outcome

variable {α : Type} {e : Engine} {o : Op} {f : α → Ret} {x : EngineM α}

/-- The method raised, with nothing written. -/
theorem of_raised {err : PyErr} (h : x e = .error err e) : Outcome e o ((f <$> x) e) := by
  rw [run_map_error h]
  exact .raised err

/-- The method returned early, with nothing written. -/
theorem of_idle {a : α} (h : x e = .ok a e) (noId : (f a).id? = none) :
    Outcome e o ((f <$> x) e) := by
  rw [run_map_ok h]
  exact .idle _ noId

theorem of_wrote {a : α} {e' : Engine} (h : x e = .ok a e') (writes : Writes e o (f a) e') :
    Outcome e o ((f <$> x) e) := by
  rw [run_map_ok h]
  exact .wrote writes

end Outcome

/-- **Inversion of every mutator**: one case for each, from the method's own case lemma. -/
theorem Op.outcome_cases (o : Op) (e : Engine) : Outcome e o (o.run e) := by
  cases o with
  | addEntity entityType flags =>
    rcases Engine.addEntity_cases entityType flags e with ⟨err, h⟩ | ⟨n, hn, h⟩
    · exact .of_raised h
    · exact .of_wrote h (.addEntity hn)
  | addObservation entityId rawRefId observationType sourceType =>
    rcases Engine.addObservation_cases entityId rawRefId observationType sourceType e with
      ⟨err, h⟩ | ⟨n, hent, hn, h⟩
    · exact .of_raised h
    · exact .of_wrote h (.addObservation hent hn)
  | addClaim subjectId claimType ruleId ruleVersion reasonCode baseConfidence status flags =>
    rcases Engine.addClaim_cases subjectId claimType ruleId ruleVersion reasonCode baseConfidence
      status flags e with ⟨err, h⟩ | ⟨n, score, hsub, hst, _, hn, h⟩
    · exact .of_raised h
    · exact .of_wrote h (.addClaim hsub hst hn)
  | addEvidence claimId rawRefId evidenceType strength =>
    rcases Engine.addEvidence_cases claimId rawRefId evidenceType strength e with
      ⟨err, h⟩ | ⟨n, score, hcl, _, hn, h⟩
    · exact .of_raised h
    · exact .of_wrote h (.addEvidence hcl hn)
  | addRelation fromKind fromId toKind toId relationType ruleId reasonCode =>
    rcases Engine.addRelation_cases fromKind fromId toKind toId relationType ruleId reasonCode e
      with ⟨err, h⟩ | ⟨n, hfrom, hto, hn, h⟩
    · exact .of_raised h
    · exact .of_wrote h (.addRelation hfrom hto hn)
  | addGap claimId gapType requiredEvidenceType severity ruleId =>
    rcases Engine.addGap_cases claimId gapType requiredEvidenceType severity ruleId e with
      ⟨err, h⟩ | ⟨claim, subject, score, hclaim, hsub, hscore,
        ⟨g, hg, ⟨hmem, h⟩ | ⟨hmem, h⟩⟩ | ⟨hnone, n, hn, h⟩⟩
    · exact .of_raised h
    · -- a known gap: its reference is there already, or it is added
      rw [run, run_map_ok h]
      exact .knownGap hclaim (Json.hash_ok_iff.mp hsub) hg hmem
    · exact .of_wrote h (.shareGap hclaim (Json.hash_ok_iff.mp hsub) hg hmem)
    · exact .of_wrote h (.addGap hclaim (Json.hash_ok_iff.mp hsub) hnone hscore hn)
  | resolveGapsForEvidence evidenceId =>
    rcases Engine.resolveGapsForEvidence_cases evidenceId e with
      ⟨err, h⟩ | ⟨evidence, gaps, hev, hgaps, ⟨_, h⟩ | ⟨hclosed, h⟩⟩
    · exact .of_raised h
    · exact .of_idle h rfl
    · exact .of_wrote h (.resolveGaps hev hgaps hclosed)
  | registerContradiction claimId evidenceId =>
    rcases Engine.registerContradiction_cases claimId evidenceId e with
      ⟨err, h⟩ | ⟨hcl, hev, ⟨_, h⟩ | ⟨hmem, h⟩⟩
    · exact .of_raised h
    · exact .of_idle h rfl
    · exact .of_wrote h (.registerContradiction hcl hev hmem)
  | registerContradictionResolution claimId evidenceId =>
    rcases Engine.registerContradictionResolution_cases claimId evidenceId e with
      ⟨err, h⟩ | ⟨hcl, _, hreg, ⟨_, h⟩ | ⟨hmem, h⟩⟩
    · exact .of_raised h
    · exact .of_idle h rfl
    · exact .of_wrote h (.registerContradictionResolution hcl hreg hmem)
  | transition t claimId =>
    rcases Engine.transition_cases t claimId e with
      ⟨err, h⟩ | h | ⟨claim, hclaim, hst, hguard, h⟩
    · exact .of_raised h
    · exact .of_idle h rfl
    · rcases Engine.commitTransition_cases claimId claim t.target t.label e with
        ⟨err, hseq, hrun⟩ | ⟨seq, hseq, hrun⟩
      · -- the status is set before the event is numbered, and stays set
        rw [run, run_map_error (h.trans hrun)]
        exact .torn hclaim hseq
      · exact .of_wrote (h.trans hrun) (.transition hclaim hst hguard hseq)
  | registerRule id version maturity priorConfidence =>
    rcases Engine.registerRule_cases id version maturity priorConfidence e with
      ⟨err, h⟩ | ⟨habs, h⟩
    · exact .of_raised h
    · exact .of_wrote h (.registerRule habs)
  | updateRuleStats ruleId ruleVersion firingDelta trueDelta falseDelta observedPrecision
      falsePositiveRate =>
    rcases Engine.updateRuleStats_cases ruleId ruleVersion firingDelta trueDelta falseDelta
      observedPrecision falsePositiveRate e with
      ⟨err, h⟩ | ⟨current, stats, hcur, hupd, ⟨heq, h⟩ | ⟨hne, h⟩⟩
    · exact .of_raised h
    · -- the entry is replaced by an equal one, without a new revision
      rw [run, run_map_ok h]
      exact .restated hcur hupd heq
    · exact .of_wrote h (.updateRuleStats hcur hupd hne)
  | registerHintEvidenceTypes types =>
    rcases Engine.registerHintEvidenceTypes_cases types e with
      ⟨err, h⟩ | h | ⟨validated, hval, hne, h⟩
    · exact .of_raised h
    · exact .of_idle h rfl
    · -- a hint of the new set is an old one or one of the ints just validated
      refine .of_wrote h (.setHints rfl (fun key hkey => ?_) hne)
      rcases Finset.mem_union.mp hkey with hold | hnew
      · exact .inl hold
      · exact .inr (Engine.validateHintEvidenceTypeValues_ints hval key hnew)
  | unregisterHintEvidenceTypes types =>
    rcases Engine.unregisterHintEvidenceTypes_cases types e with
      ⟨err, h⟩ | h | ⟨validated, _, hne, h⟩
    · exact .of_raised h
    · exact .of_idle h rfl
    · exact .of_wrote h (.setHints rfl (fun key hkey => .inl (Finset.mem_sdiff.mp hkey).1) hne)
  | clearHintEvidenceTypes =>
    rcases Engine.clearHintEvidenceTypes_cases e with h | ⟨hne, h⟩
    · exact .of_idle h rfl
    · exact .of_wrote h (.setHints rfl (by simp) hne.symm)

end Ragcore
