import Ragcore.Engine.Crud

/-!
# Ragcore — relations

`ragcore/_engine/relations.py`. Ids are per kind, so each endpoint is a `(kind, id)` pair and
an unknown kind is a `ValueError` before the pair is looked up.
-/

namespace Ragcore.Engine

/-- Both ends are checked by their kinds before an id is taken. -/
def addRelation (fromKind fromId toKind toId relationType ruleId reasonCode : Int) :
    EngineM Int := do
  let fromExists ← readState (idExists fromKind fromId)
  if !fromExists then
    throw (.keyError [s!"unknown from reference: kind={fromKind}, id={fromId}"])
  let toExists ← readState (idExists toKind toId)
  if !toExists then
    throw (.keyError [s!"unknown to reference: kind={toKind}, id={toId}"])
  let relationId ← allocateId "relation"
  modify fun e => { e with
    relations := e.relations.insert relationId
      { id := .int relationId
        fromKind := .int fromKind
        fromId := .int fromId
        toKind := .int toKind
        toId := .int toId
        type := .int relationType
        ruleId := .int ruleId
        reasonCode := .int reasonCode } }
  advanceStateRevision
  return relationId

def getRelation (relationId : Int) (e : Engine) : Except PyErr Relation :=
  subscript e.relations relationId

/-- The counter, the record and the revision. -/
def putRelation (e : Engine) (n : Int) (record : Relation) : Engine :=
  { e with
    nextId := e.nextId.insert "relation" (.int n)
    relations := e.relations.insert n record
    stateRevision := e.stateRevision + 1 }

/-- A call raises and changes nothing, or files its record under the next id. -/
theorem addRelation_cases (fromKind fromId toKind toId relationType ruleId reasonCode : Int)
    (e : Engine) :
    (∃ err, addRelation fromKind fromId toKind toId relationType ruleId reasonCode e =
        .error err e) ∨
      ∃ n, e.idExists fromKind fromId = .ok true ∧ e.idExists toKind toId = .ok true ∧
        e.nextCounter "relation" = .ok n ∧
        addRelation fromKind fromId toKind toId relationType ruleId reasonCode e =
          .ok n (e.putRelation n
            ⟨.int n, .int fromKind, .int fromId, .int toKind, .int toId, .int relationType,
              .int ruleId, .int reasonCode⟩) := by
  rw [addRelation, run_readState_bind]
  cases hfrom : e.idExists fromKind fromId with
  | error err => exact .inl ⟨err, rfl⟩
  | ok fromExists =>
    cases fromExists with
    | false => exact .inl ⟨_, rfl⟩
    | true =>
      simp only [Bool.not_true, Bool.false_eq_true, if_false]
      rw [run_readState_bind]
      cases hto : e.idExists toKind toId with
      | error err => exact .inl ⟨err, rfl⟩
      | ok toExists =>
        cases toExists with
        | false => exact .inl ⟨_, rfl⟩
        | true =>
          simp only [Bool.not_true, Bool.false_eq_true, if_false]
          rw [run_allocateId_bind]
          cases h : e.nextCounter "relation" with
          | error err => exact .inl ⟨err, rfl⟩
          | ok n => exact .inr ⟨n, trivial, trivial, rfl, rfl⟩

end Ragcore.Engine
