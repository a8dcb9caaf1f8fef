import Ragcore.Invariant.Accepted

/-!
# Ragcore — the revision counts the changes

`state_identity` names a state by its lineage token and a revision. A call either leaves the
engine as it is, or changes a store and adds one; so within one lineage equal revisions mean
equal states.

* **`Writes.not_equiv`** — a write is never a rewrite of what was there.
* **`Engine.Later`** — how an engine relates to the ones a run leads to.
-/

namespace Ragcore

namespace Writes

theorem revision {e e' : Engine} {o : Op} {r : Ret} (hw : Writes e o r e') :
    e'.stateRevision = e.stateRevision + 1 := by
  cases hw <;> rfl

theorem token {e e' : Engine} {o : Op} {r : Ret} (hw : Writes e o r e') :
    e'.stateIdentityToken = e.stateIdentityToken := by
  cases hw <;> rfl

/-- A bucket that gained a member is another bucket. -/
theorem bucket_ne {d : Dict Int (Finset Int)} {k v : Int} (absent : v ∉ d.getD k ∅) :
    ¬ d.Equiv (d.insert k (insert v (d.getD k ∅))) := by
  intro heq
  have hbucket : d.getD k ∅ = insert v (d.getD k ∅) := Dict.getD_of_get? heq.get?_of_insert
  exact absent (hbucket ▸ Finset.mem_insert_self v _)

/-- **Every write changes a store.** -/
theorem not_equiv {e e' : Engine} {o : Op} {r : Ret} (hcount : CountersCover e)
    (htyped : WellTyped e) (hw : Writes e o r e') : ¬ e.Equiv e' := by
  intro heq
  cases hw with
  -- a record under an id that was free
  | addEntity fresh =>
    have hnone := Engine.fresh_of_covers hcount.entity fresh
    simp [heq.entities.get?_of_insert] at hnone
  | addObservation entity fresh =>
    have hnone := Engine.fresh_of_covers hcount.observation fresh
    simp [heq.observations.get?_of_insert] at hnone
  | addClaim subject valid fresh =>
    have hnone := Engine.fresh_of_covers hcount.claim fresh
    simp [heq.claims.get?_of_insert] at hnone
  | addEvidence claim fresh =>
    have hnone := Engine.fresh_of_covers hcount.evidence fresh
    simp [heq.evidences.get?_of_insert] at hnone
  | addRelation source target fresh =>
    have hnone := Engine.fresh_of_covers hcount.relation fresh
    simp [heq.relations.get?_of_insert] at hnone
  | addGap found hashed unknown admitted fresh =>
    have hnone := Engine.fresh_of_covers hcount.gap fresh
    simp [heq.gaps.get?_of_insert] at hnone
  -- an id in a bucket that lacked it
  | shareGap found hashed known absent => exact bucket_ne absent heq.claimGapRefs
  | registerContradiction claim evidence absent => exact bucket_ne absent heq.contradictions
  | registerContradictionResolution claim registered absent =>
    exact bucket_ne absent heq.resolvedContradictions
  | @resolveGaps evidenceId evidence gaps _ found listed closed =>
    -- the first gap closed was open before
    obtain ⟨g, hg⟩ := List.exists_mem_of_ne_nil _ closed
    obtain ⟨_, _, _, _, hopen⟩ := Engine.mem_closedBy hg
    have hget := heq.gapResolutions g
    rw [Engine.putResolutions, Engine.get?_resolveAll, if_pos hg] at hget
    simp [Dict.contains, hget] at hopen
  | @transition t claimId claim seq found source guard counted =>
    -- the new status is an int other than the one the guard compared with
    have hsame := heq.claims.get?_of_insert
    rw [found, Option.some.injEq] at hsame
    have hstatus : claim.status = t.target := by rw [hsame]
    rw [hstatus] at source
    cases t <;> simp [Transition.source, Transition.target, claimStatusCandidate,
      claimStatusConfirmed, claimStatusRefuted, claimStatusDisputed] at source
  | registerRule absent =>
    have hsome := heq.ruleDefinitions.get?_of_insert
    simp [Dict.contains, hsome] at absent
  | updateRuleStats found updated changed =>
    have hsame := heq.ruleStats.get?_of_insert
    rw [found, Option.some.injEq] at hsame
    -- typed statistics hold no NaN, so they equal themselves
    subst hsame
    simp [(htyped.ruleStats found).eq_self] at changed
  | setHints onHints ints changed => exact changed heq.hintEvidenceTypes.symm

end Writes

/-! ## Runs

The revision never goes back, and a failed call leaves it. -/

namespace Engine

/-- `e'` is `e`, or comes after it with a larger revision. -/
structure Later (e e' : Engine) : Prop where
  typed : WellTyped e'
  token : e'.stateIdentityToken = e.stateIdentityToken
  revision : e.stateRevision ≤ e'.stateRevision
  same : e'.stateRevision = e.stateRevision → e' = e

theorem Later.refl {e : Engine} (h : WellTyped e) : Later e e := ⟨h, rfl, le_rfl, fun _ => rfl⟩

theorem Later.op {e e' : Engine} (h : Later e e') (o : Op) :
    Later e (finalState (o.run e')) := by
  -- a write moves the revision, everything else leaves the engine
  rcases h.typed.outcome_cases (o.outcome_cases e') with
    ⟨err, hrun⟩ | ⟨r, hrun⟩ | ⟨r, e'', hrun, hw⟩
  · rw [hrun]
    exact h
  · rw [hrun]
    exact h
  · rw [hrun]
    have hrev := hw.revision
    have hle := h.revision
    refine ⟨h.typed.writes hw, hw.token.trans h.token, ?_, fun heq => ?_⟩
    · simp only [finalState_ok]
      omega
    · simp only [finalState_ok] at heq
      omega

theorem later_runCalls {e : Engine} (h : WellTyped e) (calls : List Call) :
    Later e (e.runCalls calls) :=
  runCalls_preserves (P := Later e) (fun _ o he => he.op o) (.refl h) calls

end Engine

/-! ## The law

It moves by one exactly when a call changed the stores. -/

/-- What one call may do to the stores and the revision, and what a run may do between two
moments of equal revision. -/
structure RevisionExact (e : Engine) : Prop where
  call : ∀ o : Op,
    (∃ err, o.run e = .error err e) ∨ (∃ r, o.run e = .ok r e) ∨
      ∃ r e', o.run e = .ok r e' ∧ ¬ e.Equiv e' ∧ e'.stateRevision = e.stateRevision + 1
  moments : ∀ calls : List Call, (e.runCalls calls).stateRevision = e.stateRevision →
    (e.runCalls calls).toSnapshot = e.toSnapshot

/-- **Revision exactness and failure atomicity.** -/
theorem revision_exact {e : Engine} (h : Reached e) : RevisionExact e where
  call o := by
    rcases h.typed.outcome_cases (o.outcome_cases e) with herr | hidle | ⟨r, e', hrun, hw⟩
    · exact .inl herr
    · exact .inr (.inl hidle)
    · exact .inr (.inr ⟨r, e', hrun, hw.not_equiv h.countersCover h.typed, hw.revision⟩)
  moments calls heq := by rw [(Engine.later_runCalls h.typed calls).same heq]

/-- The law on the run that disputes a claim. -/
theorem revision_exact_disputedRun :
    RevisionExact ((Engine.new default).runCalls Session.disputedRun) :=
  revision_exact ⟨_, _, .fresh default, rfl⟩

end Ragcore
