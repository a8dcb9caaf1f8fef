import Ragcore.Invariant.Accepted
import Ragcore.Snapshot.RoundTrip

/-!
# Ragcore — ids are never reused

All six record kinds take their ids from one allocator, and its counters may come from a
snapshot. A restore admits a counter only at or above every restored id, and every call keeps it
there, so the next id is above all ids of its kind.

* **`Opened`** — `Engine()`, or the restore of any accepted snapshot, typed or not.
* **`Op.allocates?`** — the kind of record a call adds; a dedup hit adds none.
* **`ids_fresh_and_newest`** — a new id is new and the greatest, a failing call consumes none,
  and the newest active contradiction comes first by freshness.
-/

namespace Ragcore

/-! ## Runs from any accepted snapshot

A restore checks that the counters cover the ids. That is all the allocator needs. -/

/-- Where a run can start. -/
inductive Opened : Engine → Prop
  | fresh (uuid : UuidHex) : Opened (Engine.new uuid)
  | restored {uuid : UuidHex} {snapshot : Json} {e : Engine}
      (accepted : Engine.fromSnapshot uuid snapshot = .ok e) : Opened e

namespace Opened

theorem countersCover {e : Engine} (h : Opened e) : CountersCover e := by
  cases h with
  | fresh uuid => exact .new uuid
  | restored accepted => exact Snapshot.fromSnapshot_countersCover accepted

theorem referential {e : Engine} (h : Opened e) : Referential e := by
  cases h with
  | fresh uuid => exact .new uuid
  | restored accepted => exact Snapshot.fromSnapshot_referential accepted

end Opened

/-- The engine after some calls and round trips. -/
def Engine.runActions (e : Engine) (actions : List Action) : Engine :=
  ((⟨e, []⟩ : Session).run actions).engine

/-- A state some run leads to from an opened engine. -/
def Running (e : Engine) : Prop := ∃ start actions, Opened start ∧ e = start.runActions actions

/-- What a restore gives and every mutator keeps holds after any further actions. -/
theorem Engine.runActions_preserves {P : Engine → Prop}
    (hop : ∀ e (o : Op), P e → P (finalState (o.run e))) (hopened : ∀ e, Opened e → P e)
    {e : Engine} (hP : P e) (actions : List Action) : P (e.runActions actions) := by
  refine Session.preserves (P := fun _ e => P e) (fun _ e o he => hop e o he) ?_
    (s := ⟨e, []⟩) hP actions
  intro _ e uuid e' _ hrun
  obtain ⟨snapshot, -, haccepted⟩ := bind_ok_iff.mp hrun
  exact hopened e' (.restored haccepted)

theorem CountersCover.runActions {e : Engine} (h : CountersCover e) (actions : List Action) :
    CountersCover (e.runActions actions) :=
  Engine.runActions_preserves (fun e o he => he.outcome (o.outcome_cases e))
    (fun _ => Opened.countersCover) h actions

theorem Referential.runActions {e : Engine} (h : Referential e) (actions : List Action) :
    Referential (e.runActions actions) :=
  Engine.runActions_preserves (fun e o he => he.outcome (o.outcome_cases e))
    (fun _ => Opened.referential) h actions

namespace Running

theorem countersCover {e : Engine} (h : Running e) : CountersCover e := by
  obtain ⟨start, actions, hstart, rfl⟩ := h
  exact hstart.countersCover.runActions actions

theorem referential {e : Engine} (h : Running e) : Referential e := by
  obtain ⟨start, actions, hstart, rfl⟩ := h
  exact hstart.referential.runActions actions

end Running

/-! ## The allocator

The next id of a kind is above all that exist, so it was never given to a record that is still
there. -/

inductive RecordKind where
  | entity
  | observation
  | claim
  | evidence
  | relation
  | gap
  deriving DecidableEq, Repr

/-- The key of the kind in `next_id`. -/
def RecordKind.counter : RecordKind → String
  | entity => "entity"
  | observation => "observation"
  | claim => "claim"
  | evidence => "evidence"
  | relation => "relation"
  | gap => "gap"

/-- Whether the store of the kind has a record under the id. -/
def Engine.holds (e : Engine) (kind : RecordKind) (n : Int) : Bool :=
  match kind with
  | .entity => e.entities.contains n
  | .observation => e.observations.contains n
  | .claim => e.claims.contains n
  | .evidence => e.evidences.contains n
  | .relation => e.relations.contains n
  | .gap => e.gaps.contains n

/-- The gap the dedup index has for the subject of the claim. -/
def Engine.knownGap? (e : Engine) (claimId ruleId gapType requiredEvidenceType : Int) :
    Option Int := do
  let claim ← e.claims.get? claimId
  let subject ← claim.subjectId.key?
  e.gapDedupIndex.get? (Engine.dedupKey subject ruleId gapType requiredEvidenceType)

/-- The kind of record a successful call adds. -/
def Op.allocates? (e : Engine) : Op → Option RecordKind
  | addEntity .. => some .entity
  | addObservation .. => some .observation
  | addClaim .. => some .claim
  | addEvidence .. => some .evidence
  | addRelation .. => some .relation
  | addGap claimId gapType requiredEvidenceType _ ruleId =>
    if (e.knownGap? claimId ruleId gapType requiredEvidenceType).isSome then none else some .gap
  | _ => none

theorem CountersCover.above {e : Engine} (h : CountersCover e) {kind : RecordKind} {n : Int}
    (hn : e.nextCounter kind.counter = .ok n) {k : Int} (hk : e.holds kind k = true) : k < n := by
  cases kind with
  | entity => exact (Engine.nextCounter_of_covers h.entity hn).2 k hk
  | observation => exact (Engine.nextCounter_of_covers h.observation hn).2 k hk
  | claim => exact (Engine.nextCounter_of_covers h.claim hn).2 k hk
  | evidence => exact (Engine.nextCounter_of_covers h.evidence hn).2 k hk
  | relation => exact (Engine.nextCounter_of_covers h.relation hn).2 k hk
  | gap => exact (Engine.nextCounter_of_covers h.gap hn).2 k hk

/-- Every counter can be incremented. -/
theorem CountersCover.next {e : Engine} (h : CountersCover e) (kind : RecordKind) :
    ∃ n, e.nextCounter kind.counter = .ok n := by
  have hnext : ∀ {α : Type} {store : Dict Int α}, Covers e.nextId kind.counter store →
      ∃ n, e.nextCounter kind.counter = .ok n := by
    intro α store hcover
    obtain ⟨m, hm, -, -⟩ := hcover
    exact ⟨m + 1, by rw [Engine.nextCounter, hm]⟩
  -- the six kinds, each with its store
  cases kind with
  | entity => exact hnext h.entity
  | observation => exact hnext h.observation
  | claim => exact hnext h.claim
  | evidence => exact hnext h.evidence
  | relation => exact hnext h.relation
  | gap => exact hnext h.gap

theorem Op.returns_id {e e' : Engine} {o : Op} {kind : RecordKind} {r : Ret}
    (hadds : o.allocates? e = some kind) (hrun : o.run e = .ok r e') : ∃ n, r = .id n := by
  have hmap : ∀ {x : EngineM Int}, (Ret.id <$> x) e = .ok r e' → ∃ n, r = .id n := by
    intro x hx
    rw [run_map] at hx
    cases hxe : x e with
    | ok n s =>
      rw [hxe] at hx
      cases hx
      exact ⟨n, rfl⟩
    | error err s =>
      rw [hxe] at hx
      cases hx
  -- the calls that return an id
  cases o with
  | addEntity | addObservation | addClaim | addEvidence | addRelation | addGap => exact hmap hrun
  | _ => cases hadds

/-- **A call that adds a record returns the id the allocator gave.** -/
theorem Op.allocates {e e' : Engine} {o : Op} {kind : RecordKind} {r : Ret}
    (hadds : o.allocates? e = some kind) (hrun : o.run e = .ok r e') :
    ∃ n, r = .id n ∧ e.nextCounter kind.counter = .ok n ∧ e'.holds kind n = true := by
  have hcases := o.outcome_cases e
  rw [hrun] at hcases
  cases hcases with
  | idle r noId =>
    -- an idle call returns no id
    obtain ⟨n, rfl⟩ := Op.returns_id hadds hrun
    cases noId
  | knownGap found hashed known _ =>
    simp [allocates?, Engine.knownGap?, found, hashed, known] at hadds
  | restated => cases hadds
  | wrote hw =>
    cases hw with
    | addEntity fresh =>
      cases hadds
      exact ⟨_, rfl, fresh, by simp [Engine.holds, Engine.putEntity]⟩
    | addObservation _ fresh =>
      cases hadds
      exact ⟨_, rfl, fresh, by simp [Engine.holds, Engine.putObservation]⟩
    | addClaim _ _ fresh =>
      cases hadds
      exact ⟨_, rfl, fresh, by simp [Engine.holds, Engine.putClaim]⟩
    | addEvidence _ fresh =>
      cases hadds
      exact ⟨_, rfl, fresh, by simp [Engine.holds, Engine.putEvidence]⟩
    | addRelation _ _ fresh =>
      cases hadds
      exact ⟨_, rfl, fresh, by simp [Engine.holds, Engine.putRelation]⟩
    -- a gap that is shared is not allocated
    | shareGap found hashed known _ =>
      simp [allocates?, Engine.knownGap?, found, hashed, known] at hadds
    | addGap found hashed unknown _ fresh =>
      have hkind : kind = .gap := by
        simpa [allocates?, Engine.knownGap?, found, hashed, unknown] using hadds.symm
      subst hkind
      exact ⟨_, rfl, fresh, by simp [Engine.holds, Engine.putGap]⟩
    | setHints =>
      obtain ⟨n, hn⟩ := Op.returns_id hadds hrun
      cases hn
    | _ => cases hadds

/-- The recorder can raise after a write; it allocates nothing. -/
theorem Op.nextId_of_error {e e' : Engine} {o : Op} {err : PyErr}
    (hrun : o.run e = .error err e') : e'.nextId = e.nextId := by
  have hcases := o.outcome_cases e
  rw [hrun] at hcases
  cases hcases with
  | raised => rfl
  | torn => rfl

/-! ## Freshness

Ids order the evidences by age, so the newest one heads the list. -/

theorem Engine.activeContradictionsByFreshness_newest {e : Engine} (h : Referential e)
    {c n : Int} (hactive : n ∈ e.activeContradictions c)
    (hnewest : ∀ k, e.evidences.contains k = true → k ≤ n) :
    ∃ rest, e.activeContradictionsByFreshness c = .ok (n :: rest) := by
  have hregistered : ∀ k ∈ e.activeContradictions c, k ∈ e.contradictions.getD c ∅ :=
    fun k hk => (Finset.mem_sdiff.mp hk).1
  have hclaim : e.claims.contains c = true := by
    refine h.contradictionClaim (Dict.contains_iff.mpr ?_)
    cases hget : e.contradictions.get? c with
    | some bucket => exact ⟨bucket, rfl⟩
    | none =>
      have := hregistered n hactive
      simp [Dict.getD, hget] at this
  -- the new evidence has the greatest id of all
  have hgreatest : IsGreatest (e.activeContradictions c : Set Int) n :=
    ⟨hactive, fun k hk => hnewest k (h.contradictionEvidence (hregistered k hk))⟩
  obtain ⟨rest, hrest⟩ := sortSet_desc_cons_iff.mpr hgreatest
  refine ⟨rest, ?_⟩
  rw [activeContradictionsByFreshness_eq hclaim, hrest]

/-- **Ids are never reused and always newest**, from any opened engine. The last clause is about
an evidence `n` added to `e`: in every later state with no evidence newer than it, it is the
first by freshness wherever it is an unresolved contradiction. -/
theorem ids_fresh_and_newest {e : Engine} (h : Running e) :
    (∀ (o : Op) kind r e', o.allocates? e = some kind → o.run e = .ok r e' →
      ∃ n, r = .id n ∧ e.holds kind n = false ∧ (∀ k, e.holds kind k = true → k < n) ∧
        e'.holds kind n = true) ∧
    (∀ (o : Op) err e', o.run e = .error err e' → e'.nextId = e.nextId) ∧
    ∀ claimId rawRefId evidenceType strength n e',
      (Op.addEvidence claimId rawRefId evidenceType strength).run e = .ok (.id n) e' →
      ∀ later, (∀ k, (e'.runActions later).evidences.contains k = true → k ≠ n →
          e.evidences.contains k = true) →
        ∀ c, n ∈ (e'.runActions later).activeContradictions c →
          ∃ rest, (e'.runActions later).activeContradictionsByFreshness c = .ok (n :: rest) := by
  refine ⟨fun o kind r e' hadds hrun => ?_, fun o err e' => Op.nextId_of_error, ?_⟩
  · obtain ⟨n, rfl, hn, hheld⟩ := Op.allocates hadds hrun
    refine ⟨n, rfl, ?_, fun k => h.countersCover.above hn, hheld⟩
    by_contra hold
    exact lt_irrefl n (h.countersCover.above hn (by simpa using hold))
  · intro claimId rawRefId evidenceType strength n e' hrun later hlast c hactive
    have hadds : (Op.addEvidence claimId rawRefId evidenceType strength).allocates? e =
        some .evidence := rfl
    obtain ⟨m, hm, hcount, -⟩ := Op.allocates hadds hrun
    cases hm
    -- a contradiction names an evidence that is held, so the newest one is `n`
    have hreferential : Referential (e'.runActions later) := by
      refine Referential.runActions ?_ later
      have hstep := h.referential.outcome
        ((Op.addEvidence claimId rawRefId evidenceType strength).outcome_cases e)
      rwa [hrun] at hstep
    refine Engine.activeContradictionsByFreshness_newest hreferential hactive fun k hk => ?_
    by_cases hkn : k = n
    · exact hkn.le
    · exact (h.countersCover.above hcount (hlast k hk hkn)).le

/-- The law on the run that disputes a claim: its next evidence gets an id not held before. -/
theorem ids_fresh_and_newest_disputed :
    Session.disputed.engine.holds .evidence 2 = false ∧
      (finalState ((Op.addEvidence 1 1 7 (.fin (9 / 10))).run Session.disputed.engine)).holds
        .evidence 2 = true := by
  have hrunning : Running Session.disputed.engine := ⟨_, _, .fresh default, rfl⟩
  have hrun : (Op.addEvidence 1 1 7 (.fin (9 / 10))).run Session.disputed.engine = .ok (.id 2)
      (finalState ((Op.addEvidence 1 1 7 (.fin (9 / 10))).run Session.disputed.engine)) := by
    with_unfolding_all rfl
  obtain ⟨n, hn, hfresh, -, hheld⟩ :=
    (ids_fresh_and_newest hrunning).1 _ .evidence _ _ rfl hrun
  cases hn
  exact ⟨hfresh, hheld⟩

end Ragcore
