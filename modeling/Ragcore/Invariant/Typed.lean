import Ragcore.Invariant.Referential

/-!
# Ragcore — typed records

The dataclasses declare `int` and `ScoreValue` fields and check none of them. `WellTyped` says
that the records of an engine are what they declare. A run keeps it, and under it the two
outcomes of a raw restore disappear (`WellTyped.outcome_cases`): the recorder always counts, and
statistics that compare equal are equal.
-/

namespace Ragcore

/-- What the annotation `int` promises, of a field whose value may come from a snapshot. -/
def IsInt (v : Json) : Prop := ∃ n : Int, v = .int n

@[simp] theorem isInt_int (n : Int) : IsInt (.int n) := ⟨n, rfl⟩

theorem IsInt.addInt {v w : Json} {n : Int} (h : IsInt v) (hw : v.addInt n = .ok w) :
    IsInt w := by
  obtain ⟨m, rfl⟩ := h
  cases hw
  exact ⟨_, rfl⟩

/-- Ints that a container takes for equal are equal. -/
theorem IsInt.eq_of_same {v w : Json} (hv : IsInt v) (hw : IsInt w) (h : v.same w = true) :
    v = w := by
  obtain ⟨m, rfl⟩ := hv
  obtain ⟨n, rfl⟩ := hw
  simpa [Json.same_int] using h

/-- An int is found in a set that holds it. -/
theorem IsInt.same_self {v : Json} (hv : IsInt v) : v.same v = true := by
  obtain ⟨m, rfl⟩ := hv
  simp [Json.same_int]

/-- Ints that compare equal are equal. -/
theorem IsInt.eq_of_eq {v w : Json} (hv : IsInt v) (hw : IsInt w) (h : v.eq w = true) : v = w := by
  obtain ⟨m, rfl⟩ := hv
  obtain ⟨n, rfl⟩ := hw
  simpa using h

theorem ValidStatus.isInt {status : Json} (h : ValidStatus status) : IsInt status := by
  rcases h with rfl | rfl | rfl | rfl <;> exact ⟨_, rfl⟩

/-! ## Records

The fields that are declared as ints hold ints, and the scores that are not optional are there. A
field whose type is `Int` here needs no condition. -/

/-- One predicate for each dataclass. -/
structure Entity.Typed (r : Entity) : Prop where
  id : IsInt r.id
  type : IsInt r.type
  flags : IsInt r.flags

structure Observation.Typed (r : Observation) : Prop where
  id : IsInt r.id
  entityId : IsInt r.entityId
  rawRefId : IsInt r.rawRefId
  type : IsInt r.type
  sourceType : IsInt r.sourceType

structure Claim.Typed (r : Claim) : Prop where
  subjectId : IsInt r.subjectId
  type : IsInt r.type
  status : IsInt r.status
  createdByRule : IsInt r.createdByRule
  createdByRuleVersion : IsInt r.createdByRuleVersion
  reasonCode : IsInt r.reasonCode
  baseConfidence : r.baseConfidence.isSome = true
  flags : IsInt r.flags

/-- A transition writes a status that is an int. -/
theorem Claim.Typed.setStatus {r : Claim} (h : r.Typed) {status : Json} (hs : IsInt status) :
    { r with status }.Typed :=
  ⟨h.subjectId, h.type, hs, h.createdByRule, h.createdByRuleVersion, h.reasonCode,
    h.baseConfidence, h.flags⟩

structure Evidence.Typed (r : Evidence) : Prop where
  rawRefId : IsInt r.rawRefId
  type : IsInt r.type
  strength : r.strength.isSome = true

structure Relation.Typed (r : Relation) : Prop where
  id : IsInt r.id
  fromKind : IsInt r.fromKind
  fromId : IsInt r.fromId
  toKind : IsInt r.toKind
  toId : IsInt r.toId
  type : IsInt r.type
  ruleId : IsInt r.ruleId
  reasonCode : IsInt r.reasonCode

structure Gap.Typed (r : Gap) : Prop where
  claimId : IsInt r.claimId
  type : IsInt r.type
  requiredEvidenceType : IsInt r.requiredEvidenceType
  severity : r.severity.isSome = true
  createdByRule : IsInt r.createdByRule

structure RuleDefinition.Typed (r : RuleDefinition) : Prop where
  id : IsInt r.id
  version : IsInt r.version
  maturity : IsInt r.maturity
  priorConfidence : r.priorConfidence.isSome = true

/-- The two scores of the statistics are declared optional. -/
structure RuleStats.Typed (r : RuleStats) : Prop where
  ruleId : IsInt r.ruleId
  ruleVersion : IsInt r.ruleVersion
  firingCount : IsInt r.firingCount
  confirmedTrueCount : IsInt r.confirmedTrueCount
  confirmedFalseCount : IsInt r.confirmedFalseCount

structure ClaimLifecycleEvent.Typed (r : ClaimLifecycleEvent) : Prop where
  seq : IsInt r.seq
  claimId : IsInt r.claimId
  fromStatus : IsInt r.fromStatus
  toStatus : IsInt r.toStatus
  transition : ∃ label, r.transition = .str label

/-- On int counts `==` of the dataclass is equality. -/
theorem RuleStats.Typed.eq_of_eq {a b : RuleStats} (ha : a.Typed) (hb : b.Typed)
    (h : a.eq b = true) : a = b := by
  obtain ⟨a1, a2, a3, a4, a5, a6, a7⟩ := a
  obtain ⟨b1, b2, b3, b4, b5, b6, b7⟩ := b
  simp only [RuleStats.eq, Bool.and_eq_true, beq_iff_eq] at h
  obtain ⟨⟨⟨⟨⟨⟨h1, h2⟩, h3⟩, h4⟩, h5⟩, h6⟩, h7⟩ := h
  rw [RuleStats.mk.injEq]
  exact ⟨ha.ruleId.eq_of_same hb.ruleId h1, ha.ruleVersion.eq_of_same hb.ruleVersion h2,
    ha.firingCount.eq_of_same hb.firingCount h3,
    ha.confirmedTrueCount.eq_of_same hb.confirmedTrueCount h4,
    ha.confirmedFalseCount.eq_of_same hb.confirmedFalseCount h5, h6, h7⟩

/-- On int counts they equal themselves. -/
theorem RuleStats.Typed.eq_self {a : RuleStats} (ha : a.Typed) : a.eq a = true := by
  simp [RuleStats.eq, ha.ruleId.same_self, ha.ruleVersion.same_self, ha.firingCount.same_self,
    ha.confirmedTrueCount.same_self, ha.confirmedFalseCount.same_self]

/-- Adding int deltas leaves int counts. -/
theorem RuleStats.Typed.updated {current stats : RuleStats} (h : current.Typed)
    {firingDelta trueDelta falseDelta : Int} {precision rate : Option ScoreValue}
    (hstats : Engine.updatedStats current firingDelta trueDelta falseDelta precision rate =
      .ok stats) : stats.Typed := by
  obtain ⟨firingCount, hfiring, hstats⟩ := bind_ok_iff.mp hstats
  obtain ⟨trueCount, htrue, hstats⟩ := bind_ok_iff.mp hstats
  obtain ⟨falseCount, hfalse, hstats⟩ := bind_ok_iff.mp hstats
  cases hstats
  exact ⟨h.ruleId, h.ruleVersion, h.firingCount.addInt hfiring,
    h.confirmedTrueCount.addInt htrue, h.confirmedFalseCount.addInt hfalse⟩

/-! ## Engines

All records of an engine are typed, and so are its counters and its sequence number. The annotations
of the public calls keep it so. -/

/-- Store by store. -/
structure WellTyped (e : Engine) : Prop where
  lifecycleSeq : IsInt e.lifecycleSeq
  entity : ∀ {k r}, e.entities.get? k = some r → r.Typed
  observation : ∀ {k r}, e.observations.get? k = some r → r.Typed
  claim : ∀ {k r}, e.claims.get? k = some r → r.Typed
  evidence : ∀ {k r}, e.evidences.get? k = some r → r.Typed
  relation : ∀ {k r}, e.relations.get? k = some r → r.Typed
  gap : ∀ {k r}, e.gaps.get? k = some r → r.Typed
  ruleDefinition : ∀ {k r}, e.ruleDefinitions.get? k = some r → r.Typed
  ruleStats : ∀ {k r}, e.ruleStats.get? k = some r → r.Typed
  dedupSubject : ∀ {key g}, e.gapDedupIndex.get? key = some g → ∃ n : Int, key.1 = .int n
  event : ∀ {k events r}, e.claimLifecycleEvents.get? k = some events → r ∈ events → r.Typed
  hint : ∀ {key}, key ∈ e.hintEvidenceTypes → ∃ n : Int, key = .int n

namespace WellTyped

theorem new (uuid : UuidHex) : WellTyped (Engine.new uuid) := by
  constructor <;> simp [Engine.new]

theorem congr {e e' : Engine} (h : WellTyped e) (heq : e.Equiv e') : WellTyped e' where
  lifecycleSeq := heq.lifecycleSeq ▸ h.lifecycleSeq
  entity hr := h.entity ((heq.entities _).trans hr)
  observation hr := h.observation ((heq.observations _).trans hr)
  claim hr := h.claim ((heq.claims _).trans hr)
  evidence hr := h.evidence ((heq.evidences _).trans hr)
  relation hr := h.relation ((heq.relations _).trans hr)
  gap hr := h.gap ((heq.gaps _).trans hr)
  ruleDefinition hr := h.ruleDefinition ((heq.ruleDefinitions _).trans hr)
  ruleStats hr := h.ruleStats ((heq.ruleStats _).trans hr)
  dedupSubject hr := h.dedupSubject ((heq.gapDedupIndex _).trans hr)
  event hr := h.event ((heq.claimLifecycleEvents _).trans hr)
  hint hk := h.hint (heq.hintEvidenceTypes ▸ hk)

/-- A call writes records made from its typed arguments. -/
theorem writes {e e' : Engine} {o : Op} {r : Ret} (h : WellTyped e) (hw : Writes e o r e') :
    WellTyped e' := by
  cases hw with
  | addEntity =>
    exact { h with
      entity := Dict.forall_insert (P := fun _ => Entity.Typed) h.entity
        ⟨isInt_int _, isInt_int _, isInt_int _⟩ }
  | addObservation =>
    exact { h with
      observation := Dict.forall_insert (P := fun _ => Observation.Typed) h.observation
        ⟨isInt_int _, isInt_int _, isInt_int _, isInt_int _, isInt_int _⟩ }
  | addClaim =>
    exact { h with
      claim := Dict.forall_insert (P := fun _ => Claim.Typed) h.claim
        ⟨isInt_int _, isInt_int _, isInt_int _, isInt_int _, isInt_int _, isInt_int _, rfl,
          isInt_int _⟩ }
  | addEvidence =>
    exact { h with
      evidence := Dict.forall_insert (P := fun _ => Evidence.Typed) h.evidence
        ⟨isInt_int _, isInt_int _, rfl⟩ }
  | addRelation =>
    exact { h with
      relation := Dict.forall_insert (P := fun _ => Relation.Typed) h.relation
        ⟨isInt_int _, isInt_int _, isInt_int _, isInt_int _, isInt_int _, isInt_int _,
          isInt_int _, isInt_int _⟩ }
  | shareGap => exact { h with }
  | addGap found hashed unknown admitted fresh =>
    -- the dedup key is filed under the hash of the subject, which is an int
    obtain ⟨n, hn⟩ := (h.claim found).subjectId
    rw [hn] at hashed
    exact { h with
      gap := Dict.forall_insert (P := fun _ => Gap.Typed) h.gap
        ⟨isInt_int _, isInt_int _, isInt_int _, rfl, isInt_int _⟩
      dedupSubject := Dict.forall_insert (P := fun (key : DedupKey) _ => ∃ n : Int, key.1 = .int n)
        h.dedupSubject ⟨n, (Option.some.inj hashed).symm⟩ }
  | resolveGaps => exact { h with }
  | registerContradiction => exact { h with }
  | registerContradictionResolution => exact { h with }
  | @transition t claimId claim seq found source guard counted =>
    have hclaim := h.claim found
    have htarget : IsInt t.target := t.target_valid.isInt
    have hseq : IsInt seq := h.lifecycleSeq.addInt counted
    exact { h with
      lifecycleSeq := hseq
      claim := Dict.forall_insert (P := fun _ => Claim.Typed) h.claim
        (hclaim.setStatus htarget)
      event := by
        intro k events r hk hr
        simp only [Engine.putTransition, Dict.get?_insert] at hk
        split at hk
        · -- the history of the claim: its old events and the new one
          cases hk
          rcases List.mem_append.mp hr with hold | hnew
          · cases hevents : e.claimLifecycleEvents.get? claimId with
            | none => simp [Dict.getD, hevents] at hold
            | some events =>
              rw [Dict.getD_of_get? hevents] at hold
              exact h.event hevents hold
          · rw [List.mem_singleton.mp hnew]
            exact ⟨hseq, isInt_int _, hclaim.status, htarget, _, rfl⟩
        · exact h.event hk hr }
  | registerRule =>
    exact { h with
      ruleDefinition := Dict.forall_insert (P := fun _ => RuleDefinition.Typed) h.ruleDefinition
        ⟨isInt_int _, isInt_int _, isInt_int _, rfl⟩
      ruleStats := Dict.forall_insert (P := fun _ => RuleStats.Typed) h.ruleStats
        ⟨isInt_int _, isInt_int _, isInt_int _, isInt_int _, isInt_int _⟩ }
  | updateRuleStats found updated changed =>
    exact { h with
      ruleStats := Dict.forall_insert (P := fun _ => RuleStats.Typed) h.ruleStats
        ((h.ruleStats found).updated updated) }
  | setHints onHints ints changed =>
    exact { h with hint := fun hk => (ints _ hk).elim h.hint id }

/-- The recorder can always count. -/
theorem counts {e : Engine} (h : WellTyped e) {err : PyErr} :
    e.lifecycleSeq.addInt 1 ≠ .error err := by
  obtain ⟨n, hn⟩ := h.lifecycleSeq
  rw [hn]
  rintro ⟨⟩

/-- Statistics that compare equal are written back as they were. -/
theorem restated_eq {e : Engine} (h : WellTyped e) {ruleId ruleVersion : Int}
    {firingDelta trueDelta falseDelta : Int} {precision rate : Option ScoreValue}
    {current stats : RuleStats} (found : e.ruleStats.get? (ruleId, ruleVersion) = some current)
    (updated : Engine.updatedStats current firingDelta trueDelta falseDelta precision rate =
      .ok stats) (equal : stats.eq current = true) :
    { e with ruleStats := e.ruleStats.insert (ruleId, ruleVersion) stats } = e := by
  have htyped := h.ruleStats found
  have heq : stats = current := (htyped.updated updated).eq_of_eq htyped equal
  subst heq
  rw [Dict.insert_self found]

/-- **The outcomes of a call on typed records.** -/
theorem outcome_cases {e : Engine} {o : Op} {result : EStateM.Result PyErr Engine Ret}
    (h : WellTyped e) (ho : Outcome e o result) :
    (∃ err, result = .error err e) ∨ (∃ r, result = .ok r e) ∨
      ∃ r e', result = .ok r e' ∧ Writes e o r e' := by
  cases ho with
  | raised err => exact .inl ⟨err, rfl⟩
  | idle r _ => exact .inr (.inl ⟨r, rfl⟩)
  | knownGap => exact .inr (.inl ⟨_, rfl⟩)
  | wrote hw => exact .inr (.inr ⟨_, _, rfl, hw⟩)
  | torn found uncounted => exact absurd uncounted h.counts
  | restated found updated equal =>
    exact .inr (.inl ⟨.none, by rw [h.restated_eq found updated equal]⟩)

/-- What an exception leaves is typed too. -/
theorem outcome {e : Engine} {o : Op} {result : EStateM.Result PyErr Engine Ret}
    (h : WellTyped e) (ho : Outcome e o result) : WellTyped (finalState result) := by
  rcases h.outcome_cases ho with ⟨err, rfl⟩ | ⟨r, rfl⟩ | ⟨r, e', rfl, hw⟩
  · exact h
  · exact h
  · exact h.writes hw

end WellTyped

end Ragcore
