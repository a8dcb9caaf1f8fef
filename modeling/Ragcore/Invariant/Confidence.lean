import Ragcore.Invariant.References

/-!
# Ragcore — what an effective confidence can be

In a reachable state every score that is read lies in `[0, 1]`, so each of the seven factors of
a confidence lies in its own interval. Only the base and the status can be zero.

* **`Factors`** — the seven factors as rationals, and what their product can be.
* **`Engine.Factored`** — the adapters give these factors and the computation their product.
* **`effective_confidence_bounds`** — total, never above the base, zero for two reasons only.
-/

namespace Ragcore

/-! ## Seven factors

The base and the six modifiers as rationals in their ranges, and their product. -/

structure Factors where
  base : ℚ
  status : ℚ
  freshness : ℚ
  gap : ℚ
  count : ℚ
  ruleStats : ℚ
  evidenceType : ℚ

namespace Factors

def product (x : Factors) : ℚ :=
  x.base * x.status * x.freshness * x.gap * x.count * x.ruleStats * x.evidenceType

structure InRange (x : Factors) : Prop where
  base : 0 ≤ x.base
  status : 0 ≤ x.status ∧ x.status ≤ 1
  freshness : 1 / 2 ≤ x.freshness ∧ x.freshness ≤ 1
  gap : 7 / 10 ≤ x.gap ∧ x.gap ≤ 1
  count : 3 / 4 ≤ x.count ∧ x.count ≤ 1
  ruleStats : Confidence.ruleStatsFloor ≤ x.ruleStats ∧ x.ruleStats ≤ 1
  evidenceType : 9 / 10 ≤ x.evidenceType ∧ x.evidenceType ≤ 1

namespace InRange

variable {x : Factors} (h : x.InRange)
include h

theorem freshness_pos : 0 < x.freshness := lt_of_lt_of_le (by norm_num) h.freshness.1

theorem gap_pos : 0 < x.gap := lt_of_lt_of_le (by norm_num) h.gap.1

theorem count_pos : 0 < x.count := lt_of_lt_of_le (by norm_num) h.count.1

theorem ruleStats_pos : 0 < x.ruleStats :=
  lt_of_lt_of_le (by norm_num [Confidence.ruleStatsFloor]) h.ruleStats.1

theorem evidenceType_pos : 0 < x.evidenceType := lt_of_lt_of_le (by norm_num) h.evidenceType.1

/-- Each factor takes away from what the ones before it left. -/
theorem product_le_base : x.product ≤ x.base := by
  have hbase := h.base
  have hstatus := h.status.1
  have hfreshness := h.freshness_pos
  have hgap := h.gap_pos
  have hcount := h.count_pos
  have hrule := h.ruleStats_pos
  -- each further factor is at most one
  have hstep : ∀ {p q : ℚ}, 0 ≤ p → q ≤ 1 → p * q ≤ p := fun hp hq => mul_le_of_le_one_right hp hq
  calc x.product
      ≤ x.base * x.status * x.freshness * x.gap * x.count * x.ruleStats :=
        hstep (by positivity) h.evidenceType.2
    _ ≤ x.base * x.status * x.freshness * x.gap * x.count := hstep (by positivity) h.ruleStats.2
    _ ≤ x.base * x.status * x.freshness * x.gap := hstep (by positivity) h.count.2
    _ ≤ x.base * x.status * x.freshness := hstep (by positivity) h.gap.2
    _ ≤ x.base * x.status := hstep (by positivity) h.freshness.2
    _ ≤ x.base := hstep (by positivity) h.status.2

/-- The five last factors at their floors. -/
theorem floor_le_product :
    x.base * x.status * (1 / 2) * (7 / 10) * (3 / 4) * Confidence.ruleStatsFloor * (9 / 10) ≤
      x.product := by
  have hbase := h.base
  have hstatus := h.status.1
  have hfreshness := h.freshness_pos
  have hgap := h.gap_pos
  have hcount := h.count_pos
  have hrule := h.ruleStats_pos
  -- factor by factor, each with its floor
  have hfloor : (0 : ℚ) ≤ Confidence.ruleStatsFloor := by norm_num [Confidence.ruleStatsFloor]
  unfold product
  gcongr
  · exact h.freshness.1
  · exact h.gap.1
  · exact h.count.1
  · exact h.ruleStats.1
  · exact h.evidenceType.1

theorem product_eq_zero : x.product = 0 ↔ x.base = 0 ∨ x.status = 0 := by
  have hfreshness := h.freshness_pos.ne'
  have hgap := h.gap_pos.ne'
  have hcount := h.count_pos.ne'
  have hrule := h.ruleStats_pos.ne'
  have hevidence := h.evidenceType_pos.ne'
  simp only [product, mul_eq_zero, hfreshness, hgap, hcount, hrule, hevidence, or_false]

end InRange

/-- Factor by factor. -/
structure Below (x y : Factors) : Prop where
  base : x.base ≤ y.base
  status : x.status ≤ y.status
  freshness : x.freshness ≤ y.freshness
  gap : x.gap ≤ y.gap
  count : x.count ≤ y.count
  ruleStats : x.ruleStats ≤ y.ruleStats
  evidenceType : x.evidenceType ≤ y.evidenceType

/-- A product rises with each of its factors. -/
theorem Below.product_le {x y : Factors} (h : x.Below y) (hx : x.InRange) (hy : y.InRange) :
    x.product ≤ y.product := by
  -- factor by factor, from left to right
  have hbase := hx.base
  have hbase' := hy.base
  have hstatus := hx.status.1
  have hstatus' := hy.status.1
  have hfreshness := hx.freshness_pos
  have hfreshness' := hy.freshness_pos
  have hgap := hx.gap_pos
  have hgap' := hy.gap_pos
  have hcount := hx.count_pos
  have hcount' := hy.count_pos
  have hrule := hx.ruleStats_pos
  have hrule' := hy.ruleStats_pos
  have hevidence := hx.evidenceType_pos
  unfold product
  gcongr
  · exact h.base
  · exact h.status
  · exact h.freshness
  · exact h.gap
  · exact h.count
  · exact h.ruleStats
  · exact h.evidenceType

end Factors

/-! ## What the adapters read

In a sound engine each adapter returns a factor. -/

/-- The adapters read these factors for the claim, and the computation returns their product. -/
structure Engine.Factored (e : Engine) (claimId : Int) (x : Factors) : Prop where
  base : ∃ claim score, e.claims.get? claimId = some claim ∧ claim.baseConfidence = some score ∧
    score.value = x.base
  status : e.statusModifierForClaim claimId = .ok (.fin x.status)
  freshness : e.freshnessModifierForClaim claimId = .ok (.fin x.freshness)
  gap : e.gapModifierForClaim claimId = .fin x.gap
  count : e.countModifierForClaim claimId = .ok (.fin x.count)
  ruleStats : e.ruleStatsModifierForClaim claimId = .ok (.fin x.ruleStats)
  evidenceType : e.evidenceTypeModifierForClaim claimId = .ok (.fin x.evidenceType)
  effective : ∃ score, e.computeEffectiveConfidence claimId = .ok score ∧
    score.value = x.product

namespace Engine.Factored

variable {e e' : Engine} {claimId : Int} {x y : Factors}

/-- Equal readings are equal factors. -/
theorem eq_of_reading {r r' : Except PyErr PyFloat} {p q : ℚ} (hp : r = .ok (.fin p))
    (hq : r' = .ok (.fin q)) (h : r' = r) : q = p := by
  rw [hp, hq] at h
  exact PyFloat.fin.inj (Except.ok.inj h)

theorem base_eq (hx : e.Factored claimId x) (hy : e'.Factored claimId y)
    (h : ∀ {claim claim'}, e.claims.get? claimId = some claim →
      e'.claims.get? claimId = some claim' → claim'.baseConfidence = claim.baseConfidence) :
    y.base = x.base := by
  obtain ⟨claim, base, hget, hbase, hvalue⟩ := hx.base
  obtain ⟨claim', base', hget', hbase', hvalue'⟩ := hy.base
  have hsame := h hget hget'
  rw [hbase, hbase'] at hsame
  rw [← hvalue, ← hvalue', Option.some.inj hsame]

theorem statusModifier (hx : e.Factored claimId x) {claim : Claim}
    (hget : e.claims.get? claimId = some claim) :
    Confidence.statusModifier claim.status = .ok (.fin x.status) := by
  obtain ⟨claim', hget', hmodifier⟩ := bind_ok_iff.mp hx.status
  rw [Engine.subscript_ok_iff, hget] at hget'
  cases hget'
  exact hmodifier

end Engine.Factored

theorem Engine.Factored.of_readings {e : Engine} {claimId : Int} {claim : Claim}
    {base score : ScoreValue} {status freshness gap count ruleStats evidenceType : ℚ}
    (hclaim : e.claims.get? claimId = some claim) (hbase : claim.baseConfidence = some base)
    (hstatus : e.statusModifierForClaim claimId = .ok (.fin status))
    (hfreshness : e.freshnessModifierForClaim claimId = .ok (.fin freshness))
    (hgap : e.gapModifierForClaim claimId = .fin gap)
    (hcount : e.countModifierForClaim claimId = .ok (.fin count))
    (hruleStats : e.ruleStatsModifierForClaim claimId = .ok (.fin ruleStats))
    (hevidenceType : e.evidenceTypeModifierForClaim claimId = .ok (.fin evidenceType))
    (heffective : e.computeEffectiveConfidence claimId = .ok score) :
    e.Factored claimId ⟨base.value, status, freshness, gap, count, ruleStats, evidenceType⟩ := by
  refine ⟨⟨claim, base, hclaim, hbase, rfl⟩, hstatus, hfreshness, hgap, hcount, hruleStats,
    hevidenceType, score, heffective, ?_⟩
  obtain ⟨trace, htrace, hscore⟩ := bind_ok_iff.mp heffective
  obtain ⟨_, -, htrace⟩ := bind_ok_iff.mp htrace
  obtain ⟨claim', hclaim', htrace⟩ := bind_ok_iff.mp htrace
  rw [subscript_ok_iff.mp hclaim'] at hclaim
  cases hclaim
  -- each reading is the one given, so the trace is built from these seven numbers
  rw [hstatus, hfreshness, hgap, hcount, hruleStats, hevidenceType, baseConfidenceOf,
    hbase] at htrace
  obtain ⟨_, hs, htrace⟩ := bind_ok_iff.mp htrace
  obtain ⟨_, hf, htrace⟩ := bind_ok_iff.mp htrace
  obtain ⟨_, hc, htrace⟩ := bind_ok_iff.mp htrace
  obtain ⟨_, hr, htrace⟩ := bind_ok_iff.mp htrace
  obtain ⟨_, ht, htrace⟩ := bind_ok_iff.mp htrace
  obtain ⟨_, hb, htrace⟩ := bind_ok_iff.mp htrace
  obtain ⟨composed, hcomposed, htrace⟩ := bind_ok_iff.mp htrace
  obtain ⟨identity, -, htrace⟩ := bind_ok_iff.mp htrace
  cases hs
  cases hf
  cases hc
  cases hr
  cases ht
  cases hb
  cases htrace
  cases hscore
  have hnumber := ScoreValue.new_ok_iff.mp hcomposed
  simp only [Json.number?, Confidence.composeEffectiveConfidence, PyFloat.fin_mul_fin,
    Option.some.injEq, PyFloat.fin.injEq] at hnumber
  exact hnumber.symm

theorem Sound.exists_factors {e : Engine} (h : Sound e) {claimId : Int} {claim : Claim}
    (hclaim : e.claims.get? claimId = some claim) :
    ∃ x : Factors, e.Factored claimId x ∧ x.InRange := by
  have hcontains := Dict.contains_of_get? hclaim
  have hready := h.confidenceReady hclaim
  have hstatusValid := h.references.status hclaim
  obtain ⟨base, hbase⟩ := Option.ne_none_iff_exists'.mp hready.base
  obtain ⟨s, hs, status, rfl, hstatus⟩ := Confidence.statusModifier_unit hstatusValid
  obtain ⟨f, hf⟩ := Engine.freshnessModifierForClaim_isOk hcontains hready.strengths
  obtain ⟨freshness, rfl, hfreshness⟩ := Engine.freshnessModifierForClaim_range hf
  obtain ⟨gap, hg, hgap⟩ := Engine.gapModifierForClaim_range e claimId
  obtain ⟨c, hc⟩ := (Engine.countModifierForClaim_isOk_iff hcontains).mpr hready.strengths
  obtain ⟨count, rfl, hcount⟩ := Engine.countModifierForClaim_range hc
  obtain ⟨r, hr, ruleStats, rfl, hruleStats⟩ :=
    Engine.ruleStatsModifierForClaim_range hclaim hready.ruleStats
  obtain ⟨t, ht⟩ := Confidence.evidenceTypeModifier_isOk_iff.mpr hready.hints
  obtain ⟨evidenceType, rfl, hevidenceType⟩ := Confidence.evidenceTypeModifier_range ht
  obtain ⟨score, hscore⟩ :=
    (Engine.computeEffectiveConfidence_isOk_iff hclaim hstatusValid).mpr hready
  -- the adapters return, each in its range
  have hs' : e.statusModifierForClaim claimId = .ok (.fin status) :=
    bind_ok_iff.mpr ⟨claim, Engine.subscript_ok_iff.mpr hclaim, hs⟩
  exact ⟨_, .of_readings hclaim hbase hs' hf hg hc hr ht hscore,
    ⟨base.nonneg, hstatus, hfreshness, hgap, hcount, hruleStats, hevidenceType⟩⟩

/-! ## The law

The confidence is the product; it is zero exactly when the base is or the claim is refuted. -/

/-- Of the four statuses only `REFUTED` has the modifier zero. -/
theorem Confidence.statusModifier_zero {status : Json} (h : ValidStatus status) {q : ℚ}
    (hq : Confidence.statusModifier status = .ok (.fin q)) :
    q = 0 ↔ status = claimStatusRefuted := by
  rcases h with rfl | rfl | rfl | rfl
  · obtain rfl : (1 : ℚ) = q := PyFloat.fin.inj (Except.ok.inj hq)
    simp [claimStatusCandidate, claimStatusRefuted]
  · obtain rfl : (1 : ℚ) = q := PyFloat.fin.inj (Except.ok.inj hq)
    simp [claimStatusConfirmed, claimStatusRefuted]
  · obtain rfl : (0 : ℚ) = q := PyFloat.fin.inj (Except.ok.inj hq)
    simp [claimStatusRefuted]
  · obtain rfl : (1 / 2 : ℚ) = q := PyFloat.fin.inj (Except.ok.inj hq)
    simp [claimStatusDisputed, claimStatusRefuted]

/-- What a confidence can be, given the base and the status of its claim. -/
structure ConfidenceBounds (e : Engine) (claimId : Int) (claim : Claim) (score : ScoreValue) :
    Prop where
  computed : e.computeEffectiveConfidence claimId = .ok score
  bounds : ∃ base status, claim.baseConfidence = some base ∧
    e.statusModifierForClaim claimId = .ok (.fin status) ∧ score.value ≤ base.value ∧
    base.value * status * (5 / 10) * (7 / 10) * (75 / 100) * (72 / 100) * (9 / 10) ≤ score.value ∧
    (score.value = 0 ↔ base.value = 0 ∨ claim.status = claimStatusRefuted)

/-- **Effective confidence is total, never boosts and vanishes only when it should.** -/
theorem effective_confidence_bounds {s : Session} (h : s.Reachable) {claimId : Int} {claim : Claim}
    (hclaim : s.engine.claims.get? claimId = some claim) :
    ∃ score, ConfidenceBounds s.engine claimId claim score := by
  obtain ⟨x, hfactored, hrange⟩ := h.sound.exists_factors hclaim
  obtain ⟨claim', base, hclaim', hbase, hvalue⟩ := hfactored.base
  rw [hclaim] at hclaim'
  cases hclaim'
  obtain ⟨score, hcomputed, hproduct⟩ := hfactored.effective
  have hstatus := hfactored.statusModifier hclaim
  refine ⟨score, hcomputed, base, x.status, hbase, hfactored.status, ?_, ?_, ?_⟩
  · rw [hproduct, hvalue]
    exact hrange.product_le_base
  · rw [hproduct, hvalue]
    refine le_trans (le_of_eq ?_) hrange.floor_le_product
    unfold Confidence.ruleStatsFloor
    ring
  · rw [hproduct, hvalue, hrange.product_eq_zero,
      Confidence.statusModifier_zero (h.sound.references.status hclaim) hstatus]

/-- The disputed claim, with base `9/10` and the modifier `1/2` of its status. -/
theorem effective_confidence_bounds_disputed :
    ∃ score, Session.disputed.engine.computeEffectiveConfidence 1 = .ok score ∧
      0 < score.value ∧ score.value ≤ 9 / 10 := by
  obtain ⟨claim, hclaim⟩ : ∃ claim, Session.disputed.engine.claims.get? 1 = some claim ∧
      claim.baseConfidence = some ⟨9 / 10, by norm_num, by norm_num⟩ ∧
      claim.status = claimStatusDisputed := ⟨_, by with_unfolding_all rfl, rfl, rfl⟩
  obtain ⟨score, hscore⟩ := effective_confidence_bounds Session.disputed_reachable hclaim.1
  obtain ⟨base, status, hbase, -, hle, -, hzero⟩ := hscore.bounds
  rw [hclaim.2.1] at hbase
  cases hbase
  refine ⟨score, hscore.computed, lt_of_le_of_ne score.nonneg fun h => ?_, hle⟩
  rw [eq_comm, hzero, hclaim.2.2] at h
  norm_num [claimStatusDisputed, claimStatusRefuted] at h

end Ragcore
