import Ragcore.Engine.DoubleConfidence
import Ragcore.Invariant.Confidence

/-!
# Ragcore — what an effective confidence is in doubles

The code multiplies doubles, so the confidence it returns is not the exact product. In a
reachable state it is near it, and the laws of the exact confidence hold of it too: each modifier
and each partial product stays between `0` and `1` through every rounding.

* **`Modifiers.Near`** — the six modifiers as computed, next to the factors of the exact ones.
* **`double_confidence`** — total, a few roundoffs from the exact confidence, never above the base
  and zero for the same two reasons, short of underflow.
-/

namespace Ragcore

open PyFloat

/-- The six modifiers as they are computed. -/
structure Modifiers where
  status : PyFloat
  freshness : PyFloat
  gap : PyFloat
  count : PyFloat
  ruleStats : PyFloat
  evidenceType : PyFloat

namespace Modifiers

variable (s : Summation)

def product (m : Modifiers) (base : ℚ) : PyFloat :=
  Confidence.composeEffectiveConfidenceIn (.double s) base m.status m.freshness m.gap m.count
    m.ruleStats m.evidenceType

/-- The computed modifiers and the factors of the exact ones, with `n` active contradictions. -/
structure Near (m : Modifiers) (x : Factors) (n : ℕ) : Prop where
  status : m.status = .fin x.status
  freshness : Tracks (-1) 1 (.fin x.freshness) m.freshness
  gap : Tracks (-1) (1 / 2) (.fin x.gap) m.gap
  count : Tracks (-1) (2 * n + 3 / 2) (.fin x.count) m.count
  ruleStats : Tracks (-1) (37 / 8) (.fin x.ruleStats) m.ruleStats
  evidenceType : Tracks (-1) (1 / 2) (.fin x.evidenceType) m.evidenceType

end Modifiers

theorem Tracks.near {n : ℤ} {k q : ℚ} {y : PyFloat} (h : Tracks n k (.fin q) y) :
    Approx k y q := by
  obtain ⟨p, hp, happrox⟩ := h.approx
  cases hp
  exact happrox

namespace Modifiers.Near

variable (s : Summation) {m : Modifiers} {x : Factors} {n : ℕ}

/-- **The errors add up**, half a roundoff for each product on top. -/
theorem product_approx (h : m.Near x n) (hrange : x.InRange) (hbase : x.base ≤ 1) :
    Approx (2 * n + 12) (m.product s x.base) x.product := by
  have hstatus : Approx 0 m.status x.status := by
    rw [h.status]
    exact .self hrange.status
  have hself : Approx 0 (.fin x.base) x.base := .self ⟨hrange.base, hbase⟩
  have hproduct := (((((hself.mul s hstatus).mul s h.freshness.near).mul s h.gap.near).mul s
    h.count.near).mul s h.ruleStats.near).mul s h.evidenceType.near
  exact hproduct.mono (by linarith)

/-- Each product stays below the one before it, and so below the base. -/
theorem product_below {b : ℚ} {y : PyFloat} (h : m.Near x n) (hb : b ≤ 1)
    (hy : Below b ((Arithmetic.double s).mul y m.status)) :
    Below b ((Arithmetic.double s).mul ((Arithmetic.double s).mul ((Arithmetic.double s).mul
      ((Arithmetic.double s).mul ((Arithmetic.double s).mul ((Arithmetic.double s).mul y m.status)
        m.freshness) m.gap) m.count) m.ruleStats) m.evidenceType) :=
  ((((hy.mul s hb h.freshness.near).mul s hb h.gap.near).mul s hb h.count.near).mul s hb
    h.ruleStats.near).mul s hb h.evidenceType.near

theorem product_le_base (h : m.Near x n) (hrange : x.InRange) (hbase : x.base ≤ 1)
    (hdouble : nearest x.base = x.base) : Below x.base (m.product s x.base) := by
  have hstatus : Approx 0 m.status x.status := by
    rw [h.status]
    exact .self hrange.status
  have hself : Below x.base (.fin x.base) := ⟨_, rfl, hdouble, hrange.base, le_rfl⟩
  exact h.product_below s hbase (hself.mul s hbase hstatus)

/-- A zero among the first two factors is kept. -/
theorem product_zero (h : m.Near x n) (hzero : x.base = 0 ∨ x.status = 0) :
    Below 0 (m.product s x.base) := by
  apply h.product_below s zero_le_one
  have hproduct : x.base * x.status = 0 := mul_eq_zero.mpr hzero
  refine ⟨0, ?_, nearest_zero, le_rfl, le_rfl⟩
  rw [h.status, Arithmetic.mul, fin_mul_fin, hproduct]
  rfl

/-- Six factors of a half or more take six binades from the base. -/
theorem product_above (h : m.Near x n) (hrange : x.InRange) (hbase : x.base ≤ 1)
    (hnormal : 2 ^ (-1000 : ℤ) ≤ x.base) (hstatus : 1 / 2 ≤ x.status) :
    Above (-1006) (m.product s x.base) := by
  have hself : Above (-1000) (.fin x.base) := ⟨_, rfl, hnormal, hbase⟩
  have hstatus' : Above (-1) m.status := by
    refine ⟨_, h.status, ?_, hrange.status.2⟩
    rw [zpow_neg_one]
    linarith
  exact (((((hself.mul s hstatus' (by omega)).mul s h.freshness.above (by omega)).mul s
    h.gap.above (by omega)).mul s h.count.above (by omega)).mul s h.ruleStats.above
      (by omega)).mul s h.evidenceType.above (by omega)

/-- Above `2 ^ (-1000)` only a zero factor makes a zero product. -/
theorem product_eq_zero_iff (h : m.Near x n) (hrange : x.InRange) (hbase : x.base ≤ 1)
    (hnormal : x.base = 0 ∨ 2 ^ (-1000 : ℤ) ≤ x.base) (hstatus : x.status = 0 ∨ 1 / 2 ≤ x.status)
    {d : ℚ} (hd : m.product s x.base = .fin d) : d = 0 ↔ x.base = 0 ∨ x.status = 0 := by
  constructor
  · intro hzero
    by_contra hneither
    rw [not_or] at hneither
    -- neither factor is zero, so nothing underflows on the way
    obtain ⟨d', hd', hlow, -⟩ := h.product_above s hrange hbase
      (hnormal.resolve_left hneither.1) (hstatus.resolve_left hneither.2)
    rw [hd] at hd'
    cases hd'
    have hpos : (0 : ℚ) < 2 ^ (-1006 : ℤ) := zpow_pos two_pos _
    linarith
  · intro hzero
    obtain ⟨d', hd', -, hlow, hhigh⟩ := h.product_zero s hzero
    rw [hd] at hd'
    cases hd'
    exact le_antisymm hhigh hlow

end Modifiers.Near

/-! ## The computation

The kernel with rounding after each operation, on what the adapters read from a reached state. -/

/-- The adapters read the modifiers `m` for the claim, in doubles. -/
structure Engine.Reads (s : Summation) (e : Engine) (claimId : Int) (m : Modifiers) : Prop where
  status : e.statusModifierForClaim claimId = .ok m.status
  freshness : e.freshnessModifierForClaimIn (.double s) claimId = .ok m.freshness
  gap : e.gapModifierForClaimIn (.double s) claimId = m.gap
  count : e.countModifierForClaimIn (.double s) claimId = .ok m.count
  ruleStats : e.ruleStatsModifierForClaimIn (.double s) claimId = .ok m.ruleStats
  evidenceType : e.evidenceTypeModifierForClaimIn (.double s) claimId = .ok m.evidenceType

namespace Engine.Reads

variable {s : Summation} {e : Engine} {claimId : Int} {m : Modifiers}

/-- A product between `0` and `1` is the score that is recorded, next to the modifiers. -/
theorem core (h : e.Reads s claimId m) {claim : Claim} {base score : ScoreValue}
    (hclaim : e.claims.get? claimId = some claim) (hbase : claim.baseConfidence = some base)
    (hproduct : m.product s base.value = .fin score.value) :
    e.computeEffectiveConfidenceCoreIn (.double s) claimId = .ok {
      claimId
      sourceStateIdentity := ⟨e.stateIdentityToken.hex, e.stateRevision⟩
      calculationPolicyId := Confidence.effectiveConfidencePolicyId
      baseConfidence := base
      statusModifier := m.status
      freshnessModifier := m.freshness
      gapModifier := m.gap
      countModifier := m.count
      ruleStatsModifier := m.ruleStats
      evidenceTypeModifier := m.evidenceType
      effectiveConfidence := score } := by
  have hcontains := Dict.contains_of_get? hclaim
  -- the product is a score, so the last check passes
  have hscore : ScoreValue.new (.float (m.product s base.value)) = .ok score := by
    rw [hproduct]
    exact ScoreValue.new_value score
  have hidentity := EngineStateIdentity.new_uuid e.stateIdentityToken e.stateRevision
  refine bind_ok_iff.mpr ⟨(), assertExists_ok_iff.mpr hcontains, ?_⟩
  refine bind_ok_iff.mpr ⟨claim, subscript_ok_iff.mpr hclaim, ?_⟩
  refine bind_ok_iff.mpr ⟨_, h.status, bind_ok_iff.mpr ⟨_, h.freshness, ?_⟩⟩
  refine bind_ok_iff.mpr ⟨_, h.count, bind_ok_iff.mpr ⟨_, h.ruleStats, ?_⟩⟩
  refine bind_ok_iff.mpr ⟨_, h.evidenceType, bind_ok_iff.mpr ⟨base, ?_, ?_⟩⟩
  · rw [baseConfidenceOf, hbase]
  · rw [h.gap]
    exact bind_ok_iff.mpr ⟨score, hscore, bind_ok_iff.mpr ⟨_, hidentity, rfl⟩⟩

theorem computed (h : e.Reads s claimId m) {claim : Claim} {base score : ScoreValue}
    (hclaim : e.claims.get? claimId = some claim) (hbase : claim.baseConfidence = some base)
    (hproduct : m.product s base.value = .fin score.value) :
    e.computeEffectiveConfidenceIn (.double s) claimId = .ok score :=
  bind_ok_iff.mpr ⟨_, h.core hclaim hbase hproduct, rfl⟩

end Engine.Reads

/-- In a reachable state the computed modifiers are next to the exact ones. -/
theorem Sound.exists_modifiers {e : Engine} (h : Sound e) (s : Summation) {claimId : Int}
    {claim : Claim} {x : Factors} (hclaim : e.claims.get? claimId = some claim)
    (hfactored : e.Factored claimId x)
    (hlen : (e.activeContradictions claimId).card < 2 ^ 63) :
    ∃ m, e.Reads s claimId m ∧ m.Near x (e.activeContradictions claimId).card := by
  obtain ⟨f, hf, hfreshness⟩ :=
    Engine.freshnessModifierForClaimIn_tracks s hfactored.freshness
  obtain ⟨c, hc, hcount⟩ := Engine.countModifierForClaimIn_tracks s hfactored.count hlen
  obtain ⟨r', r, hr', hr, hruleStats⟩ :=
    Engine.ruleStatsModifierForClaimIn_tracks s hclaim (h.confidenceReady hclaim).ruleStats
  obtain ⟨t, ht, hevidenceType⟩ :=
    Engine.evidenceTypeModifierForClaimIn_tracks s hfactored.evidenceType
  have hgap := @Engine.gapModifierForClaimIn_tracks s e claimId
  rw [hfactored.gap] at hgap
  rw [hfactored.ruleStats] at hr'
  cases hr'
  exact ⟨⟨.fin x.status, f, _, c, r, t⟩, ⟨hfactored.status, hf, rfl, hc, hr, ht⟩,
    ⟨rfl, hfreshness, hgap, hcount, hruleStats, hevidenceType⟩⟩

/-- A status modifier is zero or a half or more. -/
theorem Confidence.statusModifier_eq_zero_or {status : Json} (h : ValidStatus status) {q : ℚ}
    (hq : Confidence.statusModifier status = .ok (.fin q)) : q = 0 ∨ 1 / 2 ≤ q := by
  rcases h with rfl | rfl | rfl | rfl
  · obtain rfl : (1 : ℚ) = q := PyFloat.fin.inj (Except.ok.inj hq)
    exact .inr (by norm_num)
  · obtain rfl : (1 : ℚ) = q := PyFloat.fin.inj (Except.ok.inj hq)
    exact .inr (by norm_num)
  · obtain rfl : (0 : ℚ) = q := PyFloat.fin.inj (Except.ok.inj hq)
    exact .inl rfl
  · obtain rfl : (1 / 2 : ℚ) = q := PyFloat.fin.inj (Except.ok.inj hq)
    exact .inr le_rfl

/-- The confidence the code computes, next to the exact one. -/
structure DoubleConfidence (s : Summation) (e : Engine) (claimId : Int) (claim : Claim)
    (exact computed : ScoreValue) : Prop where
  unrounded : e.computeEffectiveConfidence claimId = .ok exact
  rounded : e.computeEffectiveConfidenceIn (.double s) claimId = .ok computed
  /-- Twelve roundoffs, and two more for each active contradiction. -/
  error : |computed.value - exact.value| ≤
    (2 * (e.activeContradictions claimId).card + 12) * roundoff
  /-- A base that is a double is not passed, and above `2 ^ (-1000)` nothing underflows. -/
  bounds : ∃ base, claim.baseConfidence = some base ∧
    (nearest base.value = base.value → computed.value ≤ base.value) ∧
    (base.value = 0 ∨ 2 ^ (-1000 : ℤ) ≤ base.value →
      (computed.value = 0 ↔ base.value = 0 ∨ claim.status = claimStatusRefuted))

/-- **The computed confidence** of a claim with fewer active contradictions than a `len` counts. -/
theorem double_confidence (s : Summation) {session : Session} (h : session.Reachable)
    {claimId : Int} {claim : Claim} (hclaim : session.engine.claims.get? claimId = some claim)
    (hlen : (session.engine.activeContradictions claimId).card < 2 ^ 63) :
    ∃ exact computed, DoubleConfidence s session.engine claimId claim exact computed := by
  obtain ⟨x, hfactored, hrange⟩ := h.sound.exists_factors hclaim
  obtain ⟨claim', base, hclaim', hbase, hvalue⟩ := hfactored.base
  rw [hclaim] at hclaim'
  cases hclaim'
  obtain ⟨exact, hexact, hproduct⟩ := hfactored.effective
  obtain ⟨m, hreads, hnear⟩ := h.sound.exists_modifiers s hclaim hfactored hlen
  have hunit : x.base ≤ 1 := hvalue ▸ base.le_one
  obtain ⟨d, hd, hbounds, herror⟩ := (hnear.product_approx s hrange hunit).float
  have hcomputed : session.engine.computeEffectiveConfidenceIn (.double s) claimId =
      .ok ⟨d, hbounds.1, hbounds.2⟩ := hreads.computed hclaim hbase (by rw [hvalue]; exact hd)
  refine ⟨exact, ⟨d, hbounds.1, hbounds.2⟩, hexact, hcomputed, ?_, base, hbase, ?_, ?_⟩
  · rw [hproduct]
    exact herror
  · -- a double is not passed by its products with numbers up to `1`
    intro hdouble
    rw [hvalue] at hdouble ⊢
    obtain ⟨d', hd', -, -, hle⟩ := hnear.product_le_base s hrange hunit hdouble
    rw [hd] at hd'
    cases hd'
    exact hle
  · intro hnormal
    have hstatus := hfactored.statusModifier hclaim
    have hvalid := h.sound.references.status hclaim
    rw [hvalue, ← Confidence.statusModifier_zero hvalid hstatus] at *
    exact hnear.product_eq_zero_iff s hrange hunit hnormal
      (Confidence.statusModifier_eq_zero_or hvalid hstatus) hd

set_option maxRecDepth 4000 in
/-- A claim with two active contradictions, whose rounded sum the count factor divides. -/
theorem double_confidence_rivals :
    (Session.rivals.engine.activeContradictions 2).card = 2 ∧
      ∃ computed, Session.rivals.engine.computeEffectiveConfidenceIn (.double .leftToRight) 2 =
        .ok computed ∧ 0 < computed.value := by
  have hclaim : (Session.rivals.engine.claims.get? 2).map (fun claim =>
      (claim.baseConfidence.map ScoreValue.value, claim.status)) =
        some (some (9 / 10), claimStatusCandidate) := by
    with_unfolding_all rfl
  obtain ⟨claim, hget, hfields⟩ := Option.map_eq_some_iff.mp hclaim
  obtain ⟨hbase, hstatus⟩ := Prod.ext_iff.mp hfields
  have hcard : (Session.rivals.engine.activeContradictions 2).card = 2 := by decide +kernel
  obtain ⟨exact, computed, h⟩ :=
    double_confidence .leftToRight Session.rivals_reachable hget (by omega)
  obtain ⟨base, hbase', -, hzero⟩ := h.bounds
  simp only [hbase', Option.map_some, Option.some.injEq] at hbase
  refine ⟨hcard, computed, h.rounded, lt_of_le_of_ne computed.nonneg fun heq => ?_⟩
  have hnormal : (2 : ℚ) ^ (-1000 : ℤ) ≤ base.value := by
    rw [hbase]
    calc (2 : ℚ) ^ (-1000 : ℤ) ≤ 2 ^ (-1 : ℤ) := zpow_le_zpow_right₀ one_le_two (by omega)
      _ ≤ 9 / 10 := by norm_num
  rw [eq_comm, hzero (.inr hnormal), hbase] at heq
  rcases heq with hnone | hrefuted
  · norm_num at hnone
  · rw [show claim.status = claimStatusCandidate from hstatus] at hrefuted
    cases hrefuted

end Ragcore
