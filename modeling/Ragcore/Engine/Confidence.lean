import Ragcore.Engine.Lifecycle
import Ragcore.Engine.Rules

/-!
# Ragcore — effective confidence

The kernel `ragcore/_engine/confidence.py` and the adapters of
`ragcore/_engine/confidence_adapters.py` that feed it from the stores. A confidence is the base
times six modifiers. Finite floats are the rationals they stand for and the products are exact:
rounding is monotone and keeps `0` and `1`, so the ranges below are those of the floats.

* **`UnitFloat`** — a finite float in `[0, 1]`; closed under products (`UnitFloat.mul`).
* **`FloatIn`** — a finite float between a floor and `1`; each modifier but the status has a
  floor above zero.
* **`computeEffectiveConfidence_isOk_iff`** — when the computation returns: every value that
  a restored record leaves open (a score that may be `None`, a rule reference, a firing count,
  an evidence type) appears with what the arithmetic asks of it.
-/

namespace Ragcore

namespace Confidence

/-! ## Kernel

The pure functions of the kernel, over exact rationals. Each modifier is at most one and lowers the
base confidence by the factor it stands for. -/

/-- `_STATUS_TO_MODIFIER`. -/
def statusToModifier : List (Int × ℚ) := [(0, 1), (1, 1), (3, 1 / 2), (2, 0)]

/-- The identity of the policy that a trace names. -/
def effectiveConfidencePolicyId : String := "ragcore.effective-confidence.v1"

/-- The factor of each status; `REFUTED` leaves nothing. -/
def statusModifier (status : Json) : Except PyErr PyFloat := do
  let key ← status.hash
  match key.toInt?.bind fun n => statusToModifier.lookup n with
  | some modifier => return .fin modifier
  | none => throw (.keyError [.value status])

/-- The stronger the newest active contradiction, the smaller the factor, down to one half. -/
def freshnessModifier (mostRecentActiveStrength : Option ℚ) : PyFloat :=
  match mostRecentActiveStrength with
  | none => .fin 1
  | some strength => .fin (1 - strength * (1 / 2))

/-- Each unresolved gap takes away a tenth, and three are the most that count. -/
def gapModifier (unresolvedGapCount : Nat) : PyFloat :=
  if unresolvedGapCount = 0 then .fin 1
  else if unresolvedGapCount = 1 then .fin (9 / 10)
  else if unresolvedGapCount = 2 then .fin (8 / 10)
  else .fin (7 / 10)

/-- From the second active contradiction on, their average strength takes away up to a quarter. -/
def countModifier (activeContradictionStrengths : List ℚ) : PyFloat :=
  if activeContradictionStrengths.length < 2 then .fin 1
  else
    let averageStrength := activeContradictionStrengths.sum / activeContradictionStrengths.length
    .fin (1 - averageStrength * (1 / 4))

/-- `min(max(firing_count, 0), 2)`; a comparison with a NaN is false, so a NaN passes both. -/
def clampFiringCount (x : PyFloat) : PyFloat :=
  let floored := if PyFloat.lt x (.fin 0) then .fin 0 else x
  if PyFloat.lt (.fin 2) floored then .fin 2 else floored

/-- The factor grows with the firings of the rule, up to the second. -/
def maturityModifier (firingCount : PyFloat) : PyFloat :=
  let maturityRatio := clampFiringCount firingCount * .fin (1 / 2)
  .fin 1 - (.fin 1 - maturityRatio) * .fin (2 / 10)

/-- A precision of zero takes away a tenth. -/
def precisionModifier (observedPrecision : Option ℚ) : PyFloat :=
  match observedPrecision with
  | none => .fin 1
  | some precision => .fin (9 / 10 + precision * (1 / 10))

/-- A firing count of `None` stands for "no statistics apply". -/
def ruleStatsModifier (firingCount : Json) (observedPrecision : Option ℚ) :
    Except PyErr PyFloat :=
  match firingCount with
  | .null => .ok (.fin 1)
  | firingCount =>
    match firingCount.number? with
    | none => .error (.typeError
        [s!"'>' not supported between instances of 'int' and '{firingCount.typeName}'"])
    | some x => .ok (maturityModifier x * precisionModifier observedPrecision)

/-- `all(t in hint_evidence_types for t in ...)`: stops at the first type outside the set. -/
def allHinted (hintEvidenceTypes : Finset HKey) : List Json → Except PyErr Bool
  | [] => .ok true
  | t :: rest => do
    let key ← t.hash
    if key ∈ hintEvidenceTypes then allHinted hintEvidenceTypes rest else return false

/-- A claim with hints alone is held a little lower than one with direct evidence. -/
def evidenceTypeModifier (directEvidenceTypes : List Json) (hintEvidenceTypes : Finset HKey) :
    Except PyErr PyFloat := do
  if hintEvidenceTypes = ∅ then
    return .fin 1
  if directEvidenceTypes.isEmpty then
    return .fin 1
  let hinted ← allHinted hintEvidenceTypes directEvidenceTypes
  return if hinted then .fin (9 / 10) else .fin 1

/-- The product, in the order of the source. -/
def composeEffectiveConfidence (baseConfidence : ℚ)
    (statusMod freshnessMod gapMod countMod ruleStatsMod evidenceTypeMod : PyFloat) : PyFloat :=
  .fin baseConfidence * statusMod * freshnessMod * gapMod * countMod * ruleStatsMod
    * evidenceTypeMod

end Confidence

/-- The factors next to the product, as the computation reports them. -/
structure EffectiveConfidenceTrace where
  claimId : Int
  sourceStateIdentity : EngineStateIdentity
  calculationPolicyId : String
  baseConfidence : ScoreValue
  statusModifier : PyFloat
  freshnessModifier : PyFloat
  gapModifier : PyFloat
  countModifier : PyFloat
  ruleStatsModifier : PyFloat
  evidenceTypeModifier : PyFloat
  effectiveConfidence : ScoreValue

namespace Engine

/-! ## Adapters

What each modifier reads from the stores of an engine. -/

/-- The id of an evidence is its freshness: ids only grow. -/
def evidenceFreshness (evidenceId : Int) (e : Engine) : Except PyErr Int := do
  e.assertEvidenceExists evidenceId
  return evidenceId

def statusModifierForClaim (claimId : Int) (e : Engine) : Except PyErr PyFloat := do
  let claim ← subscript e.claims claimId
  Confidence.statusModifier claim.status

/-- The strength of the newest active contradiction, if there is one. -/
def freshnessModifierForClaim (claimId : Int) (e : Engine) : Except PyErr PyFloat := do
  let active ← e.activeContradictionsByFreshness claimId
  match active with
  | [] => return Confidence.freshnessModifier none
  | mostRecent :: _ =>
    let strength ← e.strengthOf mostRecent
    return Confidence.freshnessModifier (some strength)

/-- The gaps of the claim that have no resolution. -/
def gapModifierForClaim (claimId : Int) (e : Engine) : PyFloat :=
  let unresolved := (e.claimGapRefs.getD claimId ∅).filter fun gapId =>
    e.gapResolutions.contains gapId = false
  Confidence.gapModifier unresolved.card

/-- The strengths of all active contradictions, in ascending order of their ids. -/
def countModifierForClaim (claimId : Int) (e : Engine) : Except PyErr PyFloat := do
  let active ← e.activeContradictionsForClaim claimId
  let strengths ← active.mapM fun evidenceId => e.strengthOf evidenceId
  return Confidence.countModifier strengths

/-- `self._rule_stats.get((rule, version))`; the store is keyed by pairs of ints. -/
def ruleStatsLookup (createdByRule createdByRuleVersion : Json) (e : Engine) :
    Except PyErr (Option RuleStats) := do
  let rule ← createdByRule.hash
  let version ← createdByRuleVersion.hash
  match rule.toInt?, version.toInt? with
  | some ruleId, some ruleVersion => return e.ruleStats.get? (ruleId, ruleVersion)
  | _, _ => return none

/-- The statistics of the rule version that the claim names, and one where it names none. -/
def ruleStatsModifierForClaim (claimId : Int) (e : Engine) : Except PyErr PyFloat := do
  let claim ← subscript e.claims claimId
  if claim.createdByRule.eq (.int 0) then
    Confidence.ruleStatsModifier .null none
  else
    let stats ← e.ruleStatsLookup claim.createdByRule claim.createdByRuleVersion
    match stats with
    | none => Confidence.ruleStatsModifier .null none
    | some stats =>
      Confidence.ruleStatsModifier stats.firingCount
        (stats.observedPrecision.map ScoreValue.value)

/-- The types of the evidence that supports the claim directly, in store order. -/
def directEvidenceTypes (claimId : Int) (e : Engine) : List Json :=
  let excluded := e.contradictions.getD claimId ∅ ∪ e.resolvedContradictions.getD claimId ∅
  (e.evidences.values.filter fun ev => ev.claimId = claimId && ev.id ∉ excluded).map
    Evidence.type

/-- The types of the claim's own evidences against the hint types. -/
def evidenceTypeModifierForClaim (claimId : Int) (e : Engine) : Except PyErr PyFloat :=
  Confidence.evidenceTypeModifier (e.directEvidenceTypes claimId) e.hintEvidenceTypes

/-- `claim.base_confidence.value`. -/
def baseConfidenceOf (claim : Claim) : Except PyErr ScoreValue :=
  match claim.baseConfidence with
  | some score => .ok score
  | none => .error (.attributeError ["'NoneType' object has no attribute 'value'"])

/-- The claim is looked up first, then the modifiers in the order of the trace. -/
def computeEffectiveConfidenceCore (claimId : Int) (e : Engine) :
    Except PyErr EffectiveConfidenceTrace := do
  e.assertClaimExists claimId
  let claim ← subscript e.claims claimId
  let statusModifier ← e.statusModifierForClaim claimId
  let freshnessModifier ← e.freshnessModifierForClaim claimId
  let gapModifier := e.gapModifierForClaim claimId
  let countModifier ← e.countModifierForClaim claimId
  let ruleStatsModifier ← e.ruleStatsModifierForClaim claimId
  let evidenceTypeModifier ← e.evidenceTypeModifierForClaim claimId
  let baseConfidence ← baseConfidenceOf claim
  let effectiveConfidence ← ScoreValue.new (.float (Confidence.composeEffectiveConfidence
    baseConfidence.value statusModifier freshnessModifier gapModifier countModifier
    ruleStatsModifier evidenceTypeModifier))
  let sourceStateIdentity ← e.stateIdentity
  return {
    claimId
    sourceStateIdentity
    calculationPolicyId := Confidence.effectiveConfidencePolicyId
    baseConfidence
    statusModifier
    freshnessModifier
    gapModifier
    countModifier
    ruleStatsModifier
    evidenceTypeModifier
    effectiveConfidence }

/-- The product, checked once more as a score. -/
def computeEffectiveConfidence (claimId : Int) (e : Engine) : Except PyErr ScoreValue := do
  let trace ← e.computeEffectiveConfidenceCore claimId
  return trace.effectiveConfidence

/-- The trace itself. -/
def computeEffectiveConfidenceWithTrace (claimId : Int) (e : Engine) :
    Except PyErr EffectiveConfidenceTrace :=
  e.computeEffectiveConfidenceCore claimId

end Engine

/-! ## Ranges

Each modifier lies between a floor of its own and one, so the product lies between the product of
the floors and the base. -/

/-- A finite float in `[0, 1]`. -/
def UnitFloat (x : PyFloat) : Prop := ∃ q : ℚ, x = .fin q ∧ 0 ≤ q ∧ q ≤ 1

theorem UnitFloat.of_score (s : ScoreValue) : UnitFloat (.fin s.value) :=
  ⟨s.value, rfl, s.nonneg, s.le_one⟩

/-- Products stay in the unit interval. -/
theorem UnitFloat.mul {x y : PyFloat} (hx : UnitFloat x) (hy : UnitFloat y) :
    UnitFloat (x * y) := by
  obtain ⟨p, rfl, hp0, hp1⟩ := hx
  obtain ⟨q, rfl, hq0, hq1⟩ := hy
  exact ⟨p * q, PyFloat.fin_mul_fin p q, mul_nonneg hp0 hq0, mul_le_one₀ hp1 hq0 hq1⟩

/-- A finite float in `[lo, 1]`. -/
def FloatIn (lo : ℚ) (x : PyFloat) : Prop := ∃ q : ℚ, x = .fin q ∧ lo ≤ q ∧ q ≤ 1

theorem FloatIn.unit {lo : ℚ} {x : PyFloat} (h : FloatIn lo x) (hlo : 0 ≤ lo) : UnitFloat x := by
  obtain ⟨q, rfl, hq, hq1⟩ := h
  exact ⟨q, rfl, hlo.trans hq, hq1⟩

theorem FloatIn.one {lo : ℚ} (h : lo ≤ 1) : FloatIn lo (.fin 1) := ⟨1, rfl, h, le_rfl⟩

theorem FloatIn.mul {lo lo' : ℚ} {x y : PyFloat} (hlo : 0 ≤ lo) (hlo' : 0 ≤ lo')
    (hx : FloatIn lo x) (hy : FloatIn lo' y) : FloatIn (lo * lo') (x * y) := by
  obtain ⟨p, rfl, hp, hp1⟩ := hx
  obtain ⟨q, rfl, hq, hq1⟩ := hy
  exact ⟨p * q, PyFloat.fin_mul_fin p q, mul_le_mul hp hq hlo' (hlo.trans hp),
    mul_le_one₀ hp1 (hlo'.trans hq) hq1⟩

/-- A float in the unit interval passes as a score. -/
theorem UnitFloat.admitted {x : PyFloat} (h : UnitFloat x) :
    ∃ score, ScoreValue.new (.float x) = .ok score := by
  obtain ⟨q, rfl, h0, h1⟩ := h
  exact ⟨⟨q, h0, h1⟩, by simp [ScoreValue.new, Json.number?, h0, h1]⟩

namespace Confidence

theorem statusModifier_unit {status : Json} (h : ValidStatus status) :
    ∃ x, statusModifier status = .ok x ∧ UnitFloat x := by
  rcases h with rfl | rfl | rfl | rfl
  · exact ⟨_, rfl, 1, rfl, by norm_num⟩
  · exact ⟨_, rfl, 1, rfl, by norm_num⟩
  · exact ⟨_, rfl, 0, rfl, by norm_num⟩
  · exact ⟨_, rfl, 1 / 2, rfl, by norm_num⟩

/-- A strength of one halves the confidence, no contradiction leaves it. -/
theorem freshnessModifier_range {strength : Option ℚ} (h : ∀ q ∈ strength, 0 ≤ q ∧ q ≤ 1) :
    FloatIn (1 / 2) (freshnessModifier strength) := by
  cases strength with
  | none => exact .one (by norm_num)
  | some q =>
    obtain ⟨h0, h1⟩ := h q rfl
    exact ⟨_, rfl, by linarith, by linarith⟩

/-- Three gaps or more leave seven tenths. -/
theorem gapModifier_range (count : Nat) : FloatIn (7 / 10) (gapModifier count) := by
  unfold gapModifier
  split
  · exact .one (by norm_num)
  · split
    · exact ⟨9 / 10, rfl, by norm_num⟩
    · split
      · exact ⟨8 / 10, rfl, by norm_num⟩
      · exact ⟨7 / 10, rfl, by norm_num⟩

/-- The average of numbers in `[0, 1]` is one. -/
theorem average_unit {xs : List ℚ} (h : ∀ x ∈ xs, 0 ≤ x ∧ x ≤ 1) :
    0 ≤ xs.sum / xs.length ∧ xs.sum / xs.length ≤ 1 := by
  have hnonneg : 0 ≤ xs.sum := List.sum_nonneg fun x hx => (h x hx).1
  have hle : xs.sum ≤ xs.length := by
    simpa using List.sum_le_card_nsmul xs 1 fun x hx => (h x hx).2
  exact ⟨by positivity, div_le_one_of_le₀ hle (by positivity)⟩

/-- The average of strengths is a strength. -/
theorem countModifier_range {strengths : List ℚ} (h : ∀ q ∈ strengths, 0 ≤ q ∧ q ≤ 1) :
    FloatIn (3 / 4) (countModifier strengths) := by
  unfold countModifier
  split
  · exact .one (by norm_num)
  · obtain ⟨h0, h1⟩ := average_unit h
    exact ⟨_, rfl, by linarith, by linarith⟩

/-- A firing count the kernel can clamp to a number: `None`, or any number but a NaN. -/
def FiringCountReady (firingCount : Json) : Prop :=
  firingCount = .null ∨ ∃ x, firingCount.number? = some x ∧ ∀ obj, x ≠ .nan obj

/-- `max(0, min(n, 2))` is between zero and two, for an infinite count too. -/
theorem clampFiringCount_range {x : PyFloat} (h : ∀ obj, x ≠ .nan obj) :
    ∃ q : ℚ, clampFiringCount x = .fin q ∧ 0 ≤ q ∧ q ≤ 2 := by
  cases x with
  | fin q =>
    by_cases hneg : q < 0
    · exact ⟨0, by simp [clampFiringCount, hneg], by norm_num⟩
    · by_cases hbig : 2 < q
      · exact ⟨2, by simp [clampFiringCount, hneg, hbig], by norm_num⟩
      · exact ⟨q, by simp [clampFiringCount, hneg, hbig], not_lt.mp hneg, not_lt.mp hbig⟩
  | inf => exact ⟨2, rfl, by norm_num⟩
  | negInf => exact ⟨0, rfl, by norm_num⟩
  | nan obj => exact absurd rfl (h obj)

/-- So the factor is at least eight tenths. -/
theorem maturityModifier_range {x : PyFloat} (h : ∀ obj, x ≠ .nan obj) :
    FloatIn (8 / 10) (maturityModifier x) := by
  obtain ⟨q, hq, h0, h2⟩ := clampFiringCount_range h
  simp only [maturityModifier, hq, PyFloat.fin_mul_fin, PyFloat.fin_sub_fin]
  exact ⟨_, rfl, by linarith, by linarith⟩

theorem precisionModifier_range {precision : Option ℚ} (h : ∀ q ∈ precision, 0 ≤ q ∧ q ≤ 1) :
    FloatIn (9 / 10) (precisionModifier precision) := by
  cases precision with
  | none => exact .one (by norm_num)
  | some q =>
    obtain ⟨h0, h1⟩ := h q rfl
    exact ⟨_, rfl, by linarith, by linarith⟩

/-- The maturity comes first, and only a count that is a number has one. -/
theorem ruleStatsModifier_eq {firingCount : Json} (h : firingCount ≠ .null)
    (precision : Option ℚ) :
    ruleStatsModifier firingCount precision =
      match firingCount.number? with
      | none => .error (.typeError
          [s!"'>' not supported between instances of 'int' and '{firingCount.typeName}'"])
      | some x => .ok (maturityModifier x * precisionModifier precision) := by
  cases firingCount with
  | null => exact absurd rfl h
  | _ => rfl

/-- The least value of the rule statistics modifier. -/
def ruleStatsFloor : ℚ := 8 / 10 * (9 / 10)

theorem ruleStatsModifier_range {firingCount : Json} {precision : Option ℚ}
    (hcount : FiringCountReady firingCount) (hprec : ∀ q ∈ precision, 0 ≤ q ∧ q ≤ 1) :
    ∃ x, ruleStatsModifier firingCount precision = .ok x ∧ FloatIn ruleStatsFloor x := by
  rcases hcount with rfl | ⟨x, hx, hnan⟩
  · exact ⟨_, rfl, .one (by norm_num [ruleStatsFloor])⟩
  · have hne : firingCount ≠ .null := by
      rintro rfl
      cases hx
    refine ⟨_, ?_, .mul (by norm_num) (by norm_num) (maturityModifier_range hnan)
      (precisionModifier_range hprec)⟩
    rw [ruleStatsModifier_eq hne, hx]

/-- Any other firing count raises or ends in a NaN. -/
theorem ruleStatsModifier_nan {firingCount : Json} {precision : Option ℚ}
    (hcount : ¬ FiringCountReady firingCount) {x : PyFloat}
    (h : ruleStatsModifier firingCount precision = .ok x) : ∃ obj, x = .nan obj := by
  have hne : firingCount ≠ .null := fun hnull => hcount (.inl hnull)
  rw [ruleStatsModifier_eq hne] at h
  -- a count that is no number has no modifier at all
  cases hx : firingCount.number? with
  | none => simp [hx] at h
  | some y =>
    have hnan : ∃ obj, y = .nan obj := by
      by_contra hno
      exact hcount (.inr ⟨y, hx, fun obj hobj => hno ⟨obj, hobj⟩⟩)
    obtain ⟨obj, rfl⟩ := hnan
    simp only [hx, Except.ok.injEq] at h
    refine ⟨obj, h.symm.trans ?_⟩
    cases precision <;> rfl

/-- `t in hints` can be asked of every type up to the first one outside the set. -/
def HintTestable (hintEvidenceTypes : Finset HKey) : List Json → Prop
  | [] => True
  | t :: rest => ∃ key, t.key? = some key ∧
      (key ∈ hintEvidenceTypes → HintTestable hintEvidenceTypes rest)

/-- The loop over the types stops at the first that is no hint, so only the types before it have to
be hashable. -/
theorem allHinted_isOk_iff {hints : Finset HKey} {types : List Json} :
    (∃ hinted, allHinted hints types = .ok hinted) ↔ HintTestable hints types := by
  induction types with
  | nil => simp [allHinted, HintTestable]
  | cons t rest ih =>
    simp only [allHinted, HintTestable, Json.hash]
    cases t.key? with
    | none => simp [bind, Except.bind]
    | some key =>
      by_cases hkey : key ∈ hints
      · simp [bind, Except.bind, hkey, ih]
      · simp [bind, Except.bind, hkey, pure, Except.pure]

/-- Without hint types nothing is tested. -/
theorem evidenceTypeModifier_isOk_iff {hints : Finset HKey} {types : List Json} :
    (∃ x, evidenceTypeModifier types hints = .ok x) ↔
      (hints = ∅ ∨ HintTestable hints types) := by
  by_cases hhints : hints = ∅
  · simp [evidenceTypeModifier, hhints, pure, Except.pure]
  · cases types with
    | nil => simp [evidenceTypeModifier, hhints, HintTestable, pure, Except.pure]
    | cons t rest =>
      rw [← allHinted_isOk_iff]
      simp only [evidenceTypeModifier, hhints, if_false, List.isEmpty_cons, Bool.false_eq_true,
        false_or]
      cases allHinted hints (t :: rest) <;> simp [bind, Except.bind, pure, Except.pure]

/-- The factor is one or nine tenths. -/
theorem evidenceTypeModifier_range {hints : Finset HKey} {types : List Json} {x : PyFloat}
    (h : evidenceTypeModifier types hints = .ok x) : FloatIn (9 / 10) x := by
  have hone : FloatIn (9 / 10) (.fin 1) := .one (by norm_num)
  simp only [evidenceTypeModifier] at h
  -- no hint types, or no types to test: the factor is one
  split at h
  · cases h
    exact hone
  · split at h
    · cases h
      exact hone
    · obtain ⟨hinted, _, h⟩ := bind_ok_iff.mp h
      cases h
      split
      · exact ⟨9 / 10, rfl, by norm_num⟩
      · exact hone

/-- **The composition is a score exactly when the rule statistics are.** -/
theorem composeEffectiveConfidence_unit (base : ScoreValue)
    {statusMod freshnessMod gapMod countMod ruleStatsMod evidenceTypeMod : PyFloat}
    (hs : UnitFloat statusMod) (hf : UnitFloat freshnessMod) (hg : UnitFloat gapMod)
    (hc : UnitFloat countMod) (hr : UnitFloat ruleStatsMod) (he : UnitFloat evidenceTypeMod) :
    UnitFloat (composeEffectiveConfidence base.value statusMod freshnessMod gapMod countMod
      ruleStatsMod evidenceTypeMod) :=
  ((((((UnitFloat.of_score base).mul hs).mul hf).mul hg).mul hc).mul hr).mul he

/-- A NaN count makes the product a NaN. -/
theorem composeEffectiveConfidence_nan {base : ScoreValue}
    {statusMod freshnessMod gapMod countMod evidenceTypeMod : PyFloat} {obj : Nat}
    (hs : UnitFloat statusMod) (hf : UnitFloat freshnessMod) (hg : UnitFloat gapMod)
    (hc : UnitFloat countMod) :
    composeEffectiveConfidence base.value statusMod freshnessMod gapMod countMod (.nan obj)
      evidenceTypeMod = .nan obj := by
  obtain ⟨q, hq, -⟩ := ((((UnitFloat.of_score base).mul hs).mul hf).mul hg).mul hc
  simp only [composeEffectiveConfidence, hq, PyFloat.fin_mul_nan, PyFloat.nan_mul]

end Confidence

namespace Engine

/-! ## When the computation returns

The conditions on the stores under which each adapter returns, and no further one. -/

/-- The rule statistics of the claim can be looked up and clamped. -/
def RuleStatsReady (e : Engine) (claim : Claim) : Prop :=
  claim.createdByRule.eq (.int 0) = true ∨
    ∃ stats, e.ruleStatsLookup claim.createdByRule claim.createdByRuleVersion = .ok stats ∧
      ∀ record ∈ stats, Confidence.FiringCountReady record.firingCount

/-- What `compute_effective_confidence` asks of the records it reads. -/
structure ConfidenceReady (e : Engine) (claimId : Int) (claim : Claim) : Prop where
  base : claim.baseConfidence ≠ none
  strengths : ∀ evidenceId ∈ e.activeContradictions claimId,
    ∃ strength, e.strengthOf evidenceId = .ok strength
  ruleStats : e.RuleStatsReady claim
  hints : e.hintEvidenceTypes = ∅ ∨
    Confidence.HintTestable e.hintEvidenceTypes (e.directEvidenceTypes claimId)

/-- A strength that is read is a score. -/
theorem strengthOf_range {e : Engine} {evidenceId : Int} {strength : ℚ}
    (h : e.strengthOf evidenceId = .ok strength) : 0 ≤ strength ∧ strength ≤ 1 := by
  obtain ⟨evidence, score, _, _, rfl⟩ := strengthOf_ok_iff.mp h
  exact ⟨score.nonneg, score.le_one⟩

/-- The strengths of the active contradictions have to be there. -/
theorem countModifierForClaim_isOk_iff {e : Engine} {claimId : Int}
    (hclaim : e.claims.contains claimId = true) :
    (∃ x, e.countModifierForClaim claimId = .ok x) ↔
      ∀ evidenceId ∈ e.activeContradictions claimId,
        ∃ strength, e.strengthOf evidenceId = .ok strength := by
  have hactive : e.activeContradictionsForClaim claimId =
      .ok (sortSet (· ≤ ·) (e.activeContradictions claimId)) :=
    bind_ok_iff.mpr ⟨(), assertExists_ok_iff.mpr hclaim, rfl⟩
  -- the loop returns exactly when each strength it reads is there
  constructor
  · rintro ⟨x, hx⟩ evidenceId hmem
    obtain ⟨active, hact, hx⟩ := bind_ok_iff.mp hx
    obtain ⟨strengths, hstrengths, _⟩ := bind_ok_iff.mp hx
    rw [hactive] at hact
    cases hact
    obtain ⟨strength, _, hs⟩ := exists_of_forall₂_left (mapM_ok_iff.mp hstrengths)
      (mem_sortSet.mpr hmem)
    exact ⟨strength, hs⟩
  · intro h
    have hactiveStrengths : ∀ id ∈ sortSet (· ≤ ·) (e.activeContradictions claimId),
        ∃ strength, e.strengthOf id = .ok strength := fun id hid => h id (mem_sortSet.mp hid)
    obtain ⟨strengths, hstrengths⟩ := mapM_isOk hactiveStrengths
    exact ⟨_, bind_ok_iff.mpr ⟨_, hactive, bind_ok_iff.mpr ⟨_, hstrengths, rfl⟩⟩⟩

theorem countModifierForClaim_range {e : Engine} {claimId : Int} {x : PyFloat}
    (h : e.countModifierForClaim claimId = .ok x) : FloatIn (3 / 4) x := by
  obtain ⟨active, _, h⟩ := bind_ok_iff.mp h
  obtain ⟨strengths, hstrengths, h⟩ := bind_ok_iff.mp h
  cases h
  refine Confidence.countModifier_range fun q hq => ?_
  obtain ⟨_, _, hs⟩ := exists_of_forall₂_right (mapM_ok_iff.mp hstrengths) hq
  exact strengthOf_range hs

/-- The freshness adapter reads one of the strengths the count adapter reads. -/
theorem freshnessModifierForClaim_isOk {e : Engine} {claimId : Int}
    (hclaim : e.claims.contains claimId = true)
    (hstrengths : ∀ evidenceId ∈ e.activeContradictions claimId,
      ∃ strength, e.strengthOf evidenceId = .ok strength) :
    ∃ x, e.freshnessModifierForClaim claimId = .ok x := by
  rw [freshnessModifierForClaim, activeContradictionsByFreshness_eq hclaim]
  cases hsorted : sortSet (· ≥ ·) (e.activeContradictions claimId) with
  | nil => exact ⟨_, rfl⟩
  | cons mostRecent rest =>
    obtain ⟨strength, hs⟩ := hstrengths mostRecent (mem_of_sortSet_desc_cons hsorted)
    exact ⟨_, bind_ok_iff.mpr ⟨_, rfl, bind_ok_iff.mpr ⟨_, hs, rfl⟩⟩⟩

/-- The newest contradiction is one of the active ones. -/
theorem freshnessModifierForClaim_range {e : Engine} {claimId : Int} {x : PyFloat}
    (h : e.freshnessModifierForClaim claimId = .ok x) : FloatIn (1 / 2) x := by
  obtain ⟨active, _, h⟩ := bind_ok_iff.mp h
  cases active with
  | nil =>
    cases h
    exact Confidence.freshnessModifier_range (by simp)
  | cons mostRecent rest =>
    obtain ⟨strength, hs, h⟩ := bind_ok_iff.mp h
    cases h
    refine Confidence.freshnessModifier_range fun q hq => ?_
    cases hq
    exact strengthOf_range hs

theorem gapModifierForClaim_range (e : Engine) (claimId : Int) :
    FloatIn (7 / 10) (e.gapModifierForClaim claimId) := Confidence.gapModifier_range _

/-- A precision is a score where it is set. -/
theorem observedPrecision_range (stats : RuleStats) :
    ∀ q ∈ stats.observedPrecision.map ScoreValue.value, 0 ≤ q ∧ q ≤ 1 := by
  intro q hq
  obtain ⟨score, _, rfl⟩ := Option.map_eq_some_iff.mp hq
  exact ⟨score.nonneg, score.le_one⟩

/-- A claim without a rule has the factor one. -/
theorem ruleStatsModifierForClaim_range {e : Engine} {claimId : Int} {claim : Claim}
    (hclaim : e.claims.get? claimId = some claim) (hready : e.RuleStatsReady claim) :
    ∃ x, e.ruleStatsModifierForClaim claimId = .ok x ∧ FloatIn Confidence.ruleStatsFloor x := by
  have hone : FloatIn Confidence.ruleStatsFloor (.fin 1) :=
    .one (by norm_num [Confidence.ruleStatsFloor])
  have hsub : subscript e.claims claimId = .ok claim := subscript_ok_iff.mpr hclaim
  rw [ruleStatsModifierForClaim, hsub]
  -- rule `0` stands for no rule
  by_cases hzero : claim.createdByRule.eq (.int 0) = true
  · exact ⟨_, by simp only [bind, Except.bind, hzero, if_true]; rfl, hone⟩
  · obtain ⟨stats, hstats, hcount⟩ := hready.resolve_left hzero
    simp only [bind, Except.bind, hzero, if_false, Bool.false_eq_true, hstats]
    cases stats with
    | none => exact ⟨_, rfl, hone⟩
    | some record =>
      exact Confidence.ruleStatsModifier_range (hcount record rfl)
        (observedPrecision_range record)

/-- Where the statistics are not ready, the modifier raises or is a NaN. -/
theorem ruleStatsModifierForClaim_nan {e : Engine} {claimId : Int} {claim : Claim} {x : PyFloat}
    (hclaim : e.claims.get? claimId = some claim) (hready : ¬ e.RuleStatsReady claim)
    (h : e.ruleStatsModifierForClaim claimId = .ok x) : ∃ obj, x = .nan obj := by
  have hzero : ¬ claim.createdByRule.eq (.int 0) = true := fun hz => hready (.inl hz)
  rw [ruleStatsModifierForClaim, subscript_ok_iff.mpr hclaim] at h
  simp only [bind, Except.bind, hzero, if_false, Bool.false_eq_true] at h
  cases hstats : e.ruleStatsLookup claim.createdByRule claim.createdByRuleVersion with
  | error err => simp [hstats] at h
  | ok stats =>
    rw [hstats] at h
    cases stats with
    | none => exact absurd (.inr ⟨none, hstats, by simp⟩) hready
    | some record =>
      refine Confidence.ruleStatsModifier_nan (fun hcount => hready (.inr ⟨_, hstats, ?_⟩)) h
      rintro _ ⟨⟩
      exact hcount

theorem computeEffectiveConfidenceCore_isOk {e : Engine} {claimId : Int} {claim : Claim}
    (hclaim : e.claims.get? claimId = some claim) (hstatus : ValidStatus claim.status)
    (hready : e.ConfidenceReady claimId claim) :
    ∃ trace, e.computeEffectiveConfidenceCore claimId = .ok trace := by
  have hcontains := Dict.contains_of_get? hclaim
  have hsub : subscript e.claims claimId = .ok claim := subscript_ok_iff.mpr hclaim
  obtain ⟨base, hbase⟩ := Option.ne_none_iff_exists'.mp hready.base
  obtain ⟨statusMod, hs, hsu⟩ := Confidence.statusModifier_unit hstatus
  obtain ⟨freshnessMod, hf⟩ := freshnessModifierForClaim_isOk hcontains hready.strengths
  obtain ⟨countMod, hc⟩ := (countModifierForClaim_isOk_iff hcontains).mpr hready.strengths
  obtain ⟨ruleStatsMod, hr, hru⟩ := ruleStatsModifierForClaim_range hclaim hready.ruleStats
  obtain ⟨evidenceTypeMod, he⟩ := Confidence.evidenceTypeModifier_isOk_iff.mpr hready.hints
  -- each modifier returns; their product is a score again
  have hunit := Confidence.composeEffectiveConfidence_unit base hsu
    ((freshnessModifierForClaim_range hf).unit (by norm_num))
    ((gapModifierForClaim_range e claimId).unit (by norm_num))
    ((countModifierForClaim_range hc).unit (by norm_num))
    (hru.unit (by norm_num [Confidence.ruleStatsFloor]))
    ((Confidence.evidenceTypeModifier_range he).unit (by norm_num))
  obtain ⟨score, hscore⟩ := hunit.admitted
  refine bind_isOk (assertExists_ok_iff.mpr hcontains) ?_
  refine bind_isOk hsub ?_
  refine bind_isOk (bind_ok_iff.mpr ⟨claim, hsub, hs⟩) ?_
  refine bind_isOk hf (bind_isOk hc (bind_isOk hr (bind_isOk he ?_)))
  refine bind_isOk (a := base) (by simp [baseConfidenceOf, hbase]) ?_
  refine bind_isOk hscore (bind_isOk (EngineStateIdentity.new_uuid _ _) ⟨_, rfl⟩)

/-- Read backwards, a computation that returned found all it needs. -/
theorem confidenceReady_of_isOk {e : Engine} {claimId : Int} {claim : Claim}
    {trace : EffectiveConfidenceTrace} (hclaim : e.claims.get? claimId = some claim)
    (hstatus : ValidStatus claim.status)
    (h : e.computeEffectiveConfidenceCore claimId = .ok trace) :
    e.ConfidenceReady claimId claim := by
  have hcontains := Dict.contains_of_get? hclaim
  have hsub : subscript e.claims claimId = .ok claim := subscript_ok_iff.mpr hclaim
  obtain ⟨_, _, h⟩ := bind_ok_iff.mp h
  obtain ⟨claim', hclaim', h⟩ := bind_ok_iff.mp h
  rw [hsub] at hclaim'
  cases hclaim'
  obtain ⟨statusMod, hs, h⟩ := bind_ok_iff.mp h
  obtain ⟨freshnessMod, hf, h⟩ := bind_ok_iff.mp h
  obtain ⟨countMod, hc, h⟩ := bind_ok_iff.mp h
  obtain ⟨ruleStatsMod, hr, h⟩ := bind_ok_iff.mp h
  obtain ⟨evidenceTypeMod, he, h⟩ := bind_ok_iff.mp h
  obtain ⟨base, hbase, h⟩ := bind_ok_iff.mp h
  obtain ⟨score, hscore, h⟩ := bind_ok_iff.mp h
  refine ⟨?_, (countModifierForClaim_isOk_iff hcontains).mp ⟨_, hc⟩, ?_,
    Confidence.evidenceTypeModifier_isOk_iff.mp ⟨_, he⟩⟩
  · intro hnone
    simp [baseConfidenceOf, hnone] at hbase
  · by_contra hnot
    -- a NaN among the factors survives to the end, and no score is a NaN
    obtain ⟨obj, rfl⟩ := ruleStatsModifierForClaim_nan hclaim hnot hr
    obtain ⟨statusMod', hs', hsu⟩ := Confidence.statusModifier_unit hstatus
    have hstatusMod : statusMod = statusMod' := by
      have : e.statusModifierForClaim claimId = .ok statusMod' :=
        bind_ok_iff.mpr ⟨claim, hsub, hs'⟩
      rw [hs] at this
      exact Except.ok.inj this
    rw [Confidence.composeEffectiveConfidence_nan (hstatusMod ▸ hsu)
      ((freshnessModifierForClaim_range hf).unit (by norm_num))
      ((gapModifierForClaim_range e claimId).unit (by norm_num))
      ((countModifierForClaim_range hc).unit (by norm_num))] at hscore
    cases hscore

/-- **When the effective confidence of a claim is computed.** -/
theorem computeEffectiveConfidence_isOk_iff {e : Engine} {claimId : Int} {claim : Claim}
    (hclaim : e.claims.get? claimId = some claim) (hstatus : ValidStatus claim.status) :
    (∃ score, e.computeEffectiveConfidence claimId = .ok score) ↔
      e.ConfidenceReady claimId claim := by
  constructor
  · rintro ⟨score, h⟩
    obtain ⟨trace, htrace, _⟩ := bind_ok_iff.mp h
    exact confidenceReady_of_isOk hclaim hstatus htrace
  · intro hready
    obtain ⟨trace, htrace⟩ := computeEffectiveConfidenceCore_isOk hclaim hstatus hready
    exact ⟨_, bind_ok_iff.mpr ⟨trace, htrace, rfl⟩⟩

end Engine

end Ragcore
