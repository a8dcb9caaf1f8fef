import Ragcore.Engine.Confidence
import Ragcore.Lib.Arithmetic

/-!
# Ragcore — effective confidence, rounded where the code rounds

The kernel and its adapters once more, over an `Arithmetic`: every operation on floats rounds its
result, every decimal literal is the nearest double, and the strengths are added by `sum`. Over
`Arithmetic.exact` this is the kernel of rationals.

* **`computeEffectiveConfidenceCoreIn_exact`** — the exact computation is this one, unrounded.
* **`Tracks`** — a modifier in doubles, next to the exact one; one lemma for each modifier.
* **`composeEffectiveConfidenceIn_approx`** — the errors of the six modifiers add up.
-/

namespace Ragcore

namespace Confidence

/-! ## Kernel

One function for each function of the kernel, under its name and with the suffix `In`. The order of
the operations is the source's, since rounding does not associate. -/

section Kernel

variable (a : Arithmetic)

/-- The product with one half is exact or rounded once; the difference rounds again. -/
def freshnessModifierIn (mostRecentActiveStrength : Option ℚ) : PyFloat :=
  match mostRecentActiveStrength with
  | none => .fin 1
  | some strength => a.sub (.fin 1) (a.mul (.fin strength) (.fin (1 / 2)))

/-- Three literals that no double equals. -/
def gapModifierIn (unresolvedGapCount : Nat) : PyFloat :=
  if unresolvedGapCount = 0 then .fin 1
  else if unresolvedGapCount = 1 then a.literal (9 / 10)
  else if unresolvedGapCount = 2 then a.literal (8 / 10)
  else a.literal (7 / 10)

/-- The mean is a rounded sum, divided with one more rounding. -/
def countModifierIn (activeContradictionStrengths : List ℚ) : Except PyErr PyFloat :=
  if activeContradictionStrengths.length < 2 then .ok (.fin 1)
  else do
    let averageStrength ← a.divLength (a.sum activeContradictionStrengths)
      activeContradictionStrengths.length
    return a.sub (.fin 1) (a.mul averageStrength (.fin (1 / 4)))

/-- A division by `2` rounds the half. -/
def maturityModifierIn (firingCount : PyFloat) : PyFloat :=
  let maturityRatio := a.mul (clampFiringCount firingCount) (.fin (1 / 2))
  a.sub (.fin 1) (a.mul (a.sub (.fin 1) maturityRatio) (a.literal (2 / 10)))

/-- `0.9 + 0.1 * precision`, with both literals rounded. -/
def precisionModifierIn (observedPrecision : Option ℚ) : PyFloat :=
  match observedPrecision with
  | none => .fin 1
  | some precision => a.add (a.literal (9 / 10)) (a.mul (.fin precision) (a.literal (1 / 10)))

/-- A missing firing count says nothing; anything that does not compare with an int raises. -/
def ruleStatsModifierIn (firingCount : Json) (observedPrecision : Option ℚ) :
    Except PyErr PyFloat :=
  match firingCount with
  | .null => .ok (.fin 1)
  | firingCount =>
    match firingCount.number? with
    | none => .error (.typeError
        [s!"'>' not supported between instances of 'int' and '{firingCount.typeName}'"])
    | some x => .ok (a.mul (maturityModifierIn a x) (precisionModifierIn a observedPrecision))

/-- The discount for evidence of hint types only. -/
def evidenceTypeModifierIn (directEvidenceTypes : List Json)
    (hintEvidenceTypes : Finset HKey) : Except PyErr PyFloat := do
  if hintEvidenceTypes = ∅ then
    return .fin 1
  if directEvidenceTypes.isEmpty then
    return .fin 1
  let hinted ← allHinted hintEvidenceTypes directEvidenceTypes
  return if hinted then a.literal (9 / 10) else .fin 1

/-- Six products, from the left. -/
def composeEffectiveConfidenceIn (baseConfidence : ℚ)
    (statusMod freshnessMod gapMod countMod ruleStatsMod evidenceTypeMod : PyFloat) : PyFloat :=
  a.mul (a.mul (a.mul (a.mul (a.mul (a.mul (.fin baseConfidence) statusMod) freshnessMod) gapMod)
    countMod) ruleStatsMod) evidenceTypeMod

end Kernel

end Confidence

namespace Engine

/-! ## Adapters

What each modifier reads of the engine. The reads are those of the exact adapters; only the kernel
they hand the numbers to is another. -/

section Adapters

variable (a : Arithmetic)

/-- The strength of the newest active contradiction, if there is one. -/
def freshnessModifierForClaimIn (claimId : Int) (e : Engine) : Except PyErr PyFloat := do
  let active ← e.activeContradictionsByFreshness claimId
  match active with
  | [] => return Confidence.freshnessModifierIn a none
  | mostRecent :: _ =>
    let strength ← e.strengthOf mostRecent
    return Confidence.freshnessModifierIn a (some strength)

/-- The number of open gaps the claim refers to. -/
def gapModifierForClaimIn (claimId : Int) (e : Engine) : PyFloat :=
  let unresolved := (e.claimGapRefs.getD claimId ∅).filter fun gapId =>
    e.gapResolutions.contains gapId = false
  Confidence.gapModifierIn a unresolved.card

/-- The strengths of all active contradictions, in the order of their ids. -/
def countModifierForClaimIn (claimId : Int) (e : Engine) : Except PyErr PyFloat := do
  let active ← e.activeContradictionsForClaim claimId
  let strengths ← active.mapM fun evidenceId => e.strengthOf evidenceId
  Confidence.countModifierIn a strengths

/-- Rule `0` is no rule; a rule without statistics counts as one without firings. -/
def ruleStatsModifierForClaimIn (claimId : Int) (e : Engine) : Except PyErr PyFloat := do
  let claim ← subscript e.claims claimId
  if claim.createdByRule.eq (.int 0) then
    Confidence.ruleStatsModifierIn a .null none
  else
    let stats ← e.ruleStatsLookup claim.createdByRule claim.createdByRuleVersion
    match stats with
    | none => Confidence.ruleStatsModifierIn a .null none
    | some stats =>
      Confidence.ruleStatsModifierIn a stats.firingCount
        (stats.observedPrecision.map ScoreValue.value)

/-- The types of the claim's own evidence, against the hint types. -/
def evidenceTypeModifierForClaimIn (claimId : Int) (e : Engine) : Except PyErr PyFloat :=
  Confidence.evidenceTypeModifierIn a (e.directEvidenceTypes claimId) e.hintEvidenceTypes

/-- The base confidence is read after the modifiers, as in the source. -/
def computeEffectiveConfidenceCoreIn (claimId : Int) (e : Engine) :
    Except PyErr EffectiveConfidenceTrace := do
  e.assertClaimExists claimId
  let claim ← subscript e.claims claimId
  let statusModifier ← e.statusModifierForClaim claimId
  let freshnessModifier ← e.freshnessModifierForClaimIn a claimId
  let gapModifier := e.gapModifierForClaimIn a claimId
  let countModifier ← e.countModifierForClaimIn a claimId
  let ruleStatsModifier ← e.ruleStatsModifierForClaimIn a claimId
  let evidenceTypeModifier ← e.evidenceTypeModifierForClaimIn a claimId
  let baseConfidence ← baseConfidenceOf claim
  let effectiveConfidence ← ScoreValue.new (.float (Confidence.composeEffectiveConfidenceIn a
    baseConfidence.value statusModifier freshnessModifier gapModifier countModifier
    ruleStatsModifier evidenceTypeModifier))
  let sourceStateIdentity ← e.stateIdentity
  return {
    claimId
    sourceStateIdentity
    calculationPolicyId := Confidence.effectiveConfidencePolicyId
    baseConfidence
    statusModifier
    freshnessModifier
    gapModifier
    countModifier
    ruleStatsModifier
    evidenceTypeModifier
    effectiveConfidence }

/-- `compute_effective_confidence`: the trace without its steps. -/
def computeEffectiveConfidenceIn (claimId : Int) (e : Engine) : Except PyErr ScoreValue := do
  let trace ← e.computeEffectiveConfidenceCoreIn a claimId
  return trace.effectiveConfidence

end Adapters

end Engine

/-! ## Without rounding

Over exact arithmetic every function here is the one of `Engine.Confidence`, so what is proved of
the rationals is about the same program. -/

namespace Confidence

theorem freshnessModifierIn_exact (strength : Option ℚ) :
    freshnessModifierIn .exact strength = freshnessModifier strength := by
  cases strength with
  | none => rfl
  | some q => exact PyFloat.fin_sub_fin _ _

/-- The exact sum and the exact mean never fail. -/
theorem countModifierIn_exact (strengths : List ℚ) :
    countModifierIn .exact strengths = .ok (countModifier strengths) := by
  unfold countModifierIn countModifier
  split
  · rfl
  · exact congrArg Except.ok (PyFloat.fin_sub_fin _ _)

theorem precisionModifierIn_exact (precision : Option ℚ) :
    precisionModifierIn .exact precision = precisionModifier precision := by
  cases precision <;> rfl

/-- The comparison that may raise is made on the firing count, which is the same in both. -/
theorem ruleStatsModifierIn_exact (firingCount : Json) (precision : Option ℚ) :
    ruleStatsModifierIn .exact firingCount precision =
      ruleStatsModifier firingCount precision := by
  unfold ruleStatsModifierIn ruleStatsModifier
  rewrite [precisionModifierIn_exact]
  rfl

end Confidence

namespace Engine

theorem countModifierForClaimIn_exact (claimId : Int) (e : Engine) :
    e.countModifierForClaimIn .exact claimId = e.countModifierForClaim claimId := by
  unfold countModifierForClaimIn countModifierForClaim
  rewrite [funext Confidence.countModifierIn_exact]
  rfl

theorem freshnessModifierForClaimIn_exact (claimId : Int) (e : Engine) :
    e.freshnessModifierForClaimIn .exact claimId = e.freshnessModifierForClaim claimId := by
  unfold freshnessModifierForClaimIn freshnessModifierForClaim
  rewrite [funext Confidence.freshnessModifierIn_exact]
  rfl

theorem ruleStatsModifierForClaimIn_exact (claimId : Int) (e : Engine) :
    e.ruleStatsModifierForClaimIn .exact claimId = e.ruleStatsModifierForClaim claimId := by
  have hkernel : Confidence.ruleStatsModifierIn .exact = Confidence.ruleStatsModifier :=
    funext fun firingCount => funext (Confidence.ruleStatsModifierIn_exact firingCount)
  unfold ruleStatsModifierForClaimIn ruleStatsModifierForClaim
  rewrite [hkernel]
  rfl

/-- **The exact computation** is the rounded one with nothing rounded. -/
theorem computeEffectiveConfidenceCoreIn_exact (claimId : Int) (e : Engine) :
    e.computeEffectiveConfidenceCoreIn .exact claimId = e.computeEffectiveConfidenceCore claimId := by
  unfold computeEffectiveConfidenceCoreIn computeEffectiveConfidenceCore
  rewrite [freshnessModifierForClaimIn_exact, countModifierForClaimIn_exact,
    ruleStatsModifierForClaimIn_exact]
  rfl

end Engine

/-! ## Next to the exact modifiers

Each modifier is off by a fixed number of roundoffs, and stays at a half or above. The first bounds
the error of the product, the second keeps the product away from the numbers where doubles lose
precision. -/

/-- What is computed for an exact number: `k` roundoffs away at most, and `2 ^ n` or more. -/
structure Tracks (n : ℤ) (k : ℚ) (exact computed : PyFloat) : Prop where
  approx : ∃ q, exact = .fin q ∧ Approx k computed q
  above : Above n computed

namespace Tracks

variable {n : ℤ} {k : ℚ} (s : Summation)

/-- A modifier that does not apply is `1.0` in both. -/
theorem one (hn : n ≤ 0) (hk : 0 ≤ k) : Tracks n k (.fin 1) (.fin 1) where
  approx := ⟨1, rfl, (Approx.self ⟨zero_le_one, le_rfl⟩).mono hk⟩
  above := Above.one.mono hn

/-- A decimal literal is off by half a roundoff. -/
theorem literal {q : ℚ} (hlow : 1 / 2 ≤ q) (hhigh : q ≤ 1) :
    Tracks (-1) (1 / 2) (.fin q) ((Arithmetic.double s).literal q) where
  approx := ⟨q, rfl, .literal s ⟨by linarith, hhigh⟩⟩
  above := .literal s (by rw [zpow_neg_one]; linarith) hhigh (by omega)

end Tracks

namespace Confidence

variable (s : Summation)

/-- One roundoff: the product and the difference round by half of one each. -/
theorem freshnessModifierIn_tracks {strength : Option ℚ} (h : ∀ q ∈ strength, 0 ≤ q ∧ q ≤ 1) :
    Tracks (-1) 1 (freshnessModifier strength) (freshnessModifierIn (.double s) strength) := by
  cases strength with
  | none => exact .one (by omega) zero_le_one
  | some q =>
    have hself : Approx 0 (.fin q) q := .self (h q rfl)
    have hhalf : Approx 0 (.fin (1 / 2)) (1 / 2) := .self (by norm_num)
    -- one rounding for the product, one for the difference
    exact ⟨⟨_, rfl, ((hself.mul s hhalf).complement s).mono (by norm_num)⟩,
      .complement_mul s hself (by norm_num)⟩

/-- The error of the literal. -/
theorem gapModifierIn_tracks (count : Nat) :
    Tracks (-1) (1 / 2) (gapModifier count) (gapModifierIn (.double s) count) := by
  unfold gapModifier gapModifierIn
  split_ifs
  · exact .one (by omega) (by norm_num)
  · exact .literal s (by norm_num) (by norm_num)
  · exact .literal s (by norm_num) (by norm_num)
  · exact .literal s (by norm_num) (by norm_num)

/-- The error grows with the number of contradictions: every addition rounds. -/
theorem countModifierIn_tracks {strengths : List ℚ} (h : ∀ q ∈ strengths, 0 ≤ q ∧ q ≤ 1)
    (hlen : strengths.length < 2 ^ 63) :
    ∃ x, countModifierIn (.double s) strengths = .ok x ∧
      Tracks (-1) (2 * strengths.length + 3 / 2) (countModifier strengths) x := by
  unfold countModifier countModifierIn
  split_ifs with hshort
  · exact ⟨_, rfl, .one (by omega) (by positivity)⟩
  · -- from here on there are two strengths or more
    have hne : strengths ≠ [] := by
      rintro rfl
      exact hshort (by decide)
    obtain ⟨average, haverage, happrox⟩ := Approx.divLength s h hne hlen (average_unit h)
    have hquarter : Approx 0 (.fin (1 / 4)) (1 / 4) := .self (by norm_num)
    refine ⟨_, bind_ok_iff.mpr ⟨average, haverage, rfl⟩, ⟨_, rfl, ?_⟩, ?_⟩
    · exact ((happrox.mul s hquarter).complement s).mono (by linarith)
    · exact .complement_mul s happrox (by norm_num)

/-- The ratio, its complement, the weight and the second complement each round. -/
theorem maturityModifierIn_approx {x : PyFloat} (h : ∀ obj, x ≠ .nan obj) :
    ∃ q, maturityModifier x = .fin q ∧ Approx (5 / 2) (maturityModifierIn (.double s) x) q := by
  obtain ⟨q, hq, hlow, hhigh⟩ := clampFiringCount_range h
  have hunit : 0 ≤ q * (1 / 2) ∧ q * (1 / 2) ≤ 1 := ⟨by linarith, by linarith⟩
  have hratio := Approx.round hunit hunit Approx.abs_self_sub_le
  have hweight : Approx (1 / 2) ((Arithmetic.double s).literal (2 / 10)) (2 / 10) :=
    .literal s (by norm_num)
  have hmaturity := ((hratio.complement s).mul s hweight).complement s
  refine ⟨1 - (1 - q * (1 / 2)) * (2 / 10), ?_, ?_⟩
  · simp only [maturityModifier, hq, PyFloat.fin_mul_fin, PyFloat.fin_sub_fin]
  · simp only [maturityModifierIn, hq]
    exact hmaturity.mono (by norm_num)

/-- `0.9 + 0.1` is `1.0` in doubles too: the two literals are off by less than half a unit. -/
theorem precisionModifierIn_approx {precision : Option ℚ}
    (h : ∀ q ∈ precision, 0 ≤ q ∧ q ≤ 1) :
    ∃ q, precisionModifier precision = .fin q ∧
      Approx (13 / 8) (precisionModifierIn (.double s) precision) q := by
  cases precision with
  | none => exact ⟨1, rfl, (Approx.self ⟨zero_le_one, le_rfl⟩).mono (by norm_num)⟩
  | some p =>
    obtain ⟨hlow, hhigh⟩ := h p rfl
    -- two literals, a product and a sum are rounded
    have hbase : Approx (1 / 2) ((Arithmetic.double s).literal (9 / 10)) (9 / 10) :=
      .literal s (by norm_num)
    have hrange : Approx (2 ^ (-3 : ℤ) / 2) ((Arithmetic.double s).literal (1 / 10)) (1 / 10) :=
      .literal_of_lt s (by norm_num) (by norm_num) (by omega)
    have hself : Approx 0 (.fin p) p := .self ⟨hlow, hhigh⟩
    have hbelow : p * (1 / 10) + (0 + 2 ^ (-3 : ℤ) / 2) * roundoff < 2 ^ (-3 : ℤ) := by
      have hsmall := roundoff_lt
      norm_num
      linarith
    have hscaled := hself.mul_of_lt s hrange hbelow (by omega)
    have hsum := hbase.add s hscaled (by norm_num) (by linarith)
    exact ⟨_, rfl, hsum.mono (by norm_num)⟩

/-- The product of the maturity and the precision modifier. -/
theorem ruleStatsModifierIn_tracks {firingCount : Json} {precision : Option ℚ}
    (hcount : FiringCountReady firingCount) (hprec : ∀ q ∈ precision, 0 ≤ q ∧ q ≤ 1) :
    ∃ x y, ruleStatsModifier firingCount precision = .ok x ∧
      ruleStatsModifierIn (.double s) firingCount precision = .ok y ∧ Tracks (-1) (37 / 8) x y := by
  rcases hcount with rfl | ⟨count, hnumber, hnan⟩
  · exact ⟨_, _, rfl, rfl, .one (by omega) (by norm_num)⟩
  · have hne : firingCount ≠ .null := by
      rintro rfl
      cases hnumber
    -- a firing count that is a number other than NaN
    obtain ⟨maturity, hmaturity, hm⟩ := maturityModifierIn_approx s hnan
    obtain ⟨p, hprecision, hp⟩ := precisionModifierIn_approx s hprec
    have happrox := (hm.mul s hp).mono (l := 37 / 8) (by norm_num)
    -- the exact modifier is above its floor, and the error cannot take it below a half
    obtain ⟨q, hfloor, hq, -⟩ := FloatIn.mul (by norm_num) (by norm_num)
      (maturityModifier_range hnan) (precisionModifier_range hprec)
    rw [hmaturity, hprecision] at hfloor
    cases hfloor
    have hin : ruleStatsModifierIn (.double s) firingCount precision = .ok ((Arithmetic.double s).mul
        (maturityModifierIn (.double s) count) (precisionModifierIn (.double s) precision)) := by
      cases firingCount with
      | null => exact absurd rfl hne
      | _ => simp only [ruleStatsModifierIn, hnumber]
    refine ⟨_, _, ?_, hin, ⟨_, rfl, happrox⟩, .of_approx happrox ?_⟩
    · rw [ruleStatsModifier_eq hne, hnumber]
      show Except.ok (maturityModifier count * precisionModifier precision) = _
      rw [hmaturity, hprecision]
      rfl
    · rw [zpow_neg_one]
      linarith [roundoff_lt]

/-- The same evidence is looked up in the same set; only the discount is rounded. -/
theorem evidenceTypeModifierIn_tracks {types : List Json} {hints : Finset HKey} {x : PyFloat}
    (h : evidenceTypeModifier types hints = .ok x) :
    ∃ y, evidenceTypeModifierIn (.double s) types hints = .ok y ∧ Tracks (-1) (1 / 2) x y := by
  have hone : Tracks (-1) (1 / 2) (.fin 1) (.fin 1) := .one (by omega) (by norm_num)
  unfold evidenceTypeModifier at h
  unfold evidenceTypeModifierIn
  -- both kernels take the same branch, since the tests are about sets
  split_ifs at h ⊢
  · cases h
    exact ⟨_, rfl, hone⟩
  · cases h
    exact ⟨_, rfl, hone⟩
  · obtain ⟨hinted, hall, h⟩ := bind_ok_iff.mp h
    cases h
    refine ⟨_, bind_ok_iff.mpr ⟨hinted, hall, rfl⟩, ?_⟩
    cases hinted with
    | true => exact .literal s (by norm_num) (by norm_num)
    | false => exact hone

end Confidence

namespace Engine

variable (s : Summation) {e : Engine} {claimId : Int}

/-- Where the exact adapter returns, this one does, next to it. -/
theorem freshnessModifierForClaimIn_tracks {x : PyFloat}
    (h : e.freshnessModifierForClaim claimId = .ok x) :
    ∃ y, e.freshnessModifierForClaimIn (.double s) claimId = .ok y ∧ Tracks (-1) 1 x y := by
  obtain ⟨active, hactive, h⟩ := bind_ok_iff.mp h
  -- without an active contradiction nothing is computed
  cases active with
  | nil =>
    cases h
    exact ⟨_, bind_ok_iff.mpr ⟨[], hactive, rfl⟩,
      Confidence.freshnessModifierIn_tracks s (by simp)⟩
  | cons mostRecent rest =>
    obtain ⟨strength, hstrength, h⟩ := bind_ok_iff.mp h
    cases h
    refine ⟨_, bind_ok_iff.mpr ⟨_, hactive, bind_ok_iff.mpr ⟨_, hstrength, rfl⟩⟩,
      Confidence.freshnessModifierIn_tracks s fun q hq => ?_⟩
    cases hq
    exact strengthOf_range hstrength

/-- Counting gaps involves no floats. -/
theorem gapModifierForClaimIn_tracks :
    Tracks (-1) (1 / 2) (e.gapModifierForClaim claimId)
      (e.gapModifierForClaimIn (.double s) claimId) :=
  Confidence.gapModifierIn_tracks s _

/-- The error in terms of the active contradictions of the claim. -/
theorem countModifierForClaimIn_tracks {x : PyFloat}
    (h : e.countModifierForClaim claimId = .ok x)
    (hlen : (e.activeContradictions claimId).card < 2 ^ 63) :
    ∃ y, e.countModifierForClaimIn (.double s) claimId = .ok y ∧
      Tracks (-1) (2 * (e.activeContradictions claimId).card + 3 / 2) x y := by
  obtain ⟨active, hactive, h⟩ := bind_ok_iff.mp h
  obtain ⟨strengths, hstrengths, h⟩ := bind_ok_iff.mp h
  cases h
  -- one strength for each active contradiction
  have hlength : strengths.length = (e.activeContradictions claimId).card := by
    obtain rfl := activeContradictionsForClaim_ok hactive
    rw [← (mapM_ok_iff.mp hstrengths).length_eq, ← List.toFinset_card_of_nodup, sortSet_toFinset]
    exact (sortSet_pairwise_lt _).imp ne_of_lt
  have hunit : ∀ q ∈ strengths, 0 ≤ q ∧ q ≤ 1 := by
    intro q hq
    obtain ⟨_, _, hs⟩ := exists_of_forall₂_right (mapM_ok_iff.mp hstrengths) hq
    exact strengthOf_range hs
  rw [← hlength] at hlen ⊢
  obtain ⟨y, hy, htracks⟩ := Confidence.countModifierIn_tracks s hunit hlen
  exact ⟨y, bind_ok_iff.mpr ⟨_, hactive, bind_ok_iff.mpr ⟨_, hstrengths, hy⟩⟩, htracks⟩

/-- For a claim whose statistics, if it has any, hold a usable firing count. -/
theorem ruleStatsModifierForClaimIn_tracks {claim : Claim}
    (hclaim : e.claims.get? claimId = some claim) (hready : e.RuleStatsReady claim) :
    ∃ x y, e.ruleStatsModifierForClaim claimId = .ok x ∧
      e.ruleStatsModifierForClaimIn (.double s) claimId = .ok y ∧ Tracks (-1) (37 / 8) x y := by
  have hone : Tracks (-1) (37 / 8) (.fin 1) (.fin 1) := .one (by omega) (by norm_num)
  have hsub : subscript e.claims claimId = .ok claim := subscript_ok_iff.mpr hclaim
  rw [ruleStatsModifierForClaim, ruleStatsModifierForClaimIn, hsub]
  -- rule `0` stands for no rule
  by_cases hzero : claim.createdByRule.eq (.int 0) = true
  · simp only [bind, Except.bind, hzero, if_true]
    exact ⟨_, _, rfl, rfl, hone⟩
  · obtain ⟨stats, hstats, hcount⟩ := hready.resolve_left hzero
    simp only [bind, Except.bind, hzero, if_false, Bool.false_eq_true, hstats]
    cases stats with
    | none => exact ⟨_, _, rfl, rfl, hone⟩
    | some record =>
      exact Confidence.ruleStatsModifierIn_tracks s (hcount record rfl)
        (observedPrecision_range record)

/-- The adapter hands over what the exact one does. -/
theorem evidenceTypeModifierForClaimIn_tracks {x : PyFloat}
    (h : e.evidenceTypeModifierForClaim claimId = .ok x) :
    ∃ y, e.evidenceTypeModifierForClaimIn (.double s) claimId = .ok y ∧ Tracks (-1) (1 / 2) x y :=
  Confidence.evidenceTypeModifierIn_tracks s h

end Engine

end Ragcore
