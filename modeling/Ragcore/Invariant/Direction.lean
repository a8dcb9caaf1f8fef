import Ragcore.Invariant.Disputed
import Ragcore.Invariant.Isolation

/-!
# Ragcore — which way a confidence moves

Each mutator that moves a confidence without touching claims, evidences or contradictions does so
through one of three factors: the open gaps, the statistics of the rule, the hint types. The
kernel is monotone in each. A transition changes the status factor of its own claim and nothing
else.

* **`Moves`** — the confidence of a claim before and after, and how they compare.
* **`SameRecords`** — four factors do not depend on the stores these mutators write.
* **`unresolvedGaps`**, **`evidenceTypeModifier_antitone`**, **`ruleStatsModifier_mono`** — the
  three factors that may move.
* **`confidence_direction`** — the direction for every mutator with one.
-/

namespace Ragcore

/-! ## Before and after

The comparison is between two computed confidences, each with its trace of factors. -/

/-- The confidence of `c` is computed in both states, and the two compare so. -/
def Moves (c : Int) (e e' : Engine) (compare : ℚ → ℚ → Prop) : Prop :=
  ∃ score score', e.computeEffectiveConfidence c = .ok score ∧
    e'.computeEffectiveConfidence c = .ok score' ∧ compare score.value score'.value

/-- It is enough to compare the products of the factors. -/
theorem Moves.of_factors {c : Int} {e e' : Engine} {compare : ℚ → ℚ → Prop} (h : Sound e)
    (h' : Sound e') (hc : e.claims.contains c = true) (hc' : e'.claims.contains c = true)
    (hcompare : ∀ {x y : Factors}, e.Factored c x → x.InRange → e'.Factored c y → y.InRange →
      compare x.product y.product) : Moves c e e' compare := by
  obtain ⟨claim, hget⟩ := Dict.contains_iff.mp hc
  obtain ⟨claim', hget'⟩ := Dict.contains_iff.mp hc'
  obtain ⟨x, hx, hrange⟩ := h.exists_factors hget
  obtain ⟨y, hy, hrange'⟩ := h'.exists_factors hget'
  obtain ⟨score, hscore, hproduct⟩ := hx.effective
  obtain ⟨score', hscore', hproduct'⟩ := hy.effective
  refine ⟨score, score', hscore, hscore', ?_⟩
  rw [hproduct, hproduct']
  exact hcompare hx hrange hy hrange'

/-- A call that changes nothing moves nothing. -/
theorem Moves.refl {c : Int} {e : Engine} {compare : ℚ → ℚ → Prop} (h : Sound e)
    (hc : e.claims.contains c = true) (hrefl : ∀ q, compare q q) : Moves c e e compare := by
  obtain ⟨claim, hget⟩ := Dict.contains_iff.mp hc
  obtain ⟨x, hx, -⟩ := h.exists_factors hget
  obtain ⟨score, hscore, -⟩ := hx.effective
  exact ⟨score, score, hscore, hscore, hrefl _⟩

/-! ## Four factors that stay

Most calls touch the stores of one factor. The others read what both states share. -/

/-- The claims, the evidences and the logs that several factors read are the same. -/
structure SameRecords (e e' : Engine) : Prop where
  claims : e'.claims = e.claims
  evidences : e'.evidences = e.evidences
  contradictions : e'.contradictions = e.contradictions
  resolved : e'.resolvedContradictions = e.resolvedContradictions

theorem SameRecords.symm {e e' : Engine} (h : SameRecords e e') : SameRecords e' e :=
  ⟨h.claims.symm, h.evidences.symm, h.contradictions.symm, h.resolved.symm⟩

theorem SameRecords.below {c : Int} {e e' : Engine} {x y : Factors} (h : SameRecords e e')
    (hx : e.Factored c x) (hy : e'.Factored c y) (gap : x.gap ≤ y.gap)
    (ruleStats : x.ruleStats ≤ y.ruleStats) (evidenceType : x.evidenceType ≤ y.evidenceType) :
    x.Below y where
  base := (hx.base_eq hy fun hget hget' => by
    rw [h.claims, hget] at hget'
    cases hget'
    rfl).ge
  status := (Engine.Factored.eq_of_reading hx.status hy.status (by
    simp only [Engine.statusModifierForClaim, h.claims])).ge
  freshness := (Engine.Factored.eq_of_reading hx.freshness hy.freshness (by
    simp only [Engine.freshnessModifierForClaim, Engine.activeContradictionsByFreshness,
      Engine.assertClaimExists, Engine.activeContradictions, Engine.strengthOf, h.claims,
      h.evidences, h.contradictions, h.resolved])).ge
  gap := gap
  count := (Engine.Factored.eq_of_reading hx.count hy.count (by
    simp only [Engine.countModifierForClaim, Engine.activeContradictionsForClaim,
      Engine.assertClaimExists, Engine.activeContradictions, Engine.strengthOf, h.claims,
      h.evidences, h.contradictions, h.resolved])).ge
  ruleStats := ruleStats
  evidenceType := evidenceType

/-- The types that count as direct evidence are read from the records. -/
theorem SameRecords.directEvidenceTypes {e e' : Engine} (h : SameRecords e e') (c : Int) :
    e'.directEvidenceTypes c = e.directEvidenceTypes c := by
  simp only [Engine.directEvidenceTypes, h.evidences, h.contradictions, h.resolved]

/-- The factor of the statistics reads the claim and the statistics. -/
theorem SameRecords.ruleStats_eq {c : Int} {e e' : Engine} {x y : Factors}
    (h : SameRecords e e') (hstats : e'.ruleStats = e.ruleStats) (hx : e.Factored c x)
    (hy : e'.Factored c y) : y.ruleStats = x.ruleStats :=
  Engine.Factored.eq_of_reading hx.ruleStats hy.ruleStats (by
    simp only [Engine.ruleStatsModifierForClaim, Engine.ruleStatsLookup, h.claims, hstats])

/-- The factor of the types reads the evidences and the hints. -/
theorem SameRecords.evidenceType_eq {c : Int} {e e' : Engine} {x y : Factors}
    (h : SameRecords e e') (hhints : e'.hintEvidenceTypes = e.hintEvidenceTypes)
    (hx : e.Factored c x) (hy : e'.Factored c y) : y.evidenceType = x.evidenceType :=
  Engine.Factored.eq_of_reading hx.evidenceType hy.evidenceType (by
    simp only [Engine.evidenceTypeModifierForClaim, h.directEvidenceTypes, hhints])

/-- The factor of the gaps reads the references and the resolutions. -/
theorem Engine.Factored.gap_eq {c : Int} {e e' : Engine} {x y : Factors}
    (hx : e.Factored c x) (hy : e'.Factored c y) (hrefs : e'.claimGapRefs = e.claimGapRefs)
    (hresolutions : e'.gapResolutions = e.gapResolutions) : y.gap = x.gap := by
  have hgap : e'.gapModifierForClaim c = e.gapModifierForClaim c := by
    simp only [Engine.gapModifierForClaim, hrefs, hresolutions]
  rw [hx.gap, hy.gap] at hgap
  exact PyFloat.fin.inj hgap

/-! ## Gaps

More open gaps lower the factor or leave it. -/

/-- The open gaps of a claim. -/
def Engine.unresolvedGaps (c : Int) (e : Engine) : Finset Int :=
  (e.claimGapRefs.getD c ∅).filter fun g => e.gapResolutions.contains g = false

/-- More open gaps, a smaller factor. -/
theorem gap_le_of_unresolved {c : Int} {e e' : Engine} {p q : ℚ}
    (h : e.unresolvedGaps c ⊆ e'.unresolvedGaps c) (hp : e.gapModifierForClaim c = .fin p)
    (hq : e'.gapModifierForClaim c = .fin q) : q ≤ p :=
  Confidence.gapModifier_antitone (Finset.card_le_card h) hq hp

/-- References only grow, and so do resolutions. -/
theorem unresolvedGaps_subset {c : Int} {e e' : Engine}
    (hrefs : ∀ {g}, g ∈ e.claimGapRefs.getD c ∅ → g ∈ e'.claimGapRefs.getD c ∅)
    (hclosed : ∀ {g}, e'.gapResolutions.contains g = true → e.gapResolutions.contains g = true) :
    e.unresolvedGaps c ⊆ e'.unresolvedGaps c := by
  intro g hg
  simp only [Engine.unresolvedGaps, Finset.mem_filter] at hg ⊢
  refine ⟨hrefs hg.1, ?_⟩
  rw [← Bool.not_eq_true]
  intro h
  rw [hclosed h] at hg
  exact absurd hg.2 (by simp)

/-! ## Hint types

Which types are hints decides whether the claim rests on hints alone. -/

namespace Confidence

/-- On int types the loop decides whether all of them are hints. -/
theorem allHinted_ints {hints : Finset HKey} {types : List Json} (htypes : ∀ t ∈ types, IsInt t) :
    allHinted hints types = .ok (decide (∀ t ∈ types, ∃ key ∈ hints, t.key? = some key)) := by
  induction types with
  | nil => simp [allHinted]
  | cons t rest ih =>
    obtain ⟨ht, hrest⟩ := List.forall_mem_cons.mp htypes
    obtain ⟨n, rfl⟩ := ht
    simp only [allHinted, Json.hash, Json.key?_int]
    by_cases hkey : HKey.int n ∈ hints
    · simp [bind, Except.bind, hkey, ih hrest]
    · simp [bind, Except.bind, hkey, pure, Except.pure]

/-- Lowered exactly when there is direct evidence and all of it is of hinted types. -/
theorem evidenceTypeModifier_ints {hints : Finset HKey} {types : List Json}
    (htypes : ∀ t ∈ types, IsInt t) :
    evidenceTypeModifier types hints = .ok (.fin
      (if types ≠ [] ∧ ∀ t ∈ types, ∃ key ∈ hints, t.key? = some key then 9 / 10 else 1)) := by
  cases types with
  -- without hint types nothing is tested
  | nil => by_cases hhints : hints = ∅ <;> simp [evidenceTypeModifier, hhints, pure, Except.pure]
  | cons t rest =>
    by_cases hhints : hints = ∅
    · have hnone : ¬ (t :: rest ≠ [] ∧ ∀ u ∈ t :: rest, ∃ key ∈ hints, u.key? = some key) := by
        rintro ⟨-, hall⟩
        obtain ⟨key, hkey, -⟩ := hall t (by simp)
        simp [hhints] at hkey
      rw [if_neg hnone, evidenceTypeModifier, if_pos hhints]
      rfl
    · rw [evidenceTypeModifier, if_neg hhints, allHinted_ints htypes]
      simp only [List.isEmpty_cons, Bool.false_eq_true, if_false, bind, Except.bind, pure,
        Except.pure, decide_eq_true_eq, ne_eq, reduceCtorEq, not_false_eq_true, true_and]
      split <;> rfl

/-- More hint types, a smaller factor. -/
theorem evidenceTypeModifier_antitone {hints hints' : Finset HKey} {types : List Json} {p q : ℚ}
    (htypes : ∀ t ∈ types, IsInt t) (hsub : hints ⊆ hints')
    (hp : evidenceTypeModifier types hints = .ok (.fin p))
    (hq : evidenceTypeModifier types hints' = .ok (.fin q)) : q ≤ p := by
  rw [evidenceTypeModifier_ints htypes, Except.ok.injEq, PyFloat.fin.injEq] at hp hq
  rw [← hp, ← hq]
  -- all types were hints before, so they are hints of the larger set too
  by_cases hall : types ≠ [] ∧ ∀ t ∈ types, ∃ key ∈ hints, t.key? = some key
  · have hall' : types ≠ [] ∧ ∀ t ∈ types, ∃ key ∈ hints', t.key? = some key := by
      refine ⟨hall.1, fun t ht => ?_⟩
      obtain ⟨key, hkey, hread⟩ := hall.2 t ht
      exact ⟨key, hsub hkey, hread⟩
    rw [if_pos hall, if_pos hall']
  · rw [if_neg hall]
    split <;> norm_num

/-! ## Rule statistics

The maturity grows with the firings and the factor of the precision with the precision. -/

/-- On a finite count the clamp is the one of the rationals. -/
theorem clampFiringCount_fin (q : ℚ) : clampFiringCount (.fin q) = .fin (min (max q 0) 2) := by
  by_cases hneg : q < 0
  · simp [clampFiringCount, hneg, hneg.le]
  · have hnonneg : 0 ≤ q := not_lt.mp hneg
    by_cases hbig : 2 < q
    · simp [clampFiringCount, hneg, hbig, hnonneg, hbig.le]
    · simp [clampFiringCount, hneg, hbig, hnonneg, not_lt.mp hbig]

/-- More firings never lower the maturity. -/
theorem maturityModifier_mono {m n p q : ℚ} (h : m ≤ n)
    (hp : maturityModifier (.fin m) = .fin p) (hq : maturityModifier (.fin n) = .fin q) :
    p ≤ q := by
  simp only [maturityModifier, clampFiringCount_fin, PyFloat.fin_mul_fin, PyFloat.fin_sub_fin,
    PyFloat.fin.injEq] at hp hq
  have hclamp : min (max m 0) 2 ≤ min (max n 0) 2 := by gcongr
  rw [← hp, ← hq]
  linarith

/-- The factor of the record a claim's pair has, if any. -/
def statsReading : Option RuleStats → Except PyErr PyFloat
  | none => .ok (.fin 1)
  | some stats => ruleStatsModifier stats.firingCount
      (stats.observedPrecision.map ScoreValue.value)

/-- A precision that takes the place of another is not below it, and none takes the place of
none. -/
def PrecisionKept (old new : Option ScoreValue) : Prop :=
  new = old ∨ ∃ p q, old = some p ∧ new = some q ∧ p.value ≤ q.value

/-- A precision that is not lowered never lowers its factor. -/
theorem precisionModifier_mono {old new : Option ScoreValue} {p q : ℚ} (h : PrecisionKept old new)
    (hp : precisionModifier (old.map ScoreValue.value) = .fin p)
    (hq : precisionModifier (new.map ScoreValue.value) = .fin q) : p ≤ q := by
  rcases h with rfl | ⟨s, t, rfl, rfl, hle⟩
  · rw [hp] at hq
    exact (PyFloat.fin.inj hq).le
  · simp only [precisionModifier, Option.map_some, PyFloat.fin.injEq] at hp hq
    rw [← hp, ← hq]
    linarith

/-- More firings and no worse a precision, a larger factor. -/
theorem ruleStatsModifier_mono {m n : Int} {old new : Option ScoreValue} {p q : ℚ} (h : m ≤ n)
    (hkept : PrecisionKept old new)
    (hp : ruleStatsModifier (.int m) (old.map ScoreValue.value) = .ok (.fin p))
    (hq : ruleStatsModifier (.int n) (new.map ScoreValue.value) = .ok (.fin q)) : p ≤ q := by
  have hunit : ∀ o : Option ScoreValue, ∀ r ∈ o.map ScoreValue.value, 0 ≤ r ∧ r ≤ 1 := by
    intro o r hr
    obtain ⟨score, _, rfl⟩ := Option.map_eq_some_iff.mp hr
    exact ⟨score.nonneg, score.le_one⟩
  obtain ⟨a, ha, ha0, -⟩ := maturityModifier_range (x := .fin m) (by simp)
  obtain ⟨b, hb, hb0, -⟩ := precisionModifier_range (hunit old)
  obtain ⟨a', ha', ha0', -⟩ := maturityModifier_range (x := .fin n) (by simp)
  obtain ⟨b', hb', hb0', -⟩ := precisionModifier_range (hunit new)
  -- the two factors of the modifier grow each on its own
  have hmaturity : a ≤ a' := maturityModifier_mono (by exact_mod_cast h) ha ha'
  have hprecision : b ≤ b' := precisionModifier_mono hkept hb hb'
  simp only [ruleStatsModifier, Json.number?, ha, hb, ha', hb', PyFloat.fin_mul_fin,
    Except.ok.injEq, PyFloat.fin.injEq] at hp hq
  rw [← hp, ← hq]
  exact mul_le_mul hmaturity hprecision (by linarith) (by linarith)

end Confidence

/-! ## One call of each mutator

For each call: which factor it can move, and to which side. -/

namespace Sound

variable {e : Engine} (h : Sound e) {c : Int} (hc : e.claims.contains c = true)
include h

theorem directEvidenceTypes_ints (c : Int) : ∀ t ∈ e.directEvidenceTypes c, IsInt t := by
  intro t ht
  obtain ⟨evidence, hmem, rfl⟩ := List.mem_map.mp ht
  obtain ⟨k, hk⟩ := Dict.mem_values_iff.mp (List.mem_filter.mp hmem).1
  exact (h.typed.evidence hk).type

/-- The statistics a claim is judged by: none for rule `0`, else those of its pair. -/
theorem ruleStatsModifier_eq {claim : Claim} (hget : e.claims.get? c = some claim) :
    ∃ rule version : Int, claim.createdByRule = .int rule ∧
      claim.createdByRuleVersion = .int version ∧
      e.ruleStatsModifierForClaim c =
        if rule = 0 then .ok (.fin 1)
        else Confidence.statsReading (e.ruleStats.get? (rule, version)) := by
  obtain ⟨rule, hrule⟩ := (h.typed.claim hget).createdByRule
  obtain ⟨version, hversion⟩ := (h.typed.claim hget).createdByRuleVersion
  refine ⟨rule, version, hrule, hversion, ?_⟩
  rw [Engine.ruleStatsModifierForClaim, Engine.subscript_ok_iff.mpr hget]
  simp only [bind, Except.bind, hrule, hversion, Json.int_eq_int, decide_eq_true_eq,
    Engine.ruleStatsLookup, Json.hash, Json.key?_int, HKey.toInt?_int, pure, Except.pure]
  split
  · rfl
  · cases e.ruleStats.get? (rule, version) <;> rfl

include hc

/-- A call that writes nothing moves nothing; one that writes is judged by its writes. -/
theorem moves_of_writes {o : Op} {compare : ℚ → ℚ → Prop} (hrefl : ∀ q, compare q q)
    (hwrites : ∀ {r e'}, o.run e = .ok r e' → Writes e o r e' → ∀ {x y : Factors},
      e.Factored c x → x.InRange → e'.Factored c y → y.InRange → compare x.product y.product) :
    Moves c e (finalState (o.run e)) compare := by
  have h' := h.op o
  have happend := (Op.frame h o).toAppendOnly
  -- a call that raised or changed nothing moves nothing
  rcases h.typed.outcome_cases (o.outcome_cases e) with ⟨err, hrun⟩ | ⟨r, hrun⟩ | ⟨r, e', hrun, hw⟩
  · rw [hrun]
    exact .refl h hc hrefl
  · rw [hrun]
    exact .refl h hc hrefl
  · rw [hrun] at h' happend ⊢
    obtain ⟨claim, hget⟩ := Dict.contains_iff.mp hc
    obtain ⟨status, hget'⟩ := happend.claims hget
    exact .of_factors h h' hc (Dict.contains_of_get? hget') (hwrites hrun hw)

/-- A call after which every factor is at most what it was. -/
theorem neverRaises {o : Op}
    (hwrites : ∀ {r e'}, o.run e = .ok r e' → Writes e o r e' → ∀ {x y : Factors},
      e.Factored c x → e'.Factored c y → y.Below x) :
    Moves c e (finalState (o.run e)) fun before after => after ≤ before :=
  h.moves_of_writes hc (fun _ => le_rfl) fun hrun hw _ _ hx hrange hy hrange' =>
    (hwrites hrun hw hx hy).product_le hrange' hrange

/-- A call after which every factor is at least what it was. -/
theorem neverLowers {o : Op}
    (hwrites : ∀ {r e'}, o.run e = .ok r e' → Writes e o r e' → ∀ {x y : Factors},
      e.Factored c x → e'.Factored c y → x.Below y) :
    Moves c e (finalState (o.run e)) fun before after => before ≤ after :=
  h.moves_of_writes hc (fun _ => le_rfl) fun hrun hw _ _ hx hrange hy hrange' =>
    (hwrites hrun hw hx hy).product_le hrange hrange'

/-- A new or a shared gap is one more reference, open or not; no resolution is taken back. -/
theorem addGap_moves (claimId gapType requiredEvidenceType : Int) (severity : PyFloat)
    (ruleId : Int) :
    Moves c e (finalState ((Op.addGap claimId gapType requiredEvidenceType severity ruleId).run e))
      fun before after => after ≤ before := by
  refine h.neverRaises hc fun {r e'} hrun hw {x y} hx hy => ?_
  have hgrow : Grows e e' := .writes h.counters hw
  -- a new reference touches the gaps of the claim and nothing else that is read
  have hshared : SameRecords e e' ∧ e'.ruleStats = e.ruleStats ∧
      e'.hintEvidenceTypes = e.hintEvidenceTypes ∧ e'.gapResolutions = e.gapResolutions := by
    cases hw with
    | shareGap => exact ⟨⟨rfl, rfl, rfl, rfl⟩, rfl, rfl, rfl⟩
    | addGap => exact ⟨⟨rfl, rfl, rfl, rfl⟩, rfl, rfl, rfl⟩
    | setHints onHints => cases onHints
  obtain ⟨hrecords, hstats, hhints, hresolutions⟩ := hshared
  refine hrecords.symm.below hy hx ?_ (hrecords.ruleStats_eq hstats hx hy).le
    (hrecords.evidenceType_eq hhints hx hy).le
  refine gap_le_of_unresolved (unresolvedGaps_subset hgrow.gapRefs fun hclosed => ?_) hx.gap hy.gap
  rwa [hresolutions] at hclosed

/-- A resolution closes gaps and opens none. -/
theorem resolveGapsForEvidence_moves (evidenceId : Int) :
    Moves c e (finalState ((Op.resolveGapsForEvidence evidenceId).run e))
      fun before after => before ≤ after := by
  refine h.neverLowers hc fun {r e'} hrun hw {x y} hx hy => ?_
  have hgrow : Grows e e' := .writes h.counters hw
  -- only the resolutions were written
  have hshared : SameRecords e e' ∧ e'.ruleStats = e.ruleStats ∧
      e'.hintEvidenceTypes = e.hintEvidenceTypes ∧ e'.claimGapRefs = e.claimGapRefs := by
    cases hw with
    | resolveGaps => exact ⟨⟨rfl, rfl, rfl, rfl⟩, rfl, rfl, rfl⟩
    | setHints onHints => cases onHints
  obtain ⟨hrecords, hstats, hhints, hrefs⟩ := hshared
  refine hrecords.below hx hy ?_ (hrecords.ruleStats_eq hstats hx hy).ge
    (hrecords.evidenceType_eq hhints hx hy).ge
  refine gap_le_of_unresolved (unresolvedGaps_subset (fun hg => ?_) fun hclosed => ?_) hy.gap hx.gap
  · rwa [hrefs] at hg
  · obtain ⟨v, hv⟩ := Dict.contains_iff.mp hclosed
    exact Dict.contains_of_get? (hgrow.resolutions hv)

end Sound

/-! ## Hint types

The set of hints after each call on it, and with it the side to which the factor moves. -/

/-- The hint set after a call that returned. -/
theorem hints_of_setHints {e e' : Engine} {o : Op} {r : Ret} (ho : o.onHints = true)
    (hw : Writes e o r e') : SameRecords e e' ∧ e'.ruleStats = e.ruleStats ∧
      e'.claimGapRefs = e.claimGapRefs ∧ e'.gapResolutions = e.gapResolutions := by
  cases hw with
  | setHints => exact ⟨⟨rfl, rfl, rfl, rfl⟩, rfl, rfl, rfl⟩
  | _ => cases ho

theorem registerHints_subset {e e' : Engine} {types : Json} {r : Ret}
    (hrun : (Op.registerHintEvidenceTypes types).run e = .ok r e') :
    e.hintEvidenceTypes ⊆ e'.hintEvidenceTypes := by
  rw [Op.run, run_map] at hrun
  rcases Engine.registerHintEvidenceTypes_cases types e with ⟨err, h⟩ | h | ⟨validated, _, _, h⟩
  · rw [h] at hrun
    cases hrun
  · rw [h] at hrun
    cases hrun
    exact Finset.Subset.refl _
  · rw [h] at hrun
    cases hrun
    exact Finset.subset_union_left

theorem unregisterHints_subset {e e' : Engine} {types : Json} {r : Ret}
    (hrun : (Op.unregisterHintEvidenceTypes types).run e = .ok r e') :
    e'.hintEvidenceTypes ⊆ e.hintEvidenceTypes := by
  rw [Op.run, run_map] at hrun
  rcases Engine.unregisterHintEvidenceTypes_cases types e with ⟨err, h⟩ | h | ⟨validated, _, _, h⟩
  · rw [h] at hrun
    cases hrun
  · rw [h] at hrun
    cases hrun
    exact Finset.Subset.refl _
  · rw [h] at hrun
    cases hrun
    exact Finset.sdiff_subset

theorem clearHints_subset {e e' : Engine} {r : Ret}
    (hrun : Op.clearHintEvidenceTypes.run e = .ok r e') :
    e'.hintEvidenceTypes ⊆ e.hintEvidenceTypes := by
  rw [Op.run, run_map] at hrun
  rcases Engine.clearHintEvidenceTypes_cases e with h | ⟨_, h⟩
  · rw [h] at hrun
    cases hrun
    exact Finset.Subset.refl _
  · rw [h] at hrun
    cases hrun
    exact Finset.empty_subset _

namespace Sound

variable {e : Engine} (h : Sound e) {c : Int}
include h

/-- With more hints the claim is more likely to rest on hints alone. -/
theorem evidenceType_le {e' : Engine} {x y : Factors} (hrecords : SameRecords e e')
    (hsub : e.hintEvidenceTypes ⊆ e'.hintEvidenceTypes) (hx : e.Factored c x)
    (hy : e'.Factored c y) : y.evidenceType ≤ x.evidenceType := by
  have hy' := hy.evidenceType
  rw [Engine.evidenceTypeModifierForClaim, hrecords.directEvidenceTypes] at hy'
  exact Confidence.evidenceTypeModifier_antitone (h.directEvidenceTypes_ints c) hsub
    hx.evidenceType hy'

variable (hc : e.claims.contains c = true)
include hc

/-- So registering hints never raises the confidence. -/
theorem registerHints_moves (types : Json) :
    Moves c e (finalState ((Op.registerHintEvidenceTypes types).run e))
      fun before after => after ≤ before := by
  refine h.neverRaises hc fun {r e'} hrun hw {x y} hx hy => ?_
  obtain ⟨hrecords, hstats, hrefs, hresolutions⟩ := hints_of_setHints rfl hw
  exact hrecords.symm.below hy hx (hx.gap_eq hy hrefs hresolutions).le
    (hrecords.ruleStats_eq hstats hx hy).le
    (h.evidenceType_le hrecords (registerHints_subset hrun) hx hy)

/-- The two calls that shrink the hint set. -/
theorem fewerHints_moves {o : Op} (ho : o.onHints = true)
    (hsub : ∀ {r e'}, o.run e = .ok r e' → e'.hintEvidenceTypes ⊆ e.hintEvidenceTypes) :
    Moves c e (finalState (o.run e)) fun before after => before ≤ after := by
  refine h.neverLowers hc fun {r e'} hrun hw {x y} hx hy => ?_
  have hsound' : Sound e' := by
    have hop := h.op o
    rwa [hrun] at hop
  obtain ⟨hrecords, hstats, hrefs, hresolutions⟩ := hints_of_setHints ho hw
  exact hrecords.below hx hy (hx.gap_eq hy hrefs hresolutions).ge
    (hrecords.ruleStats_eq hstats hx hy).ge
    (hsound'.evidenceType_le hrecords.symm (hsub hrun) hy hx)

end Sound

/-! ## Rule statistics

An update counts firings and may replace the precision, which is where it can lower the confidence.
-/

/-- `observed_precision` is absent, or given where one is stored that is not above it. -/
def PrecisionNotLowered (current : RuleStats) (observedPrecision : Option ScoreValue) : Prop :=
  observedPrecision = none ∨ ∃ given stored, observedPrecision = some given ∧
    current.observedPrecision = some stored ∧ stored.value ≤ given.value

/-- What the call writes is what the condition speaks of. -/
theorem PrecisionNotLowered.kept {current : RuleStats} {observedPrecision : Option ScoreValue}
    (h : PrecisionNotLowered current observedPrecision) :
    Confidence.PrecisionKept current.observedPrecision
      (observedPrecision.or current.observedPrecision) := by
  rcases h with rfl | ⟨given, stored, rfl, hstored, hle⟩
  · exact .inl rfl
  · exact .inr ⟨stored, given, hstored, rfl, hle⟩

/-- What the update does to the two fields the factor reads. -/
theorem updatedStats_grow {current stats : RuleStats} (h : current.Typed)
    {firingDelta trueDelta falseDelta : Int}
    {observedPrecision falsePositiveRate : Option ScoreValue}
    (hupdated : Engine.updatedStats current firingDelta trueDelta falseDelta observedPrecision
      falsePositiveRate = .ok stats) :
    ∃ n : Int, current.firingCount = .int n ∧ stats.firingCount = .int (n + firingDelta) ∧
      stats.observedPrecision = observedPrecision.or current.observedPrecision := by
  obtain ⟨n, hn⟩ := h.firingCount
  obtain ⟨firingCount, hadd, hupdated⟩ := bind_ok_iff.mp hupdated
  obtain ⟨_, _, hupdated⟩ := bind_ok_iff.mp hupdated
  obtain ⟨_, _, hupdated⟩ := bind_ok_iff.mp hupdated
  cases hupdated
  rw [hn] at hadd
  cases hadd
  exact ⟨n, hn, rfl, rfl⟩

/-- An update that adds firings and keeps the precision never lowers the confidence. -/
theorem Sound.updateRuleStats_moves {e : Engine} (h : Sound e) {c : Int}
    (hc : e.claims.contains c = true) (ruleId ruleVersion firingDelta trueDelta falseDelta : Int)
    (observedPrecision falsePositiveRate : Option ScoreValue) (hfiring : 0 ≤ firingDelta)
    (hprecision : ∀ current, e.ruleStats.get? (ruleId, ruleVersion) = some current →
      PrecisionNotLowered current observedPrecision) :
    Moves c e (finalState ((Op.updateRuleStats ruleId ruleVersion firingDelta trueDelta falseDelta
      observedPrecision falsePositiveRate).run e)) fun before after => before ≤ after := by
  refine h.neverLowers hc fun {r e'} hrun hw {x y} hx hy => ?_
  have hsound' : Sound e' := by
    have hop := h.op (.updateRuleStats ruleId ruleVersion firingDelta trueDelta falseDelta
      observedPrecision falsePositiveRate)
    rwa [hrun] at hop
  obtain ⟨claim, hget⟩ := Dict.contains_iff.mp hc
  cases hw with
  | @updateRuleStats _ _ _ _ _ _ _ current stats found updated changed =>
    have hrecords : SameRecords e (e.putStats (ruleId, ruleVersion) stats) := ⟨rfl, rfl, rfl, rfl⟩
    -- only the statistics factor can move; gaps and evidence types are read as before
    refine hrecords.below hx hy (hx.gap_eq hy rfl rfl).ge ?_ (hrecords.evidenceType_eq rfl hx hy).ge
    obtain ⟨rule, version, hrule, hversion, hbefore⟩ := h.ruleStatsModifier_eq hget
    have hget' : (e.putStats (ruleId, ruleVersion) stats).claims.get? c = some claim := hget
    obtain ⟨_, _, hrule', hversion', hafter⟩ := hsound'.ruleStatsModifier_eq hget'
    cases hrule.symm.trans hrule'
    cases hversion.symm.trans hversion'
    rw [hx.ruleStats] at hbefore
    rw [hy.ruleStats] at hafter
    by_cases hzero : rule = 0
    · -- a claim made by no rule reads no statistics
      rw [if_pos hzero] at hbefore hafter
      exact (PyFloat.fin.inj (Except.ok.inj (hbefore.trans hafter.symm))).le
    · rw [if_neg hzero] at hbefore hafter
      have hstats : (e.putStats (ruleId, ruleVersion) stats).ruleStats.get? (rule, version) =
          if (ruleId, ruleVersion) = (rule, version) then some stats
          else e.ruleStats.get? (rule, version) := Dict.get?_insert _ _ _ _
      rw [hstats] at hafter
      by_cases hkey : (ruleId, ruleVersion) = (rule, version)
      · -- the claim's own rule: its record is the one replaced
        obtain ⟨n, hn, hn', hprecision'⟩ := updatedStats_grow (h.typed.ruleStats found) updated
        rw [if_pos hkey, Confidence.statsReading, hn', hprecision'] at hafter
        rw [← hkey, found, Confidence.statsReading, hn] at hbefore
        exact Confidence.ruleStatsModifier_mono (by omega) (hprecision current found).kept
          hbefore.symm hafter.symm
      · -- the record of another rule or version
        rw [if_neg hkey] at hafter
        exact (PyFloat.fin.inj (Except.ok.inj (hbefore.trans hafter.symm))).le
  | setHints onHints => cases onHints

/-! ## Transitions

A transition replaces the factor of the status and nothing else, so the confidence moves by the
quotient of the two factors. -/

/-- The product with the status factor exchanged. -/
theorem Factors.product_setStatus (x : Factors) (status : ℚ) :
    { x with status }.product * x.status = x.product * status := by
  simp only [Factors.product]
  ring

/-- Only the status factor reads the status. -/
theorem factors_putTransition {e : Engine} {c : Int} {claim : Claim} {status seq : Json}
    {label : String} {x y : Factors} (hget : e.claims.get? c = some claim) (hx : e.Factored c x)
    (hy : (e.putTransition c claim status seq label).Factored c y) :
    y = { x with status := y.status } := by
  have hget' : (e.putTransition c claim status seq label).claims.get? c =
      some { claim with status } := Dict.get?_insert_self _ _ _
  have hexists : e.assertClaimExists c = .ok () :=
    Engine.assertExists_ok_iff.mpr (Dict.contains_of_get? hget)
  have hexists' : (e.putTransition c claim status seq label).assertClaimExists c = .ok () :=
    Engine.assertExists_ok_iff.mpr (Dict.contains_of_get? hget')
  -- the base and the five other modifiers read stores that a transition leaves
  have hbase : y.base = x.base := hx.base_eq hy fun hold hnew => by
    rw [hget] at hold
    rw [hget'] at hnew
    cases hold
    cases hnew
    rfl
  have hfreshness : y.freshness = x.freshness :=
    Engine.Factored.eq_of_reading hx.freshness hy.freshness (by
      unfold Engine.freshnessModifierForClaim Engine.activeContradictionsByFreshness
      rw [hexists, hexists']
      rfl)
  have hcount : y.count = x.count :=
    Engine.Factored.eq_of_reading hx.count hy.count (by
      unfold Engine.countModifierForClaim Engine.activeContradictionsForClaim
      rw [hexists, hexists']
      rfl)
  have hrule : y.ruleStats = x.ruleStats :=
    Engine.Factored.eq_of_reading hx.ruleStats hy.ruleStats (by
      unfold Engine.ruleStatsModifierForClaim
      rw [Engine.subscript_ok_iff.mpr hget, Engine.subscript_ok_iff.mpr hget']
      rfl)
  have hevidence : y.evidenceType = x.evidenceType :=
    Engine.Factored.eq_of_reading hx.evidenceType hy.evidenceType rfl
  have hgap : y.gap = x.gap := hx.gap_eq hy rfl rfl
  rw [← hbase, ← hfreshness, ← hgap, ← hcount, ← hrule, ← hevidence]

namespace Sound

variable {e : Engine} (h : Sound e) {c : Int}
include h

/-- **A transition that commits** replaces the status factor of its claim. -/
theorem transition_moves {t : Transition} {e' : Engine} (hrun : t.method c e = .ok true e') :
    ∃ p q : ℚ, Confidence.statusModifier t.source = .ok (.fin p) ∧
      Confidence.statusModifier t.target = .ok (.fin q) ∧
      Moves c e e' fun before after => after * p = before * q := by
  obtain ⟨⟨claim, hget, hstatus⟩, hguard⟩ := h.enabled_iff.mp ⟨e', hrun⟩
  obtain ⟨seq, _, hrun'⟩ := h.run_enabled hget hstatus hguard
  have hstate : e' = e.putTransition c claim t.target seq t.label := by
    have hsame := hrun.symm.trans hrun'
    injection hsame
  have hsound' : Sound (e.putTransition c claim t.target seq t.label) := by
    have hop := h.op (.transition t c)
    rw [Op.run, run_map, hrun'] at hop
    exact hop
  have hget' : (e.putTransition c claim t.target seq t.label).claims.get? c =
      some { claim with status := t.target } := Dict.get?_insert_self _ _ _
  obtain ⟨x, hx, -⟩ := h.exists_factors hget
  obtain ⟨y, hy, -⟩ := hsound'.exists_factors hget'
  -- the two status factors, before and after
  have hsource := hx.statusModifier hget
  rw [hstatus] at hsource
  have htarget := hy.statusModifier hget'
  refine ⟨x.status, y.status, hsource, htarget, ?_⟩
  rw [hstate]
  refine .of_factors h hsound' (Dict.contains_of_get? hget) (Dict.contains_of_get? hget') ?_
  intro x' y' hx' _ hy' _
  have hstatusX : x'.status = x.status := Engine.Factored.eq_of_reading hx.status hx'.status rfl
  have hstatusY : y'.status = y.status := Engine.Factored.eq_of_reading hy.status hy'.status rfl
  rw [factors_putTransition hget hx' hy', ← hstatusX, Factors.product_setStatus, hstatusY]

/-- Candidate and confirmed claims have the factor one. -/
theorem confirm_moves {e' : Engine} (hrun : Engine.confirmClaimIfReady c e = .ok true e') :
    Moves c e e' fun before after => after = before := by
  obtain ⟨p, q, hp, hq, score, score', hscore, hscore', hmoves⟩ :=
    h.transition_moves (t := .confirm) hrun
  obtain rfl : (1 : ℚ) = p := PyFloat.fin.inj (Except.ok.inj hp)
  obtain rfl : (1 : ℚ) = q := PyFloat.fin.inj (Except.ok.inj hq)
  exact ⟨score, score', hscore, hscore', by linarith⟩

/-- A dispute halves the confidence. -/
theorem dispute_moves {e' : Engine} (hrun : Engine.disputeClaimIfReady c e = .ok true e') :
    Moves c e e' fun before after => after = before / 2 := by
  obtain ⟨p, q, hp, hq, score, score', hscore, hscore', hmoves⟩ :=
    h.transition_moves (t := .dispute) hrun
  obtain rfl : (1 : ℚ) = p := PyFloat.fin.inj (Except.ok.inj hp)
  obtain rfl : (1 / 2 : ℚ) = q := PyFloat.fin.inj (Except.ok.inj hq)
  exact ⟨score, score', hscore, hscore', by linarith⟩

/-- And its resolution doubles it again. -/
theorem resolveDisputed_moves {e' : Engine}
    (hrun : Engine.resolveDisputedClaimIfReady c e = .ok true e') :
    Moves c e e' fun before after => after = 2 * before := by
  obtain ⟨p, q, hp, hq, score, score', hscore, hscore', hmoves⟩ :=
    h.transition_moves (t := .resolveDisputed) hrun
  obtain rfl : (1 / 2 : ℚ) = p := PyFloat.fin.inj (Except.ok.inj hp)
  obtain rfl : (1 : ℚ) = q := PyFloat.fin.inj (Except.ok.inj hq)
  exact ⟨score, score', hscore, hscore', by linarith⟩

/-- A refuted claim has no confidence. -/
theorem refute_moves {t : Transition} (ht : t.target = claimStatusRefuted) {e' : Engine}
    (hrun : t.method c e = .ok true e') : Moves c e e' fun _ after => after = 0 := by
  obtain ⟨p, q, hp, hq, score, score', hscore, hscore', hmoves⟩ := h.transition_moves hrun
  rw [ht] at hq
  obtain rfl : (0 : ℚ) = q := PyFloat.fin.inj (Except.ok.inj hq)
  -- neither source status has the modifier zero
  have hne : p ≠ 0 := by
    rintro rfl
    have hzero := (Confidence.statusModifier_zero (by cases t <;> simp [Transition.source,
      ValidStatus]) hp).mp rfl
    cases t <;> cases hzero
  have hproduct : score'.value * p = 0 := by rw [hmoves, mul_zero]
  exact ⟨score, score', hscore, hscore', (mul_eq_zero.mp hproduct).resolve_right hne⟩

/-- A confirmation of any claim, `c` itself or another. -/
theorem anyConfirm_moves (hc : e.claims.contains c = true) {d : Int} {e' : Engine}
    (hrun : Engine.confirmClaimIfReady d e = .ok true e') :
    Moves c e e' fun before after => after = before := by
  -- the confirmation of another claim is isolated from this one
  by_cases hne : c = d
  · subst hne
    exact h.confirm_moves hrun
  · have hfinal : finalState ((Op.transition .confirm d).run e) = e' := by
      rw [Op.run, finalState_map]
      show finalState (Engine.confirmClaimIfReady d e) = e'
      rw [hrun]
      rfl
    have hsame : SameConfidence c e e' := by
      rw [← hfinal]
      exact Op.sameConfidence h hc hne (by simp [Op.onOtherClaim])
    obtain ⟨claim, hget⟩ := Dict.contains_iff.mp hc
    obtain ⟨x, hx, -⟩ := h.exists_factors hget
    obtain ⟨score, hscore, -⟩ := hx.effective
    exact ⟨score, score, hscore, hsame.effective.trans hscore, rfl⟩

end Sound

/-! ## The law

For every call, and for both sides of the comparison. -/

/-- The direction in which each mutator moves the confidence of claim `c`. -/
structure ConfidenceDirection (e : Engine) (c : Int) : Prop where
  addGap : ∀ claimId gapType requiredEvidenceType severity ruleId,
    Moves c e
      (finalState ((Op.addGap claimId gapType requiredEvidenceType severity ruleId).run e))
      fun before after => after ≤ before
  registerHints : ∀ types, Moves c e (finalState ((Op.registerHintEvidenceTypes types).run e))
    fun before after => after ≤ before
  resolveGaps : ∀ evidenceId,
    Moves c e (finalState ((Op.resolveGapsForEvidence evidenceId).run e))
      fun before after => before ≤ after
  unregisterHints : ∀ types,
    Moves c e (finalState ((Op.unregisterHintEvidenceTypes types).run e))
      fun before after => before ≤ after
  clearHints : Moves c e (finalState (Op.clearHintEvidenceTypes.run e))
    fun before after => before ≤ after
  updateRuleStats : ∀ ruleId ruleVersion firingDelta trueDelta falseDelta observedPrecision
      falsePositiveRate, 0 ≤ firingDelta →
    (∀ current, e.ruleStats.get? (ruleId, ruleVersion) = some current →
      PrecisionNotLowered current observedPrecision) →
    Moves c e (finalState ((Op.updateRuleStats ruleId ruleVersion firingDelta trueDelta falseDelta
      observedPrecision falsePositiveRate).run e)) fun before after => before ≤ after
  confirm : ∀ d e', Engine.confirmClaimIfReady d e = .ok true e' →
    Moves c e e' fun before after => after = before
  dispute : ∀ e', Engine.disputeClaimIfReady c e = .ok true e' →
    Moves c e e' fun before after => after = before / 2
  resolveDisputed : ∀ e', Engine.resolveDisputedClaimIfReady c e = .ok true e' →
    Moves c e e' fun before after => after = 2 * before
  refute : ∀ t : Transition, t.target = claimStatusRefuted → ∀ e', t.method c e = .ok true e' →
    Moves c e e' fun _ after => after = 0

/-- **The direction of change of confidence.** -/
theorem confidence_direction {s : Session} (h : s.Reachable) {c : Int}
    (hc : s.engine.claims.contains c = true) : ConfidenceDirection s.engine c where
  addGap := h.sound.addGap_moves hc
  registerHints := h.sound.registerHints_moves hc
  resolveGaps := h.sound.resolveGapsForEvidence_moves hc
  unregisterHints := fun _ => h.sound.fewerHints_moves hc rfl unregisterHints_subset
  clearHints := h.sound.fewerHints_moves hc rfl clearHints_subset
  updateRuleStats := h.sound.updateRuleStats_moves hc
  confirm := fun _ _ hrun => h.sound.anyConfirm_moves hc hrun
  dispute := fun _ hrun => h.sound.dispute_moves hrun
  resolveDisputed := fun _ hrun => h.sound.resolveDisputed_moves hrun
  refute := fun _ ht _ hrun => h.sound.refute_moves ht hrun

set_option maxRecDepth 4000 in
/-- The evidence of the second claim closes the shared gap, and the confidence of the first, which
the open gap had lowered by a tenth, does go up. -/
theorem confidence_direction_rivals :
    (∃ before after, Session.rivals.engine.computeEffectiveConfidence 1 = .ok before ∧
      (finalState ((Op.resolveGapsForEvidence 2).run
        Session.rivals.engine)).computeEffectiveConfidence 1 = .ok after ∧
      before.value < after.value) ∧
      Moves 1 Session.rivals.engine
        (finalState ((Op.resolveGapsForEvidence 2).run Session.rivals.engine))
        fun before after => before ≤ after :=
  ⟨⟨_, _, by with_unfolding_all rfl, by with_unfolding_all rfl, by norm_num⟩,
    (confidence_direction Session.rivals_reachable (by with_unfolding_all rfl)).resolveGaps 2⟩

end Ragcore
