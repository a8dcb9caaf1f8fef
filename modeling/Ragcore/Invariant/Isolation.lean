import Ragcore.Invariant.Confidence
import Ragcore.Invariant.Frame

/-!
# Ragcore — confidence isolation between claims

The six modifiers of a claim read stores that all claims share: evidences are scanned globally,
gaps are shared through the dedup index, a contradiction may cite another claim's evidence.

* **`SameReads`** — all that the confidence of a claim reads, except whether its gaps are closed.
* **`Writes.sameReads`** — the mutators that work on another claim leave these reads alone.
* **`confidence_isolated`** — hence the confidence; closing gaps for an evidence can only raise it.
-/

namespace Ragcore

/-! ## What a confidence reads

The stores that the confidence of one claim is computed from, entry by entry. -/

/-- Two engines that agree on all of them, up to the resolution of gaps. -/
structure SameReads (c : Int) (e e' : Engine) : Prop where
  claim : e'.claims.get? c = e.claims.get? c
  contradictions : e'.contradictions.getD c ∅ = e.contradictions.getD c ∅
  resolved : e'.resolvedContradictions.getD c ∅ = e.resolvedContradictions.getD c ∅
  cited : ∀ v ∈ e.contradictions.getD c ∅, e'.evidences.get? v = e.evidences.get? v
  own : (e'.evidences.values.filter fun ev => ev.claimId = c) =
    e.evidences.values.filter fun ev => ev.claimId = c
  gapRefs : e'.claimGapRefs.getD c ∅ = e.claimGapRefs.getD c ∅
  ruleStats : e'.ruleStats = e.ruleStats
  hints : e'.hintEvidenceTypes = e.hintEvidenceTypes

/-- The six modifiers and the effective confidence of the claim are the same. -/
structure SameConfidence (c : Int) (e e' : Engine) : Prop where
  status : e'.statusModifierForClaim c = e.statusModifierForClaim c
  freshness : e'.freshnessModifierForClaim c = e.freshnessModifierForClaim c
  gap : e'.gapModifierForClaim c = e.gapModifierForClaim c
  count : e'.countModifierForClaim c = e.countModifierForClaim c
  ruleStats : e'.ruleStatsModifierForClaim c = e.ruleStatsModifierForClaim c
  evidenceType : e'.evidenceTypeModifierForClaim c = e.evidenceTypeModifierForClaim c
  effective : e'.computeEffectiveConfidence c = e.computeEffectiveConfidence c

theorem SameReads.refl (c : Int) (e : Engine) : SameReads c e e := by
  constructor <;> intros <;> rfl

theorem SameConfidence.refl (c : Int) (e : Engine) : SameConfidence c e e := by
  constructor <;> rfl

/-- The computation reads the claim and the six modifiers. The revision it reports is no part of
the score. -/
theorem Engine.computeEffectiveConfidence_congr {c : Int} {e e' : Engine}
    (hclaim : e'.claims.get? c = e.claims.get? c)
    (hstatus : e'.statusModifierForClaim c = e.statusModifierForClaim c)
    (hfreshness : e'.freshnessModifierForClaim c = e.freshnessModifierForClaim c)
    (hgap : e'.gapModifierForClaim c = e.gapModifierForClaim c)
    (hcount : e'.countModifierForClaim c = e.countModifierForClaim c)
    (hruleStats : e'.ruleStatsModifierForClaim c = e.ruleStatsModifierForClaim c)
    (hevidenceType : e'.evidenceTypeModifierForClaim c = e.evidenceTypeModifierForClaim c) :
    e'.computeEffectiveConfidence c = e.computeEffectiveConfidence c := by
  have hexists : e'.assertClaimExists c = e.assertClaimExists c := by
    unfold Engine.assertClaimExists Dict.contains
    rw [hclaim]
  have hsubscript : Engine.subscript e'.claims c = Engine.subscript e.claims c := by
    unfold Engine.subscript
    rw [hclaim]
  unfold Engine.computeEffectiveConfidence Engine.computeEffectiveConfidenceCore
    Engine.stateIdentity
  simp only [hexists, hsubscript, hstatus, hfreshness, hgap, hcount, hruleStats, hevidenceType,
    EngineStateIdentity.new_uuid, bind_assoc]
  rfl

namespace SameReads

variable {c : Int} {e e' : Engine} (h : SameReads c e e')
include h

theorem assertClaimExists : e'.assertClaimExists c = e.assertClaimExists c := by
  unfold Engine.assertClaimExists Dict.contains
  rw [h.claim]

theorem subscript : Engine.subscript e'.claims c = Engine.subscript e.claims c := by
  unfold Engine.subscript
  rw [h.claim]

/-- The active contradictions are a difference of two sets of the claim. -/
theorem activeContradictions : e'.activeContradictions c = e.activeContradictions c := by
  unfold Engine.activeContradictions
  rw [h.contradictions, h.resolved]

/-- Their strengths are in evidences that are there. -/
theorem strengthOf {v : Int} (hv : v ∈ e.activeContradictions c) :
    e'.strengthOf v = e.strengthOf v := by
  have hcited := h.cited v (Finset.mem_sdiff.mp hv).1
  unfold Engine.strengthOf Engine.subscript
  rw [hcited]

/-- Each modifier reads what the two engines share. -/
theorem statusModifier : e'.statusModifierForClaim c = e.statusModifierForClaim c := by
  unfold Engine.statusModifierForClaim
  rw [h.subscript]

theorem freshnessModifier : e'.freshnessModifierForClaim c = e.freshnessModifierForClaim c := by
  unfold Engine.freshnessModifierForClaim Engine.activeContradictionsByFreshness
  rw [h.assertClaimExists, h.activeContradictions]
  cases hsorted : sortSet (· ≥ ·) (e.activeContradictions c) with
  | nil => simp only [pure_bind, bind_assoc]
  | cons mostRecent rest =>
    simp only [pure_bind, bind_assoc, h.strengthOf (mem_of_sortSet_desc_cons hsorted)]

theorem countModifier : e'.countModifierForClaim c = e.countModifierForClaim c := by
  have hstrengths : (sortSet (· ≤ ·) (e.activeContradictions c)).mapM e'.strengthOf =
      (sortSet (· ≤ ·) (e.activeContradictions c)).mapM e.strengthOf :=
    mapM_congr_of_mem fun v hv => h.strengthOf (mem_sortSet.mp hv)
  unfold Engine.countModifierForClaim Engine.activeContradictionsForClaim
  rw [h.assertClaimExists, h.activeContradictions]
  simp only [pure_bind, bind_assoc]
  rw [hstrengths]

theorem ruleStatsModifier : e'.ruleStatsModifierForClaim c = e.ruleStatsModifierForClaim c := by
  have hlookup : ∀ rule version,
      e'.ruleStatsLookup rule version = e.ruleStatsLookup rule version := by
    intro rule version
    unfold Engine.ruleStatsLookup
    rw [h.ruleStats]
  unfold Engine.ruleStatsModifierForClaim
  rw [h.subscript]
  simp only [hlookup]

theorem evidenceTypeModifier :
    e'.evidenceTypeModifierForClaim c = e.evidenceTypeModifierForClaim c := by
  -- the scan keeps the claim's own evidence first, then drops the excluded
  have hscan : ∀ (e : Engine) (excluded : Finset Int),
      (e.evidences.values.filter fun ev => ev.claimId = c && ev.id ∉ excluded) =
        (e.evidences.values.filter fun ev => ev.claimId = c).filter fun ev => ev.id ∉ excluded := by
    intro e excluded
    rw [List.filter_filter]
    exact List.filter_congr fun _ _ => Bool.and_comm _ _
  unfold Engine.evidenceTypeModifierForClaim Engine.directEvidenceTypes
  rw [h.hints, h.contradictions, h.resolved]
  simp only [hscan, h.own]

/-- The one of the gaps reads their resolutions too. -/
theorem gapModifier (hclosed : ∀ g ∈ e.claimGapRefs.getD c ∅,
      e'.gapResolutions.contains g = e.gapResolutions.contains g) :
    e'.gapModifierForClaim c = e.gapModifierForClaim c := by
  unfold Engine.gapModifierForClaim
  rw [h.gapRefs]
  have hfilter : ((e.claimGapRefs.getD c ∅).filter fun g => e'.gapResolutions.contains g = false) =
      (e.claimGapRefs.getD c ∅).filter fun g => e.gapResolutions.contains g = false :=
    Finset.filter_congr fun g hg => by rw [hclosed g hg]
  rw [hfilter]

/-- So the confidences are equal as results, exceptions included. -/
theorem sameConfidence (hclosed : ∀ g ∈ e.claimGapRefs.getD c ∅,
      e'.gapResolutions.contains g = e.gapResolutions.contains g) : SameConfidence c e e' where
  status := h.statusModifier
  freshness := h.freshnessModifier
  gap := h.gapModifier hclosed
  count := h.countModifier
  ruleStats := h.ruleStatsModifier
  evidenceType := h.evidenceTypeModifier
  effective := Engine.computeEffectiveConfidence_congr h.claim h.statusModifier
    h.freshnessModifier (h.gapModifier hclosed) h.countModifier h.ruleStatsModifier
    h.evidenceTypeModifier

end SameReads

/-! ## Mutators on other claims

A call for one claim writes the entries of that claim, and new records under new ids. -/

/-- The mutators performed on claim `d`, and those that add an entity, an observation, a claim or
a relation. -/
def Op.onOtherClaim (d : Int) : Op → Bool
  | addEntity .. => true
  | addObservation .. => true
  | addClaim .. => true
  | addRelation .. => true
  | addEvidence claimId .. => claimId = d
  | addGap claimId .. => claimId = d
  | registerContradiction claimId _ => claimId = d
  | registerContradictionResolution claimId _ => claimId = d
  | transition _ claimId => claimId = d
  | _ => false

theorem getD_insert_other {α : Type} (store : Dict Int α) {c d : Int} (hne : c ≠ d)
    (a default : α) :
    (store.insert d a).getD c default = store.getD c default := by
  rw [Dict.getD_insert, if_neg (Ne.symm hne)]

/-- The writes of such a call, in a state where `c` exists. -/
theorem Writes.sameReads {e e' : Engine} {o : Op} {r : Ret} {c d : Int} (h : Sound e)
    (hc : e.claims.contains c = true) (hne : c ≠ d) (ho : o.onOtherClaim d = true)
    (hw : Writes e o r e') :
    SameReads c e e' ∧ ∀ g, e'.gapResolutions.contains g = e.gapResolutions.contains g := by
  cases hw with
  | addEntity => exact ⟨{ SameReads.refl c e with }, fun _ => rfl⟩
  | addObservation => exact ⟨{ SameReads.refl c e with }, fun _ => rfl⟩
  | addRelation => exact ⟨{ SameReads.refl c e with }, fun _ => rfl⟩
  | @addClaim _ _ _ _ _ _ _ n _ _ subject valid fresh =>
    refine ⟨{ SameReads.refl c e with claim := Dict.get?_insert_of_ne _ _ ?_ }, fun _ => rfl⟩
    -- the new claim is not `c`, which existed
    rintro rfl
    rw [Dict.contains, Engine.fresh_of_covers h.counters.claim fresh] at hc
    cases hc
  | @addEvidence claimId _ _ n _ _ claim fresh =>
    obtain rfl : claimId = d := by simpa [Op.onOtherClaim] using ho
    have hfresh : e.evidences.get? n = none := Engine.fresh_of_covers h.counters.evidence fresh
    refine ⟨{ SameReads.refl c e with cited := fun v hv => ?_, own := ?_ }, fun _ => rfl⟩
    · -- nor is the new evidence one that a contradiction of `c` names
      refine Dict.get?_insert_of_ne _ _ ?_
      rintro rfl
      have hexists := h.references.contradictionEvidence hv
      rw [Dict.contains, hfresh] at hexists
      cases hexists
    · -- the new evidence goes to the end of the scan, and is not the claim's
      change ((e.evidences.insert n _).values.filter _) = _
      rw [Dict.values, Dict.entries_insert_of_not_contains _ (Dict.get?_eq_none.mp hfresh),
        List.map_append, List.filter_append]
      simp [Dict.values, Ne.symm hne]
  | @shareGap claimId =>
    obtain rfl : claimId = d := by simpa [Op.onOtherClaim] using ho
    exact ⟨{ SameReads.refl c e with gapRefs := getD_insert_other _ hne _ _ }, fun _ => rfl⟩
  | @addGap claimId =>
    obtain rfl : claimId = d := by simpa [Op.onOtherClaim] using ho
    exact ⟨{ SameReads.refl c e with gapRefs := getD_insert_other _ hne _ _ }, fun _ => rfl⟩
  | @registerContradiction claimId =>
    obtain rfl : claimId = d := by simpa [Op.onOtherClaim] using ho
    exact ⟨{ SameReads.refl c e with contradictions := getD_insert_other _ hne _ _ }, fun _ => rfl⟩
  | @registerContradictionResolution claimId =>
    obtain rfl : claimId = d := by simpa [Op.onOtherClaim] using ho
    exact ⟨{ SameReads.refl c e with resolved := getD_insert_other _ hne _ _ }, fun _ => rfl⟩
  | @transition t claimId =>
    obtain rfl : claimId = d := by simpa [Op.onOtherClaim] using ho
    exact ⟨{ SameReads.refl c e with claim := Dict.get?_insert_of_ne _ _ (Ne.symm hne) },
      fun _ => rfl⟩
  | setHints onHints =>
    cases o with
    | registerHintEvidenceTypes | unregisterHintEvidenceTypes | clearHintEvidenceTypes => cases ho
    | _ => cases onHints
  | _ => cases ho

/-- So the confidence of every other claim is the same before and after. -/
theorem Op.sameConfidence {e : Engine} {c d : Int} (h : Sound e) (hc : e.claims.contains c = true)
    (hne : c ≠ d) {o : Op} (ho : o.onOtherClaim d = true) :
    SameConfidence c e (finalState (o.run e)) := by
  rcases h.typed.outcome_cases (o.outcome_cases e) with ⟨err, hrun⟩ | ⟨r, hrun⟩ | ⟨r, e', hrun, hw⟩
  · rw [hrun]
    exact .refl c e
  · rw [hrun]
    exact .refl c e
  · rw [hrun]
    obtain ⟨hreads, hclosed⟩ := hw.sameReads h hc hne ho
    exact hreads.sameConfidence fun g _ => hclosed g

/-! ## Closing gaps

The exception: gaps are shared by the claims on one entity, so an evidence of one claim can close a
gap of another. -/

/-- What closing gaps for an evidence does to the confidence of claim `c`. -/
structure GapsClosed (c : Int) (e e' : Engine) : Prop where
  status : e'.statusModifierForClaim c = e.statusModifierForClaim c
  freshness : e'.freshnessModifierForClaim c = e.freshnessModifierForClaim c
  count : e'.countModifierForClaim c = e.countModifierForClaim c
  ruleStats : e'.ruleStatsModifierForClaim c = e.ruleStatsModifierForClaim c
  evidenceType : e'.evidenceTypeModifierForClaim c = e.evidenceTypeModifierForClaim c
  /-- Nothing changes unless a gap of the claim was open and is closed now. -/
  unchanged : (∀ g ∈ e.claimGapRefs.getD c ∅, e'.gapResolutions.contains g = true →
    e.gapResolutions.contains g = true) → SameConfidence c e e'
  neverLower : ∃ score score', e.computeEffectiveConfidence c = .ok score ∧
    e'.computeEffectiveConfidence c = .ok score' ∧ score.value ≤ score'.value

theorem Confidence.gapModifier_antitone {m n : Nat} (h : m ≤ n) {p q : ℚ}
    (hp : Confidence.gapModifier n = .fin p) (hq : Confidence.gapModifier m = .fin q) : p ≤ q := by
  unfold Confidence.gapModifier at hp hq
  -- the cases of the source: no gap, one, two, more
  split at hq
  · cases hq
    obtain ⟨p', hp', -, hle⟩ := Confidence.gapModifier_range n
    unfold Confidence.gapModifier at hp'
    rw [hp] at hp'
    cases hp'
    exact hle
  · split at hp
    · omega
    · split at hq
      · cases hq
        split at hp
        · cases hp
          exact le_rfl
        · split at hp <;> cases hp <;> norm_num
      · split at hp
        · omega
        · split at hq
          · cases hq
            split at hp <;> cases hp <;> norm_num
          · cases hq
            split at hp
            · omega
            · cases hp
              exact le_rfl

/-- More closed gaps give a gap factor at least as large. -/
theorem SameReads.gap_le {c : Int} {e e' : Engine} (h : SameReads c e e')
    (hgrow : ∀ {g}, e.gapResolutions.contains g = true → e'.gapResolutions.contains g = true)
    {p q : ℚ} (hp : e.gapModifierForClaim c = .fin p) (hq : e'.gapModifierForClaim c = .fin q) :
    p ≤ q := by
  refine Confidence.gapModifier_antitone (Finset.card_le_card ?_) hp hq
  rw [h.gapRefs]
  intro g hg
  simp only [Finset.mem_filter] at hg ⊢
  refine ⟨hg.1, ?_⟩
  rw [← Bool.not_eq_true]
  intro hclosed
  rw [hgrow hclosed] at hg
  cases hg.2

/-- With fewer open gaps the confidence is at least what it was. -/
theorem SameReads.gapsClosed {c : Int} {e e' : Engine} (h : SameReads c e e') (hsound : Sound e)
    (hsound' : Sound e') (hc : e.claims.contains c = true)
    (hgrow : ∀ {g}, e.gapResolutions.contains g = true → e'.gapResolutions.contains g = true) :
    GapsClosed c e e' where
  status := h.statusModifier
  freshness := h.freshnessModifier
  count := h.countModifier
  ruleStats := h.ruleStatsModifier
  evidenceType := h.evidenceTypeModifier
  unchanged := fun hnone => h.sameConfidence fun g hg => by
    rw [Bool.eq_iff_iff]
    exact ⟨hnone g hg, hgrow⟩
  neverLower := by
    obtain ⟨claim, hclaim⟩ := Dict.contains_iff.mp hc
    obtain ⟨x, hx, hrange⟩ := hsound.exists_factors hclaim
    obtain ⟨y, hy, hrange'⟩ := hsound'.exists_factors (h.claim.trans hclaim)
    obtain ⟨score, hscore, hproduct⟩ := hx.effective
    obtain ⟨score', hscore', hproduct'⟩ := hy.effective
    refine ⟨score, score', hscore, hscore', ?_⟩
    -- the other six factors are read the same
    have hbelow : x.Below y := {
      base := (hx.base_eq hy fun hget hget' => by
        rw [h.claim, hget] at hget'
        cases hget'
        rfl).ge
      status := (Engine.Factored.eq_of_reading hx.status hy.status h.statusModifier).ge
      freshness :=
        (Engine.Factored.eq_of_reading hx.freshness hy.freshness h.freshnessModifier).ge
      gap := h.gap_le hgrow hx.gap hy.gap
      count := (Engine.Factored.eq_of_reading hx.count hy.count h.countModifier).ge
      ruleStats := (Engine.Factored.eq_of_reading hx.ruleStats hy.ruleStats h.ruleStatsModifier).ge
      evidenceType := (Engine.Factored.eq_of_reading hx.evidenceType hy.evidenceType
        h.evidenceTypeModifier).ge }
    rw [hproduct, hproduct']
    exact hbelow.product_le hrange hrange'

/-- Whatever evidence the call is made for. -/
theorem Op.gapsClosed {e : Engine} {c : Int} (h : Sound e) (hc : e.claims.contains c = true)
    (evidenceId : Int) :
    GapsClosed c e (finalState ((Op.resolveGapsForEvidence evidenceId).run e)) := by
  have hsound := h.op (.resolveGapsForEvidence evidenceId)
  have happend := (Op.frame h (.resolveGapsForEvidence evidenceId)).toAppendOnly
  have hreads : SameReads c e (finalState ((Op.resolveGapsForEvidence evidenceId).run e)) := by
    rcases h.typed.outcome_cases ((Op.resolveGapsForEvidence evidenceId).outcome_cases e) with
      ⟨err, hrun⟩ | ⟨r, hrun⟩ | ⟨r, e', hrun, hw⟩
    · rw [hrun]
      exact .refl c e
    · rw [hrun]
      exact .refl c e
    · rw [hrun]
      cases hw with
      | resolveGaps => exact { SameReads.refl c e with }
      | setHints onHints => cases onHints
  refine hreads.gapsClosed h hsound hc fun {g} hclosed => ?_
  obtain ⟨v, hv⟩ := Dict.contains_iff.mp hclosed
  exact Dict.contains_of_get? (happend.resolutions hv)

/-! ## The law

In every state that is reached, for every call on another claim. -/

/-- **Confidence isolation between claims.** In a reachable state, what is done to another claim
leaves the confidence of an existing claim as it was. Closing gaps, for an evidence of any claim,
changes it through the claim's own open gaps only, and never lowers it. -/
theorem confidence_isolated {s : Session} (h : s.Reachable) {c d : Int}
    (hc : s.engine.claims.contains c = true) (hne : c ≠ d) :
    (∀ o : Op, o.onOtherClaim d = true →
        SameConfidence c s.engine (finalState (o.run s.engine))) ∧
      ∀ evidenceId, GapsClosed c s.engine
        (finalState ((Op.resolveGapsForEvidence evidenceId).run s.engine)) :=
  ⟨fun _ ho => Op.sameConfidence h.sound hc hne ho,
    fun evidenceId => Op.gapsClosed h.sound hc evidenceId⟩

/-- The disputed session with a second claim. -/
def Session.twoClaims : Session :=
  Session.disputed.run [.call (.op (.addClaim 1 1 0 1 1 (.fin (9 / 10)) 0 0))]

theorem Session.twoClaims_reachable : Session.twoClaims.Reachable :=
  ⟨default, (disputedRun.map .call ++ [.roundTrip default]) ++ [_], by
    rw [Session.run, List.foldl_append]
    rfl⟩

/-- A contradiction of the second claim that cites the evidence of the first. -/
theorem confidence_isolated_twoClaims :
    SameConfidence 1 Session.twoClaims.engine
      (finalState ((Op.registerContradiction 2 1).run Session.twoClaims.engine)) :=
  (confidence_isolated Session.twoClaims_reachable (by with_unfolding_all rfl)
    (show (1 : Int) ≠ 2 by decide)).1 _ rfl

end Ragcore
