import Ragcore.Invariant.Direction

/-!
# Ragcore — a newest, strongest contradiction never helps

Registering a contradiction replaces the newest one, whose strength sets the freshness factor, and
joins one more strength to the average that sets the count factor. Where the new one is newest and
at least as strong as all the others, neither factor rises; resolving it gives back the active set
there was before.

* **`freshnessFactor_of_greatest`**, **`countFactor`** — the two factors over the active set.
* **`average_insert`** — the average does not fall when a maximum joins.
* **`newest_contradiction`** — the law, with the resolution that undoes it.
-/

namespace Ragcore

/-! ## The two factors over the active set

The freshness looks at the newest active contradiction, the count at the average of all. -/

/-- The strength of a stored evidence; no record without one is stored. -/
def Engine.strengthAt (e : Engine) (evidenceId : Int) : ℚ :=
  (e.strengthOf evidenceId).toOption.getD 0

/-- The count factor, of a set of evidences and their strengths. -/
def countFactor (active : Finset Int) (strength : Int → ℚ) : ℚ :=
  if active.card < 2 then 1 else 1 - (∑ v ∈ active, strength v) / active.card * (1 / 4)

theorem average_insert {active : Finset Int} {strength : Int → ℚ} {v : Int} (hnew : v ∉ active)
    (hne : active.Nonempty) (hmax : ∀ w ∈ active, strength w ≤ strength v) :
    (∑ w ∈ active, strength w) / active.card ≤
      (∑ w ∈ insert v active, strength w) / (insert v active).card := by
  have hcard : (0 : ℚ) < active.card := by exact_mod_cast Finset.card_pos.mpr hne
  have hsum : ∑ w ∈ active, strength w ≤ active.card * strength v := by
    calc ∑ w ∈ active, strength w
        ≤ ∑ _w ∈ active, strength v := Finset.sum_le_sum hmax
      _ = active.card * strength v := by rw [Finset.sum_const, nsmul_eq_mul]
  rw [Finset.sum_insert hnew, Finset.card_insert_of_notMem hnew]
  push_cast
  rw [div_le_div_iff₀ hcard (by linarith)]
  linarith

/-- Joining a maximum never raises the factor, also where it is the first or the second. -/
theorem countFactor_insert_le {active : Finset Int} {strength : Int → ℚ} {v : Int}
    (hnew : v ∉ active) (hnonneg : ∀ w ∈ insert v active, 0 ≤ strength w)
    (hmax : ∀ w ∈ active, strength w ≤ strength v) :
    countFactor (insert v active) strength ≤ countFactor active strength := by
  unfold countFactor
  -- below two contradictions the count has no part in the product
  by_cases hfew : active.card < 2
  · rw [if_pos hfew]
    split
    · exact le_rfl
    · have hsum : 0 ≤ ∑ w ∈ insert v active, strength w := Finset.sum_nonneg hnonneg
      have haverage : 0 ≤ (∑ w ∈ insert v active, strength w) / (insert v active).card := by
        positivity
      linarith
  · have hne : active.Nonempty := Finset.card_pos.mp (by omega)
    have hmany : ¬ (insert v active).card < 2 := by
      rw [Finset.card_insert_of_notMem hnew]
      omega
    rw [if_neg hfew, if_neg hmany]
    have haverage := average_insert hnew hne hmax
    linarith

/-- The list sorted for the loop and the set have the same sum. -/
theorem sum_map_sortSet (s : Finset Int) (f : Int → ℚ) :
    ((sortSet (· ≤ ·) s).map f).sum = ∑ v ∈ s, f v := by
  rw [sortSet_eq_sort, ← Finset.sum_map_toList]
  exact ((Finset.sort_perm_toList s _).map f).sum_eq

namespace Sound

variable {e : Engine} (h : Sound e) {c : Int} (hc : e.claims.contains c = true)
include h

theorem strengthOf_eq {v : Int} (hv : e.evidences.contains v = true) :
    e.strengthOf v = .ok (e.strengthAt v) := by
  obtain ⟨strength, hs⟩ := h.strengthOf_returns hv
  rw [Engine.strengthAt, hs]
  rfl

omit h in
theorem strengthAt_nonneg (v : Int) : 0 ≤ e.strengthAt v := by
  rw [Engine.strengthAt]
  cases hs : e.strengthOf v with
  | ok strength => exact (Engine.strengthOf_range hs).1
  | error err => exact le_rfl

include hc

theorem countModifier_eq : e.countModifierForClaim c =
    .ok (.fin (countFactor (e.activeContradictions c) e.strengthAt)) := by
  have hstrengths : (sortSet (· ≤ ·) (e.activeContradictions c)).mapM e.strengthOf =
      .ok ((sortSet (· ≤ ·) (e.activeContradictions c)).map e.strengthAt) :=
    mapM_eq_ok_map fun v hv => h.strengthOf_eq (h.active_exists (mem_sortSet.mp hv))
  have hlength : (sortSet (· ≤ ·) (e.activeContradictions c)).length =
      (e.activeContradictions c).card := by
    rw [sortSet_eq_sort, Finset.length_sort]
  refine bind_ok_iff.mpr ⟨_, Engine.activeContradictionsForClaim_eq hc, ?_⟩
  refine bind_ok_iff.mpr ⟨_, hstrengths, ?_⟩
  unfold Confidence.countModifier countFactor
  rw [List.length_map, hlength, sum_map_sortSet]
  split <;> rfl

omit h in
theorem freshnessModifier_of_empty (hempty : e.activeContradictions c = ∅) :
    e.freshnessModifierForClaim c = .ok (.fin 1) := by
  refine bind_ok_iff.mpr ⟨_, Engine.activeContradictionsByFreshness_eq hc, ?_⟩
  rw [hempty]
  rfl

theorem freshnessModifier_of_greatest {v : Int}
    (hv : IsGreatest (e.activeContradictions c : Set Int) v) :
    e.freshnessModifierForClaim c = .ok (.fin (1 - e.strengthAt v * (1 / 2))) := by
  obtain ⟨rest, hsorted⟩ := sortSet_desc_cons_iff.mpr hv
  refine bind_ok_iff.mpr ⟨_, Engine.activeContradictionsByFreshness_eq hc, ?_⟩
  rw [hsorted]
  exact bind_ok_iff.mpr ⟨_, h.strengthOf_eq (h.active_exists hv.1), rfl⟩

end Sound

/-! ## Registering and resolving

A contradiction that is registered and then resolved leaves the active set as it was. -/

/-- Evidence `v` of another claim, not yet held against `c`, is newer than every active
contradiction of `c` and at least as strong. -/
structure NewestStrongest (e : Engine) (c v : Int) : Prop where
  ofOther : ∃ evidence, e.evidences.get? v = some evidence ∧ evidence.claimId ≠ c
  unregistered : v ∉ e.contradictions.getD c ∅
  newest : ∀ w ∈ e.activeContradictions c, w < v
  strongest : ∀ w ∈ e.activeContradictions c, ∀ p q, e.strengthOf w = .ok p →
    e.strengthOf v = .ok q → p ≤ q

namespace NewestStrongest

variable {e : Engine} {c v : Int} (hv : NewestStrongest e c v)
include hv

theorem stored : e.evidences.contains v = true := by
  obtain ⟨evidence, hget, -⟩ := hv.ofOther
  exact Dict.contains_of_get? hget

theorem unresolved (h : Sound e) : v ∉ e.resolvedContradictions.getD c ∅ := fun hres =>
  hv.unregistered (h.references.resolvedSubset hres)

theorem active_registered (h : Sound e) :
    (e.putContradiction c v).activeContradictions c = insert v (e.activeContradictions c) := by
  have hbucket : (e.putContradiction c v).contradictions.getD c ∅ =
      insert v (e.contradictions.getD c ∅) := by
    rw [Engine.putContradiction, Dict.getD_insert, if_pos rfl]
  unfold Engine.activeContradictions
  rw [hbucket]
  exact Finset.insert_sdiff_of_notMem _ (hv.unresolved h)

/-- The active set is the one there was before. -/
theorem active_resolved :
    ((e.putContradiction c v).putContradictionResolution c v).activeContradictions c =
      e.activeContradictions c := by
  have hbucket : ((e.putContradiction c v).putContradictionResolution c v).contradictions.getD c ∅ =
      insert v (e.contradictions.getD c ∅) := by
    simp only [Engine.putContradictionResolution, Engine.putContradiction, Dict.getD_insert, if_pos]
  have hresolved :
      ((e.putContradiction c v).putContradictionResolution c v).resolvedContradictions.getD c ∅ =
        insert v (e.resolvedContradictions.getD c ∅) := by
    simp only [Engine.putContradictionResolution, Engine.putContradiction, Dict.getD_insert, if_pos]
  unfold Engine.activeContradictions
  rw [hbucket, hresolved, Finset.insert_sdiff_insert]
  exact Finset.sdiff_insert_of_notMem hv.unregistered _

/-- The scan for direct evidence skips the evidences of other claims whatever is excluded. -/
theorem directEvidenceTypes_eq (h : Sound e) {e' : Engine} (hevidences : e'.evidences = e.evidences)
    (hexcluded : ∀ w, w ∈ e'.contradictions.getD c ∅ ∪ e'.resolvedContradictions.getD c ∅ ↔
      w = v ∨ w ∈ e.contradictions.getD c ∅ ∪ e.resolvedContradictions.getD c ∅) :
    e'.directEvidenceTypes c = e.directEvidenceTypes c := by
  obtain ⟨evidence, hget, hother⟩ := hv.ofOther
  unfold Engine.directEvidenceTypes
  simp only [hevidences, hexcluded]
  congr 1
  refine List.filter_congr fun record hrecord => ?_
  obtain ⟨k, hk⟩ := Dict.mem_values_iff.mp hrecord
  have hid := h.references.evidenceId hk
  -- the evidence itself, or one that counts as it did
  by_cases hsame : record.id = v
  · have hrecord : record = evidence := by
      rw [← hid, hsame, hget] at hk
      exact (Option.some.inj hk).symm
    simp [hrecord, hother]
  · simp [hsame]

/-! ## The law

A newest contradiction of at least the strength of the others never raises the confidence, and its
resolution restores it. -/

theorem run_register (hc : e.claims.contains c = true) :
    Engine.registerContradiction c v e = .ok true (e.putContradiction c v) :=
  Engine.registerContradiction_ok hc hv.stored hv.unregistered

theorem run_resolve (h : Sound e) (hc : e.claims.contains c = true) :
    Engine.registerContradictionResolution c v (e.putContradiction c v) =
      .ok true ((e.putContradiction c v).putContradictionResolution c v) := by
  have hregistered : v ∈ (e.putContradiction c v).contradictions.getD c ∅ := by
    rw [Engine.putContradiction, Dict.getD_insert, if_pos rfl]
    exact Finset.mem_insert_self _ _
  exact Engine.registerContradictionResolution_ok (e := e.putContradiction c v) hc hv.stored
    hregistered (hv.unresolved h)

/-- The new one sets the freshness factor: its strength is at least that of the newest before. -/
theorem freshness_le (h : Sound e) (h' : Sound (e.putContradiction c v))
    (hc : e.claims.contains c = true) {x y : Factors} (hx : e.Factored c x)
    (hy : (e.putContradiction c v).Factored c y) (hrange : y.InRange) :
    y.freshness ≤ x.freshness := by
  -- the first contradiction, or a newer one than the newest
  rcases (e.activeContradictions c).eq_empty_or_nonempty with hempty | hne
  · have hone : x.freshness = 1 := Engine.Factored.eq_of_reading
      (Sound.freshnessModifier_of_empty hc hempty) hx.freshness rfl
    rw [hone]
    exact hrange.freshness.2
  · have hgreatest := (e.activeContradictions c).isGreatest_max' hne
    have hnewest : IsGreatest ((e.putContradiction c v).activeContradictions c : Set Int) v := by
      rw [hv.active_registered h]
      refine ⟨by simp, fun w hw => ?_⟩
      rcases Finset.mem_insert.mp hw with rfl | hold
      · exact le_rfl
      · exact (hv.newest w hold).le
    have hbefore : x.freshness = 1 - e.strengthAt _ * (1 / 2) := Engine.Factored.eq_of_reading
      (h.freshnessModifier_of_greatest hc hgreatest) hx.freshness rfl
    have hafter : y.freshness = 1 - e.strengthAt v * (1 / 2) := Engine.Factored.eq_of_reading
      (h'.freshnessModifier_of_greatest hc hnewest) hy.freshness rfl
    have hstronger := hv.strongest _ hgreatest.1 _ _
      (h.strengthOf_eq (h.active_exists hgreatest.1)) (h.strengthOf_eq hv.stored)
    linarith

theorem count_le (h : Sound e) (h' : Sound (e.putContradiction c v))
    (hc : e.claims.contains c = true) {x y : Factors} (hx : e.Factored c x)
    (hy : (e.putContradiction c v).Factored c y) : y.count ≤ x.count := by
  have hbefore : x.count = countFactor (e.activeContradictions c) e.strengthAt :=
    Engine.Factored.eq_of_reading (h.countModifier_eq hc) hx.count rfl
  have hafter : y.count = countFactor ((e.putContradiction c v).activeContradictions c)
      e.strengthAt := Engine.Factored.eq_of_reading (h'.countModifier_eq hc) hy.count rfl
  rw [hbefore, hafter, hv.active_registered h]
  refine countFactor_insert_le (fun hmem => hv.unregistered (Finset.mem_sdiff.mp hmem).1)
    (fun w _ => Sound.strengthAt_nonneg w) fun w hw => ?_
  exact hv.strongest w hw _ _ (h.strengthOf_eq (h.active_exists hw)) (h.strengthOf_eq hv.stored)

theorem register_moves (h : Sound e) (hc : e.claims.contains c = true) :
    Moves c e (e.putContradiction c v) fun before after => after ≤ before := by
  have h' : Sound (e.putContradiction c v) := by
    have hop := h.op (.registerContradiction c v)
    rw [Op.run, run_map, hv.run_register hc] at hop
    exact hop
  have htypes : (e.putContradiction c v).directEvidenceTypes c = e.directEvidenceTypes c := by
    refine hv.directEvidenceTypes_eq h rfl fun w => ?_
    simp [Engine.putContradiction, Dict.getD_insert]
  refine .of_factors h h' hc hc fun {x y} hx hrange hy hrange' => ?_
  -- two factors do not rise, the others are the same
  have hbelow : y.Below x := {
    base := (hx.base_eq hy fun hget hget' => by
      cases hget.symm.trans hget'
      rfl).le
    status := (Engine.Factored.eq_of_reading hx.status hy.status rfl).le
    freshness := hv.freshness_le h h' hc hx hy hrange'
    gap := (hx.gap_eq hy rfl rfl).le
    count := hv.count_le h h' hc hx hy
    ruleStats := (Engine.Factored.eq_of_reading hx.ruleStats hy.ruleStats rfl).le
    evidenceType := (Engine.Factored.eq_of_reading hx.evidenceType hy.evidenceType (by
      rw [Engine.evidenceTypeModifierForClaim, htypes]
      rfl)).le }
  exact hbelow.product_le hrange' hrange

/-- The active set and the direct evidence are read as before, the rest is untouched. -/
theorem resolve_restores (h : Sound e) :
    ((e.putContradiction c v).putContradictionResolution c v).computeEffectiveConfidence c =
      e.computeEffectiveConfidence c := by
  have hactive := hv.active_resolved
  -- the active set is the old one, so both factors are
  have htypes : ((e.putContradiction c v).putContradictionResolution c v).directEvidenceTypes c =
      e.directEvidenceTypes c := by
    refine hv.directEvidenceTypes_eq h rfl fun w => ?_
    simp only [Engine.putContradictionResolution, Engine.putContradiction, Dict.getD_insert,
      if_pos, Finset.mem_union, Finset.mem_insert]
    tauto
  refine Engine.computeEffectiveConfidence_congr rfl rfl ?_ rfl ?_ rfl ?_
  · unfold Engine.freshnessModifierForClaim Engine.activeContradictionsByFreshness
    rw [hactive]
    rfl
  · unfold Engine.countModifierForClaim Engine.activeContradictionsForClaim
    rw [hactive]
    rfl
  · rw [Engine.evidenceTypeModifierForClaim, htypes]
    rfl

end NewestStrongest

/-- **A newest, strongest contradiction never helps a claim**, and resolving it undoes it. -/
theorem newest_contradiction {s : Session} (h : s.Reachable) {c v : Int}
    (hc : s.engine.claims.contains c = true) (hv : NewestStrongest s.engine c v) :
    ∃ e₁ e₂, Engine.registerContradiction c v s.engine = .ok true e₁ ∧
      Engine.registerContradictionResolution c v e₁ = .ok true e₂ ∧
      Moves c s.engine e₁ (fun before after => after ≤ before) ∧
      e₂.computeEffectiveConfidence c = s.engine.computeEffectiveConfidence c :=
  ⟨_, _, hv.run_register hc, hv.run_resolve h.sound hc, hv.register_moves h.sound hc,
    hv.resolve_restores h.sound⟩

set_option maxRecDepth 2000 in
/-- Evidence 4 against a claim that has two contradictions already, both older and weaker: the
freshness of 3 gives way to that of 4, and the average is taken over three. -/
theorem newest_contradiction_rivals :
    Session.rivals.engine.activeContradictions 2 = {1, 3} ∧
      ∃ e₁ e₂, Engine.registerContradiction 2 4 Session.rivals.engine = .ok true e₁ ∧
        Engine.registerContradictionResolution 2 4 e₁ = .ok true e₂ ∧
        Moves 2 Session.rivals.engine e₁ (fun before after => after ≤ before) ∧
        e₂.computeEffectiveConfidence 2 =
          Session.rivals.engine.computeEffectiveConfidence 2 := by
  have hactive : Session.rivals.engine.activeContradictions 2 = {1, 3} := by
    decide +kernel
  have howner : (Session.rivals.engine.evidences.get? 4).map Evidence.claimId = some 1 := by
    decide +kernel
  obtain ⟨evidence, hget, hclaim⟩ := Option.map_eq_some_iff.mp howner
  have hbucket : Session.rivals.engine.contradictions.getD 2 ∅ = {1, 3} := by
    decide +kernel
  have hstrengths : Session.rivals.engine.strengthOf 1 = .ok (1 / 4) ∧
      Session.rivals.engine.strengthOf 3 = .ok (1 / 2) ∧
      Session.rivals.engine.strengthOf 4 = .ok (3 / 4) := by
    refine ⟨?_, ?_, ?_⟩ <;> with_unfolding_all rfl
  obtain ⟨hone, hthree, hfour⟩ := hstrengths
  refine ⟨hactive, newest_contradiction Session.rivals_reachable (by with_unfolding_all rfl) {
    ofOther := ⟨evidence, hget, by rw [hclaim]; decide⟩
    unregistered := by rw [hbucket]; decide
    newest := by rw [hactive]; decide
    strongest := fun w hw p q hp hq => ?_ }⟩
  rw [hfour] at hq
  cases hq
  rw [hactive, Finset.mem_insert, Finset.mem_singleton] at hw
  rcases hw with rfl | rfl
  · rw [hone] at hp
    cases hp
    norm_num
  · rw [hthree] at hp
    cases hp
    norm_num

end Ragcore
