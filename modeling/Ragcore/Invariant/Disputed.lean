import Ragcore.Invariant.History
import Ragcore.Invariant.References

/-!
# Ragcore — the three exits from `DISPUTED`

`resolve_disputed_claim_if_ready` asks that no contradiction be active;
`refute_disputed_claim_if_ready` walks the active ones by ascending id until it meets a strong one;
`refute_disputed_claim_if_ready_by_freshness` sorts them the other way and looks at the first only.

* **`Transition.Enabled`** — a call of the method would return `True`.
* **`Sound.enabled_iff`** — for all six transitions: the claim has the source status and the guard
  holds. `transition_cases` is the half that needs no typed state.
* **`DisputedExits`** / **`disputed_exits`** — how the three exits relate.
-/

namespace Ragcore

/-! ## When a transition commits

A method returns `True` exactly when the status and the guard are right, and then it commits. -/

/-- The call would return `True`. -/
def Transition.Enabled (t : Transition) (e : Engine) (claimId : Int) : Prop :=
  ∃ e', t.method claimId e = .ok true e'

theorem Transition.source_eq_self (t : Transition) : t.source.eq t.source = true := by
  cases t <;> rfl

namespace Sound

variable {e : Engine} {claimId : Int} {claim : Claim}

/-- Past the gate every method goes on with the claim it read. -/
theorem run_gate {t : Transition} {rest : Claim → EngineM Bool}
    (hmethod : t.method claimId = t.gated claimId rest)
    (hget : e.claims.get? claimId = some claim) (hstatus : claim.status.eq t.source = true) :
    t.method claimId e = rest claim e := by
  have hassert : e.assertClaimExists claimId = .ok () :=
    Engine.assertExists_ok_iff.mpr (Dict.contains_of_get? hget)
  have hclaim : e.getClaim claimId = .ok claim := Engine.subscript_ok_iff.mpr hget
  rw [hmethod, Transition.gated, run_readState_bind, hassert]
  simp only
  rw [run_readState_bind, hclaim]
  simp only [hstatus, Bool.not_true, Bool.false_eq_true, if_false]

/-- The search loop stops with `True` at a strong id, and nothing before it raises. -/
theorem anyStrong_of_mem (h : Sound e) {ids : List Int} {v : Int} {strength : ℚ}
    (hids : ∀ w ∈ ids, e.evidences.contains w = true) (hv : v ∈ ids)
    (hs : e.strengthOf v = .ok strength) (hle : Engine.refutationStrengthThreshold ≤ strength) :
    e.anyStrong ids = .ok true := by
  induction ids with
  | nil => cases hv
  | cons w rest ih =>
    obtain ⟨hw, hrest⟩ := List.forall_mem_cons.mp hids
    obtain ⟨strength', hs'⟩ := h.strengthOf_returns hw
    refine bind_ok_iff.mpr ⟨strength', hs', ?_⟩
    split
    · rfl
    · rename_i hweak
      -- the loop stops at the first strong one, at `v` at the latest
      rcases List.mem_cons.mp hv with rfl | hmem
      · rw [hs] at hs'
        cases hs'
        exact absurd hle hweak
      · exact ih hrest hmem

/-- With status and guard in order the method comes to its commit. -/
theorem method_of_guard (h : Sound e) {t : Transition} (hget : e.claims.get? claimId = some claim)
    (hstatus : claim.status.eq t.source = true) (hguard : t.Guard e claimId) :
    t.method claimId e = Engine.commitTransition claimId claim t.target t.label e := by
  have hclaim : e.claims.contains claimId = true := Dict.contains_of_get? hget
  cases t with
  | confirm =>
    obtain ⟨gaps, hgaps, hne, hall⟩ := hguard
    rw [run_gate rfl hget hstatus, run_readState_bind, hgaps]
    -- both tests behind the gate are passed, in the order they are made
    have hempty : gaps.isEmpty = false := by simpa using hne
    simp only [hempty, Bool.false_eq_true, if_false]
    rw [run_readState_bind, hall]
    rfl
  | refute =>
    have hnone : e.contradictions.getD claimId ∅ ≠ ∅ := hguard
    rw [run_gate rfl hget hstatus, run_get_bind, if_neg hnone]
    rfl
  | dispute =>
    have hnone : e.contradictions.getD claimId ∅ ≠ ∅ := hguard
    rw [run_gate rfl hget hstatus, run_get_bind, if_neg hnone]
    rfl
  | resolveDisputed =>
    have hempty : e.activeContradictions claimId = ∅ := hguard
    have hactive : e.activeContradictionsForClaim claimId = .ok [] := by
      rw [Engine.activeContradictionsForClaim_eq hclaim, hempty]
      rfl
    rw [run_gate rfl hget hstatus, run_readState_bind, hactive]
    rfl
  | refuteDisputed =>
    obtain ⟨v, hv, strength, hs, hle⟩ := hguard
    have hactive := Engine.activeContradictionsForClaim_eq hclaim
    -- the loop reads strengths up to the first strong one, and none of the reads raises
    have hstrong : e.anyStrong (sortSet (· ≤ ·) (e.activeContradictions claimId)) = .ok true :=
      h.anyStrong_of_mem (fun w hw => h.active_exists (mem_sortSet.mp hw)) (mem_sortSet.mpr hv)
        hs hle
    rw [run_gate rfl hget hstatus, run_readState_bind, hactive]
    simp only
    rw [run_readState_bind, hstrong]
    rfl
  | refuteDisputedByFreshness =>
    obtain ⟨v, rest, hsorted, strength, hs, hle⟩ := hguard
    have hactive : e.activeContradictionsByFreshness claimId = .ok (v :: rest) := by
      rw [Engine.activeContradictionsByFreshness_eq hclaim, hsorted]
    rw [run_gate rfl hget hstatus, run_readState_bind, hactive]
    simp only
    rw [run_readState_bind, hs]
    simp only [hle, decide_true, Bool.not_true, Bool.false_eq_true, if_false]
    rfl

/-- In a sound state the counter takes the addition, so a commit ends with the event recorded. -/
theorem commitTransition_eq (h : Sound e) (claimId : Int) (claim : Claim) (status : Json)
    (label : String) : ∃ seq, e.lifecycleSeq.addInt 1 = .ok seq ∧
      Engine.commitTransition claimId claim status label e =
        .ok true (e.putTransition claimId claim status seq label) := by
  rcases Engine.commitTransition_cases claimId claim status label e with
    ⟨err, huncounted, _⟩ | hcommit
  · exact absurd huncounted h.typed.counts
  · exact hcommit

/-- Which returns, since the next number can be counted. -/
theorem run_enabled (h : Sound e) {t : Transition} (hget : e.claims.get? claimId = some claim)
    (hstatus : claim.status = t.source) (hguard : t.Guard e claimId) :
    ∃ seq, e.lifecycleSeq.addInt 1 = .ok seq ∧
      t.method claimId e = .ok true (e.putTransition claimId claim t.target seq t.label) := by
  have heq : claim.status.eq t.source = true := by
    rw [hstatus]
    exact t.source_eq_self
  rw [h.method_of_guard hget heq hguard]
  exact h.commitTransition_eq claimId claim t.target t.label

/-- **When a transition method returns `True`.** -/
theorem enabled_iff (h : Sound e) {t : Transition} :
    t.Enabled e claimId ↔
      (∃ claim, e.claims.get? claimId = some claim ∧ claim.status = t.source) ∧
        t.Guard e claimId := by
  constructor
  · rintro ⟨e', hrun⟩
    -- a method that returned `True` passed its gates
    rcases Engine.transition_cases t claimId e with
      ⟨err, herr⟩ | hfalse | ⟨claim, hget, hstatus, hguard, _⟩
    · rw [herr] at hrun
      cases hrun
    · rw [hfalse] at hrun
      cases hrun
    · have hint := (h.references.status hget).isInt
      have hsource : IsInt t.source := by cases t <;> exact ⟨_, rfl⟩
      exact ⟨⟨claim, hget, hint.eq_of_eq hsource hstatus⟩, hguard⟩
  · rintro ⟨⟨claim, hget, hstatus⟩, hguard⟩
    obtain ⟨seq, _, hrun⟩ := h.run_enabled hget hstatus hguard
    exact ⟨_, hrun⟩

end Sound

/-! ## Strong contradictions

The two ways out of a dispute by refutation differ in the contradictions they look at. -/

/-- The claim is stored as disputed. -/
def IsDisputed (e : Engine) (claimId : Int) : Prop :=
  ∃ claim, e.claims.get? claimId = some claim ∧ claim.status = claimStatusDisputed

/-- An evidence that reaches the threshold. -/
def StrongEvidence (e : Engine) (evidenceId : Int) : Prop :=
  ∃ evidence score, e.evidences.get? evidenceId = some evidence ∧
    evidence.strength = some score ∧ 4 / 5 ≤ score.value

/-- As the loop of the source reads it. -/
theorem strongEvidence_iff {e : Engine} {evidenceId : Int} :
    StrongEvidence e evidenceId ↔ ∃ strength, e.strengthOf evidenceId = .ok strength ∧
      Engine.refutationStrengthThreshold ≤ strength := by
  constructor
  · rintro ⟨evidence, score, hget, hscore, hle⟩
    exact ⟨score.value, Engine.strengthOf_ok_iff.mpr ⟨evidence, score, hget, hscore, rfl⟩, hle⟩
  · rintro ⟨strength, hs, hle⟩
    obtain ⟨evidence, score, hget, hscore, rfl⟩ := Engine.strengthOf_ok_iff.mp hs
    exact ⟨evidence, score, hget, hscore, hle⟩

/-- Some active contradiction is strong. -/
theorem guard_refuteDisputed_iff {e : Engine} {claimId : Int} :
    Transition.refuteDisputed.Guard e claimId ↔
      ∃ v ∈ e.activeContradictions claimId, StrongEvidence e v := by
  simp only [Transition.Guard, strongEvidence_iff]

theorem guard_refuteDisputedByFreshness_iff {e : Engine} {claimId : Int} :
    Transition.refuteDisputedByFreshness.Guard e claimId ↔
      ∃ v, IsGreatest (e.activeContradictions claimId : Set Int) v ∧ StrongEvidence e v := by
  simp only [Transition.Guard, strongEvidence_iff, ← sortSet_desc_cons_iff]
  constructor
  · rintro ⟨v, rest, hsorted, hstrong⟩
    exact ⟨v, ⟨rest, hsorted⟩, hstrong⟩
  · rintro ⟨v, ⟨rest, hsorted⟩, hstrong⟩
    exact ⟨v, rest, hsorted, hstrong⟩

/-! ## The law

For every disputed claim that is reached. -/

/-- One state but for the last event of the claim, appended to `before`; and the two events are
one event but for the label. -/
def DifferInLabel (claimId : Int) (before : List ClaimLifecycleEvent) (e₁ e₂ : Engine) : Prop :=
  ∃ (event : ClaimLifecycleEvent) (label : Json),
    e₁.eventsOf claimId = before ++ [event] ∧
      e₂ = { e₁ with
        claimLifecycleEvents :=
          e₁.claimLifecycleEvents.insert claimId (before ++ [{ event with transition := label }]) }

/-- How a disputed claim can leave that status. -/
structure DisputedExits (e : Engine) (c : Int) : Prop where
  exclusive : Transition.resolveDisputed.Enabled e c →
    ¬ Transition.refuteDisputed.Enabled e c ∧ ¬ Transition.refuteDisputedByFreshness.Enabled e c
  covered : ∀ e₂, Engine.refuteDisputedClaimIfReadyByFreshness c e = .ok true e₂ →
    ∃ e₁, Engine.refuteDisputedClaimIfReady c e = .ok true e₁ ∧
      DifferInLabel c (e.eventsOf c) e₁ e₂
  byFreshness : Transition.refuteDisputedByFreshness.Enabled e c ↔ IsDisputed e c ∧
    ∃ v, IsGreatest (e.activeContradictions c : Set Int) v ∧ StrongEvidence e v
  byStrength : Transition.refuteDisputed.Enabled e c ↔ IsDisputed e c ∧
    ∃ v ∈ e.activeContradictions c, StrongEvidence e v
  reversed : e.activeContradictionsByFreshness c =
    List.reverse <$> e.activeContradictionsForClaim c

namespace Sound

variable {e : Engine} (h : Sound e) {c : Int}
include h

/-- The same claim is committed to the same status with the next number; only the label is the
method's own. -/
theorem covered {e₂ : Engine}
    (hrun : Engine.refuteDisputedClaimIfReadyByFreshness c e = .ok true e₂) :
    ∃ e₁, Engine.refuteDisputedClaimIfReady c e = .ok true e₁ ∧
      DifferInLabel c (e.eventsOf c) e₁ e₂ := by
  have henabled : Transition.refuteDisputedByFreshness.Enabled e c := ⟨e₂, hrun⟩
  obtain ⟨⟨claim, hget, hstatus⟩, hguard⟩ := h.enabled_iff.mp henabled
  obtain ⟨v, hgreatest, hstrong⟩ := guard_refuteDisputedByFreshness_iff.mp hguard
  have hany : Transition.refuteDisputed.Guard e c :=
    guard_refuteDisputed_iff.mpr ⟨v, hgreatest.1, hstrong⟩
  obtain ⟨seq, hseq, hmethod₁⟩ := h.run_enabled (t := .refuteDisputed) hget hstatus hany
  obtain ⟨seq', hseq', hmethod₂⟩ := h.run_enabled hget hstatus hguard
  rw [hseq] at hseq'
  cases hseq'
  -- the two methods write the same state, except for the label
  have hstate : e₂ = e.putTransition c claim claimStatusRefuted seq
      "refute_disputed_by_freshness_if_ready" := by
    have hsame := hrun.symm.trans hmethod₂
    injection hsame
  refine ⟨_, hmethod₁, ⟨seq, .int c, claim.status, claimStatusRefuted,
    .str "refute_disputed_if_ready"⟩, .str "refute_disputed_by_freshness_if_ready", ?_, ?_⟩
  · rw [e.eventsOf_putTransition, if_pos rfl]
    rfl
  · rw [hstate]
    simp only [Engine.putTransition, Dict.insert_insert]
    rfl

theorem disputedExits (c : Int) : DisputedExits e c where
  exclusive := by
    intro hresolve
    -- a resolution asks for an empty active set, a refutation for a member
    have hempty : e.activeContradictions c = ∅ := (h.enabled_iff.mp hresolve).2
    constructor
    · intro hrefute
      obtain ⟨v, hv, -⟩ := guard_refuteDisputed_iff.mp (h.enabled_iff.mp hrefute).2
      simp [hempty] at hv
    · intro hrefute
      obtain ⟨v, hgreatest, -⟩ :=
        guard_refuteDisputedByFreshness_iff.mp (h.enabled_iff.mp hrefute).2
      simp [hempty, IsGreatest] at hgreatest
  covered := fun _ hrun => h.covered hrun
  byFreshness := by
    rw [h.enabled_iff, guard_refuteDisputedByFreshness_iff]
    rfl
  byStrength := by
    rw [h.enabled_iff, guard_refuteDisputed_iff]
    rfl
  reversed := by
    unfold Engine.activeContradictionsByFreshness Engine.activeContradictionsForClaim
    rw [sortSet_desc]
    cases e.assertClaimExists c <;> rfl

end Sound

/-- **The three exits from `DISPUTED` are coherent.** -/
theorem disputed_exits {s : Session} (h : s.Reachable) (c : Int) : DisputedExits s.engine c :=
  h.sound.disputedExits c

/-- The disputed claim has one contradiction, of strength `9/10`. -/
theorem disputed_exits_disputed :
    ¬ Transition.resolveDisputed.Enabled Session.disputed.engine 1 := by
  intro hresolve
  have hexits := disputed_exits Session.disputed_reachable 1
  have hactive : Session.disputed.engine.activeContradictions 1 = {1} := by
    with_unfolding_all rfl
  obtain ⟨claim, hget, hstatus⟩ : ∃ claim, Session.disputed.engine.claims.get? 1 = some claim ∧
      claim.status = claimStatusDisputed := ⟨_, by with_unfolding_all rfl, rfl⟩
  obtain ⟨evidence, hevidence, hstrength⟩ : ∃ evidence,
      Session.disputed.engine.evidences.get? 1 = some evidence ∧
      evidence.strength = some ⟨9 / 10, by norm_num, by norm_num⟩ :=
    ⟨_, by with_unfolding_all rfl, rfl⟩
  -- the active contradiction has strength nine tenths
  have hstrong : ∃ v ∈ Session.disputed.engine.activeContradictions 1,
      StrongEvidence Session.disputed.engine v := by
    rw [hactive]
    exact ⟨1, by simp, evidence, _, hevidence, hstrength, by norm_num⟩
  exact (hexits.exclusive hresolve).1 (hexits.byStrength.mpr ⟨⟨claim, hget, hstatus⟩, hstrong⟩)

end Ragcore
