import Ragcore.Engine.Queries
import Ragcore.Invariant.Revision
import Ragcore.Snapshot.RoundTrip

/-!
# Ragcore — what a state identity is good for

A consumer that keeps a packet, a trace or a decision keeps the identity of the state it was made
on, and compares it later. Tokens are drawn afresh for every restored engine, so within a session
an identity comes back only if nothing has changed in between.

* **`Engine.Successor`** — an engine a session leads to, seen from an earlier one.
* **`identity_names_state`** — equal identities, equal engines; identities of one lineage grow.
* **`trace_pins_state`** — a confidence trace is current as long as the identity it carries is.
-/

namespace Ragcore

/-! ## Lineages

States of one engine are ordered by its runs; a round trip starts a lineage under a new token. -/

namespace Engine

theorem Later.stays {e e' : Engine} (h : Later e e') : Later e' e' := .refl h.typed

theorem Later.trans {e e' e'' : Engine} (h : Later e e') (h' : Later e' e'') : Later e e'' where
  typed := h'.typed
  token := h'.token.trans h.token
  revision := h.revision.trans h'.revision
  same heq := by
    have hfirst : e' = e := h.same (by have := h.revision; have := h'.revision; omega)
    subst hfirst
    exact h'.same heq

theorem Later.antisymm {e e' : Engine} (h : Later e e') (h' : Later e' e) : e' = e :=
  h.same (le_antisymm h'.revision h.revision)

/-- `e'` belongs to another lineage, or comes after `e` in its own. -/
structure Successor (e e' : Engine) : Prop where
  sound : Sound e'
  lineage : e'.stateIdentityToken = e.stateIdentityToken → Later e e'

theorem Successor.refl {e : Engine} (h : Sound e) : Successor e e := ⟨h, fun _ => .refl h.typed⟩

theorem Successor.op {e e' : Engine} (h : Successor e e') (o : Op) :
    Successor e (finalState (o.run e')) := by
  refine ⟨h.sound.op o, fun htoken => ?_⟩
  -- a call keeps the token, so the engine before it was of the lineage too
  have hkept := ((Later.refl h.sound.typed).op o).token
  exact (h.lineage (hkept.symm.trans htoken)).op o

theorem Successor.trip {e e' e'' : Engine} (h : Successor e e') {uuid : UuidHex}
    (fresh : uuid ≠ e.stateIdentityToken) (hrun : e'.roundTrip uuid = .ok e'') :
    Successor e e'' := by
  have hreloaded := h.sound.trip hrun
  refine ⟨hreloaded ▸ h.sound.congr (e'.equiv_reloaded uuid), fun htoken => ?_⟩
  rw [hreloaded] at htoken
  exact absurd htoken fresh

end Engine

/-- The tokens that the round trips among the actions draw. -/
def Session.Fresh (actions : List Action) (token : UuidHex) : Prop :=
  ∀ uuid, Action.roundTrip uuid ∈ actions → uuid ≠ token

/-- By induction on the actions, from the state reached so far. -/
theorem Session.run_successor {e : Engine} {s : Session} (h : e.Successor s.engine)
    {later : List Action} (fresh : Session.Fresh later e.stateIdentityToken) :
    e.Successor (s.run later).engine := by
  induction later generalizing s with
  | nil => exact h
  | cons action rest ih =>
    refine ih (s := s.act action) ?_ fun uuid hmem => fresh uuid (List.mem_cons_of_mem _ hmem)
    cases action with
    | call c => exact (c.steps s.engine).preserves_state (fun _ o he => he.op o) h
    | roundTrip uuid =>
      simp only [act]
      cases hrun : s.engine.roundTrip uuid with
      | ok engine => exact h.trip (fresh uuid List.mem_cons_self) hrun
      | error err => exact h

/-! ## Identities

Token and revision name a state of a lineage, as long as tokens are not reused. -/

@[simp] theorem Engine.stateIdentity_eq (e : Engine) :
    e.stateIdentity = .ok ⟨e.stateIdentityToken.hex, e.stateRevision⟩ :=
  EngineStateIdentity.new_uuid _ _

theorem UuidHex.eq_of_hex {a b : UuidHex} (h : a.hex = b.hex) : a = b := by
  obtain ⟨_, _⟩ := a
  obtain ⟨_, _⟩ := b
  cases h
  rfl

theorem Engine.stateIdentity_inj {e e' : Engine} (h : e'.stateIdentity = e.stateIdentity) :
    e'.stateIdentityToken = e.stateIdentityToken ∧ e'.stateRevision = e.stateRevision := by
  simp only [Engine.stateIdentity_eq, Except.ok.injEq, EngineStateIdentity.mk.injEq] at h
  exact ⟨UuidHex.eq_of_hex h.1, h.2⟩

/-- An identity seen again is the identity of the same engine. -/
theorem Engine.Successor.eq_of_identity {e e' : Engine} (h : e.Successor e')
    (heq : e'.stateIdentity = e.stateIdentity) : e' = e := by
  have hinj := Engine.stateIdentity_inj heq
  exact (h.lineage hinj.1).same hinj.2

/-! ## Traces

A trace records the identity of the state it was computed in. -/

namespace Engine

/-- What a trace says of the engine it was computed on. Every field of the trace is accounted
for. -/
structure TraceOf (e : Engine) (claimId : Int) (trace : EffectiveConfidenceTrace) : Prop where
  about : trace.claimId = claimId
  source : e.stateIdentity = .ok trace.sourceStateIdentity
  policy : trace.calculationPolicyId = Confidence.effectiveConfidencePolicyId
  base : ∃ claim, e.claims.get? claimId = some claim ∧
    claim.baseConfidence = some trace.baseConfidence
  factors : e.statusModifierForClaim claimId = .ok trace.statusModifier ∧
    e.freshnessModifierForClaim claimId = .ok trace.freshnessModifier ∧
    e.gapModifierForClaim claimId = trace.gapModifier ∧
    e.countModifierForClaim claimId = .ok trace.countModifier ∧
    e.ruleStatsModifierForClaim claimId = .ok trace.ruleStatsModifier ∧
    e.evidenceTypeModifierForClaim claimId = .ok trace.evidenceTypeModifier
  composed : .fin trace.effectiveConfidence.value =
    Confidence.composeEffectiveConfidence trace.baseConfidence.value trace.statusModifier
      trace.freshnessModifier trace.gapModifier trace.countModifier trace.ruleStatsModifier
      trace.evidenceTypeModifier
  untraced : e.computeEffectiveConfidence claimId = .ok trace.effectiveConfidence

theorem computeEffectiveConfidenceWithTrace_traceOf {e : Engine} {claimId : Int}
    {trace : EffectiveConfidenceTrace}
    (h : e.computeEffectiveConfidenceWithTrace claimId = .ok trace) :
    TraceOf e claimId trace := by
  have huntraced : e.computeEffectiveConfidence claimId = .ok trace.effectiveConfidence :=
    bind_ok_iff.mpr ⟨trace, h, rfl⟩
  -- the steps of the core, one modifier after the other
  obtain ⟨_, _, h⟩ := bind_ok_iff.mp h
  obtain ⟨claim, hclaim, h⟩ := bind_ok_iff.mp h
  obtain ⟨statusMod, hs, h⟩ := bind_ok_iff.mp h
  obtain ⟨freshnessMod, hf, h⟩ := bind_ok_iff.mp h
  obtain ⟨countMod, hc, h⟩ := bind_ok_iff.mp h
  obtain ⟨ruleStatsMod, hr, h⟩ := bind_ok_iff.mp h
  obtain ⟨evidenceTypeMod, he, h⟩ := bind_ok_iff.mp h
  obtain ⟨base, hbase, h⟩ := bind_ok_iff.mp h
  obtain ⟨score, hscore, h⟩ := bind_ok_iff.mp h
  obtain ⟨identity, hidentity, h⟩ := bind_ok_iff.mp h
  cases h
  have hcomposed := ScoreValue.new_ok_iff.mp hscore
  simp only [Json.number?, Option.some.injEq] at hcomposed
  have hrecorded : claim.baseConfidence = some base := by
    unfold baseConfidenceOf at hbase
    split at hbase
    · cases hbase
      assumption
    · cases hbase
  exact ⟨rfl, hidentity, rfl, ⟨claim, subscript_ok_iff.mp hclaim, hrecorded⟩,
    ⟨hs, hf, rfl, hc, hr, he⟩, hcomposed.symm, huntraced⟩

end Engine

/-! ## The laws

So equal identities are equal states, and a trace can be traced back to its state. -/

/-- What the identity of a session's engine says of the engines it reaches later. -/
structure Session.IdentityNames (s : Session) (later : List Action) : Prop where
  names : (s.run later).engine.stateIdentity = s.engine.stateIdentity →
    (s.run later).engine = s.engine
  grows : (s.run later).engine.stateIdentityToken = s.engine.stateIdentityToken →
    s.engine.stateRevision ≤ (s.run later).engine.stateRevision

/-- **An identity names one state.** -/
theorem identity_names_state {s : Session} (h : s.Reachable) (later : List Action)
    (fresh : Session.Fresh later s.engine.stateIdentityToken) : s.IdentityNames later := by
  have hsuccessor := Session.run_successor (.refl h.sound) fresh
  exact ⟨hsuccessor.eq_of_identity, fun htoken => (hsuccessor.lineage htoken).revision⟩

/-- The law from the session that disputed a claim, over a restore and one more entity. -/
theorem identity_names_state_disputed :
    Session.disputed.IdentityNames
      [.roundTrip ⟨"00000000000040008000000000000001", by decide +kernel⟩,
        .call (.op (.addEntity 1 0))] :=
  identity_names_state Session.disputed_reachable _ (by
    intro uuid hmem
    rcases List.mem_cons.mp hmem with heq | hmem
    · cases heq
      intro hsame
      have hhex := congrArg UuidHex.hex hsame
      revert hhex
      decide +kernel
    · simp at hmem)

/-- What a trace is worth to a consumer that keeps it while the session goes on. -/
structure Session.TracePins (s : Session) (later : List Action) (claimId : Int)
    (trace : EffectiveConfidenceTrace) : Prop where
  made : s.engine.TraceOf claimId trace
  current : (s.run later).engine.stateIdentity = .ok trace.sourceStateIdentity →
    (s.run later).engine.computeEffectiveConfidenceWithTrace claimId = .ok trace

/-- **A trace is current as long as its identity is.** It records the base, the modifiers at its
state and their product, and a consumer that finds the identity unchanged need not recompute. -/
theorem trace_pins_state {s : Session} (h : s.Reachable) (later : List Action)
    (fresh : Session.Fresh later s.engine.stateIdentityToken) {claimId : Int}
    {trace : EffectiveConfidenceTrace}
    (htrace : s.engine.computeEffectiveConfidenceWithTrace claimId = .ok trace) :
    s.TracePins later claimId trace := by
  have hmade := Engine.computeEffectiveConfidenceWithTrace_traceOf htrace
  refine ⟨hmade, fun hidentity => ?_⟩
  have hsuccessor := Session.run_successor (.refl h.sound) fresh
  rw [hsuccessor.eq_of_identity (hidentity.trans hmade.source.symm)]
  exact htrace

/-- The disputed claim's trace, kept over a call that raises. -/
theorem trace_pins_state_disputed : ∃ trace,
    Session.disputed.TracePins [.call (.op (.addGap 9 1 7 (.fin (1 / 2)) 0))] 1 trace := by
  obtain ⟨trace, htrace⟩ : ∃ trace,
      Session.disputed.engine.computeEffectiveConfidenceWithTrace 1 = .ok trace :=
    ⟨_, by with_unfolding_all rfl⟩
  exact ⟨trace, trace_pins_state Session.disputed_reachable _ (by
    intro uuid hmem
    simp at hmem) htrace⟩

end Ragcore
