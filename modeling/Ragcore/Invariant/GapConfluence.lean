import Ragcore.Invariant.Justification
import Ragcore.Invariant.References

/-!
# Ragcore — the order in which gaps are closed

A gap shared by several claims is closed by whichever evidence is asked about first, so the
resolver a gap ends with depends on the order of the calls. Which gaps are closed does not: a call
adds to the closed gaps a set that it reads from stores no such call writes.

* **`Closes`** — what a call for an evidence would close, whether or not it is open.
* **`ResolvedTo`** — a state that differs in the resolutions, which grew by a known set.
* **`resolveGapsForEach_resolved`** — the run: the sets of the single calls, joined.
* **`ResolversFit`** — the invariant: who closed a gap was entitled to.
-/

namespace Ragcore

/-! ## One call

A call for an evidence closes the gaps of its claim that ask for its type and are open. -/

/-- The claim of evidence `v` references gap `g`, which asks for the type of `v`. -/
def Closes (e : Engine) (v g : Int) : Prop :=
  ∃ evidence gap, e.evidences.get? v = some evidence ∧ e.gaps.get? g = some gap ∧
    g ∈ e.claimGapRefs.getD evidence.claimId ∅ ∧ gap.requiredEvidenceType = evidence.type

/-- From `e` to `e'` the gaps in `P` were closed, and nothing but resolutions was written. -/
structure ResolvedTo (e : Engine) (P : Int → Prop) (e' : Engine) : Prop where
  frame : ∃ resolutions revision,
    e' = { e with gapResolutions := resolutions, stateRevision := revision }
  closed : ∀ g, e'.gapResolutions.contains g = true ↔ e.gapResolutions.contains g = true ∨ P g

theorem ResolvedTo.refl {e : Engine} {P : Int → Prop}
    (h : ∀ g, P g → e.gapResolutions.contains g = true) : ResolvedTo e P e :=
  ⟨⟨_, _, rfl⟩, fun g => ⟨Or.inl, fun hg => hg.elim id (h g)⟩⟩

theorem ResolvedTo.trans {a b c : Engine} {P Q R : Int → Prop} (h : ResolvedTo a P b)
    (h' : ResolvedTo b Q c) (hR : ∀ g, R g ↔ P g ∨ Q g) : ResolvedTo a R c := by
  obtain ⟨⟨resolutions, revision, rfl⟩, hclosed⟩ := h
  obtain ⟨⟨resolutions', revision', rfl⟩, hclosed'⟩ := h'
  refine ⟨⟨resolutions', revision', rfl⟩, fun g => ?_⟩
  rw [hclosed', hclosed, hR, or_assoc]

/-- What a call would close is read from stores that a call does not write. -/
theorem ResolvedTo.closes_iff {e e' : Engine} {P : Int → Prop} (h : ResolvedTo e P e') {v g : Int} :
    Closes e' v g ↔ Closes e v g := by
  obtain ⟨⟨resolutions, revision, rfl⟩, _⟩ := h
  rfl

namespace Sound

variable {e : Engine} (h : Sound e)
include h

/-- Every gap a claim references is listed. -/
theorem listed_of_gapRef {claimId g : Int} {gaps : List Gap} {gap : Gap}
    (hgaps : e.gapsForClaim claimId = .ok gaps) (href : g ∈ e.claimGapRefs.getD claimId ∅)
    (hget : e.gaps.get? g = some gap) : gap ∈ gaps ∧ gap.id = g := by
  obtain ⟨_, _, hgaps⟩ := bind_ok_iff.mp hgaps
  obtain ⟨records, hrecords, hsorted⟩ := bind_ok_iff.mp hgaps
  cases hsorted
  obtain ⟨record, hmem, hrecord⟩ :=
    exists_of_forall₂_left (mapM_ok_iff.mp hrecords) (mem_sortSet.mpr href)
  have hsame := Engine.subscript_ok_iff.mp hrecord
  rw [hget] at hsame
  cases hsame
  exact ⟨(List.perm_insertionSort _ _).mem_iff.mpr hmem, h.references.gapId hget⟩

/-- The loop closes the open gaps of `Closes`. -/
theorem mem_closedBy_iff {v g : Int} {evidence : Evidence} {gaps : List Gap}
    (hget : e.evidences.get? v = some evidence)
    (hgaps : e.gapsForClaim evidence.claimId = .ok gaps) :
    g ∈ Engine.closedBy v evidence gaps e.gapResolutions ↔
      Closes e v g ∧ e.gapResolutions.contains g = false := by
  -- listed, open and of the type, which is what `Closes` says
  constructor
  · intro hg
    obtain ⟨gap, hgap, rfl, htype, hopen⟩ := Engine.mem_closedBy hg
    obtain ⟨href, hrecord⟩ := h.references.gap_of_listed hgaps hgap
    have hsame := (h.typed.gap hrecord).requiredEvidenceType.eq_of_eq (h.typed.evidence hget).type
      htype
    exact ⟨⟨evidence, gap, hget, hrecord, href, hsame⟩, hopen⟩
  · rintro ⟨⟨evidence', gap, hget', hrecord, href, htype⟩, hopen⟩
    rw [hget] at hget'
    cases hget'
    obtain ⟨hgap, rfl⟩ := h.listed_of_gapRef hgaps href hrecord
    refine Engine.closedBy_complete hgap ?_ hopen
    obtain ⟨n, hn⟩ := (h.typed.evidence hget).type
    rw [htype, hn]
    simp

/-- **One call** returns and closes what it can. -/
theorem resolveGapsForEvidence_resolved {v : Int} (hv : e.evidences.contains v = true) :
    ∃ ret e', Engine.resolveGapsForEvidence v e = .ok ret e' ∧ ResolvedTo e (Closes e v) e' := by
  obtain ⟨evidence, hget⟩ := Dict.contains_iff.mp hv
  obtain ⟨gaps, hgaps⟩ := h.gapsForClaim_returns (h.references.evidenceClaim hget)
  have hclosed : ∀ g, g ∈ Engine.closedBy v evidence gaps e.gapResolutions ↔
      Closes e v g ∧ e.gapResolutions.contains g = false :=
    fun g => h.mem_closedBy_iff hget hgaps
  rw [Engine.resolveGapsForEvidence_ok hget hgaps]
  split
  · rename_i hnil
    refine ⟨_, _, rfl, .refl fun g hg => ?_⟩
    rw [← Bool.not_eq_false]
    intro hopen
    have hin := (hclosed g).mpr ⟨hg, hopen⟩
    rw [hnil] at hin
    cases hin
  · refine ⟨_, _, rfl, ⟨_, _, rfl⟩, fun g => ?_⟩
    show (Engine.resolveAll v _ e.gapResolutions).contains g = true ↔ _
    rw [Dict.contains, Engine.get?_resolveAll]
    -- a gap that this call closes, or one that stays as it was
    by_cases hin : g ∈ Engine.closedBy v evidence gaps e.gapResolutions
    · rw [if_pos hin]
      exact ⟨fun _ => .inr ((hclosed g).mp hin).1, fun _ => rfl⟩
    · rw [if_neg hin]
      refine ⟨Or.inl, fun hg => hg.elim id fun hcloses => ?_⟩
      by_contra hopen
      exact hin ((hclosed g).mpr ⟨hcloses, by simpa [Dict.contains] using hopen⟩)

end Sound

/-! ## Any number of calls

A list of calls closes what any of its evidences closes. -/

/-- `for v in ids: engine.resolve_gaps_for_evidence(v)`. -/
def Engine.resolveGapsForEach : List Int → EngineM Unit
  | [] => return ()
  | v :: rest => do
    let _ ← Engine.resolveGapsForEvidence v
    resolveGapsForEach rest

/-- Every state of the run is sound, and closes the gaps of each call on top of those before. -/
theorem Sound.resolveGapsForEach_resolved {e : Engine} (h : Sound e) {ids : List Int}
    (hids : ∀ v ∈ ids, e.evidences.contains v = true) :
    ∃ e', Engine.resolveGapsForEach ids e = .ok () e' ∧
      ResolvedTo e (fun g => ∃ v ∈ ids, Closes e v g) e' := by
  -- the first call, then the others on what it left
  induction ids generalizing e with
  | nil => exact ⟨e, rfl, .refl fun g hg => by simp at hg⟩
  | cons v rest ih =>
    obtain ⟨hv, hrest⟩ := List.forall_mem_cons.mp hids
    obtain ⟨ret, mid, hrun, hmid⟩ := h.resolveGapsForEvidence_resolved hv
    have hsound : Sound mid := by
      have hop := h.op (.resolveGapsForEvidence v)
      rw [Op.run, run_map, hrun] at hop
      exact hop
    have hevidences : mid.evidences = e.evidences := by
      obtain ⟨⟨resolutions, revision, rfl⟩, _⟩ := hmid
      rfl
    obtain ⟨e', hrun', hend⟩ := ih hsound (by rw [hevidences]; exact hrest)
    refine ⟨e', ?_, hmid.trans hend fun g => ?_⟩
    · rw [Engine.resolveGapsForEach, run_bind, hrun]
      exact hrun'
    · simp only [hmid.closes_iff, List.mem_cons, exists_eq_or_imp]

/-! ## What the order cannot change

Which gaps are closed is a matter of the set of evidences. Only the evidence that is recorded as
resolver depends on the order. -/

theorem Engine.commitTransition_outcome (claimId : Int) (claim : Claim) (status : Json)
    (label : String) (e : Engine) :
    outcome (Engine.commitTransition claimId claim status label e) =
      (e.lifecycleSeq.addInt 1).map fun _ => true := by
  rcases Engine.commitTransition_cases claimId claim status label e with
    ⟨err, hseq, hrun⟩ | ⟨seq, hseq, hrun⟩
  · rw [hrun, hseq]
    rfl
  · rw [hrun, hseq]
    rfl

/-- The same gaps are closed; by whom, and in how many revisions, may differ. -/
structure SameClosed (e e' : Engine) : Prop where
  frame : ∃ resolutions revision,
    e' = { e with gapResolutions := resolutions, stateRevision := revision }
  closed : ∀ g, e'.gapResolutions.contains g = e.gapResolutions.contains g

theorem ResolvedTo.sameClosed {e e₁ e₂ : Engine} {P Q : Int → Prop} (h₁ : ResolvedTo e P e₁)
    (h₂ : ResolvedTo e Q e₂) (hPQ : ∀ g, P g ↔ Q g) : SameClosed e₁ e₂ := by
  obtain ⟨⟨resolutions, revision, rfl⟩, hclosed₁⟩ := h₁
  obtain ⟨⟨resolutions', revision', rfl⟩, hclosed₂⟩ := h₂
  refine ⟨⟨resolutions', revision', rfl⟩, fun g => ?_⟩
  rw [Bool.eq_iff_iff, hclosed₂, hclosed₁, hPQ]

namespace SameClosed

variable {e e' : Engine} (h : SameClosed e e')
include h

theorem allResolved (gaps : List Gap) : e'.allResolved gaps = e.allResolved gaps := by
  have hgaps : e'.gaps = e.gaps := by
    obtain ⟨⟨resolutions, revision, rfl⟩, _⟩ := h
    rfl
  induction gaps with
  | nil => rfl
  | cons gap rest ih =>
    have hsome : (e'.gapResolutions.get? gap.id).isSome = (e.gapResolutions.get? gap.id).isSome :=
      h.closed gap.id
    simp only [Engine.allResolved, Engine.gapResolution, Engine.assertGapExists, hgaps, bind_assoc,
      pure_bind, hsome, ih]

/-- The method reads what the two states share, and of the resolutions whether they are there. -/
theorem confirm_outcome (c : Int) : outcome (Engine.confirmClaimIfReady c e') =
    outcome (Engine.confirmClaimIfReady c e) := by
  have hall := h.allResolved
  -- the gate reads claims, references and whether all gaps are closed
  have hshared : e'.assertClaimExists c = e.assertClaimExists c ∧
      e'.getClaim c = e.getClaim c ∧ e'.gapsForClaim c = e.gapsForClaim c ∧
      e'.lifecycleSeq = e.lifecycleSeq := by
    obtain ⟨⟨resolutions, revision, rfl⟩, _⟩ := h
    exact ⟨rfl, rfl, rfl, rfl⟩
  obtain ⟨hexists, hget, hlist, hseq⟩ := hshared
  refine outcome_readState_bind hexists fun _ => ?_
  refine outcome_readState_bind hget fun claim => ?_
  refine outcome_ite rfl ?_
  refine outcome_readState_bind hlist fun gaps => ?_
  refine outcome_ite rfl ?_
  refine outcome_readState_bind (hall gaps) fun resolved => ?_
  refine outcome_ite rfl ?_
  rw [Engine.commitTransition_outcome, Engine.commitTransition_outcome, hseq]

theorem gapModifier (c : Int) : e'.gapModifierForClaim c = e.gapModifierForClaim c := by
  have hrefs : e'.claimGapRefs = e.claimGapRefs := by
    obtain ⟨⟨resolutions, revision, rfl⟩, _⟩ := h
    rfl
  unfold Engine.gapModifierForClaim
  simp only [hrefs, h.closed]

end SameClosed

/-! ## The resolvers

Whichever evidence is recorded is of the type that the gap asks for. -/

/-- Evidence `v` closed gap `g`: it has the required type, and its claim references the gap. -/
def ResolverFits (e : Engine) (g v : Int) : Prop :=
  ∃ evidence gap, e.evidences.get? v = some evidence ∧ e.gaps.get? g = some gap ∧
    evidence.type = gap.requiredEvidenceType ∧ e.claims.contains evidence.claimId = true ∧
    g ∈ e.claimGapRefs.getD evidence.claimId ∅

def ResolversFit (e : Engine) : Prop :=
  ∀ g v, e.gapResolutions.get? g = some v → Closes e v g

theorem Closes.resolverFits {e : Engine} (h : Sound e) {g v : Int} (hcloses : Closes e v g) :
    ResolverFits e g v := by
  obtain ⟨evidence, gap, hget, hgap, href, htype⟩ := hcloses
  exact ⟨evidence, gap, hget, hgap, htype.symm, h.references.evidenceClaim hget, href⟩

/-- References, records and types stay. -/
theorem Closes.grow {e e' : Engine} (hgrow : Grows e e') {v g : Int} (h : Closes e v g) :
    Closes e' v g := by
  obtain ⟨evidence, gap, hget, hgap, href, htype⟩ := h
  exact ⟨evidence, gap, hgrow.evidences hget, hgrow.gaps hgap, hgrow.gapRefs href, htype⟩

namespace ResolversFit

theorem writes {e e' : Engine} {o : Op} {r : Ret} (h : ResolversFit e) (hsound : Sound e)
    (hw : Writes e o r e') : ResolversFit e' := by
  have hgrow := Grows.writes hsound.counters hw
  intro g v hg
  cases hw with
  | @resolveGaps evidenceId evidence gaps _ found listed closed =>
    rw [Engine.putResolutions, Engine.get?_resolveAll] at hg
    split at hg
    · rename_i hclosed
      cases hg
      exact ((hsound.mem_closedBy_iff found listed).mp hclosed).1
    · exact h g v hg
  | _ => exact (h g v hg).grow hgrow

theorem outcome {e : Engine} {o : Op} {result : EStateM.Result PyErr Engine Ret}
    (h : ResolversFit e) (hsound : Sound e) (ho : Outcome e o result) :
    ResolversFit (finalState result) := by
  have hgrow := Grows.outcome hsound.counters ho
  cases ho with
  | wrote hw => exact h.writes hsound hw
  | torn found uncounted => exact absurd uncounted hsound.typed.counts
  | _ => exact fun g v hg => (h g v hg).grow hgrow

end ResolversFit

theorem Session.Reachable.resolversFit {s : Session} (h : s.Reachable) : ResolversFit s.engine :=
  (h.preserves (P := fun _ e => Sound e ∧ ResolversFit e)
    (fun uuid => ⟨.new uuid, fun g v hg => by simp [Engine.new] at hg⟩)
    (fun _ e o he => ⟨he.1.op o, ResolversFit.outcome he.2 he.1 (o.outcome_cases e)⟩)
    fun _ e uuid _ he hrun => by
      rw [he.1.trip hrun]
      have heq := e.equiv_reloaded uuid
      exact ⟨he.1.congr heq, fun g v hg => (he.2 g v ((heq.gapResolutions g).trans hg)).grow
        (.of_equiv heq)⟩).2

/-! ## The law

For every list and every reordering of it. -/

/-- What closing gaps for the listed evidences comes to, whatever their order. -/
structure ClosedTogether (e : Engine) (ids : List Int) (e' : Engine) : Prop where
  returns : Engine.resolveGapsForEach ids e = .ok () e'
  resolved : ∀ g, e'.gapResolutions.contains g = true ↔
    e.gapResolutions.contains g = true ∨ ∃ v ∈ ids, Closes e v g
  anyOrder : ∀ ids', (∀ v, v ∈ ids' ↔ v ∈ ids) →
    ∃ e'', Engine.resolveGapsForEach ids' e = .ok () e'' ∧
      (∀ g, e''.gapResolutions.contains g = e'.gapResolutions.contains g) ∧
      ∀ c, outcome (Engine.confirmClaimIfReady c e'') = outcome (Engine.confirmClaimIfReady c e') ∧
        e''.gapModifierForClaim c = e'.gapModifierForClaim c

theorem Sound.closedTogether {e : Engine} (h : Sound e) {ids : List Int}
    (hids : ∀ v ∈ ids, e.evidences.contains v = true) : ∃ e', ClosedTogether e ids e' := by
  obtain ⟨e', hrun, hresolved⟩ := h.resolveGapsForEach_resolved hids
  refine ⟨e', hrun, hresolved.closed, fun ids' hsame => ?_⟩
  have hids' : ∀ v ∈ ids', e.evidences.contains v = true := fun v hv => hids v ((hsame v).mp hv)
  obtain ⟨e'', hrun', hresolved'⟩ := h.resolveGapsForEach_resolved hids'
  have hclosed : SameClosed e' e'' := hresolved.sameClosed hresolved' fun g => by simp only [hsame]
  exact ⟨e'', hrun', hclosed.closed, fun c => ⟨hclosed.confirm_outcome c, hclosed.gapModifier c⟩⟩

/-- **Gap resolution is confluent and sound.** -/
theorem gap_resolution_confluent {s : Session} (h : s.Reachable) :
    (∀ ids : List Int, (∀ v ∈ ids, s.engine.evidences.contains v = true) →
        ∃ e', ClosedTogether s.engine ids e') ∧
      ∀ {g v}, s.engine.gapResolutions.get? g = some v → ResolverFits s.engine g v :=
  ⟨fun _ hids => h.sound.closedTogether hids,
    fun hg => Closes.resolverFits h.sound (h.resolversFit _ _ hg)⟩

set_option maxRecDepth 4000 in
/-- Evidences 1 and 2 of two claims that share the open gap 1: whichever comes first closes it. The
gap of the disputed claim was closed by an evidence that fits. -/
theorem gap_resolution_confluent_rivals :
    (∃ e', ClosedTogether Session.rivals.engine [1, 2] e' ∧
      Session.rivals.engine.gapResolutions.contains 1 = false ∧
      e'.gapResolutions.contains 1 = true) ∧
      ResolverFits Session.disputed.engine 1 1 := by
  have hopen : Session.rivals.engine.gapResolutions.contains 1 = false := by with_unfolding_all rfl
  have hexists : ∀ v ∈ [1, 2], Session.rivals.engine.evidences.contains v = true := by
    decide +kernel
  have hcloses : Closes Session.rivals.engine 1 1 :=
    ⟨_, _, by with_unfolding_all rfl, by with_unfolding_all rfl, by decide +kernel, rfl⟩
  obtain ⟨e', htogether⟩ := (gap_resolution_confluent Session.rivals_reachable).1 [1, 2] hexists
  exact ⟨⟨e', htogether, hopen, (htogether.resolved 1).mpr (.inr ⟨1, by simp, hcloses⟩)⟩,
    (gap_resolution_confluent Session.disputed_reachable).2 (by with_unfolding_all rfl)⟩

end Ragcore
