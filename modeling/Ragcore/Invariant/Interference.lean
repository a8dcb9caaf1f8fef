import Ragcore.Invariant.Isolation
import Ragcore.Invariant.Observer
import Ragcore.Lib.Interference

/-!
# Ragcore — a claim does not notice the work on others

All work on claims goes through stores the claims share, and a gap that several claims reference is
closed for all of them. Claims share gaps on one subject only, so that is where the work on a claim
ends.

* **`Watched`** — what holds of the states of a run: the dedup index is exact, and it files the gaps
  of a claim under the claim's subject.
* **`SameFor.apart`** — a mutator that does not bear on the claim is not noticed.
* **`SameFor.op`** / **`SameFor.query`** — every other call and read does and answers the same.
* **`claims_do_not_interfere`** — two runs that differ in the work on other claims answer every
  request that bears on the claim alike.
-/

namespace Ragcore

/-! ## The states of a run

What both runs share, and what the request does to it. -/

/-- Claim `c` is there and its subject is entity `n`. -/
structure Watched (c n : Int) (e : Engine) : Prop where
  sound : Sound e
  exact : DedupExact e
  subject : SubjectOf e c n

namespace Watched

variable {c n : Int} {e e' : Engine} (h : Watched c n e)
include h

theorem op (o : Op) : Watched c n (finalState (o.run e)) where
  sound := h.sound.op o
  exact := h.exact.outcome h.sound (o.outcome_cases e)
  subject := by
    rcases h.sound.typed.outcome_cases (o.outcome_cases e) with
      ⟨err, hrun⟩ | ⟨r, hrun⟩ | ⟨r, e', hrun, hw⟩
    · exact hrun ▸ h.subject
    · exact hrun ▸ h.subject
    · exact hrun ▸ (SubjectsKept.writes h.sound.counters hw).subject h.subject

theorem request (r : Request) : Watched c n (finalState (r.respond e)) := by
  rw [Request.respond, finalState_map]
  cases r with
  | call call =>
    rw [Request.run, finalState_map]
    exact (call.steps e).preserves_state (fun _ o h => h.op o) h
  | ask q =>
    rw [Request.run, finalState_map, readState]
    cases q.run e <;> exact h

theorem onSubject_iff {k : Int} : e.onSubject n k = true ↔ SubjectOf e k n := by
  unfold Engine.onSubject SubjectOf
  cases hk : e.claims.get? k with
  | none => simp
  | some claim =>
    obtain ⟨m, hm⟩ := (h.sound.typed.claim hk).subjectId
    simp [hm, Json.key?]

/-- The gaps of a claim on the subject are filed under it. -/
theorem filed_here {k g : Int} (hk : SubjectOf e k n) (hg : g ∈ e.claimGapRefs.getD k ∅) :
    e.filedElsewhere n g = false := by
  obtain ⟨m, ruleId, gapType, required, hm, hkey⟩ := h.exact.references hg
  obtain rfl := hm.unique hk
  rw [← Bool.not_eq_true, filedElsewhere_iff]
  rintro ⟨key, hother, hne⟩
  exact hne (h.exact.injective hother hkey ▸ rfl)

theorem filed_elsewhere {k g : Int} (hk : ¬ SubjectOf e k n) (hg : g ∈ e.claimGapRefs.getD k ∅) :
    e.filedElsewhere n g = true := by
  obtain ⟨m, ruleId, gapType, required, hm, hkey⟩ := h.exact.references hg
  rw [filedElsewhere_iff]
  refine ⟨_, hkey, fun heq => hk ?_⟩
  have hmn : m = n := by simpa [Engine.dedupKey] using heq
  exact hmn ▸ hm

theorem listed_here {k : Int} {gaps : List Gap} (hk : SubjectOf e k n)
    (hgaps : e.gapsForClaim k = .ok gaps) : ∀ gap ∈ gaps, e.filedElsewhere n gap.id = false := by
  intro gap hgap
  exact h.filed_here hk (h.sound.references.gap_of_listed hgaps hgap).1

end Watched

/-! ## What does not bear on the claim

Such a request may happen on one side alone. -/

namespace SameFor

variable {c n : Int} {e e' : Engine}

/-- A mutator that does not bear on the claim is not noticed. -/
theorem apart (h : SameFor c n e e') (hw : Watched c n e) {o : Op} (ho : o.bears c n e = false) :
    SameFor c n (finalState (o.run e)) e' := by
  rcases hw.sound.typed.outcome_cases (o.outcome_cases e) with
    ⟨err, hrun⟩ | ⟨r, hrun⟩ | ⟨r, e₁, hrun, hwrites⟩
  · rw [hrun]
    exact h
  · rw [hrun]
    exact h
  rw [hrun]
  show SameFor c n e₁ e'
  cases hwrites with
  | @registerContradiction k v claim evidence absent =>
    have hk : c ≠ k := by
      rintro rfl
      simp [Op.bears] at ho
    exact { h with contradictions := (getD_insert_other _ hk _ _).trans h.contradictions }
  | @registerContradictionResolution k v claim registered absent =>
    have hk : c ≠ k := by
      rintro rfl
      simp [Op.bears] at ho
    exact { h with resolved := (getD_insert_other _ hk _ _).trans h.resolved }
  | @transition t k claim seq found source guard counted =>
    have hk : k ≠ c := by
      rintro rfl
      simp [Op.bears] at ho
    exact { h with
      -- the record of the other claim has a new status, and nothing else
      records := by
        intro j
        rw [← h.records j]
        show ((e.claims.insert k _).get? j).map Claim.unjudged = _
        rw [Dict.get?_insert]
        split
        · rename_i hj
          rw [← hj, found]
          rfl
        · rfl
      claim := (Dict.get?_insert_of_ne _ _ hk).trans h.claim
      events := by
        rw [Engine.eventsOf_putTransition, if_neg hk]
        exact h.events }
  | @resolveGaps v evidence gaps ret found listed closed =>
    have hother : ¬ SubjectOf e evidence.claimId n := by
      rw [← hw.onSubject_iff, Bool.not_eq_true]
      simpa only [Op.bears, found] using ho
    exact { h with
      -- a gap it closes is filed under the subject of that other claim
      resolutions := by
        intro g hg
        rw [← h.resolutions g hg]
        show (Engine.resolveAll v _ e.gapResolutions).get? g = _
        rw [Engine.get?_resolveAll, if_neg]
        intro hclosed
        obtain ⟨gap, hgap, rfl, -, -⟩ := Engine.mem_closedBy hclosed
        have hfiled := hw.filed_elsewhere hother
          (hw.sound.references.gap_of_listed listed hgap).1
        rw [show e.filedElsewhere n gap.id = false from hg] at hfiled
        cases hfiled }
  | setHints onHints =>
    cases o with
    | registerHintEvidenceTypes | unregisterHintEvidenceTypes | clearHintEvidenceTypes => cases ho
    | _ => cases onHints
  | _ => cases ho

/-! ## What bears on the claim

Such a request happens on both sides and is answered alike. -/

variable (h : SameFor c n e e') (hw : Watched c n e) (hw' : Watched c n e')
include h hw hw'

theorem transition (t : Transition) :
    Agree (SameFor c n) (t.method c e) (t.method c e') := by
  have hcommit : ∀ claim, Agree (SameFor c n)
      (Engine.commitTransition c claim t.target t.label e)
      (Engine.commitTransition c claim t.target t.label e') :=
    fun claim => h.commitTransition hw.sound hw'.sound claim t.target t.label
  cases t with
  | confirm =>
    -- the gaps it asks about are on the claim's own subject, where the engines agree
    refine h.gated rfl fun claim => ?_
    refine .readState_bind h (h.gapsForClaim c) fun gaps hgaps => ?_
    refine .ite .rfl (fun _ => .pure h false) fun _ => ?_
    have hfiled := hw.listed_here hw.subject hgaps
    refine .readState_bind h (h.allResolved hfiled) fun resolved _ => ?_
    exact .ite .rfl (fun _ => .pure h false) fun _ => hcommit claim
  | refute =>
    refine h.gated rfl fun claim => .get_bind ?_
    rw [← h.contradictions]
    exact .ite .rfl (fun _ => .pure h false) fun _ => hcommit claim
  | dispute =>
    refine h.gated rfl fun claim => .get_bind ?_
    rw [← h.contradictions]
    exact .ite .rfl (fun _ => .pure h false) fun _ => hcommit claim
  | resolveDisputed =>
    refine h.gated rfl fun claim => ?_
    refine .readState_bind h h.activeContradictionsForClaim fun active _ => ?_
    exact .ite .rfl (fun _ => .pure h false) fun _ => hcommit claim
  | refuteDisputed =>
    refine h.gated rfl fun claim => ?_
    refine .readState_bind h h.activeContradictionsForClaim fun active _ => ?_
    refine .readState_bind h (h.anyStrong active) fun strong _ => ?_
    exact .ite .rfl (fun _ => .pure h false) fun _ => hcommit claim
  | refuteDisputedByFreshness =>
    refine h.gated rfl fun claim => ?_
    refine .readState_bind h h.activeContradictionsByFreshness fun active _ => ?_
    cases active with
    | nil => exact .pure h false
    | cons mostRecent rest =>
      refine .readState_bind h (h.strengthOf mostRecent) fun strength _ => ?_
      exact .ite .rfl (fun _ => .pure h false) fun _ => hcommit claim

omit hw hw' in
theorem closeMatching (evidenceId : Int) (evidence : Evidence) {gaps : List Gap}
    (hgaps : ∀ gap ∈ gaps, e.filedElsewhere n gap.id = false) :
    Agree (SameFor c n) (Engine.closeMatching evidenceId evidence gaps e)
      (Engine.closeMatching evidenceId evidence gaps e') := by
  induction gaps generalizing e e' with
  | nil => exact .pure h []
  | cons gap rest ih =>
    obtain ⟨hgap, hrest⟩ := List.forall_mem_cons.mp hgaps
    have hopen : e.gapResolutions.contains gap.id = e'.gapResolutions.contains gap.id := by
      unfold Dict.contains
      rw [h.resolutions gap.id hgap]
    -- the same entry is added on both sides
    have hstep : SameFor c n
        { e with gapResolutions := e.gapResolutions.insert gap.id evidenceId }
        { e' with gapResolutions := e'.gapResolutions.insert gap.id evidenceId } :=
      { h with
        resolutions := by
          intro g hg
          show (e.gapResolutions.insert gap.id evidenceId).get? g =
            (e'.gapResolutions.insert gap.id evidenceId).get? g
          rw [Dict.get?_insert, Dict.get?_insert, h.resolutions g hg] }
    unfold Engine.closeMatching
    refine .get_bind ?_
    rw [hopen]
    refine .ite .rfl (fun _ => .modify_bind ?_) fun _ => ih h hrest
    exact .bind (ih hstep hrest) fun _ _ _ h => .pure h _

omit hw' in
theorem resolveGapsForEvidence {evidenceId : Int}
    (ho : (Op.resolveGapsForEvidence evidenceId).bears c n e = true) :
    Agree (SameFor c n) (Engine.resolveGapsForEvidence evidenceId e)
      (Engine.resolveGapsForEvidence evidenceId e') := by
  unfold Engine.resolveGapsForEvidence
  refine .readState_bind h (h.assertEvidenceExists evidenceId) fun _ _ => ?_
  refine .readState_bind h (h.getEvidence evidenceId) fun evidence hevidence => ?_
  -- the evidence belongs to a claim on the watched subject
  have hsubject : SubjectOf e evidence.claimId n := by
    rw [← hw.onSubject_iff]
    simpa only [Op.bears, Engine.subscript_ok_iff.mp hevidence] using ho
  refine .readState_bind h (h.gapsForClaim evidence.claimId) fun gaps hgaps => ?_
  have hfiled := hw.listed_here hsubject hgaps
  refine .bind (h.closeMatching evidenceId evidence hfiled) fun resolved s s' h => ?_
  exact .ite .rfl (fun _ => .bind h.advanceStateRevision fun _ _ _ h => .pure h _)
    fun _ => .pure h _

/-- **Every mutator that bears on the claim does the same on both.** -/
theorem op {o : Op} (ho : o.bears c n e = true) : Agree (SameFor c n) (o.run e) (o.run e') := by
  -- the calls that can bear on the claim
  cases o with
  | addEntity => exact .map _ (h.addEntity ..)
  | addObservation => exact .map _ (h.addObservation ..)
  | addClaim => exact .map _ (h.addClaim ..)
  | addEvidence => exact .map _ (h.addEvidence ..)
  | addRelation => exact .map _ (h.addRelation ..)
  | addGap => exact .map _ (h.addGap ..)
  | resolveGapsForEvidence => exact .map _ (h.resolveGapsForEvidence hw ho)
  | registerContradiction claimId =>
    obtain rfl : claimId = c := of_decide_eq_true ho
    exact .map _ (h.registerContradiction ..)
  | registerContradictionResolution claimId =>
    obtain rfl : claimId = c := of_decide_eq_true ho
    exact .map _ (h.registerContradictionResolution ..)
  | transition t claimId =>
    obtain rfl : claimId = c := of_decide_eq_true ho
    exact .map _ (h.transition hw hw' t)
  | registerRule => exact .map _ (h.registerRule ..)
  | updateRuleStats => exact .map _ (h.updateRuleStats ..)
  | registerHintEvidenceTypes =>
    exact .map _ (.readState_bind h rfl fun _ _ => h.setHintEvidenceTypes _)
  | unregisterHintEvidenceTypes =>
    exact .map _ (.readState_bind h rfl fun _ _ => h.setHintEvidenceTypes _)
  | clearHintEvidenceTypes => exact .map _ h.clearHintEvidenceTypes

/-! ### Reads

Queries read what the two sides share. -/

omit hw' in
theorem sameConfidence : SameConfidence c e e' := by
  -- the engines share what the confidence reads
  have hreads : SameReads c e e' := {
    claim := h.claim.symm
    contradictions := h.contradictions.symm
    resolved := h.resolved.symm
    cited := fun v _ => by rw [h.evidences]
    own := by rw [h.evidences]
    gapRefs := by rw [h.claimGapRefs]
    ruleStats := h.ruleStats.symm
    hints := h.hintEvidenceTypes.symm }
  apply hreads.sameConfidence
  intro g hg
  unfold Dict.contains
  rw [h.resolutions g (hw.filed_here hw.subject hg)]

omit hw' in
/-- The computations differ in the stamp of their last step. -/
theorem computeEffectiveConfidenceCore :
    EffectiveConfidenceTrace.unstamped <$> e.computeEffectiveConfidenceCore c =
      EffectiveConfidenceTrace.unstamped <$> e'.computeEffectiveConfidenceCore c := by
  have hsame := h.sameConfidence hw
  have hclaim : Engine.subscript e.claims c = Engine.subscript e'.claims c := h.getClaim
  unfold Engine.computeEffectiveConfidenceCore Engine.stateIdentity
  simp only [h.assertClaimExists c, hclaim, hsame.status, hsame.freshness, hsame.gap, hsame.count,
    hsame.ruleStats, hsame.evidenceType, EngineStateIdentity.new_uuid, map_bind]
  rfl

omit hw' in
/-- **Every read that bears on the claim answers the same on both.** -/
theorem query {q : Query} (hq : q.bears c n e = true) :
    Answer.unnumbered <$> q.run e = Answer.unnumbered <$> q.run e' := by
  have hcongr : ∀ {α : Type} (f : α → Answer) {x y : Except PyErr α}, x = y →
      Answer.unnumbered <$> (f <$> x) = Answer.unnumbered <$> (f <$> y) := fun f _ _ hxy => by
    rw [hxy]
  cases q with
  | getEntity k =>
    apply hcongr
    unfold Engine.getEntity
    rw [h.entities]
  | getObservation k =>
    apply hcongr
    unfold Engine.getObservation
    rw [h.observations]
  | getClaim k =>
    obtain rfl : k = c := of_decide_eq_true hq
    exact hcongr _ h.getClaim
  | getEvidence v => exact hcongr _ (h.getEvidence v)
  | evidencesForClaim k =>
    apply hcongr
    unfold Engine.evidencesForClaim
    rw [h.assertClaimExists k, h.evidences]
  | getRelation k =>
    apply hcongr
    unfold Engine.getRelation
    rw [h.relations]
  | getGap g =>
    apply hcongr
    unfold Engine.getGap
    rw [h.gaps]
  | gapsForClaim k => exact hcongr _ (h.gapsForClaim k)
  | gapResolution g =>
    have hfiled : e.filedElsewhere n g = false := by
      simpa only [Query.bears, Bool.not_eq_true'] using hq
    exact hcongr _ (h.gapResolution hfiled)
  | contradictionsForClaim k =>
    obtain rfl : k = c := of_decide_eq_true hq
    apply hcongr
    unfold Engine.contradictionsForClaim
    rw [h.assertClaimExists k, h.contradictions]
  | resolvedContradictionsForClaim k =>
    obtain rfl : k = c := of_decide_eq_true hq
    apply hcongr
    unfold Engine.resolvedContradictionsForClaim
    rw [h.assertClaimExists k, h.resolved]
  | activeContradictionsForClaim k =>
    obtain rfl : k = c := of_decide_eq_true hq
    exact hcongr _ h.activeContradictionsForClaim
  | activeContradictionsByFreshness k =>
    obtain rfl : k = c := of_decide_eq_true hq
    exact hcongr _ h.activeContradictionsByFreshness
  | claimLifecycleHistory k =>
    obtain rfl : k = c := of_decide_eq_true hq
    -- the histories agree up to the numbers, which the answer leaves out
    have hevents := congrArg Answer.history h.events
    show Answer.unnumbered <$> (Answer.history <$> e.claimLifecycleHistory k) =
      Answer.unnumbered <$> (Answer.history <$> e'.claimLifecycleHistory k)
    unfold Engine.claimLifecycleHistory
    rw [h.assertClaimExists k]
    cases e'.assertClaimExists k with
    | error err => rfl
    | ok _ => exact congrArg Except.ok hevents
  | evidenceFreshness v =>
    apply hcongr
    unfold Engine.evidenceFreshness
    rw [h.assertEvidenceExists v]
  | getRule k v =>
    apply hcongr
    unfold Engine.getRule Engine.assertRulePairExists
    rw [h.ruleDefinitions]
  | getRuleStats k v => exact hcongr _ (h.getRuleStats k v)
  | computeEffectiveConfidence k =>
    obtain rfl : k = c := of_decide_eq_true hq
    exact hcongr _ (h.sameConfidence hw).effective.symm
  | computeEffectiveConfidenceWithTrace k =>
    obtain rfl : k = c := of_decide_eq_true hq
    -- the traces agree up to the state identity, which the answer leaves out
    have htrace : ∀ e : Engine,
        Answer.unnumbered <$> (Answer.trace <$> e.computeEffectiveConfidenceWithTrace k) =
          Answer.trace <$> (EffectiveConfidenceTrace.unstamped <$>
            e.computeEffectiveConfidenceCore k) := by
      intro e
      unfold Engine.computeEffectiveConfidenceWithTrace
      cases e.computeEffectiveConfidenceCore k <;> rfl
    show Answer.unnumbered <$> (Answer.trace <$> e.computeEffectiveConfidenceWithTrace k) =
      Answer.unnumbered <$> (Answer.trace <$> e'.computeEffectiveConfidenceWithTrace k)
    rw [htrace, htrace, h.computeEffectiveConfidenceCore hw]
  | stateIdentity => cases hq
  | toSnapshot => cases hq

end SameFor

/-! ## Runs

The run without the requests that do not bear on the claim gives the same answers about it. -/

/-- **The requests of a run unwind** for the watcher of a claim. -/
theorem observer_unwinding (c n : Int) :
    Unwinding Request.respond (Request.bears c n) (Watched c n) (SameFor c n) where
  keeps r h := h.request r
  refl e := .refl c n e
  judged := by
    intro e e' h r
    -- two requests ask the engine: whose gaps the evidence closes, and where a gap is filed
    cases r with
    | call call =>
      cases call with
      | op o =>
        cases o with
        | resolveGapsForEvidence evidenceId =>
          show (Op.resolveGapsForEvidence evidenceId).bears c n e =
            (Op.resolveGapsForEvidence evidenceId).bears c n e'
          simp only [Op.bears, ← h.evidences, h.onSubject]
        | _ => rfl
      | fireRule f => rfl
      | fireRuleWithTrace f => rfl
    | ask q =>
      cases q with
      | gapResolution g =>
        show (!e.filedElsewhere n g) = !e'.filedElsewhere n g
        rw [h.filedElsewhere g]
      | _ => rfl
  apart := by
    intro e e' r hw h hr
    rw [Request.respond, finalState_map]
    -- a rule firing bears on every claim, and a query leaves the engine as it is
    cases r with
    | call call =>
      cases call with
      | op o =>
        rw [Request.run, finalState_map, Call.run, finalState_map]
        exact h.apart hw hr
      | fireRule f => cases hr
      | fireRuleWithTrace f => cases hr
    | ask q =>
      rw [Request.run, finalState_map, readState]
      cases q.run e <;> exact h
  agree := by
    intro e e' r hw hw' h hr
    cases r with
    | call call =>
      apply Agree.map
      apply Agree.map
      cases call with
      | op o => exact .map _ (h.op hw hw' hr)
      | fireRule f => exact .map _ (.bind (h.fireRuleCore ..) fun _ _ _ h => .pure h _)
      | fireRuleWithTrace f => exact .map _ (h.fireRuleCore ..)
    | ask q =>
      -- what is compared of an answer is what remains without the numbers
      have hcomp : (Request.ask q).respond =
          (Response.answer ∘ Answer.unnumbered) <$> (readState q.run : EngineM Answer) := by
        show Response.unnumbered <$> (Response.answer <$> readState q.run) = _
        rw [← comp_map]
        rfl
      rw [hcomp]
      refine .readState_map _ h ?_
      rw [comp_map, h.query hw hr, ← comp_map]

/-- What the watcher of claim `c`, whose subject is entity `n`, hears of a run. -/
def heardOf (c n : Int) (e : Engine) (requests : List Request) : List (Except PyErr Response) :=
  heard Request.respond (Request.bears c n) requests e

/-- The requests of a run that bear on the claim. -/
def bearingOn (c n : Int) (e : Engine) (requests : List Request) : List Request :=
  purge Request.respond (Request.bears c n) requests e

/-- **A claim does not notice the work on other claims.** Two runs from a reachable state whose
requests that bear on an existing claim are the same answer these alike, however they are
interleaved with transitions, contradictions and gap closings of others. -/
theorem claims_do_not_interfere {s : Session} (h : s.Reachable) {c n : Int}
    (hc : SubjectOf s.engine c n) {requests requests' : List Request}
    (hsame : bearingOn c n s.engine requests = bearingOn c n s.engine requests') :
    heardOf c n s.engine requests = heardOf c n s.engine requests' :=
  (observer_unwinding c n).heard_eq ⟨h.sound, h.gapAccount.exact, hc⟩ hsame

/-- Another claim on the same subject is contradicted and refuted before the first is read. -/
theorem claims_do_not_interfere_twoClaims :
    heardOf 1 1 Session.twoClaims.engine [
        .call (.op (.registerContradiction 2 1)), .call (.op (.transition .refute 2)),
        .ask (.computeEffectiveConfidence 1), .call (.op (.transition .refuteDisputed 1))] =
      heardOf 1 1 Session.twoClaims.engine [
        .ask (.computeEffectiveConfidence 1), .call (.op (.transition .refuteDisputed 1))] :=
  claims_do_not_interfere Session.twoClaims_reachable
    ⟨_, by with_unfolding_all rfl, rfl⟩ (by with_unfolding_all rfl)

end Ragcore
