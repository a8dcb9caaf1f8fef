import Ragcore.Invariant.History

/-!
# Ragcore — every recorded judgment keeps its justification

A transition method checks its guard once, at the moment it commits. What the guards ask for only
ever grows (`Grows`), so each fact about the stores that justified an event holds in every later
state.

* **`Grows`** — references, records, resolutions and contradictions are never taken back.
* **`Justified`** — every event of every claim has its justification in the stores.
-/

namespace Ragcore

/-! ## What never shrinks

The stores that justify an event are only ever added to, so what held when it was recorded still
holds. -/

/-- Gaps, evidences, their links and the logs of contradictions, all kept. -/
structure Grows (e e' : Engine) : Prop where
  gapRefs : ∀ {c g}, g ∈ e.claimGapRefs.getD c ∅ → g ∈ e'.claimGapRefs.getD c ∅
  gaps : ∀ {g r}, e.gaps.get? g = some r → e'.gaps.get? g = some r
  evidences : ∀ {v r}, e.evidences.get? v = some r → e'.evidences.get? v = some r
  resolutions : ∀ {g v}, e.gapResolutions.get? g = some v → e'.gapResolutions.get? g = some v
  contradictions : ∀ {c v}, v ∈ e.contradictions.getD c ∅ → v ∈ e'.contradictions.getD c ∅
  resolved : ∀ {c v}, v ∈ e.resolvedContradictions.getD c ∅ →
    v ∈ e'.resolvedContradictions.getD c ∅

namespace Grows

theorem refl (e : Engine) : Grows e e := ⟨id, id, id, id, id, id⟩

theorem trans {a b c : Engine} (h : Grows a b) (h' : Grows b c) : Grows a c where
  gapRefs hg := h'.gapRefs (h.gapRefs hg)
  gaps hg := h'.gaps (h.gaps hg)
  evidences hv := h'.evidences (h.evidences hv)
  resolutions hg := h'.resolutions (h.resolutions hg)
  contradictions hv := h'.contradictions (h.contradictions hv)
  resolved hv := h'.resolved (h.resolved hv)

/-- A round trip keeps what is there. -/
theorem of_equiv {e e' : Engine} (h : e.Equiv e') : Grows e e' where
  gapRefs hg := h.claimGapRefs.getD _ _ ▸ hg
  gaps hg := (h.gaps _).symm.trans hg
  evidences hv := (h.evidences _).symm.trans hv
  resolutions hg := (h.gapResolutions _).symm.trans hg
  contradictions hv := h.contradictions.getD _ _ ▸ hv
  resolved hv := h.resolvedContradictions.getD _ _ ▸ hv

/-- A record under a fresh id overwrites none. -/
theorem get?_insert_fresh {α : Type} {d : Dict Int α} {n : Int} (fresh : d.get? n = none)
    (a : α) {k : Int} {r : α} (h : d.get? k = some r) : (d.insert n a).get? k = some r := by
  rw [Dict.get?_insert_of_ne _ _ (by rintro rfl; simp [fresh] at h)]
  exact h

/-- An insertion into one bucket loses no member of any. -/
theorem mem_bucket {d : Dict Int (Finset Int)} {c v : Int} (w : Int) {k : Int}
    (h : v ∈ d.getD c ∅) : v ∈ (d.insert k (insert w (d.getD k ∅))).getD c ∅ := by
  rw [Dict.getD_insert]
  split
  · rename_i heq
    subst heq
    exact Finset.mem_insert_of_mem h
  · exact h

/-- Every write adds, and the records it could overwrite are under new ids. -/
theorem writes {e e' : Engine} {o : Op} {r : Ret} (hcount : CountersCover e)
    (hw : Writes e o r e') : Grows e e' := by
  cases hw with
  | addEvidence claim fresh =>
    exact { refl e with
      evidences := get?_insert_fresh (Engine.fresh_of_covers hcount.evidence fresh) _ }
  | shareGap => exact { refl e with gapRefs := mem_bucket _ }
  | addGap found hashed unknown admitted fresh =>
    exact { refl e with
      gapRefs := mem_bucket _
      gaps := get?_insert_fresh (Engine.fresh_of_covers hcount.gap fresh) _ }
  | @resolveGaps evidenceId evidence gaps _ found listed closed =>
    exact { refl e with
      resolutions := by
        intro g v hg
        rw [Engine.putResolutions, Engine.get?_resolveAll, if_neg]
        · exact hg
        · -- the loop closes open gaps only
          intro hclosed
          obtain ⟨_, _, _, _, hopen⟩ := Engine.mem_closedBy hclosed
          simp [Dict.contains, hg] at hopen }
  | registerContradiction => exact { refl e with contradictions := mem_bucket _ }
  | registerContradictionResolution => exact { refl e with resolved := mem_bucket _ }
  | _ => exact { refl e with }

/-- What a call wrote before it raised is a status. -/
theorem outcome {e : Engine} {o : Op} {result : EStateM.Result PyErr Engine Ret}
    (hcount : CountersCover e) (ho : Outcome e o result) : Grows e (finalState result) := by
  cases ho with
  | wrote hw => exact .writes hcount hw
  | raised => exact .refl e
  | idle => exact .refl e
  | knownGap => exact .refl e
  | torn => exact { refl e with }
  | restated => exact { refl e with }

end Grows

/-! ## Justifications

What the source asks for before each transition, without the parts that later calls may take back.
-/

/-- Gap `g` is resolved by an evidence of the type it asks for. -/
def ResolvedGap (e : Engine) (g : Int) : Prop :=
  ∃ gap v evidence, e.gaps.get? g = some gap ∧ e.gapResolutions.get? g = some v ∧
    e.evidences.get? v = some evidence ∧ evidence.type = gap.requiredEvidenceType

/-- The claim references a gap that is resolved so. -/
def HasResolvedGap (e : Engine) (c : Int) : Prop := ∃ g ∈ e.claimGapRefs.getD c ∅, ResolvedGap e g

/-- A contradiction was registered, whether or not it is resolved by now. -/
def HasContradiction (e : Engine) (c : Int) : Prop := (e.contradictions.getD c ∅).Nonempty

/-- A contradiction was registered and resolved. -/
def HasResolution (e : Engine) (c : Int) : Prop := (e.resolvedContradictions.getD c ∅).Nonempty

/-- One of the registered contradictions reaches the threshold. -/
def HasStrongContradiction (e : Engine) (c : Int) : Prop :=
  ∃ v ∈ e.contradictions.getD c ∅, ∃ evidence score, e.evidences.get? v = some evidence ∧
    evidence.strength = some score ∧ 4 / 5 ≤ score.value

section Monotone

variable {e e' : Engine} (hgrow : Grows e e')
include hgrow

/-- Each justification is about what never shrinks. -/
theorem ResolvedGap.grow {g : Int} (h : ResolvedGap e g) : ResolvedGap e' g := by
  obtain ⟨gap, v, evidence, hgap, hres, hev, htype⟩ := h
  exact ⟨gap, v, evidence, hgrow.gaps hgap, hgrow.resolutions hres, hgrow.evidences hev, htype⟩

theorem HasResolvedGap.grow {c : Int} (h : HasResolvedGap e c) : HasResolvedGap e' c := by
  obtain ⟨g, hg, hres⟩ := h
  exact ⟨g, hgrow.gapRefs hg, hres.grow hgrow⟩

theorem HasContradiction.grow {c : Int} (h : HasContradiction e c) : HasContradiction e' c :=
  h.imp fun _ hv => hgrow.contradictions hv

theorem HasResolution.grow {c : Int} (h : HasResolution e c) : HasResolution e' c :=
  h.imp fun _ hv => hgrow.resolved hv

theorem HasStrongContradiction.grow {c : Int} (h : HasStrongContradiction e c) :
    HasStrongContradiction e' c := by
  obtain ⟨v, hv, evidence, score, hev, hscore, hle⟩ := h
  exact ⟨v, hgrow.contradictions hv, evidence, score, hgrow.evidences hev, hscore, hle⟩

end Monotone

/-! ## Events

An event in the log of a claim, told apart by its label, and one event after another. -/

/-- The event is one of that transition. -/
def ClaimLifecycleEvent.HasLabel (event : ClaimLifecycleEvent) (t : Transition) : Prop :=
  event.transition = .str t.label

/-- The history of `c` has an event of this label. -/
def HasEvent (e : Engine) (c : Int) (t : Transition) : Prop :=
  ∃ event ∈ e.eventsOf c, event.HasLabel t

/-- The history of `c` has an event of the first label and, after it, one of the second. -/
def HasEventThen (e : Engine) (c : Int) (t t' : Transition) : Prop :=
  ∃ first second, [first, second].Sublist (e.eventsOf c) ∧ first.HasLabel t ∧ second.HasLabel t'

/-- The label tells which transition it was. -/
theorem Transition.label_injective : Function.Injective Transition.label := by
  intro t t' h
  cases t <;> cases t' <;> first | rfl | simp [Transition.label] at h

section Append

variable {e e' : Engine} {claimId : Int} {event : ClaimLifecycleEvent} {t : Transition}
  (hevents : ∀ c, e'.eventsOf c =
    if claimId = c then e.eventsOf claimId ++ [event] else e.eventsOf c)
  (hlabel : event.HasLabel t)
include hevents hlabel

/-- An event of the longer log was there or is the new one. -/
theorem hasEvent_append {c : Int} {t' : Transition} (h : HasEvent e' c t') :
    HasEvent e c t' ∨ claimId = c ∧ t' = t := by
  obtain ⟨event', hmem, hlabel'⟩ := h
  rw [hevents] at hmem
  split at hmem
  · rename_i heq
    subst heq
    rcases List.mem_append.mp hmem with hold | hnew
    · exact .inl ⟨event', hold, hlabel'⟩
    · rw [List.mem_singleton.mp hnew] at hlabel'
      exact .inr ⟨rfl, Transition.label_injective (Json.str.inj (hlabel'.symm.trans hlabel))⟩
  · exact .inl ⟨event', hmem, hlabel'⟩

/-- In a pair, only the later one can be new. -/
theorem hasEventThen_append {c : Int} {t₁ t₂ : Transition} (h : HasEventThen e' c t₁ t₂) :
    HasEventThen e c t₁ t₂ ∨ claimId = c ∧ t₂ = t ∧ HasEvent e c t₁ := by
  obtain ⟨first, second, hsub, hfirst, hsecond⟩ := h
  rw [hevents] at hsub
  split at hsub
  · rename_i heq
    subst heq
    -- the pair ends in the old log or with the new event
    rcases List.sublist_append_iff.mp hsub with ⟨l₁, l₂, heq, hl₁, hl₂⟩
    match l₁, l₂, heq with
    | [], [_, _], rfl => simp at hl₂
    | [_], [_], rfl =>
      have hnew : second = event := by simpa using hl₂
      subst hnew
      exact .inr ⟨rfl, Transition.label_injective (Json.str.inj (hsecond.symm.trans hlabel)),
        first, by simpa using hl₁, hfirst⟩
    | [_, _], [], rfl => exact .inl ⟨first, second, hl₁, hfirst, hsecond⟩
  · exact .inl ⟨first, second, hsub, hfirst, hsecond⟩

end Append

/-! ## The invariant

Every event that is recorded has its justification in the engine as it is now. -/

/-- Gaps were closed by matching evidence, and each kind of event has what its gate asked for. -/
structure Justified (e : Engine) : Prop where
  matched : ∀ {g v}, e.gapResolutions.get? g = some v → ResolvedGap e g
  confirmed : ∀ {c}, HasEvent e c .confirm → HasResolvedGap e c
  refuted : ∀ {c}, HasEvent e c .refute → HasContradiction e c
  disputed : ∀ {c}, HasEvent e c .dispute → HasContradiction e c
  reinstated : ∀ {c}, HasEventThen e c .dispute .resolveDisputed → HasResolution e c
  overruled : ∀ {c}, HasEvent e c .refuteDisputed → HasStrongContradiction e c
  overruledByFreshness : ∀ {c}, HasEvent e c .refuteDisputedByFreshness →
    HasStrongContradiction e c

namespace Justified

/-- Without events there is nothing to justify. -/
theorem new (uuid : UuidHex) : Justified (Engine.new uuid) := by
  have hevent : ∀ {c t}, ¬ HasEvent (Engine.new uuid) c t := by
    rintro c t ⟨event, hmem, -⟩
    simp [Engine.eventsOf, Engine.new] at hmem
  have hthen : ∀ {c t t'}, ¬ HasEventThen (Engine.new uuid) c t t' := by
    rintro c t t' ⟨first, second, hsub, -⟩
    simp [Engine.eventsOf, Engine.new] at hsub
  exact {
    matched := by simp [Engine.new]
    confirmed := fun h => absurd h hevent
    refuted := fun h => absurd h hevent
    disputed := fun h => absurd h hevent
    reinstated := fun h => absurd h hthen
    overruled := fun h => absurd h hevent
    overruledByFreshness := fun h => absurd h hevent }

/-- Stores that grow keep every justification; new resolutions bring their own. -/
theorem keep {e e' : Engine} (h : Justified e) (hgrow : Grows e e')
    (hevents : ∀ c, e'.eventsOf c = e.eventsOf c)
    (hmatched : ∀ {g v}, e'.gapResolutions.get? g = some v → ResolvedGap e' g) :
    Justified e' := by
  -- the logs did not change, so the events are the old ones
  have hevent : ∀ {c t}, HasEvent e' c t → HasEvent e c t := by
    rintro c t ⟨event, hmem, hlabel⟩
    exact ⟨event, hevents c ▸ hmem, hlabel⟩
  have hthen : ∀ {c t t'}, HasEventThen e' c t t' → HasEventThen e c t t' := by
    rintro c t t' ⟨first, second, hsub, hlabels⟩
    exact ⟨first, second, hevents c ▸ hsub, hlabels⟩
  exact {
    matched := hmatched
    confirmed := fun hev => (h.confirmed (hevent hev)).grow hgrow
    refuted := fun hev => (h.refuted (hevent hev)).grow hgrow
    disputed := fun hev => (h.disputed (hevent hev)).grow hgrow
    reinstated := fun hev => (h.reinstated (hthen hev)).grow hgrow
    overruled := fun hev => (h.overruled (hevent hev)).grow hgrow
    overruledByFreshness := fun hev => (h.overruledByFreshness (hevent hev)).grow hgrow }

/-- The gap loop closes a gap with an evidence of the type it asks for. -/
theorem resolveGaps {e : Engine} (h : Justified e) (hsound : Sound e) {evidenceId : Int}
    {evidence : Evidence} {gaps : List Gap} (found : e.evidences.get? evidenceId = some evidence)
    (listed : e.gapsForClaim evidence.claimId = .ok gaps)
    (hgrow : Grows e (e.putResolutions evidenceId
      (Engine.closedBy evidenceId evidence gaps e.gapResolutions))) :
    Justified (e.putResolutions evidenceId
      (Engine.closedBy evidenceId evidence gaps e.gapResolutions)) := by
  refine h.keep hgrow (fun _ => rfl) fun {g v} hg => ?_
  -- a gap that was closed just now, or before
  by_cases hclosed : g ∈ Engine.closedBy evidenceId evidence gaps e.gapResolutions
  · obtain ⟨gap, hgap, rfl, htype, -⟩ := Engine.mem_closedBy hclosed
    have hget := (hsound.references.gap_of_listed listed hgap).2
    have hsame := (hsound.typed.gap hget).requiredEvidenceType.eq_of_eq
      (hsound.typed.evidence found).type htype
    refine ⟨gap, evidenceId, evidence, hget, ?_, found, hsame.symm⟩
    rw [Engine.putResolutions, Engine.get?_resolveAll, if_pos hclosed]
  · rw [Engine.putResolutions, Engine.get?_resolveAll, if_neg hclosed] at hg
    exact (h.matched hg).grow hgrow

/-- The confirmed claim's first gap is resolved. -/
theorem hasResolvedGap_of_guard {e : Engine} (h : Justified e) (hsound : Sound e) {c : Int}
    (guard : Transition.confirm.Guard e c) : HasResolvedGap e c := by
  obtain ⟨gaps, hgaps, hne, hall⟩ := guard
  -- the guard asks for gaps, so there is a first one
  cases gaps with
  | nil => exact absurd rfl hne
  | cons gap rest =>
    have hmem : gap ∈ gap :: rest := by simp
    have hlisted := hsound.references.gap_of_listed hgaps hmem
    obtain ⟨resolution, hres, hall⟩ := bind_ok_iff.mp hall
    obtain ⟨_, _, hres⟩ := bind_ok_iff.mp hres
    cases hres
    cases hget : e.gapResolutions.get? gap.id with
    | none =>
      rw [hget] at hall
      cases hall
    | some v => exact ⟨gap.id, hlisted.1, h.matched hget⟩

/-- The strength that the gate compared is the one of the record. -/
theorem hasStrongContradiction_of_strength {e : Engine} {c v : Int} {strength : ℚ}
    (hv : v ∈ e.activeContradictions c) (hs : e.strengthOf v = .ok strength)
    (hle : Engine.refutationStrengthThreshold ≤ strength) : HasStrongContradiction e c := by
  obtain ⟨evidence, score, hget, hscore, rfl⟩ := Engine.strengthOf_ok_iff.mp hs
  exact ⟨v, (Finset.mem_sdiff.mp hv).1, evidence, score, hget, hscore, hle⟩

/-- The guard of the transition is the justification of its event. -/
theorem transition {e : Engine} (h : Justified e) (hsound : Sound e) {t : Transition}
    {claimId : Int} {claim : Claim} {seq : Json} (guard : t.Guard e claimId) :
    Justified (e.putTransition claimId claim t.target seq t.label) := by
  have hgrow : Grows e (e.putTransition claimId claim t.target seq t.label) :=
    { Grows.refl e with }
  have hevents := e.eventsOf_putTransition claimId claim t.target seq t.label
  -- a new event of label `t'` is one of `t`, whose guard has just been checked
  have hevent : ∀ {c t'}, HasEvent (e.putTransition claimId claim t.target seq t.label) c t' →
      HasEvent e c t' ∨ claimId = c ∧ t' = t := fun hev => hasEvent_append hevents rfl hev
  exact {
    matched := fun hg => (h.matched hg).grow hgrow
    confirmed := fun hev => by
      rcases hevent hev with hold | ⟨rfl, rfl⟩
      · exact (h.confirmed hold).grow hgrow
      · exact (h.hasResolvedGap_of_guard hsound guard).grow hgrow
    refuted := fun hev => by
      rcases hevent hev with hold | ⟨rfl, rfl⟩
      · exact (h.refuted hold).grow hgrow
      · exact Finset.nonempty_iff_ne_empty.mpr guard
    disputed := fun hev => by
      rcases hevent hev with hold | ⟨rfl, rfl⟩
      · exact (h.disputed hold).grow hgrow
      · exact Finset.nonempty_iff_ne_empty.mpr guard
    reinstated := fun hev => by
      rcases hasEventThen_append hevents rfl hev with hold | ⟨rfl, rfl, hdispute⟩
      · exact (h.reinstated hold).grow hgrow
      · -- every contradiction of the disputed claim is resolved, and there is one
        obtain ⟨v, hv⟩ := h.disputed hdispute
        have hempty : e.activeContradictions claimId = ∅ := guard
        exact ⟨v, Finset.sdiff_eq_empty_iff_subset.mp hempty hv⟩
    overruled := fun hev => by
      rcases hevent hev with hold | ⟨rfl, rfl⟩
      · exact (h.overruled hold).grow hgrow
      · obtain ⟨v, hv, strength, hs, hle⟩ := guard
        exact (hasStrongContradiction_of_strength hv hs hle).grow hgrow
    overruledByFreshness := fun hev => by
      rcases hevent hev with hold | ⟨rfl, rfl⟩
      · exact (h.overruledByFreshness hold).grow hgrow
      · obtain ⟨v, rest, hsorted, strength, hs, hle⟩ := guard
        have hv := mem_of_sortSet_desc_cons hsorted
        exact (hasStrongContradiction_of_strength hv hs hle).grow hgrow }

/-- Other calls record no event and lose no justification. -/
theorem writes {e e' : Engine} {o : Op} {r : Ret} (h : Justified e) (hsound : Sound e)
    (hw : Writes e o r e') : Justified e' := by
  have hgrow := Grows.writes hsound.counters hw
  cases hw with
  | resolveGaps found listed closed => exact h.resolveGaps hsound found listed hgrow
  | transition found source guard counted => exact h.transition hsound guard
  | _ => exact h.keep hgrow (fun _ => rfl) fun hg => (h.matched hg).grow hgrow

theorem outcome {e : Engine} {o : Op} {result : EStateM.Result PyErr Engine Ret}
    (h : Justified e) (hsound : Sound e) (ho : Outcome e o result) :
    Justified (finalState result) := by
  have hgrow := Grows.outcome hsound.counters ho
  cases ho with
  | wrote hw => exact h.writes hsound hw
  | torn found uncounted => exact absurd uncounted hsound.typed.counts
  | _ => exact h.keep hgrow (fun _ => rfl) fun hg => (h.matched hg).grow hgrow

end Justified

/-! ## The law

Over every session, with firings and round trips. -/

theorem Session.Reachable.justified {s : Session} (h : s.Reachable) : Justified s.engine :=
  (h.preserves (P := fun _ e => Sound e ∧ Justified e) (fun uuid => ⟨.new uuid, .new uuid⟩)
    (fun _ e o he => ⟨he.1.op o, he.2.outcome he.1 (o.outcome_cases e)⟩)
    fun _ e uuid _ he hrun => by
      rw [he.1.trip hrun]
      have heq := e.equiv_reloaded uuid
      have hgrow := Grows.of_equiv heq
      refine ⟨he.1.congr heq, he.2.keep hgrow (fun c => (heq.claimLifecycleEvents.getD c []).symm)
        fun hg => (he.2.matched ((heq.gapResolutions _).trans hg)).grow hgrow⟩).2

/-- And what justified an event is still there later on. -/
theorem Session.Reachable.grows {s : Session} (h : s.Reachable) (later : List Action) :
    Grows s.engine (s.run later).engine :=
  (Session.preserves (P := fun _ e => Sound e ∧ Grows s.engine e)
    (fun _ e o he => ⟨he.1.op o, he.2.trans (.outcome he.1.counters (o.outcome_cases e))⟩)
    (fun _ e uuid _ he hrun => by
      rw [he.1.trip hrun]
      have heq := e.equiv_reloaded uuid
      exact ⟨he.1.congr heq, he.2.trans (.of_equiv heq)⟩)
    ⟨h.sound, .refl _⟩ later).2

/-- What the events of `c` in `e` promise about the stores of `e'`. -/
structure JudgmentsHold (e : Engine) (c : Int) (e' : Engine) : Prop where
  confirmed : HasEvent e c .confirm → HasResolvedGap e' c
  contradicted : HasEvent e c .refute ∨ HasEvent e c .dispute → HasContradiction e' c
  reinstated : HasEventThen e c .dispute .resolveDisputed → HasResolution e' c
  overruled : HasEvent e c .refuteDisputed ∨ HasEvent e c .refuteDisputedByFreshness →
    HasStrongContradiction e' c

/-- **Every recorded judgment keeps its justification**, now and after any later actions. -/
theorem judgments_hold {s : Session} (h : s.Reachable) (later : List Action) (c : Int) :
    JudgmentsHold s.engine c (s.run later).engine := by
  have hj := h.justified
  have hgrow := h.grows later
  exact {
    confirmed := fun hev => (hj.confirmed hev).grow hgrow
    contradicted := fun hev => (hev.elim hj.refuted hj.disputed).grow hgrow
    reinstated := fun hev => (hj.reinstated hev).grow hgrow
    overruled := fun hev => (hev.elim hj.overruled hj.overruledByFreshness).grow hgrow }

/-- The disputed claim was confirmed, so a gap of it is resolved. -/
theorem judgments_hold_disputed : HasResolvedGap Session.disputed.engine 1 :=
  (judgments_hold Session.disputed_reachable [] 1).confirmed
    ⟨⟨.int 1, .int 1, .int 0, .int 1, .str "confirm_if_ready"⟩,
      List.mem_of_getElem? (i := 0) (by with_unfolding_all rfl), rfl⟩

end Ragcore
