import Ragcore.Condition.Agreement
import Ragcore.Invariant.Allocation
import Ragcore.Invariant.Dedup

/-!
# Ragcore — a rule firing is all or nothing

A firing makes its engine calls one after another, with no transaction around them. All its
checks pass before the first write: the statistics exist, the condition is evaluated, and
`add_claim` checks before it writes. After that nothing can raise.

* **`GapsAdded`** — the gap loop, after some of its types; `GapsAdded.step` is one iteration.
* **`FiringEffect`** — what a firing changes, store by store.
* **`FiringOutcome`** — raised, not fired or fired, with the reason for each.
* **`firing_all_or_nothing`** — for reachable states and conditions the loader builds.
-/

namespace Ragcore

namespace Firing

/-- The pair under which the rule is registered. -/
def pair (f : Firing) : Int × Int := (f.ruleId, f.ruleVersion)

/-- The dedup key of a required type. -/
def key (f : Firing) (evidenceType : Int) : DedupKey :=
  Engine.dedupKey (.int f.subjectId) f.ruleId gapTypeMissingEvidence evidenceType

/-- The severity of the gaps of a firing. -/
def defaultGapScore : ScoreValue := ⟨1 / 2, by norm_num, by norm_num⟩

/-- The claim of the firing, under the id `n`. -/
def claimRecord (f : Firing) (n : Int) : Claim :=
  ⟨n, .int f.subjectId, .int f.output.claimType, .int f.output.status, .int f.ruleId,
    .int f.ruleVersion, .int f.output.reasonCode, some f.output.baseConfidence, .int 0⟩

/-- The gap of a required type, under the id `g`. -/
def gapRecord (f : Firing) (claimId g evidenceType : Int) : Gap :=
  ⟨g, .int claimId, .int gapTypeMissingEvidence, .int evidenceType, some defaultGapScore,
    .int f.ruleId⟩

/-- The types among `types` whose combination with subject and rule `e` does not know. -/
def newTypes (f : Firing) (e : Engine) (types : List Int) : Finset Int :=
  types.toFinset.filter fun t => e.gapDedupIndex.get? (f.key t) = none

/-- For one firing the key of a gap is told by the type it asks for. -/
theorem key_injective (f : Firing) : Function.Injective f.key := by
  intro t t' h
  simpa [key, Engine.dedupKey] using h

theorem defaultGapSeverity_admitted :
    ScoreValue.new (.float defaultGapSeverity) = .ok defaultGapScore :=
  ScoreValue.new_value defaultGapScore

/-- The types for which no gap is known yet. -/
theorem mem_newTypes {f : Firing} {e : Engine} {types : List Int} {t : Int} :
    t ∈ f.newTypes e types ↔ t ∈ types ∧ e.gapDedupIndex.get? (f.key t) = none := by
  simp [newTypes]

/-- A type with a known gap adds nothing. -/
theorem newTypes_snoc_known {f : Firing} {e : Engine} {types : List Int} {t g : Int}
    (h : e.gapDedupIndex.get? (f.key t) = some g) :
    f.newTypes e (types ++ [t]) = f.newTypes e types := by
  ext t'
  simp only [mem_newTypes, List.mem_append, List.mem_singleton, or_and_right,
    or_iff_left_iff_imp]
  rintro ⟨rfl, hnone⟩
  rw [h] at hnone
  cases hnone

theorem newTypes_snoc_unknown {f : Firing} {e : Engine} {types : List Int} {t : Int}
    (h : e.gapDedupIndex.get? (f.key t) = none) :
    f.newTypes e (types ++ [t]) = insert t (f.newTypes e types) := by
  ext t'
  simp only [mem_newTypes, List.mem_append, List.mem_singleton, Finset.mem_insert]
  constructor
  · rintro ⟨hold | rfl, hnone⟩
    · exact .inr ⟨hold, hnone⟩
    · exact .inl rfl
  · rintro (rfl | ⟨hold, hnone⟩)
    · exact ⟨.inr rfl, h⟩
    · exact ⟨.inl hold, hnone⟩

end Firing

/-! ## The gap loop

The loop goes through the required types and calls `add_gap` for each. Its invariant is what the
types so far have done to the engine. -/

/-- The stores no firing writes. -/
structure OtherStores (e e' : Engine) : Prop where
  lifecycleSeq : e'.lifecycleSeq = e.lifecycleSeq
  entities : e'.entities = e.entities
  observations : e'.observations = e.observations
  evidences : e'.evidences = e.evidences
  relations : e'.relations = e.relations
  ruleDefinitions : e'.ruleDefinitions = e.ruleDefinitions
  gapResolutions : e'.gapResolutions = e.gapResolutions
  contradictions : e'.contradictions = e.contradictions
  resolvedContradictions : e'.resolvedContradictions = e.resolvedContradictions
  claimLifecycleEvents : e'.claimLifecycleEvents = e.claimLifecycleEvents
  hintEvidenceTypes : e'.hintEvidenceTypes = e.hintEvidenceTypes
  token : e'.stateIdentityToken = e.stateIdentityToken

theorem OtherStores.refl (e : Engine) : OtherStores e e := by
  constructor <;> rfl

/-- The gaps after claim `claimId` asked for `types` and was given `ids`. -/
structure GapEffect (f : Firing) (claimId : Int) (e : Engine) (types ids : List Int)
    (e' : Engine) : Prop where
  indexed : List.Forall₂ (fun t g => e'.gapDedupIndex.get? (f.key t) = some g) types ids
  knownKeys : ∀ {key g}, e.gapDedupIndex.get? key = some g → e'.gapDedupIndex.get? key = some g
  otherKeys : ∀ {key}, (∀ t ∈ types, f.key t ≠ key) →
    e'.gapDedupIndex.get? key = e.gapDedupIndex.get? key
  oldGaps : ∀ {g r}, e.gaps.get? g = some r → e'.gaps.get? g = some r
  /-- A gap that was not there is the one of a combination that was not known. -/
  newGaps : ∀ {g r}, e.gaps.get? g = none → e'.gaps.get? g = some r →
    ∃ t ∈ f.newTypes e types, e'.gapDedupIndex.get? (f.key t) = some g ∧
      r = f.gapRecord claimId g t
  added : ∀ {t g}, t ∈ f.newTypes e types → e'.gapDedupIndex.get? (f.key t) = some g →
    e.gaps.get? g = none
  refs : ∀ c, e'.claimGapRefs.get? c =
    if c = claimId ∧ types ≠ [] then some ids.toFinset else e.claimGapRefs.get? c

/-- The gap counter after the gaps of `fresh` types were added. -/
def GapCounter (e : Engine) (fresh : Finset Int) (name : String) (value : Option Json) : Prop :=
  ∃ m : Int, e.nextId.getD "gap" (.int 0) = .int m ∧
    value = if name = "gap" ∧ fresh.Nonempty then some (.int (m + fresh.card))
      else e.nextId.get? name

/-- The invariant of the loop: the effect of the types that were handled, and what the next round
needs. -/
structure GapsAdded (f : Firing) (claimId : Int) (e : Engine) (types ids : List Int)
    (e' : Engine) : Prop extends GapEffect f claimId e types ids e' where
  sound : Sound e'
  dedup : DedupExact e'
  others : OtherStores e e'
  claims : e'.claims = e.claims
  ruleStats : e'.ruleStats = e.ruleStats
  counters : ∀ name, GapCounter e (f.newTypes e types) name (e'.nextId.get? name)
  revision : e'.stateRevision = e.stateRevision + types.toFinset.card

/-- The claim of the loop, before the loop. -/
structure LoopReady (f : Firing) (claimId : Int) (e : Engine) : Prop where
  sound : Sound e
  dedup : DedupExact e
  claim : e.claims.get? claimId = some (f.claimRecord claimId)
  unreferenced : e.claimGapRefs.get? claimId = none

namespace GapsAdded

variable {f : Firing} {claimId : Int} {e e' : Engine} {types ids : List Int}

theorem start (h : LoopReady f claimId e) : GapsAdded f claimId e [] [] e where
  indexed := .nil
  knownKeys := id
  otherKeys := fun _ => rfl
  oldGaps := id
  newGaps := fun hnone hsome => by
    rw [hnone] at hsome
    cases hsome
  added := fun ht => by simp [Firing.newTypes] at ht
  refs := fun c => by simp
  sound := h.sound
  dedup := h.dedup
  others := .refl e
  claims := rfl
  ruleStats := rfl
  counters := fun name => by
    obtain ⟨m, hm⟩ := h.sound.counters.gap
    exact ⟨m, hm.1, by simp [Firing.newTypes]⟩
  revision := rfl

/-- The claim is new, so it refers to the gaps of the loop and to no other. -/
theorem getD_refs (h : GapsAdded f claimId e types ids e') (hready : LoopReady f claimId e) :
    e'.claimGapRefs.getD claimId ∅ = ids.toFinset := by
  rw [Dict.getD, h.refs]
  -- without types the claim has no references at all
  split
  · rfl
  · rename_i hempty
    have htypes : types = [] := by simpa using hempty
    have hids : ids = [] := by
      have hindexed := h.indexed
      rw [htypes] at hindexed
      cases hindexed
      rfl
    rw [hready.unreferenced, hids]
    rfl

/-- A type that was asked for has its gap among the references. -/
theorem referenced (h : GapsAdded f claimId e types ids e') {t : Int} (ht : t ∈ types) :
    ∃ g ∈ ids, e'.gapDedupIndex.get? (f.key t) = some g :=
  exists_of_forall₂_left h.indexed ht

/-- The type of a referenced gap was asked for. -/
theorem asked (h : GapsAdded f claimId e types ids e') {t g : Int} (hg : g ∈ ids)
    (ht : e'.gapDedupIndex.get? (f.key t) = some g) : t ∈ types := by
  obtain ⟨t', ht', hkey⟩ := exists_of_forall₂_right h.indexed hg
  rwa [f.key_injective (h.dedup.injective ht hkey)]

/-- The loop leaves its claim as it was added. -/
theorem claim (h : GapsAdded f claimId e types ids e') (hready : LoopReady f claimId e) :
    e'.claims.get? claimId = some (f.claimRecord claimId) := by
  rw [h.claims]
  exact hready.claim

theorem forall₂_snoc {R : Int → Int → Prop} (h : List.Forall₂ R types ids) {t g : Int}
    (hlast : R t g) : List.Forall₂ R (types ++ [t]) (ids ++ [g]) :=
  List.rel_append h (.cons hlast .nil)

/-- A type that was asked for before: the claim has the gap already, nothing is written. -/
theorem again (h : GapsAdded f claimId e types ids e') {t g : Int} (ht : t ∈ types) (hg : g ∈ ids)
    (hkey : e'.gapDedupIndex.get? (f.key t) = some g) :
    GapsAdded f claimId e (types ++ [t]) (ids ++ [g]) e' := by
  -- as sets, the types and the gaps are what they were
  have htypes : (types ++ [t]).toFinset = types.toFinset := by
    rw [List.toFinset_append, Finset.union_eq_left]
    simpa using ht
  have hids : (ids ++ [g]).toFinset = ids.toFinset := by
    rw [List.toFinset_append, Finset.union_eq_left]
    simpa using hg
  have hnew : f.newTypes e (types ++ [t]) = f.newTypes e types := by
    rw [Firing.newTypes, htypes, Firing.newTypes]
  exact { h with
    indexed := forall₂_snoc h.indexed hkey
    otherKeys := fun hother => h.otherKeys fun t' ht' => hother t' (List.mem_append_left _ ht')
    newGaps := by
      rw [hnew]
      exact h.newGaps
    added := by
      rw [hnew]
      exact h.added
    refs := fun c => by
      have htypes : types ≠ [] := List.ne_nil_of_mem ht
      rw [h.refs, hids]
      simp only [ne_eq, htypes, List.append_eq_nil_iff, false_and]
    counters := fun name => by
      rw [hnew]
      exact h.counters name
    revision := by rw [h.revision, htypes] }

/-- One step for each distinct type, whether or not its gap is new. -/
theorem revision_snoc (h : GapsAdded f claimId e types ids e') {t : Int} (ht : t ∉ types) :
    e'.stateRevision + 1 = e.stateRevision + (types ++ [t]).toFinset.card := by
  have hcard : (types ++ [t]).toFinset.card = types.toFinset.card + 1 := by
    rw [List.toFinset_append, Finset.union_comm]
    simp only [List.toFinset_cons, List.toFinset_nil, insert_empty_eq]
    rw [← Finset.insert_eq, Finset.card_insert_of_notMem (by simpa using ht)]
  rw [h.revision, hcard]
  omega

/-- The references after one more round. -/
theorem refs_snoc (h : GapsAdded f claimId e types ids e') (hready : LoopReady f claimId e)
    (t g c : Int) :
    (e'.referGap claimId g).get? c =
      if c = claimId ∧ types ++ [t] ≠ [] then some (ids ++ [g]).toFinset
      else e.claimGapRefs.get? c := by
  rw [Engine.referGap, Dict.get?_insert, h.getD_refs hready]
  -- the references of other claims are not written
  by_cases hc : claimId = c
  · subst hc
    have hids : insert g ids.toFinset = (ids ++ [g]).toFinset := by
      rw [List.toFinset_append, Finset.union_comm, Finset.insert_eq]
      rfl
    rw [if_pos rfl, if_pos ⟨rfl, by simp⟩, hids]
  · rw [if_neg hc, h.refs, if_neg, if_neg]
    · rintro ⟨rfl, -⟩
      exact hc rfl
    · rintro ⟨rfl, -⟩
      exact hc rfl

/-- A known combination this claim did not ask for yet: its gap is shared. -/
theorem share (h : GapsAdded f claimId e types ids e') (hready : LoopReady f claimId e) {t g : Int}
    (ht : t ∉ types) (hkey : e'.gapDedupIndex.get? (f.key t) = some g)
    (hsound : Sound (e'.putGapRef claimId g)) (hdedup : DedupExact (e'.putGapRef claimId g)) :
    GapsAdded f claimId e (types ++ [t]) (ids ++ [g]) (e'.putGapRef claimId g) := by
  -- the gap is in the index since before the loop or since an earlier round
  have hknown : e.gapDedupIndex.get? (f.key t) = some g := by
    rw [← h.otherKeys, hkey]
    intro t' ht' heq
    exact ht (f.key_injective heq ▸ ht')
  have hnew : f.newTypes e (types ++ [t]) = f.newTypes e types :=
    Firing.newTypes_snoc_known hknown
  exact {
    indexed := forall₂_snoc h.indexed hkey
    knownKeys := h.knownKeys
    otherKeys := fun hother => h.otherKeys fun t' ht' => hother t' (List.mem_append_left _ ht')
    oldGaps := h.oldGaps
    newGaps := by
      rw [hnew]
      exact h.newGaps
    added := by
      rw [hnew]
      exact h.added
    refs := h.refs_snoc hready t g
    sound := hsound
    dedup := hdedup
    others := { h.others with }
    claims := h.claims
    ruleStats := h.ruleStats
    counters := fun name => by
      rw [hnew]
      exact h.counters name
    revision := h.revision_snoc ht }

/-- The counter of an engine in the loop. -/
theorem counter (h : GapsAdded f claimId e types ids e') {n : Int}
    (hn : e'.nextCounter "gap" = .ok n) :
    ∃ m : Int, e.nextId.getD "gap" (.int 0) = .int m ∧
      n = m + (f.newTypes e types).card + 1 := by
  obtain ⟨m, hm, hvalue⟩ := h.counters "gap"
  refine ⟨m, hm, ?_⟩
  have hcount : e'.nextId.getD "gap" (.int 0) = .int (m + (f.newTypes e types).card) := by
    rw [Dict.getD, hvalue]
    -- the counter moved once for each new type
    split
    · rfl
    · rename_i hempty
      have hnone : f.newTypes e types = ∅ := by simpa using hempty
      rw [hnone, ← Dict.getD, hm]
      simp
  rw [Engine.nextCounter, hcount] at hn
  cases hn
  rfl

/-- A combination not known yet: the gap `n` is added for it. -/
theorem create (h : GapsAdded f claimId e types ids e') (hready : LoopReady f claimId e) {t n : Int}
    (hkey : e'.gapDedupIndex.get? (f.key t) = none) (hn : e'.nextCounter "gap" = .ok n)
    (hsound : Sound (e'.putGap claimId n (f.key t) (f.gapRecord claimId n t)))
    (hdedup : DedupExact (e'.putGap claimId n (f.key t) (f.gapRecord claimId n t))) :
    GapsAdded f claimId e (types ++ [t]) (ids ++ [n])
      (e'.putGap claimId n (f.key t) (f.gapRecord claimId n t)) := by
  have ht : t ∉ types := by
    intro ht
    obtain ⟨g, -, hg⟩ := h.referenced ht
    rw [hkey] at hg
    cases hg
  have hunknown : e.gapDedupIndex.get? (f.key t) = none := by
    rw [← h.otherKeys, hkey]
    intro t' ht' heq
    exact ht (f.key_injective heq ▸ ht')
  have hnew : f.newTypes e (types ++ [t]) = insert t (f.newTypes e types) :=
    Firing.newTypes_snoc_unknown hunknown
  have hfresh : e'.gaps.get? n = none := Engine.fresh_of_covers h.sound.counters.gap hn
  -- the keys and gaps that were there stay as they are
  have hkept : ∀ {key g}, e'.gapDedupIndex.get? key = some g →
      (e'.gapDedupIndex.insert (f.key t) n).get? key = some g := by
    intro key g hg
    rw [Dict.get?_insert_of_ne _ _ (by rintro rfl; simp [hkey] at hg)]
    exact hg
  exact {
    -- what was indexed still is, and `t` is indexed by `n`
    indexed := forall₂_snoc (h.indexed.imp fun _ _ hg => hkept hg) (Dict.get?_insert_self _ _ _)
    knownKeys := fun hg => hkept (h.knownKeys hg)
    otherKeys := fun hother => by
      refine (Dict.get?_insert_of_ne _ _ (hother t (by simp))).trans ?_
      exact h.otherKeys fun t' ht' => hother t' (List.mem_append_left _ ht')
    oldGaps := fun hr => Grows.get?_insert_fresh hfresh _ (h.oldGaps hr)
    newGaps := by
      intro g r hnone hr
      rw [hnew]
      by_cases hg : n = g
      · subst hg
        have hrecord : f.gapRecord claimId n t = r :=
          Option.some.inj ((Dict.get?_insert_self _ _ _).symm.trans hr)
        exact ⟨t, Finset.mem_insert_self _ _, Dict.get?_insert_self _ _ _, hrecord.symm⟩
      · have hold : e'.gaps.get? g = some r := (Dict.get?_insert_of_ne _ _ hg).symm.trans hr
        obtain ⟨t', ht', hindex, hrecord⟩ := h.newGaps hnone hold
        exact ⟨t', Finset.mem_insert_of_mem ht', hkept hindex, hrecord⟩
    added := by
      intro t' g ht' hindex
      rw [hnew] at ht'
      have hindex' : (e'.gapDedupIndex.insert (f.key t) n).get? (f.key t') = some g := hindex
      rw [Dict.get?_insert] at hindex'
      split at hindex'
      · -- the type just asked for: `n` is fresh, so no gap had it before the loop
        cases hindex'
        cases hold : e.gaps.get? n with
        | none => rfl
        | some r =>
          rw [h.oldGaps hold] at hfresh
          cases hfresh
      · rename_i hne
        refine h.added ?_ hindex'
        rcases Finset.mem_insert.mp ht' with rfl | hold
        · exact absurd rfl hne
        · exact hold
    refs := h.refs_snoc hready t n
    sound := hsound
    dedup := hdedup
    others := { h.others with }
    claims := h.claims
    ruleStats := h.ruleStats
    counters := fun name => by
      obtain ⟨m, hm, hcount⟩ := h.counter hn
      obtain ⟨m', hm', hvalue⟩ := h.counters name
      obtain rfl : m = m' := Json.int.inj (hm.symm.trans hm')
      refine ⟨m, hm, ?_⟩
      -- the gap counter moves by one, as the number of new types does
      have hcard : (insert t (f.newTypes e types)).card = (f.newTypes e types).card + 1 :=
        Finset.card_insert_of_notMem fun hmem => ht (Firing.mem_newTypes.mp hmem).1
      have hget : (e'.putGap claimId n (f.key t) (f.gapRecord claimId n t)).nextId.get? name =
          (e'.nextId.insert "gap" (.int n)).get? name := rfl
      rw [hget, hnew, hcard, Dict.get?_insert]
      by_cases hname : name = "gap"
      · subst hname
        simp [hcount, add_assoc]
      · rw [if_neg (Ne.symm hname), hvalue, if_neg (fun h => hname h.1),
          if_neg (fun h => hname h.1)]
    revision := h.revision_snoc ht }

/-- One iteration. Each of the three outcomes of `add_gap` is one case of the loop. -/
theorem step (h : GapsAdded f claimId e types ids e') (hready : LoopReady f claimId e) (t : Int) :
    ∃ g e'', Engine.addGap claimId gapTypeMissingEvidence t defaultGapSeverity f.ruleId e' =
        .ok g e'' ∧ GapsAdded f claimId e (types ++ [t]) (ids ++ [g]) e'' := by
  obtain ⟨n, hn⟩ := h.sound.counters.next .gap
  have hrun : Engine.addGap claimId gapTypeMissingEvidence t defaultGapSeverity f.ruleId e' = _ :=
    Engine.addGap_ok (h.claim hready) rfl Firing.defaultGapSeverity_admitted hn
  have hop : finalState ((f.gapOp claimId t).run e') =
      finalState (Engine.addGap claimId gapTypeMissingEvidence t defaultGapSeverity f.ruleId e') :=
    finalState_map _ _ _
  have hsound := h.sound.op (f.gapOp claimId t)
  have hdedup := h.dedup.outcome h.sound ((f.gapOp claimId t).outcome_cases e')
  rw [hop] at hsound hdedup
  cases hkey : e'.gapDedupIndex.get? (f.key t) with
  | some g =>
    -- `f.key t` spelled as `add_gap` computes it
    have hkey' : e'.gapDedupIndex.get? (Engine.dedupKey (HKey.int f.subjectId) f.ruleId
        gapTypeMissingEvidence t) = some g := hkey
    rw [hkey'] at hrun
    by_cases hmem : g ∈ e'.claimGapRefs.getD claimId ∅
    · -- the claim references it already, so the type was asked for before
      simp only [hmem, if_true] at hrun
      rw [h.getD_refs hready, List.mem_toFinset] at hmem
      exact ⟨g, e', hrun, h.again (h.asked hmem hkey) hmem hkey⟩
    · -- a gap from before the loop, shared with this claim
      simp only [hmem, if_false] at hrun
      rw [hrun] at hsound hdedup
      refine ⟨g, _, hrun, h.share hready (fun ht => hmem ?_) hkey hsound hdedup⟩
      obtain ⟨g', hg', hindex⟩ := h.referenced ht
      rw [hkey] at hindex
      cases hindex
      rw [h.getD_refs hready]
      exact List.mem_toFinset.mpr hg'
  | none =>
    have hkey' : e'.gapDedupIndex.get? (Engine.dedupKey (HKey.int f.subjectId) f.ruleId
        gapTypeMissingEvidence t) = none := hkey
    rw [hkey'] at hrun
    rw [hrun] at hsound hdedup
    exact ⟨n, _, hrun, h.create hready hkey hn hsound hdedup⟩

/-- The loop, by induction on the types still to come. -/
theorem run (h : GapsAdded f claimId e types ids e') (hready : LoopReady f claimId e)
    (rest : List Int) :
    ∃ ids' e'', Engine.addRequiredGaps claimId f.ruleId rest e' = .ok ids' e'' ∧
      GapsAdded f claimId e (types ++ rest) (ids ++ ids') e'' := by
  -- the invariant carries the types that were handled, so it is general in them
  induction rest generalizing types ids e' with
  | nil =>
    refine ⟨[], e', rfl, ?_⟩
    rw [List.append_nil, List.append_nil]
    exact h
  | cons t rest ih =>
    obtain ⟨g, e₁, hgap, hstep⟩ := h.step hready t
    obtain ⟨ids', e₂, hrest, hrun⟩ := ih hstep
    refine ⟨g :: ids', e₂, ?_, ?_⟩
    · rw [Engine.addRequiredGaps, run_bind, hgap]
      simp only
      rw [run_bind, hrest]
      rfl
    · rw [List.append_assoc, List.append_assoc] at hrun
      exact hrun

end GapsAdded

/-! ## Registered rules

A rule has statistics exactly when it has a definition. A restore does not ask for this, so it holds
for engines that were built by calls. -/

/-- Definitions and statistics have the same keys. -/
def RulesPaired (e : Engine) : Prop :=
  ∀ pair, e.ruleStats.contains pair = e.ruleDefinitions.contains pair

namespace RulesPaired

theorem new (uuid : UuidHex) : RulesPaired (Engine.new uuid) := fun _ => rfl

theorem congr {e e' : Engine} (h : RulesPaired e) (heq : e.Equiv e') : RulesPaired e' := by
  intro pair
  rw [← heq.ruleStats.contains, ← heq.ruleDefinitions.contains]
  exact h pair

/-- An update needs statistics that are there. -/
theorem insertStats {e : Engine} (h : RulesPaired e) {key : Int × Int} {current : RuleStats}
    (found : e.ruleStats.get? key = some current) (stats : RuleStats) (pair : Int × Int) :
    (e.ruleStats.insert key stats).contains pair = e.ruleDefinitions.contains pair := by
  rw [Dict.contains_insert, h pair]
  by_cases hpair : key = pair
  · subst hpair
    simp [← h key, Dict.contains_of_get? found]
  · simp [hpair]

/-- Rules are registered with both, and never removed. -/
theorem outcome {e : Engine} {o : Op} {result : EStateM.Result PyErr Engine Ret}
    (h : RulesPaired e) (ho : Outcome e o result) : RulesPaired (finalState result) := by
  cases ho with
  | wrote hw =>
    -- definitions and statistics are only written by these two calls
    cases hw with
    | registerRule absent =>
      intro pair
      have hpair := h pair
      change (Dict.insert e.ruleStats _ _).contains pair =
        (Dict.insert e.ruleDefinitions _ _).contains pair
      rw [Dict.contains_insert, Dict.contains_insert, hpair]
    | updateRuleStats found updated changed => exact h.insertStats found _
    | _ => exact h
  | restated found updated equal => exact h.insertStats found _
  | _ => exact h

end RulesPaired

/-! ## The law of one firing

A firing raises, or does not fire, or fires with all its effects. In the first two cases the engine
is as it was. -/

/-- What a firing changes. -/
structure FiringEffect (f : Firing) (e : Engine) (claimId : Int) (gapIds : List Int)
    (e' : Engine) : Prop extends GapEffect f claimId e f.evidenceTypes gapIds e' where
  fresh : e.claims.get? claimId = none
  claims : e'.claims = e.claims.insert claimId (f.claimRecord claimId)
  length : gapIds.length = f.evidenceTypes.length
  /-- The `i`-th gap requires the `i`-th type, for that rule and a claim of that subject. -/
  required : List.Forall₂ (fun t g => ∃ gap c,
    KeyedAs e' g f.subjectId f.ruleId gapTypeMissingEvidence t gap c) f.evidenceTypes gapIds
  references : e'.claimGapRefs.getD claimId ∅ = gapIds.toFinset
  stats : ∃ stats n, e.ruleStats.get? f.pair = some stats ∧ stats.firingCount = .int n ∧
    e'.ruleStats = e.ruleStats.insert f.pair { stats with firingCount := .int (n + 1) }
  claimCounter : e'.nextId.get? "claim" = some (.int claimId)
  gapCounter : ∀ {name}, name ≠ "claim" →
    GapCounter e (f.newTypes e f.evidenceTypes) name (e'.nextId.get? name)
  others : OtherStores e e'
  revision : e'.stateRevision = e.stateRevision + 2 + f.evidenceTypes.toFinset.card

/-- What a firing ends in. -/
inductive FiringOutcome (f : Firing) (e : Engine) : EStateM.Result PyErr Engine FiringTrace → Prop
  | unregistered (err : PyErr) (absent : e.ruleDefinitions.contains f.pair = false) :
      FiringOutcome f e (.error err e)
  | rejected (err : PyErr) {trace : Trace}
      (registered : e.ruleDefinitions.contains f.pair = true)
      (evaluated : Condition.evaluateWithTrace f.context f.condition = .ok trace)
      (holds : trace.result = true)
      (reason : e.entities.contains f.subjectId = false ∨ ¬ ValidStatus (.int f.output.status)) :
      FiringOutcome f e (.error err e)
  | notFired {trace : Trace} (registered : e.ruleDefinitions.contains f.pair = true)
      (evaluated : Condition.evaluateWithTrace f.context f.condition = .ok trace)
      (fails : trace.result = false) :
      FiringOutcome f e
        (.ok ⟨f.ruleId, f.ruleVersion, f.subjectId, false, trace, none, []⟩ e)
  | fired {trace : Trace} {claimId : Int} {gapIds : List Int} {e' : Engine}
      (registered : e.ruleDefinitions.contains f.pair = true)
      (evaluated : Condition.evaluateWithTrace f.context f.condition = .ok trace)
      (holds : trace.result = true)
      (subject : e.entities.contains f.subjectId = true)
      (status : ValidStatus (.int f.output.status))
      (effect : FiringEffect f e claimId gapIds e') :
      FiringOutcome f e
        (.ok ⟨f.ruleId, f.ruleVersion, f.subjectId, true, trace, some claimId, gapIds⟩ e')

/-- The invariants a firing relies on. -/
structure FiringReady (e : Engine) : Prop where
  sound : Sound e
  dedup : DedupExact e
  rules : RulesPaired e

namespace Firing

variable {f : Firing} {e : Engine}

/-- After the claim was added the loop can start. -/
theorem loopReady (h : FiringReady e) {n : Int} (hn : e.nextCounter "claim" = .ok n)
    (hsubject : e.entities.contains f.subjectId = true)
    (hstatus : ValidStatus (.int f.output.status)) :
    LoopReady f n (e.putClaim n (f.claimRecord n)) := by
  have hfresh : e.claims.get? n = none := Engine.fresh_of_covers h.sound.counters.claim hn
  have hrun : Engine.addClaim f.subjectId f.output.claimType f.ruleId f.ruleVersion
      f.output.reasonCode (.fin f.output.baseConfidence.value) f.output.status 0 e =
      .ok n (e.putClaim n (f.claimRecord n)) :=
    Engine.addClaim_ok hsubject hstatus (ScoreValue.new_value _) hn _ _ _ _ _
  have hop : finalState (f.claimOp.run e) = e.putClaim n (f.claimRecord n) := by
    rw [claimOp, Op.run, finalState_map, hrun]
    rfl
  have hsound := h.sound.op f.claimOp
  have hdedup := h.dedup.outcome h.sound (f.claimOp.outcome_cases e)
  rw [hop] at hsound hdedup
  refine ⟨hsound, hdedup, Dict.get?_insert_self _ _ _, ?_⟩
  -- a reference entry would have an existing claim as its key
  cases hrefs : e.claimGapRefs.get? n with
  | none => exact hrefs
  | some refs =>
    have hclaim := h.sound.references.gapRefClaim (Dict.contains_of_get? hrefs)
    rw [Dict.contains, hfresh] at hclaim
    cases hclaim

/-- Counting a firing changes the record, so the update is a write. -/
theorem statsOp_run {current : RuleStats} (h : Sound e)
    (hcurrent : e.ruleStats.get? f.pair = some current) :
    ∃ n, current.firingCount = .int n ∧
      Engine.updateRuleStats f.ruleId f.ruleVersion 1 0 0 none none e =
        .ok () (e.putStats f.pair { current with firingCount := .int (n + 1) }) := by
  have htyped := h.typed.ruleStats hcurrent
  obtain ⟨n, hn⟩ := htyped.firingCount
  obtain ⟨m, hm⟩ := htyped.confirmedTrueCount
  obtain ⟨k, hk⟩ := htyped.confirmedFalseCount
  -- the counts are ints, so the deltas can be added
  refine ⟨n, hn, Engine.updateRuleStats_ok hcurrent ?_ ?_⟩
  · simp only [Engine.updatedStats, hn, hm, hk, Json.addInt_int, add_zero, Option.none_or]
    rw [← hm, ← hk]
    rfl
  · simp [RuleStats.eq, hn, Json.same_int]

/-- Claim, gaps and statistics together are the effect. -/
theorem effect_of_loop (h : FiringReady e) {n : Int} {gapIds : List Int} {e' : Engine}
    {current : RuleStats} {count : Int} (hn : e.nextCounter "claim" = .ok n)
    (hloop : GapsAdded f n (e.putClaim n (f.claimRecord n)) f.evidenceTypes gapIds e')
    (hready : LoopReady f n (e.putClaim n (f.claimRecord n)))
    (hcurrent : e.ruleStats.get? f.pair = some current)
    (hcount : current.firingCount = .int count) :
    FiringEffect f e n gapIds
      (e'.putStats f.pair { current with firingCount := .int (count + 1) }) := by
  have hclaims : e'.claims = e.claims.insert n (f.claimRecord n) := hloop.claims
  exact {
    hloop.toGapEffect with
    fresh := Engine.fresh_of_covers h.sound.counters.claim hn
    claims := hclaims
    length := hloop.indexed.length_eq.symm
    -- a gap is what its key says, and the parts of the key are the firing's
    required := hloop.indexed.imp fun t g hindex => by
      obtain ⟨m, ruleId, gapType, required, gap, c, hkey, hkeyed⟩ := hloop.dedup.sound hindex
      have hparts : f.subjectId = m ∧ f.ruleId = ruleId ∧ gapTypeMissingEvidence = gapType ∧
          t = required := by
        simpa [key, Engine.dedupKey] using hkey
      obtain ⟨rfl, rfl, rfl, rfl⟩ := hparts
      exact ⟨gap, c, { hkeyed with subject := hkeyed.subject }⟩
    references := hloop.getD_refs hready
    stats := ⟨current, count, hcurrent, hcount, by
      change e'.ruleStats.insert _ _ = _
      rw [hloop.ruleStats]
      rfl⟩
    claimCounter := by
      obtain ⟨m, -, hvalue⟩ := hloop.counters "claim"
      refine hvalue.trans ?_
      rw [if_neg (by simp)]
      exact Dict.get?_insert_self _ _ _
    -- adding the claim moved the claim counter only
    gapCounter := fun {name} hname => by
      obtain ⟨m, hm, hvalue⟩ := hloop.counters name
      have hother : ∀ name', name' ≠ "claim" →
          (e.putClaim n (f.claimRecord n)).nextId.get? name' = e.nextId.get? name' :=
        fun name' hne => Dict.get?_insert_of_ne _ _ hne.symm
      rw [hother name hname] at hvalue
      rw [Dict.getD, hother "gap" (by decide)] at hm
      exact ⟨m, hm, hvalue⟩
    others := { hloop.others with }
    revision := by
      change e'.stateRevision + 1 = _
      rw [hloop.revision]
      change e.stateRevision + 1 + _ + 1 = _
      omega }

/-- The firing, up to the decision whether it fires. -/
theorem core_eq (f : Firing) : f.core = (do
    let _ ← readState (Engine.getRuleStats f.ruleId f.ruleVersion)
    let trace ← readState fun _ => Condition.evaluateWithTrace f.context f.condition
    if !trace.result then
      return ⟨f.ruleId, f.ruleVersion, f.subjectId, false, trace, none, []⟩
    let claimId ← Engine.addClaim f.subjectId f.output.claimType f.ruleId f.ruleVersion
      f.output.reasonCode (.fin f.output.baseConfidence.value) f.output.status 0
    let gapIds ← Engine.addRequiredGaps claimId f.ruleId f.evidenceTypes
    Engine.updateRuleStats f.ruleId f.ruleVersion 1 0 0 none none
    return ⟨f.ruleId, f.ruleVersion, f.subjectId, true, trace, some claimId, gapIds⟩) := rfl

/-- **Inversion of a firing** whose condition evaluates. -/
theorem outcome_cases (h : FiringReady e) (f : Firing) {trace : Trace}
    (hevaluated : Condition.evaluateWithTrace f.context f.condition = .ok trace) :
    FiringOutcome f e (f.core e) := by
  rw [core_eq, run_readState_bind]
  cases hstats : e.getRuleStats f.ruleId f.ruleVersion with
  | error err =>
    refine .unregistered err ?_
    rw [← h.rules f.pair, ← Bool.not_eq_true]
    intro hcontains
    obtain ⟨stats, hget⟩ := Dict.contains_iff.mp hcontains
    rw [Engine.getRuleStats_ok_iff.mpr hget] at hstats
    cases hstats
  | ok current =>
    have hcurrent := Engine.getRuleStats_ok_iff.mp hstats
    have hregistered : e.ruleDefinitions.contains f.pair = true := by
      rw [← h.rules f.pair]
      exact Dict.contains_of_get? hcurrent
    simp only
    rw [run_readState_bind, hevaluated]
    cases hresult : trace.result with
    | false =>
      simp only [hresult, Bool.not_false, if_true]
      exact .notFired hregistered hevaluated hresult
    | true =>
      simp only [hresult, Bool.not_true, Bool.false_eq_true, if_false]
      rw [run_bind]
      rcases Engine.addClaim_cases f.subjectId f.output.claimType f.ruleId f.ruleVersion
        f.output.reasonCode (.fin f.output.baseConfidence.value) f.output.status 0 e with
        ⟨err, hclaim⟩ | ⟨n, score, hsubject, hstatus, hscore, hn, hclaim⟩
      · rw [hclaim]
        refine .rejected err hregistered hevaluated hresult ?_
        -- with an admitted status and a known subject the call goes through
        by_contra hneither
        rw [not_or, not_not, Bool.not_eq_false] at hneither
        obtain ⟨n, hn⟩ := h.sound.counters.next .claim
        rw [Engine.addClaim_ok hneither.1 hneither.2 (ScoreValue.new_value _) hn] at hclaim
        cases hclaim
      · rw [ScoreValue.new_value] at hscore
        cases hscore
        have hclaim' : _ = EStateM.Result.ok n (e.putClaim n (f.claimRecord n)) := hclaim
        rw [hclaim']
        -- the claim is there: the loop over the evidence types runs, and then the statistics
        have hready := loopReady h hn hsubject hstatus
        obtain ⟨gapIds, e', hgaps, hloop⟩ := (GapsAdded.start hready).run hready f.evidenceTypes
        have hcurrent' : e'.ruleStats.get? f.pair = some current := by
          rw [hloop.ruleStats]
          exact hcurrent
        obtain ⟨count, hcount, hupdate⟩ := statsOp_run hloop.sound hcurrent'
        simp only
        rw [run_bind, hgaps]
        simp only
        rw [run_bind, hupdate]
        exact .fired hregistered hevaluated hresult hsubject hstatus
          (effect_of_loop h hn hloop hready hcurrent hcount)

end Firing

/-! ## Reachable states

Every session meets the conditions of the law. -/

theorem Session.Reachable.firingReady {s : Session} (h : s.Reachable) : FiringReady s.engine where
  sound := h.sound
  dedup := h.gapAccount.exact
  rules := (h.preserves (P := fun _ e => Sound e ∧ RulesPaired e)
    (fun uuid => ⟨.new uuid, .new uuid⟩)
    (fun _ e o he => ⟨he.1.op o, he.2.outcome (o.outcome_cases e)⟩)
    fun _ e uuid _ he hrun => by
      rw [he.1.trip hrun]
      have heq := e.equiv_reloaded uuid
      exact ⟨he.1.congr heq, he.2.congr heq⟩).2

/-- **A rule firing is all or nothing.** In a reachable state, with a condition the loader built,
it raises or does not fire with the engine as it was, or has exactly its effect. `fire_rule` and
`fire_rule_with_trace` are this firing with two views of its trace. -/
theorem firing_all_or_nothing {s : Session} (h : s.Reachable) {raw : Json} {f : Firing}
    (hload : Condition.loadConditionTree raw = .ok f.condition) :
    FiringOutcome f s.engine (f.core s.engine) ∧
      (Call.fireRule f).run = (fun trace => CallRet.claimId trace.claimId) <$> f.core ∧
      (Call.fireRuleWithTrace f).run = CallRet.trace <$> f.core := by
  obtain ⟨trace, hevaluated, -⟩ :=
    Condition.evaluateWithTrace_explains f.context (Condition.loadConditionTree_loaded hload)
  refine ⟨f.outcome_cases h.firingReady hevaluated, ?_, rfl⟩
  rw [Call.run, Engine.fireRule, bind_pure_comp, Functor.map_map]
  rfl

/-- A rule about entity `1` that asks for three evidence types, two of them equal. -/
def Firing.adult : Firing where
  ruleId := 0
  ruleVersion := 1
  condition := .predicate "age" "ge" (.int 18)
  output := ⟨1, 0, ⟨9 / 10, by norm_num, by norm_num⟩, 1⟩
  subjectId := 1
  context := [("age", .int 20)]
  requiredEvidence := some ⟨[7, 8, 8]⟩

/-- The disputed session with the rule registered. -/
def Session.registered : Session :=
  Session.disputed.run [.call (.op (.registerRule 0 1 0 ⟨1 / 2, by norm_num, by norm_num⟩))]

theorem Session.registered_reachable : Session.registered.Reachable :=
  ⟨default, (disputedRun.map .call ++ [.roundTrip default]) ++ [_], by
    rw [Session.run, List.foldl_append]
    rfl⟩

theorem firing_all_or_nothing_registered :
    FiringOutcome Firing.adult Session.registered.engine
      (Firing.adult.core Session.registered.engine) :=
  (firing_all_or_nothing Session.registered_reachable
    (show Condition.loadConditionTree
        (.dict [("field", .str "age"), ("op", .str "ge"), ("value", .int 18)]) =
      .ok Firing.adult.condition by with_unfolding_all rfl)).1

/-- The first type is known from the disputed claim's own gap. -/
example : (outcome (Firing.adult.core Session.registered.engine)).toOption.map
    (fun trace => (trace.claimId, trace.gapIds)) = some (some 2, [1, 2, 2]) := by
  with_unfolding_all rfl

end Ragcore
