import Ragcore.Engine.Session

/-!
# Ragcore — id counters and referential integrity

The invariants every store refers to every other store by.

* **`CountersCover`** — no record has an id above its kind's counter, so the next id is fresh.
* **`Referential`** — the references a restore checks: evidence to claim, contradiction and gap
  buckets, resolutions, dedup targets, records under their own ids, valid statuses.
* **`Endpoints`** — the references a restore does not check: observation to entity, claim to
  subject, gap to claim, both ends of a relation.

Each has a step lemma over `Outcome` and a congruence over equal states.
-/

namespace Ragcore

/-- `==` of the persisted stores of two engines. -/
def Engine.Equiv (e e' : Engine) : Prop :=
  e.toDecodedEngineState.Equiv e'.toDecodedEngineState

/-! ## Counters

The counter of a kind is at least every id of that kind, so the next id is new. This needs no other
invariant. -/

/-- The counter, zero where it is absent, is an int that no id is above. -/
def Covers {α : Type} (nextId : Dict String Json) (kind : String) (store : Dict Int α) : Prop :=
  ∃ n, nextId.getD kind (.int 0) = .int n ∧ 0 ≤ n ∧ ∀ k, store.contains k = true → k ≤ n

namespace Covers

variable {α : Type} {nextId : Dict String Json} {kind : String} {store : Dict Int α}

theorem empty : Covers ∅ kind (∅ : Dict Int α) :=
  ⟨0, rfl, le_rfl, fun k hk => by simp [Dict.contains] at hk⟩

/-- The counter of one kind moves; the others stay. -/
theorem insert_of_ne (h : Covers nextId kind store) {kind' : String} (hne : kind' ≠ kind)
    (v : Json) : Covers (nextId.insert kind' v) kind store := by
  obtain ⟨n, hn, h0, hle⟩ := h
  exact ⟨n, by rw [Dict.getD_insert, if_neg hne, hn], h0, hle⟩

theorem of_contains_iff {β : Type} {store' : Dict Int β} (h : Covers nextId kind store)
    (hiff : ∀ k, store'.contains k = store.contains k) : Covers nextId kind store' := by
  obtain ⟨n, hn, h0, hle⟩ := h
  exact ⟨n, hn, h0, fun k hk => hle k (hiff k ▸ hk)⟩

theorem congr {nextId' : Dict String Json} {store' : Dict Int α} (h : Covers nextId kind store)
    (hnext : nextId.Equiv nextId') (hstore : store.Equiv store') :
    Covers nextId' kind store' := by
  obtain ⟨n, hn, h0, hle⟩ := h
  exact ⟨n, by rw [← hnext.getD, hn], h0, fun k hk => hle k (by rw [hstore.contains, hk])⟩

end Covers

namespace Engine

/-- The next id is one above the counter. -/
theorem nextCounter_of_covers {α : Type} {e : Engine} {kind : String} {store : Dict Int α}
    (h : Covers e.nextId kind store) {n : Int} (hn : e.nextCounter kind = .ok n) :
    1 ≤ n ∧ (∀ k, store.contains k = true → k < n) := by
  obtain ⟨m, hm, h0, hle⟩ := h
  rw [nextCounter, hm] at hn
  cases hn
  exact ⟨by omega, fun k hk => by have := hle k hk; omega⟩

theorem fresh_of_covers {α : Type} {e : Engine} {kind : String} {store : Dict Int α}
    (h : Covers e.nextId kind store) {n : Int} (hn : e.nextCounter kind = .ok n) :
    store.get? n = none := by
  rw [Dict.get?_eq_none]
  intro hcontains
  exact absurd ((nextCounter_of_covers h hn).2 n hcontains) (lt_irrefl n)

/-- The allocated id is covered by the counter it leaves. -/
theorem covers_allocate {α : Type} {e : Engine} {kind : String} {store : Dict Int α}
    (h : Covers e.nextId kind store) {n : Int} (hn : e.nextCounter kind = .ok n) (a : α) :
    Covers (e.nextId.insert kind (.int n)) kind (store.insert n a) := by
  obtain ⟨h1, hlt⟩ := nextCounter_of_covers h hn
  refine ⟨n, by rw [Dict.getD_insert, if_pos rfl], by omega, fun k hk => ?_⟩
  rcases Dict.contains_insert_iff.mp hk with rfl | hold
  · exact le_rfl
  · exact (hlt k hold).le

end Engine

/-- The six kinds that have counters. -/
structure CountersCover (e : Engine) : Prop where
  entity : Covers e.nextId "entity" e.entities
  observation : Covers e.nextId "observation" e.observations
  claim : Covers e.nextId "claim" e.claims
  evidence : Covers e.nextId "evidence" e.evidences
  relation : Covers e.nextId "relation" e.relations
  gap : Covers e.nextId "gap" e.gaps

namespace CountersCover

theorem new (uuid : UuidHex) : CountersCover (Engine.new uuid) :=
  ⟨.empty, .empty, .empty, .empty, .empty, .empty⟩

theorem congr {e e' : Engine} (h : CountersCover e) (heq : e.Equiv e') : CountersCover e' where
  entity := h.entity.congr heq.nextId heq.entities
  observation := h.observation.congr heq.nextId heq.observations
  claim := h.claim.congr heq.nextId heq.claims
  evidence := h.evidence.congr heq.nextId heq.evidences
  relation := h.relation.congr heq.nextId heq.relations
  gap := h.gap.congr heq.nextId heq.gaps

/-- Overwriting a present claim moves no counter. -/
theorem putStatus {e : Engine} (h : CountersCover e) {claimId : Int} {claim : Claim}
    (hclaim : e.claims.get? claimId = some claim) (status : Json) :
    Covers e.nextId "claim" (e.claims.insert claimId { claim with status }) := by
  refine h.claim.of_contains_iff fun k => ?_
  rw [Dict.contains_insert]
  by_cases hk : claimId = k
  · subst hk
    simp [Dict.contains_of_get? hclaim]
  · simp [hk]

/-- Only an `add_*` call moves a counter, together with its store. -/
theorem writes {e e' : Engine} {o : Op} {r : Ret} (h : CountersCover e) (hw : Writes e o r e') :
    CountersCover e' := by
  -- an allocation inserts its own kind's counter and leaves the five others where they were
  cases hw with
  | addEntity fresh =>
    exact ⟨Engine.covers_allocate h.entity fresh _, h.observation.insert_of_ne (by decide) _,
      h.claim.insert_of_ne (by decide) _, h.evidence.insert_of_ne (by decide) _,
      h.relation.insert_of_ne (by decide) _, h.gap.insert_of_ne (by decide) _⟩
  | addObservation entity fresh =>
    exact ⟨h.entity.insert_of_ne (by decide) _, Engine.covers_allocate h.observation fresh _,
      h.claim.insert_of_ne (by decide) _, h.evidence.insert_of_ne (by decide) _,
      h.relation.insert_of_ne (by decide) _, h.gap.insert_of_ne (by decide) _⟩
  | addClaim subject valid fresh =>
    exact ⟨h.entity.insert_of_ne (by decide) _, h.observation.insert_of_ne (by decide) _,
      Engine.covers_allocate h.claim fresh _, h.evidence.insert_of_ne (by decide) _,
      h.relation.insert_of_ne (by decide) _, h.gap.insert_of_ne (by decide) _⟩
  | addEvidence claim fresh =>
    exact ⟨h.entity.insert_of_ne (by decide) _, h.observation.insert_of_ne (by decide) _,
      h.claim.insert_of_ne (by decide) _, Engine.covers_allocate h.evidence fresh _,
      h.relation.insert_of_ne (by decide) _, h.gap.insert_of_ne (by decide) _⟩
  | addRelation source target fresh =>
    exact ⟨h.entity.insert_of_ne (by decide) _, h.observation.insert_of_ne (by decide) _,
      h.claim.insert_of_ne (by decide) _, h.evidence.insert_of_ne (by decide) _,
      Engine.covers_allocate h.relation fresh _, h.gap.insert_of_ne (by decide) _⟩
  | addGap found hashed unknown admitted fresh =>
    exact ⟨h.entity.insert_of_ne (by decide) _, h.observation.insert_of_ne (by decide) _,
      h.claim.insert_of_ne (by decide) _, h.evidence.insert_of_ne (by decide) _,
      h.relation.insert_of_ne (by decide) _, Engine.covers_allocate h.gap fresh _⟩
  | transition found source guard counted => exact { h with claim := h.putStatus found _ }
  | shareGap => exact { h with }
  | resolveGaps => exact { h with }
  | registerContradiction => exact { h with }
  | registerContradictionResolution => exact { h with }
  | registerRule => exact { h with }
  | updateRuleStats => exact { h with }
  | setHints => exact { h with }

/-- An exception leaves the counters too. -/
theorem outcome {e : Engine} {o : Op} {result : EStateM.Result PyErr Engine Ret}
    (h : CountersCover e) (ho : Outcome e o result) : CountersCover (finalState result) := by
  cases ho with
  | raised err => exact h
  | idle r _ => exact h
  | knownGap => exact h
  | wrote hw => exact h.writes hw
  | torn found _ => exact { h with claim := h.putStatus found _ }
  | restated => exact { h with }

end CountersCover

/-! ## References a restore checks

Each record is filed under its own id and names what is there; what is resolved was registered. A
write keeps this when what it files does. -/

/-- The facts the restore asks of a snapshot, about the stores. -/
structure Referential (e : Engine) : Prop where
  evidenceClaim : ∀ {k r}, e.evidences.get? k = some r → e.claims.contains r.claimId = true
  contradictionClaim : ∀ {c}, e.contradictions.contains c = true → e.claims.contains c = true
  contradictionEvidence : ∀ {c v}, v ∈ e.contradictions.getD c ∅ → e.evidences.contains v = true
  resolvedKey : ∀ {c}, e.resolvedContradictions.contains c = true →
    e.contradictions.contains c = true
  resolvedSubset : ∀ {c v}, v ∈ e.resolvedContradictions.getD c ∅ →
    v ∈ e.contradictions.getD c ∅
  gapRefClaim : ∀ {c}, e.claimGapRefs.contains c = true → e.claims.contains c = true
  gapRefGap : ∀ {c g}, g ∈ e.claimGapRefs.getD c ∅ → e.gaps.contains g = true
  resolutionGap : ∀ {g v}, e.gapResolutions.get? g = some v → e.gaps.contains g = true
  resolutionEvidence : ∀ {g v}, e.gapResolutions.get? g = some v → e.evidences.contains v = true
  dedupGap : ∀ {key g}, e.gapDedupIndex.get? key = some g → e.gaps.contains g = true
  claimId : ∀ {k r}, e.claims.get? k = some r → r.id = k
  evidenceId : ∀ {k r}, e.evidences.get? k = some r → r.id = k
  gapId : ∀ {k r}, e.gaps.get? k = some r → r.id = k
  status : ∀ {k r}, e.claims.get? k = some r → ValidStatus r.status

/-- A transition ends in a valid status. -/
theorem Transition.target_valid (t : Transition) : ValidStatus t.target := by
  cases t <;> simp [Transition.target, ValidStatus]

namespace Referential

theorem new (uuid : UuidHex) : Referential (Engine.new uuid) := by
  constructor <;> simp [Engine.new, Dict.contains]

theorem congr {e e' : Engine} (h : Referential e) (heq : e.Equiv e') : Referential e' where
  evidenceClaim hr := by
    rw [← heq.claims.contains]
    exact h.evidenceClaim ((heq.evidences _).trans hr)
  contradictionClaim hc := by
    rw [← heq.claims.contains]
    exact h.contradictionClaim (by rw [heq.contradictions.contains, hc])
  contradictionEvidence hv := by
    rw [← heq.evidences.contains]
    exact h.contradictionEvidence (by rwa [heq.contradictions.getD])
  resolvedKey hc := by
    rw [← heq.contradictions.contains]
    exact h.resolvedKey (by rw [heq.resolvedContradictions.contains, hc])
  resolvedSubset hv := by
    rw [← heq.contradictions.getD]
    exact h.resolvedSubset (by rwa [heq.resolvedContradictions.getD])
  gapRefClaim hc := by
    rw [← heq.claims.contains]
    exact h.gapRefClaim (by rw [heq.claimGapRefs.contains, hc])
  gapRefGap hg := by
    rw [← heq.gaps.contains]
    exact h.gapRefGap (by rwa [heq.claimGapRefs.getD])
  resolutionGap hv := by
    rw [← heq.gaps.contains]
    exact h.resolutionGap ((heq.gapResolutions _).trans hv)
  resolutionEvidence hv := by
    rw [← heq.evidences.contains]
    exact h.resolutionEvidence ((heq.gapResolutions _).trans hv)
  dedupGap hg := by
    rw [← heq.gaps.contains]
    exact h.dedupGap ((heq.gapDedupIndex _).trans hg)
  claimId hr := h.claimId ((heq.claims _).trans hr)
  evidenceId hr := h.evidenceId ((heq.evidences _).trans hr)
  gapId hr := h.gapId ((heq.gaps _).trans hr)
  status hr := h.status ((heq.claims _).trans hr)

/-- Inserting a claim under its own id, with a valid status, keeps every reference. -/
theorem insertClaim {e : Engine} (h : Referential e) (n : Int) (record : Claim)
    (hid : record.id = n) (hstatus : ValidStatus record.status) :
    Referential { e with claims := e.claims.insert n record } where
  evidenceClaim hr := Dict.contains_insert_of_contains (h.evidenceClaim hr)
  contradictionClaim hc := Dict.contains_insert_of_contains (h.contradictionClaim hc)
  contradictionEvidence := h.contradictionEvidence
  resolvedKey := h.resolvedKey
  resolvedSubset := h.resolvedSubset
  gapRefClaim hc := Dict.contains_insert_of_contains (h.gapRefClaim hc)
  gapRefGap := h.gapRefGap
  resolutionGap := h.resolutionGap
  resolutionEvidence := h.resolutionEvidence
  dedupGap := h.dedupGap
  claimId := Dict.forall_insert (P := fun k (r : Claim) => r.id = k) h.claimId hid
  evidenceId := h.evidenceId
  gapId := h.gapId
  status := Dict.forall_insert (P := fun _ (r : Claim) => ValidStatus r.status) h.status hstatus

/-- A new claim, or one rewritten under its id. -/
theorem putClaim {e : Engine} (h : Referential e) {n : Int} {record : Claim}
    (hid : record.id = n) (hstatus : ValidStatus record.status) :
    Referential (e.putClaim n record) :=
  { h.insertClaim n record hid hstatus with }

/-- A transition rewrites the status alone. -/
theorem putStatus {e : Engine} (h : Referential e) {claimId : Int} {claim : Claim}
    (hclaim : e.claims.get? claimId = some claim) (t : Transition) :
    Referential (e.putStatus claimId claim t.target) := by
  have hid : claim.id = claimId := h.claimId hclaim
  exact { h.insertClaim claimId { claim with status := t.target } hid t.target_valid with }

/-- A new evidence names its claim. -/
theorem putEvidence {e : Engine} (h : Referential e) {n : Int} {record : Evidence}
    (hid : record.id = n) (hclaim : e.claims.contains record.claimId = true) :
    Referential (e.putEvidence n record) :=
  { h with
    evidenceClaim := Dict.forall_insert
      (P := fun _ (r : Evidence) => e.claims.contains r.claimId = true) h.evidenceClaim hclaim
    contradictionEvidence := fun hv =>
      Dict.contains_insert_of_contains (h.contradictionEvidence hv)
    resolutionEvidence := fun hv => Dict.contains_insert_of_contains (h.resolutionEvidence hv)
    evidenceId := Dict.forall_insert (P := fun k (r : Evidence) => r.id = k) h.evidenceId hid }

/-- A new gap, before anything names it. -/
theorem insertGap {e : Engine} (h : Referential e) (n : Int) (record : Gap)
    (hid : record.id = n) : Referential { e with gaps := e.gaps.insert n record } :=
  { h with
    gapRefGap := fun hg => Dict.contains_insert_of_contains (h.gapRefGap hg)
    resolutionGap := fun hv => Dict.contains_insert_of_contains (h.resolutionGap hv)
    dedupGap := fun hg => Dict.contains_insert_of_contains (h.dedupGap hg)
    gapId := Dict.forall_insert (P := fun k (r : Gap) => r.id = k) h.gapId hid }

/-- A reference from a claim to a gap that is there. -/
theorem putGapRef {e : Engine} (h : Referential e) {c g : Int}
    (hclaim : e.claims.contains c = true) (hgap : e.gaps.contains g = true) :
    Referential (e.putGapRef c g) :=
  { h with
    gapRefClaim := by
      intro c' hc'
      rcases Dict.contains_insert_iff.mp hc' with rfl | hold
      · exact hclaim
      · exact h.gapRefClaim hold
    gapRefGap := by
      intro c' g' hg'
      simp only [Engine.putGapRef, Engine.referGap, Dict.getD_insert] at hg'
      -- the bucket of this claim, or another one
      split at hg'
      · rcases Finset.mem_insert.mp hg' with rfl | hold
        · exact hgap
        · exact h.gapRefGap hold
      · exact h.gapRefGap hg' }

/-- An index entry for a gap that is there. -/
theorem insertDedup {e : Engine} (h : Referential e) (key : DedupKey) {g : Int}
    (hgap : e.gaps.contains g = true) :
    Referential { e with gapDedupIndex := e.gapDedupIndex.insert key g } :=
  { h with
    dedupGap := Dict.forall_insert (P := fun _ g => e.gaps.contains g = true) h.dedupGap hgap }

/-- A new gap is filed, indexed and referred to. -/
theorem putGap {e : Engine} (h : Referential e) {c n : Int} {key : DedupKey} {record : Gap}
    (hid : record.id = n) (hclaim : e.claims.contains c = true) :
    Referential (e.putGap c n key record) := by
  have hself : (e.gaps.insert n record).contains n = true := by simp
  have hdedup := (h.insertGap n record hid).insertDedup key hself
  exact { hdedup.putGapRef hclaim hself with }

theorem putContradiction {e : Engine} (h : Referential e) {c v : Int}
    (hclaim : e.claims.contains c = true) (hev : e.evidences.contains v = true) :
    Referential (e.putContradiction c v) :=
  { h with
    contradictionClaim := by
      intro c' hc'
      rcases Dict.contains_insert_iff.mp hc' with rfl | hold
      · exact hclaim
      · exact h.contradictionClaim hold
    contradictionEvidence := by
      intro c' v' hv'
      simp only [Engine.putContradiction, Dict.getD_insert] at hv'
      -- the bucket of this claim, or another one
      split at hv'
      · rcases Finset.mem_insert.mp hv' with rfl | hold
        · exact hev
        · exact h.contradictionEvidence hold
      · exact h.contradictionEvidence hv'
    resolvedKey := fun hc => Dict.contains_insert_of_contains (h.resolvedKey hc)
    resolvedSubset := by
      intro c' v' hv'
      simp only [Engine.putContradiction, Dict.getD_insert]
      split
      · rename_i heq
        subst heq
        exact Finset.mem_insert_of_mem (h.resolvedSubset hv')
      · exact h.resolvedSubset hv' }

/-- Only what is registered is resolved. -/
theorem putContradictionResolution {e : Engine} (h : Referential e) {c v : Int}
    (hreg : v ∈ e.contradictions.getD c ∅) :
    Referential (e.putContradictionResolution c v) :=
  { h with
    resolvedKey := by
      intro c' hc'
      rcases Dict.contains_insert_iff.mp hc' with rfl | hold
      · by_contra hno
        have hnone : e.contradictions.get? c = none := Dict.get?_eq_none.mpr hno
        simp [Dict.getD, hnone] at hreg
      · exact h.resolvedKey hold
    resolvedSubset := by
      intro c' v' hv'
      simp only [Engine.putContradictionResolution, Dict.getD_insert] at hv'
      -- the bucket of this claim, or another one
      split at hv'
      · rename_i heq
        subst heq
        rcases Finset.mem_insert.mp hv' with rfl | hold
        · exact hreg
        · exact h.resolvedSubset hold
      · exact h.resolvedSubset hv' }

/-- The gaps that an evidence closes. -/
theorem putResolutions {e : Engine} (h : Referential e) {evidenceId : Int} {closed : List Int}
    (hev : e.evidences.contains evidenceId = true)
    (hgaps : ∀ g ∈ closed, e.gaps.contains g = true) :
    Referential (e.putResolutions evidenceId closed) :=
  { h with
    resolutionGap := by
      intro g v hv
      simp only [Engine.putResolutions, Engine.get?_resolveAll] at hv
      -- a gap that is closed now, or one that was
      split at hv
      · exact hgaps g ‹_›
      · exact h.resolutionGap hv
    resolutionEvidence := by
      intro g v hv
      simp only [Engine.putResolutions, Engine.get?_resolveAll] at hv
      split at hv
      · cases hv
        exact hev
      · exact h.resolutionEvidence hv }

/-- A listed gap is the stored record under its id. -/
theorem gap_of_listed {e : Engine} (h : Referential e) {c : Int} {gaps : List Gap}
    (hgaps : e.gapsForClaim c = .ok gaps) {gap : Gap} (hgap : gap ∈ gaps) :
    gap.id ∈ e.claimGapRefs.getD c ∅ ∧ e.gaps.get? gap.id = some gap := by
  obtain ⟨_, _, hgaps⟩ := bind_ok_iff.mp hgaps
  obtain ⟨records, hrecords, hsorted⟩ := bind_ok_iff.mp hgaps
  cases hsorted
  have hmem : gap ∈ records := (List.perm_insertionSort _ _).mem_iff.mp hgap
  obtain ⟨g, hg, hget⟩ := exists_of_forall₂_right (mapM_ok_iff.mp hrecords) hmem
  have hget' := Engine.subscript_ok_iff.mp hget
  rw [h.gapId hget']
  exact ⟨mem_sortSet.mp hg, hget'⟩

/-- Each call is one of the writes above. -/
theorem writes {e e' : Engine} {o : Op} {r : Ret} (h : Referential e) (hw : Writes e o r e') :
    Referential e' := by
  -- each write keeps it by the lemma about that write
  cases hw with
  | addEntity => exact { h with }
  | addObservation => exact { h with }
  | addClaim subject valid fresh => exact h.putClaim rfl valid
  | addEvidence claim fresh => exact h.putEvidence rfl claim
  | addRelation => exact { h with }
  | shareGap found hashed known absent =>
    exact h.putGapRef (Dict.contains_of_get? found) (h.dedupGap known)
  | addGap found hashed unknown admitted fresh =>
    exact h.putGap rfl (Dict.contains_of_get? found)
  | resolveGaps found listed closed =>
    refine h.putResolutions (Dict.contains_of_get? found) fun g hg => ?_
    obtain ⟨gap, hgap, rfl, -⟩ := Engine.mem_closedBy hg
    exact Dict.contains_of_get? (h.gap_of_listed listed hgap).2
  | registerContradiction claim evidence absent => exact h.putContradiction claim evidence
  | registerContradictionResolution claim registered absent =>
    exact h.putContradictionResolution registered
  | transition found source guard counted => exact { h.putStatus found _ with }
  | registerRule => exact { h with }
  | updateRuleStats => exact { h with }
  | setHints => exact { h with }

theorem outcome {e : Engine} {o : Op} {result : EStateM.Result PyErr Engine Ret}
    (h : Referential e) (ho : Outcome e o result) : Referential (finalState result) := by
  cases ho with
  | raised err => exact h
  | idle r _ => exact h
  | knownGap => exact h
  | wrote hw => exact h.writes hw
  | torn found _ => exact h.putStatus found _
  | restated => exact { h with }

end Referential

/-! ## References a restore does not check

The endpoints of observations, evidences and relations are checked when the call is made and never
again. They stay because nothing is ever deleted. -/

/-- The value is the int of an existing record. -/
def RefersTo {α : Type} (store : Dict Int α) (v : Json) : Prop :=
  ∃ n, v = .int n ∧ store.contains n = true

/-- A store that grows keeps its names. -/
theorem RefersTo.insert {α : Type} {store : Dict Int α} {v : Json} (h : RefersTo store v)
    (k : Int) (a : α) : RefersTo (store.insert k a) v := by
  obtain ⟨n, hn, hcontains⟩ := h
  exact ⟨n, hn, Dict.contains_insert_of_contains hcontains⟩

theorem RefersTo.congr {α : Type} {store store' : Dict Int α} {v : Json}
    (h : RefersTo store v) (heq : store.Equiv store') : RefersTo store' v := by
  obtain ⟨n, hn, hcontains⟩ := h
  exact ⟨n, hn, heq.contains n ▸ hcontains⟩

/-- The `(kind, id)` pair names an existing record. -/
def EndExists (e : Engine) (kind id : Json) : Prop :=
  ∃ k n, kind = .int k ∧ id = .int n ∧ e.idExists k n = .ok true

/-- No store of a referable kind has lost a record. -/
structure KindsGrow (e e' : Engine) : Prop where
  entities : ∀ {k}, e.entities.contains k = true → e'.entities.contains k = true
  observations : ∀ {k}, e.observations.contains k = true → e'.observations.contains k = true
  claims : ∀ {k}, e.claims.contains k = true → e'.claims.contains k = true
  evidences : ∀ {k}, e.evidences.contains k = true → e'.evidences.contains k = true
  relations : ∀ {k}, e.relations.contains k = true → e'.relations.contains k = true
  gaps : ∀ {k}, e.gaps.contains k = true → e'.gaps.contains k = true

/-- Nothing is lost by doing nothing. -/
theorem KindsGrow.refl (e : Engine) : KindsGrow e e := ⟨id, id, id, id, id, id⟩

theorem KindsGrow.idExists {e e' : Engine} (h : KindsGrow e e') {kind n : Int}
    (hex : e.idExists kind n = .ok true) : e'.idExists kind n = .ok true := by
  unfold Engine.idExists at hex ⊢
  split_ifs at hex ⊢ with h1 h2 h3 h4 h5 h6
  · exact congrArg Except.ok (h.entities (Except.ok.inj hex))
  · exact congrArg Except.ok (h.observations (Except.ok.inj hex))
  · exact congrArg Except.ok (h.claims (Except.ok.inj hex))
  · exact congrArg Except.ok (h.evidences (Except.ok.inj hex))
  · exact congrArg Except.ok (h.relations (Except.ok.inj hex))
  · exact congrArg Except.ok (h.gaps (Except.ok.inj hex))

theorem EndExists.grow {e e' : Engine} (h : KindsGrow e e') {kind id : Json}
    (hend : EndExists e kind id) : EndExists e' kind id := by
  obtain ⟨k, n, hk, hn, hex⟩ := hend
  exact ⟨k, n, hk, hn, h.idExists hex⟩

theorem Writes.kindsGrow {e e' : Engine} {o : Op} {r : Ret} (hw : Writes e o r e') :
    KindsGrow e e' := by
  cases hw with
  | addEntity => exact { KindsGrow.refl e with entities := Dict.contains_insert_of_contains }
  | addObservation =>
    exact { KindsGrow.refl e with observations := Dict.contains_insert_of_contains }
  | addClaim => exact { KindsGrow.refl e with claims := Dict.contains_insert_of_contains }
  | addEvidence => exact { KindsGrow.refl e with evidences := Dict.contains_insert_of_contains }
  | addRelation => exact { KindsGrow.refl e with relations := Dict.contains_insert_of_contains }
  | addGap => exact { KindsGrow.refl e with gaps := Dict.contains_insert_of_contains }
  | transition => exact { KindsGrow.refl e with claims := Dict.contains_insert_of_contains }
  | _ => exact { KindsGrow.refl e with }

/-- Every record names what is there. -/
structure Endpoints (e : Engine) : Prop where
  observationEntity : ∀ {k r}, e.observations.get? k = some r → RefersTo e.entities r.entityId
  claimSubject : ∀ {k r}, e.claims.get? k = some r → RefersTo e.entities r.subjectId
  gapClaim : ∀ {k r}, e.gaps.get? k = some r → RefersTo e.claims r.claimId
  relationFrom : ∀ {k r}, e.relations.get? k = some r → EndExists e r.fromKind r.fromId
  relationTo : ∀ {k r}, e.relations.get? k = some r → EndExists e r.toKind r.toId

namespace Endpoints

theorem new (uuid : UuidHex) : Endpoints (Engine.new uuid) := by
  constructor <;> simp [Engine.new]

theorem congr {e e' : Engine} (h : Endpoints e) (heq : e.Equiv e') : Endpoints e' := by
  have hgrow : KindsGrow e e' := {
    entities := fun hk => heq.entities.contains _ ▸ hk
    observations := fun hk => heq.observations.contains _ ▸ hk
    claims := fun hk => heq.claims.contains _ ▸ hk
    evidences := fun hk => heq.evidences.contains _ ▸ hk
    relations := fun hk => heq.relations.contains _ ▸ hk
    gaps := fun hk => heq.gaps.contains _ ▸ hk }
  exact {
    observationEntity := fun hr =>
      (h.observationEntity ((heq.observations _).trans hr)).congr heq.entities
    claimSubject := fun hr => (h.claimSubject ((heq.claims _).trans hr)).congr heq.entities
    gapClaim := fun hr => (h.gapClaim ((heq.gaps _).trans hr)).congr heq.claims
    relationFrom := fun hr => (h.relationFrom ((heq.relations _).trans hr)).grow hgrow
    relationTo := fun hr => (h.relationTo ((heq.relations _).trans hr)).grow hgrow }

/-- Rewriting a claim's status keeps its subject. -/
theorem setStatus {e : Engine} (h : Endpoints e) {claimId : Int} {claim : Claim}
    (hclaim : e.claims.get? claimId = some claim) (status : Json) :
    Endpoints (e.putStatus claimId claim status) := by
  have hgrow : KindsGrow e (e.putStatus claimId claim status) :=
    { KindsGrow.refl e with claims := Dict.contains_insert_of_contains }
  have hsubject : RefersTo e.entities claim.subjectId := h.claimSubject hclaim
  exact { h with
    claimSubject := Dict.forall_insert (P := fun _ (r : Claim) => RefersTo e.entities r.subjectId)
      (a := { claim with status }) h.claimSubject hsubject
    gapClaim := fun hr => (h.gapClaim hr).insert _ _
    relationFrom := fun hr => (h.relationFrom hr).grow hgrow
    relationTo := fun hr => (h.relationTo hr).grow hgrow }

/-- A call checks the names it stores. -/
theorem writes {e e' : Engine} {o : Op} {r : Ret} (h : Endpoints e) (hw : Writes e o r e') :
    Endpoints e' := by
  have hgrow := hw.kindsGrow
  have hfrom : ∀ {k r}, e.relations.get? k = some r → EndExists e' r.fromKind r.fromId :=
    fun hr => (h.relationFrom hr).grow hgrow
  have hto : ∀ {k r}, e.relations.get? k = some r → EndExists e' r.toKind r.toId :=
    fun hr => (h.relationTo hr).grow hgrow
  cases hw with
  | addEntity =>
    exact { h with
      observationEntity := fun hr => (h.observationEntity hr).insert _ _
      claimSubject := fun hr => (h.claimSubject hr).insert _ _
      relationFrom := hfrom
      relationTo := hto }
  | addObservation entity fresh =>
    exact { h with
      observationEntity := Dict.forall_insert
        (P := fun _ (r : Observation) => RefersTo e.entities r.entityId) h.observationEntity
        ⟨_, rfl, entity⟩
      relationFrom := hfrom
      relationTo := hto }
  | addClaim subject valid fresh =>
    exact { h with
      claimSubject := Dict.forall_insert
        (P := fun _ (r : Claim) => RefersTo e.entities r.subjectId) h.claimSubject
        ⟨_, rfl, subject⟩
      gapClaim := fun hr => (h.gapClaim hr).insert _ _
      relationFrom := hfrom
      relationTo := hto }
  | addEvidence => exact { h with relationFrom := hfrom, relationTo := hto }
  | addRelation source target fresh =>
    exact { h with
      -- the new relation may end at any kind of record, relations included
      relationFrom := Dict.forall_insert
        (P := fun _ (r : Relation) => EndExists _ r.fromKind r.fromId) hfrom
        ⟨_, _, rfl, rfl, hgrow.idExists source⟩
      relationTo := Dict.forall_insert
        (P := fun _ (r : Relation) => EndExists _ r.toKind r.toId) hto
        ⟨_, _, rfl, rfl, hgrow.idExists target⟩ }
  | addGap found hashed unknown admitted fresh =>
    exact { h with
      gapClaim := Dict.forall_insert (P := fun _ (r : Gap) => RefersTo e.claims r.claimId)
        h.gapClaim ⟨_, rfl, Dict.contains_of_get? found⟩
      relationFrom := hfrom
      relationTo := hto }
  | transition found source guard counted =>
    exact { h.setStatus found _ with relationFrom := hfrom, relationTo := hto }
  | _ => exact { h with relationFrom := hfrom, relationTo := hto }

theorem outcome {e : Engine} {o : Op} {result : EStateM.Result PyErr Engine Ret}
    (h : Endpoints e) (ho : Outcome e o result) : Endpoints (finalState result) := by
  cases ho with
  | raised err => exact h
  | idle r _ => exact h
  | knownGap => exact h
  | wrote hw => exact h.writes hw
  | torn found _ => exact h.setStatus found _
  | restated => exact { h with }

end Endpoints

end Ragcore
