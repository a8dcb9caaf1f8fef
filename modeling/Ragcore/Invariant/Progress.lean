import Ragcore.Invariant.Disputed
import Ragcore.Invariant.Frame
import Ragcore.Invariant.GapConfluence
import Ragcore.Invariant.Sequence

/-!
# Ragcore — which statuses a claim can still reach

`REFUTED` is final and `CANDIDATE` is never entered again; between the other statuses nothing is
closed off. Whatever a run has done to the stores, public calls alone can still bring a claim to
every status that this leaves.

* **`Descends`** — the relation on statuses, which every call keeps.
* **`LeadsTo`** — where public calls lead.
* **`guard_confirm_iff`** — what `confirm_claim_if_ready` asks of the gaps.
* **`exists_contradicted`**, **`exists_settled`**, **`exists_closed`** — the calls that open the
  guards of the transitions.
* **`status_reachable_iff`** — the two directions together.
-/

namespace Ragcore

/-- The claim is there, with this status. -/
def HasStatus (e : Engine) (c : Int) (status : Json) : Prop :=
  ∃ claim, e.claims.get? c = some claim ∧ claim.status = status

/-- No transition leaves `REFUTED`, and none enters `CANDIDATE`. -/
def Descends (old new : Json) : Prop :=
  new = old ∨ (old ≠ claimStatusRefuted ∧ new ≠ claimStatusCandidate)

theorem Descends.refl (status : Json) : Descends status status := .inl rfl

theorem Descends.trans {a b c : Json} (h : Descends a b) (h' : Descends b c) : Descends a c := by
  rcases h with rfl | ⟨ha, _⟩
  · exact h'
  · rcases h' with rfl | ⟨_, hc⟩
    · exact .inr ⟨ha, ‹_›⟩
    · exact .inr ⟨ha, hc⟩

theorem Transition.descends (t : Transition) : Descends t.source t.target := by
  refine .inr ⟨?_, ?_⟩ <;> cases t <;>
    simp [Transition.source, Transition.target, claimStatusCandidate, claimStatusConfirmed,
      claimStatusDisputed, claimStatusRefuted]

/-! ## What a run keeps

No run leads back from a refutation, or to a candidate. -/

theorem Writes.descends {e e' : Engine} {o : Op} {r : Ret} (h : Sound e) (hw : Writes e o r e')
    {c : Int} {status : Json} (hc : HasStatus e c status) :
    ∃ status', HasStatus e' c status' ∧ Descends status status' := by
  obtain ⟨claim, hget, rfl⟩ := hc
  cases hw with
  | addClaim subject valid fresh =>
    -- the new claim has an id of its own
    have hbelow := @CountersCover.above _ h.counters .claim _ fresh _ (Dict.contains_of_get? hget)
    refine ⟨_, ⟨claim, ?_, rfl⟩, .refl _⟩
    exact (Dict.get?_insert_of_ne _ _ (by omega)).trans hget
  | @transition t claimId claim' _ found source guard counted =>
    by_cases hsame : claimId = c
    · subst hsame
      obtain rfl : claim' = claim := Option.some.inj (found.symm.trans hget)
      have hint := (h.references.status found).isInt
      have hsource : claim'.status = t.source :=
        hint.eq_of_eq (by cases t <;> exact ⟨_, rfl⟩) source
      refine ⟨t.target, ⟨_, Dict.get?_insert_self _ _ _, rfl⟩, ?_⟩
      rw [hsource]
      exact t.descends
    · refine ⟨_, ⟨claim, ?_, rfl⟩, .refl _⟩
      exact (Dict.get?_insert_of_ne _ _ hsame).trans hget
  | _ => exact ⟨_, ⟨claim, hget, rfl⟩, .refl _⟩

theorem Op.descends {e : Engine} (h : Sound e) (o : Op) {c : Int} {status : Json}
    (hc : HasStatus e c status) :
    ∃ status', HasStatus (finalState (o.run e)) c status' ∧ Descends status status' := by
  rcases h.typed.outcome_cases (o.outcome_cases e) with
    ⟨err, hrun⟩ | ⟨r, hrun⟩ | ⟨r, e', hrun, hw⟩
  · rw [hrun]
    exact ⟨status, hc, .refl _⟩
  · rw [hrun]
    exact ⟨status, hc, .refl _⟩
  · rw [hrun]
    exact hw.descends h hc

theorem Session.Reachable.descends {s : Session} (h : s.Reachable) {c : Int} {status : Json}
    (hc : HasStatus s.engine c status) (later : List Action) :
    ∃ status', HasStatus (s.run later).engine c status' ∧ Descends status status' :=
  (Session.preserves
    (P := fun _ e => Sound e ∧ ∃ status', HasStatus e c status' ∧ Descends status status')
    (fun _ e o he => ⟨he.1.op o, by
      obtain ⟨status₁, hstatus₁, hdescends⟩ := he.2
      obtain ⟨status₂, hstatus₂, hstep⟩ := o.descends he.1 hstatus₁
      exact ⟨status₂, hstatus₂, hdescends.trans hstep⟩⟩)
    (fun _ e uuid _ he hrun => by
      obtain ⟨status', ⟨claim, hget, hstatus⟩, hdescends⟩ := he.2
      have heq := e.equiv_reloaded uuid
      rw [he.1.trip hrun]
      exact ⟨he.1.congr heq, status', ⟨claim, (heq.claims _).symm.trans hget, hstatus⟩, hdescends⟩)
    ⟨h.sound, status, hc, .refl _⟩ later).2

/-! ## Calls that lead on

A run to a goal is put together from calls; each lemma is one leg of the way. -/

/-- `e'` is where some public calls lead, and it is sound. -/
def LeadsTo (e e' : Engine) : Prop := Sound e' ∧ ∃ calls : List Call, e.runCalls calls = e'

namespace LeadsTo

theorem refl {e : Engine} (h : Sound e) : LeadsTo e e := ⟨h, [], rfl⟩

theorem trans {a b c : Engine} (h : LeadsTo a b) (h' : LeadsTo b c) : LeadsTo a c := by
  obtain ⟨_, calls, rfl⟩ := h
  obtain ⟨hsound, later, rfl⟩ := h'
  exact ⟨hsound, calls ++ later, Engine.runCalls_append _ _ _⟩

theorem op {e e' : Engine} {o : Op} {r : Ret} (h : Sound e) (hrun : o.run e = .ok r e') :
    LeadsTo e e' := by
  refine ⟨?_, [.op o], by rw [Engine.runCalls_op hrun]; rfl⟩
  have hsound := h.op o
  rwa [hrun] at hsound

/-- A transition whose guard is open. -/
theorem transition {e : Engine} (h : Sound e) {t : Transition} {c : Int}
    (hstatus : HasStatus e c t.source) (hguard : t.Guard e c) :
    ∃ e', LeadsTo e e' ∧ HasStatus e' c t.target := by
  obtain ⟨claim, hget, hsource⟩ := hstatus
  obtain ⟨seq, _, hrun⟩ := h.run_enabled hget hsource hguard
  have hop : (Op.transition t c).run e = .ok (.flag true) _ := run_map_ok hrun
  exact ⟨_, .op h hop, _, Dict.get?_insert_self _ _ _, rfl⟩

end LeadsTo

/-- The gaps of a claim that are open. -/
def openGaps (e : Engine) (c : Int) : Finset Int :=
  (e.claimGapRefs.getD c ∅).filter fun g => e.gapResolutions.contains g = false

/-- A score above `_REFUTATION_STRENGTH_THRESHOLD`, `0.95`. -/
def ScoreValue.strong : ScoreValue := ⟨19 / 20, by norm_num, by norm_num⟩

namespace Sound

variable {e : Engine} {c : Int}

/-- An evidence of any type, strong enough to be held against a claim, under a fresh id. -/
theorem exists_evidence (h : Sound e) (hclaim : e.claims.contains c = true) (type : Int) :
    ∃ v, e.evidences.contains v = false ∧
      LeadsTo e (e.putEvidence v ⟨v, c, .int 0, .int type, some .strong⟩) := by
  obtain ⟨v, hv⟩ := h.counters.next .evidence
  have hrun : (Op.addEvidence c 0 type (.fin ScoreValue.strong.value)).run e =
      .ok (.id v) (e.putEvidence v ⟨v, c, .int 0, .int type, some .strong⟩) :=
    run_map_ok (Engine.addEvidence_ok hclaim (ScoreValue.new_value .strong) hv 0 type)
  refine ⟨v, ?_, .op h hrun⟩
  rw [← Bool.not_eq_true]
  intro hpresent
  have hbelow := @CountersCover.above _ h.counters .evidence _ hv _ hpresent
  omega

/-! ## Contradictions

A contradiction can always be added, and every one can be resolved. -/

/-- A strong contradiction that is active can always be registered. -/
theorem exists_contradicted (h : Sound e) {status : Json} (hc : HasStatus e c status) :
    ∃ e', LeadsTo e e' ∧ HasStatus e' c status ∧
      ∃ v ∈ e'.activeContradictions c, StrongEvidence e' v := by
  obtain ⟨claim, hget, hstatus⟩ := hc
  have hclaim := Dict.contains_of_get? hget
  obtain ⟨v, hfresh, hadded⟩ := h.exists_evidence hclaim 0
  have hnew : v ∉ e.contradictions.getD c ∅ := fun hv => by
    rw [h.references.contradictionEvidence hv] at hfresh
    cases hfresh
  have hunresolved : v ∉ e.resolvedContradictions.getD c ∅ :=
    fun hv => hnew (h.references.resolvedSubset hv)
  -- the evidence was added, so it can be held against the claim
  obtain ⟨e₁, he₁⟩ : ∃ e₁, e₁ = e.putEvidence v ⟨v, c, .int 0, .int 0, some .strong⟩ := ⟨_, rfl⟩
  have hevidence : e₁.evidences.get? v = some ⟨v, c, .int 0, .int 0, some .strong⟩ := by
    rw [he₁]
    exact Dict.get?_insert_self _ _ _
  have hrun : (Op.registerContradiction c v).run e₁ = .ok (.flag true) (e₁.putContradiction c v) :=
    run_map_ok (Engine.registerContradiction_ok (by rw [he₁]; exact hclaim)
      (Dict.contains_of_get? hevidence) (by rw [he₁]; exact hnew))
  rw [← he₁] at hadded
  refine ⟨_, hadded.trans (.op hadded.1 hrun), ⟨claim, by rw [he₁]; exact hget, hstatus⟩, v, ?_,
    _, .strong, hevidence, rfl, by norm_num [ScoreValue.strong]⟩
  have hactive : v ∈ (e₁.contradictions.insert c (insert v (e₁.contradictions.getD c ∅))).getD c ∅ ∧
      v ∉ e₁.resolvedContradictions.getD c ∅ := by
    rw [Dict.getD_insert, if_pos rfl, he₁]
    exact ⟨Finset.mem_insert_self _ _, hunresolved⟩
  exact Finset.mem_sdiff.mpr hactive

/-- Every active contradiction can be registered as resolved, one call after the other. -/
theorem exists_settled (h : Sound e) {status : Json} (hc : HasStatus e c status) :
    ∃ e', LeadsTo e e' ∧ HasStatus e' c status ∧ e'.activeContradictions c = ∅ := by
  -- on the number of those that are active
  induction hn : (e.activeContradictions c).card generalizing e with
  | zero => exact ⟨e, .refl h, hc, Finset.card_eq_zero.mp hn⟩
  | succ n ih =>
    obtain ⟨claim, hget, hstatus⟩ := hc
    obtain ⟨v, hv⟩ : (e.activeContradictions c).Nonempty := Finset.card_pos.mp (by omega)
    obtain ⟨hregistered, hunresolved⟩ := Finset.mem_sdiff.mp hv
    have hrun : (Op.registerContradictionResolution c v).run e =
        .ok (.flag true) (e.putContradictionResolution c v) :=
      run_map_ok (Engine.registerContradictionResolution_ok (Dict.contains_of_get? hget)
        (h.references.contradictionEvidence hregistered) hregistered hunresolved)
    have hstep := LeadsTo.op h hrun
    have hactive : (e.putContradictionResolution c v).activeContradictions c =
        (e.activeContradictions c).erase v := by
      show e.contradictions.getD c ∅ \ (e.resolvedContradictions.insert c
        (insert v (e.resolvedContradictions.getD c ∅))).getD c ∅ = _
      rw [Dict.getD_insert, if_pos rfl, Finset.sdiff_insert]
      rfl
    have hcard : ((e.putContradictionResolution c v).activeContradictions c).card = n := by
      rw [hactive, Finset.card_erase_of_mem hv, hn]
      rfl
    obtain ⟨e', hlater, hstatus', hsettled⟩ := ih hstep.1 ⟨claim, hget, hstatus⟩ hcard
    exact ⟨e', hstep.trans hlater, hstatus', hsettled⟩

/-! ## Gaps

A gap can be added where none is, and evidence of its type closes it. -/

/-- What `allResolved` reads. -/
theorem allResolved_iff {gaps : List Gap}
    (hgaps : ∀ gap ∈ gaps, e.gapResolution gap.id = .ok (e.gapResolutions.get? gap.id)) :
    e.allResolved gaps = .ok true ↔ ∀ gap ∈ gaps, e.gapResolutions.contains gap.id = true := by
  induction gaps with
  | nil => simp [Engine.allResolved]
  | cons gap rest ih =>
    obtain ⟨hgap, hrest⟩ := List.forall_mem_cons.mp hgaps
    rw [List.forall_mem_cons, ← ih hrest, Engine.allResolved, hgap]
    cases hresolved : e.gapResolutions.get? gap.id with
    | none => simp [Dict.contains, hresolved, bind, Except.bind, pure, Except.pure]
    | some v => simp [Dict.contains, hresolved, bind, Except.bind]

/-- **What `confirm_claim_if_ready` asks for**: the claim references a gap, and none that is
open. -/
theorem guard_confirm_iff (h : Sound e) (hclaim : e.claims.contains c = true) :
    Transition.confirm.Guard e c ↔ (e.claimGapRefs.getD c ∅).Nonempty ∧
      ∀ g ∈ e.claimGapRefs.getD c ∅, e.gapResolutions.contains g = true := by
  obtain ⟨gaps, hgaps⟩ := h.gapsForClaim_returns hclaim
  have hall := allResolved_iff fun gap hgap => h.gapResolution_returns hgaps hgap
  -- the list has a record for every reference, and no other
  have hlisted (g : Int) (hg : g ∈ e.claimGapRefs.getD c ∅) : ∃ gap ∈ gaps, gap.id = g := by
    obtain ⟨gap, hget⟩ := Dict.contains_iff.mp (h.references.gapRefGap hg)
    obtain ⟨hgap, hid⟩ := h.listed_of_gapRef hgaps hg hget
    exact ⟨gap, hgap, hid⟩
  have hreferenced (gap : Gap) (hgap : gap ∈ gaps) : gap.id ∈ e.claimGapRefs.getD c ∅ :=
    (h.references.gap_of_listed hgaps hgap).1
  constructor
  · rintro ⟨gaps', hgaps', hne, hresolved⟩
    obtain rfl := Except.ok.inj (hgaps.symm.trans hgaps')
    obtain ⟨gap, hgap⟩ := List.exists_mem_of_ne_nil _ hne
    refine ⟨⟨gap.id, hreferenced gap hgap⟩, fun g hg => ?_⟩
    obtain ⟨gap', hgap', rfl⟩ := hlisted g hg
    exact hall.mp hresolved gap' hgap'
  · rintro ⟨⟨g, hg⟩, hresolved⟩
    obtain ⟨gap, hgap, _⟩ := hlisted g hg
    exact ⟨gaps, hgaps, List.ne_nil_of_mem hgap,
      hall.mpr fun gap hgap => hresolved gap.id (hreferenced gap hgap)⟩

/-- A claim without gaps can be given one. -/
theorem exists_gapped (h : Sound e) {status : Json} (hc : HasStatus e c status) :
    ∃ e', LeadsTo e e' ∧ HasStatus e' c status ∧ (e'.claimGapRefs.getD c ∅).Nonempty := by
  obtain ⟨claim, hget, hstatus⟩ := hc
  obtain ⟨subject, hsubject⟩ := (h.typed.claim hget).subjectId
  have hhash : claim.subjectId.hash = .ok (.int subject) := by
    rw [hsubject]
    rfl
  obtain ⟨n, hn⟩ := h.counters.next .gap
  obtain ⟨g, e', hrun, hclaims, href⟩ : ∃ g e',
      (Op.addGap c 0 0 (.fin ScoreValue.strong.value) 0).run e = .ok (.id g) e' ∧ e'.claims = e.claims ∧
        g ∈ e'.claimGapRefs.getD c ∅ := by
    have hadd : Engine.addGap c 0 0 (.fin ScoreValue.strong.value) 0 e = _ :=
      Engine.addGap_ok hget hhash (ScoreValue.new_value .strong) hn
    -- the gap is known, to this claim or to another, or it is new
    split at hadd
    · rename_i g _
      split at hadd
      · exact ⟨g, e, run_map_ok hadd, rfl, ‹_›⟩
      · refine ⟨g, _, run_map_ok hadd, rfl, ?_⟩
        show g ∈ (e.claimGapRefs.insert c (insert g (e.claimGapRefs.getD c ∅))).getD c ∅
        rw [Dict.getD_insert, if_pos rfl]
        exact Finset.mem_insert_self _ _
    · refine ⟨n, _, run_map_ok hadd, rfl, ?_⟩
      show n ∈ (e.claimGapRefs.insert c (insert n (e.claimGapRefs.getD c ∅))).getD c ∅
      rw [Dict.getD_insert, if_pos rfl]
      exact Finset.mem_insert_self _ _
  exact ⟨e', .op h hrun, ⟨claim, hclaims ▸ hget, hstatus⟩, g, href⟩

/-- An open gap can be closed: an evidence of the type it asks for is added, and asked about. -/
theorem exists_fewer (h : Sound e) {status : Json} (hc : HasStatus e c status) {g : Int}
    (hg : g ∈ openGaps e c) :
    ∃ e', LeadsTo e e' ∧ HasStatus e' c status ∧
      e'.claimGapRefs.getD c ∅ = e.claimGapRefs.getD c ∅ ∧
      (openGaps e' c).card < (openGaps e c).card := by
  obtain ⟨claim, hget, hstatus⟩ := hc
  obtain ⟨href, hopen⟩ := Finset.mem_filter.mp hg
  obtain ⟨gap, hgap⟩ := Dict.contains_iff.mp (h.references.gapRefGap href)
  obtain ⟨type, htype⟩ := (h.typed.gap hgap).requiredEvidenceType
  obtain ⟨v, _, hadded⟩ := h.exists_evidence (Dict.contains_of_get? hget) type
  obtain ⟨e₁, he₁⟩ : ∃ e₁, e₁ = e.putEvidence v ⟨v, c, .int 0, .int type, some .strong⟩ := ⟨_, rfl⟩
  rw [← he₁] at hadded
  have hevidence : e₁.evidences.get? v = some ⟨v, c, .int 0, .int type, some .strong⟩ := by
    rw [he₁]
    exact Dict.get?_insert_self _ _ _
  obtain ⟨ret, e₂, hresolve, hresolved⟩ :=
    hadded.1.resolveGapsForEvidence_resolved (Dict.contains_of_get? hevidence)
  have hrun : (Op.resolveGapsForEvidence v).run e₁ = .ok (.ids ret) e₂ := run_map_ok hresolve
  have hsame : e₂.claims = e.claims ∧ e₂.claimGapRefs = e.claimGapRefs := by
    obtain ⟨⟨_, _, rfl⟩, _⟩ := hresolved
    rw [he₁]
    exact ⟨rfl, rfl⟩
  -- the call closes this gap and takes nothing back
  have hcloses : Closes e₁ v g :=
    ⟨_, gap, hevidence, by rw [he₁]; exact hgap, by rw [he₁]; exact href, htype⟩
  have hkept (g' : Int) (hg' : e.gapResolutions.contains g' = true) :
      e₂.gapResolutions.contains g' = true := by
    refine (hresolved.closed g').mpr (.inl ?_)
    rw [he₁]
    exact hg'
  refine ⟨e₂, hadded.trans (.op hadded.1 hrun), ⟨claim, hsame.1 ▸ hget, hstatus⟩, by rw [hsame.2],
    Finset.card_lt_card ((Finset.ssubset_iff_of_subset fun g' hg' => ?_).mpr ⟨g, hg, ?_⟩)⟩
  · obtain ⟨href', hopen'⟩ := Finset.mem_filter.mp hg'
    rw [hsame.2] at href'
    refine Finset.mem_filter.mpr ⟨href', ?_⟩
    rw [← Bool.not_eq_true] at hopen' ⊢
    exact fun hclosed => hopen' (hkept g' hclosed)
  · intro hstill
    have hclosed := (hresolved.closed g).mpr (.inr hcloses)
    rw [(Finset.mem_filter.mp hstill).2] at hclosed
    cases hclosed

/-- All the gaps of a claim can be closed. -/
theorem exists_closed (h : Sound e) {status : Json} (hc : HasStatus e c status) :
    ∃ e', LeadsTo e e' ∧ HasStatus e' c status ∧
      e'.claimGapRefs.getD c ∅ = e.claimGapRefs.getD c ∅ ∧ openGaps e' c = ∅ := by
  obtain ⟨n, hn⟩ : ∃ n, (openGaps e c).card ≤ n := ⟨_, le_rfl⟩
  induction n generalizing e with
  | zero => exact ⟨e, .refl h, hc, rfl, Finset.card_eq_zero.mp (Nat.le_zero.mp hn)⟩
  | succ n ih =>
    rcases (openGaps e c).eq_empty_or_nonempty with hnone | ⟨g, hg⟩
    · exact ⟨e, .refl h, hc, rfl, hnone⟩
    · obtain ⟨e₁, hstep, hstatus, hrefs, hfewer⟩ := h.exists_fewer hc hg
      obtain ⟨e', hlater, hstatus', hrefs', hclosed⟩ := ih hstep.1 hstatus (by omega)
      exact ⟨e', hstep.trans hlater, hstatus', hrefs'.trans hrefs, hclosed⟩

/-! ## The four steps

Each legal transition can be prepared for and taken. -/

theorem confirmable (h : Sound e) (hc : HasStatus e c claimStatusCandidate) :
    ∃ e', LeadsTo e e' ∧ HasStatus e' c claimStatusConfirmed := by
  obtain ⟨e₁, hgapped, hstatus₁, hne⟩ := h.exists_gapped hc
  obtain ⟨e₂, hclosed, hstatus₂, hrefs, hnone⟩ := hgapped.1.exists_closed hstatus₁
  have hclaim : e₂.claims.contains c = true := by
    obtain ⟨claim, hget, _⟩ := hstatus₂
    exact Dict.contains_of_get? hget
  -- no open gap is left, and there is a gap
  have hguard : Transition.confirm.Guard e₂ c := by
    refine (hclosed.1.guard_confirm_iff hclaim).mpr ⟨hrefs ▸ hne, fun g hg => ?_⟩
    rw [← Bool.not_eq_false]
    intro hopen
    have hin : g ∈ openGaps e₂ c := Finset.mem_filter.mpr ⟨hg, hopen⟩
    rw [hnone] at hin
    cases hin
  obtain ⟨e₃, hconfirmed, hstatus₃⟩ := LeadsTo.transition hclosed.1 hstatus₂ hguard
  exact ⟨e₃, (hgapped.trans hclosed).trans hconfirmed, hstatus₃⟩

/-- The three transitions that a strong contradiction opens. -/
theorem contradictable (h : Sound e) (t : Transition)
    (ht : t = .refute ∨ t = .dispute ∨ t = .refuteDisputed) (hc : HasStatus e c t.source) :
    ∃ e', LeadsTo e e' ∧ HasStatus e' c t.target := by
  obtain ⟨e₁, hcontradicted, hstatus, v, hv, hstrong⟩ := h.exists_contradicted hc
  have hregistered : e₁.contradictions.getD c ∅ ≠ ∅ :=
    Finset.ne_empty_of_mem (Finset.mem_sdiff.mp hv).1
  have hguard : t.Guard e₁ c := by
    rcases ht with rfl | rfl | rfl
    · exact hregistered
    · exact hregistered
    · exact guard_refuteDisputed_iff.mpr ⟨v, hv, hstrong⟩
  obtain ⟨e₂, htaken, hstatus'⟩ := LeadsTo.transition hcontradicted.1 hstatus hguard
  exact ⟨e₂, hcontradicted.trans htaken, hstatus'⟩

theorem resolvable (h : Sound e) (hc : HasStatus e c claimStatusDisputed) :
    ∃ e', LeadsTo e e' ∧ HasStatus e' c claimStatusConfirmed := by
  obtain ⟨e₁, hsettled, hstatus, hnone⟩ := h.exists_settled hc
  obtain ⟨e₂, htaken, hstatus'⟩ :=
    LeadsTo.transition (t := .resolveDisputed) hsettled.1 hstatus hnone
  exact ⟨e₂, hsettled.trans htaken, hstatus'⟩

/-! ## Every status that is left

Which statuses can still be reached from each one. -/

/-- Any status but `REFUTED` leads to `CONFIRMED`. -/
theorem reaches_confirmed (h : Sound e) {status : Json} (hc : HasStatus e c status)
    (hopen : status ≠ claimStatusRefuted) :
    ∃ e', LeadsTo e e' ∧ HasStatus e' c claimStatusConfirmed := by
  have hvalid : ValidStatus status := by
    obtain ⟨claim, hget, rfl⟩ := hc
    exact h.references.status hget
  rcases hvalid with rfl | rfl | rfl | rfl
  · exact h.confirmable hc
  · exact ⟨e, .refl h, hc⟩
  · exact absurd rfl hopen
  · exact h.resolvable hc

theorem reaches_disputed (h : Sound e) {status : Json} (hc : HasStatus e c status)
    (hopen : status ≠ claimStatusRefuted) :
    ∃ e', LeadsTo e e' ∧ HasStatus e' c claimStatusDisputed := by
  obtain ⟨e₁, hconfirmed, hstatus⟩ := h.reaches_confirmed hc hopen
  obtain ⟨e₂, hdisputed, hstatus'⟩ :=
    hconfirmed.1.contradictable .dispute (.inr (.inl rfl)) hstatus
  exact ⟨e₂, hconfirmed.trans hdisputed, hstatus'⟩

theorem reaches_refuted (h : Sound e) {status : Json} (hc : HasStatus e c status)
    (hopen : status ≠ claimStatusRefuted) :
    ∃ e', LeadsTo e e' ∧ HasStatus e' c claimStatusRefuted := by
  obtain ⟨e₁, hdisputed, hstatus⟩ := h.reaches_disputed hc hopen
  obtain ⟨e₂, hrefuted, hstatus'⟩ :=
    hdisputed.1.contradictable .refuteDisputed (.inr (.inr rfl)) hstatus
  exact ⟨e₂, hdisputed.trans hrefuted, hstatus'⟩

theorem reaches_descending (h : Sound e) {status status' : Json} (hc : HasStatus e c status)
    (hvalid : ValidStatus status') (hdescends : Descends status status') :
    ∃ e', LeadsTo e e' ∧ HasStatus e' c status' := by
  rcases hdescends with rfl | ⟨hopen, hentered⟩
  · exact ⟨e, .refl h, hc⟩
  · rcases hvalid with rfl | rfl | rfl | rfl
    · exact absurd rfl hentered
    · exact h.reaches_confirmed hc hopen
    · exact h.reaches_refuted hc hopen
    · exact h.reaches_disputed hc hopen

end Sound

theorem Session.run_calls (s : Session) (calls : List Call) :
    (s.run (calls.map .call)).engine = s.engine.runCalls calls := by
  induction calls generalizing s with
  | nil => rfl
  | cons call rest ih => exact ih (s.act (.call call))

/-- **Which statuses a claim can still reach.** From a reachable state some run gives the claim
another status exactly when it is not `REFUTED` now and is not to be a `CANDIDATE` again. -/
theorem status_reachable_iff {s : Session} (h : s.Reachable) {c : Int} {status status' : Json}
    (hc : HasStatus s.engine c status) (hvalid : ValidStatus status') :
    (∃ later, HasStatus (s.run later).engine c status') ↔ Descends status status' := by
  constructor
  · rintro ⟨later, claim, hget, rfl⟩
    obtain ⟨_, ⟨claim', hget', rfl⟩, hdescends⟩ := h.descends hc later
    obtain rfl := Option.some.inj (hget.symm.trans hget')
    exact hdescends
  · intro hdescends
    obtain ⟨e', ⟨_, calls, rfl⟩, hstatus⟩ := h.sound.reaches_descending hc hvalid hdescends
    exact ⟨calls.map .call, by rwa [Session.run_calls]⟩

/-- The disputed claim can be confirmed again. -/
theorem status_reachable_iff_disputed :
    (∃ later, HasStatus (Session.disputed.run later).engine 1 claimStatusConfirmed) ↔
      Descends claimStatusDisputed claimStatusConfirmed :=
  status_reachable_iff Session.disputed_reachable
    ⟨_, by with_unfolding_all rfl, by with_unfolding_all rfl⟩ (.inr (.inl rfl))

end Ragcore
