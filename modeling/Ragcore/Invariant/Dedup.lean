import Ragcore.Invariant.Justification

/-!
# Ragcore — the gap dedup index is exact

`add_gap` maintains three views of the gaps: the records, the index by dedup key and the
references by claim. The key is built from the claim's subject, which lives in a fourth store.

* **`DedupExact`** — index and records correspond one to one, and every reference is from a claim
  with the subject of the key.
* **`GapCalls`** — what the log of successful `add_gap` calls says about the index and the
  records.
-/

namespace Ragcore

/-- The claim exists and its subject is entity `n`. -/
def SubjectOf (e : Engine) (c n : Int) : Prop :=
  ∃ claim, e.claims.get? c = some claim ∧ claim.subjectId = .int n

theorem SubjectOf.unique {e : Engine} {c m n : Int} (hm : SubjectOf e c m)
    (hn : SubjectOf e c n) : m = n := by
  obtain ⟨claim, hget, hsub⟩ := hm
  obtain ⟨claim', hget', hsub'⟩ := hn
  rw [hget] at hget'
  cases hget'
  rw [hsub] at hsub'
  exact Json.int.inj hsub'

/-- No claim changes its subject. -/
structure SubjectsKept (e e' : Engine) : Prop where
  subject : ∀ {c n}, SubjectOf e c n → SubjectOf e' c n

namespace SubjectsKept

/-- Subjects are read from the claims. -/
theorem of_claims {e e' : Engine} (h : e.claims = e'.claims) : SubjectsKept e e' where
  subject := by
    rintro c n ⟨claim, hget, hsub⟩
    exact ⟨claim, h ▸ hget, hsub⟩

theorem of_equiv {e e' : Engine} (h : e.Equiv e') : SubjectsKept e e' where
  subject := by
    rintro c n ⟨claim, hget, hsub⟩
    exact ⟨claim, (h.claims c).symm.trans hget, hsub⟩

/-- A claim keeps its subject for good; new claims have new ids. -/
theorem writes {e e' : Engine} {o : Op} {r : Ret} (hcount : CountersCover e)
    (hw : Writes e o r e') : SubjectsKept e e' := by
  cases hw with
  | addClaim subject valid fresh =>
    refine ⟨?_⟩
    rintro c n ⟨claim, hget, hsub⟩
    exact ⟨claim, Grows.get?_insert_fresh (Engine.fresh_of_covers hcount.claim fresh) _ hget, hsub⟩
  | @transition t claimId claim seq found source guard counted =>
    refine ⟨?_⟩
    rintro c n ⟨claim', hget, hsub⟩
    -- a transition rewrites the claim with the subject it had
    by_cases hc : claimId = c
    · subst hc
      rw [found] at hget
      cases hget
      exact ⟨_, Dict.get?_insert_self _ _ _, hsub⟩
    · exact ⟨claim', (Dict.get?_insert_of_ne _ _ hc).trans hget, hsub⟩
  | _ => exact of_claims rfl

end SubjectsKept

/-! ## Index, records and references

The index finds a gap by its key, the record of the gap has that key, and every claim that refers to
the gap is about its subject. -/

/-- The key fields of gap `g`, its subject read from the claim it was added for. -/
structure KeyedAs (e : Engine) (g n ruleId gapType requiredEvidenceType : Int) (gap : Gap)
    (c : Int) : Prop where
  stored : e.gaps.get? g = some gap
  claim : gap.claimId = .int c
  subject : SubjectOf e c n
  rule : gap.createdByRule = .int ruleId
  type : gap.type = .int gapType
  required : gap.requiredEvidenceType = .int requiredEvidenceType
  referenced : g ∈ e.claimGapRefs.getD c ∅

/-- Records are never rewritten, so they keep their keys. -/
theorem KeyedAs.grow {e e' : Engine} {g n ruleId gapType requiredEvidenceType c : Int} {gap : Gap}
    (h : KeyedAs e g n ruleId gapType requiredEvidenceType gap c) (hgrow : Grows e e')
    (hsub : SubjectsKept e e') : KeyedAs e' g n ruleId gapType requiredEvidenceType gap c :=
  { h with
    stored := hgrow.gaps h.stored
    subject := hsub.subject h.subject
    referenced := hgrow.gapRefs h.referenced }

/-- Index and gaps correspond, and references respect the key. -/
structure DedupExact (e : Engine) : Prop where
  /-- A key of the index is the key of the gap it leads to. -/
  sound : ∀ {key g}, e.gapDedupIndex.get? key = some g →
    ∃ n ruleId gapType requiredEvidenceType gap c,
      key = Engine.dedupKey (.int n) ruleId gapType requiredEvidenceType ∧
        KeyedAs e g n ruleId gapType requiredEvidenceType gap c
  complete : ∀ {g}, e.gaps.contains g = true → ∃ key, e.gapDedupIndex.get? key = some g
  references : ∀ {c g}, g ∈ e.claimGapRefs.getD c ∅ →
    ∃ n ruleId gapType requiredEvidenceType, SubjectOf e c n ∧
      e.gapDedupIndex.get? (Engine.dedupKey (.int n) ruleId gapType requiredEvidenceType) = some g

namespace DedupExact

theorem new (uuid : UuidHex) : DedupExact (Engine.new uuid) := by
  constructor <;> simp [Engine.new, Dict.contains]

theorem injective {e : Engine} (h : DedupExact e) {key key' : DedupKey} {g : Int}
    (hkey : e.gapDedupIndex.get? key = some g) (hkey' : e.gapDedupIndex.get? key' = some g) :
    key = key' := by
  obtain ⟨n, ruleId, gapType, required, gap, c, rfl, hk⟩ := h.sound hkey
  obtain ⟨n', ruleId', gapType', required', gap', c', rfl, hk'⟩ := h.sound hkey'
  have hgap : gap = gap' := Option.some.inj (hk.stored.symm.trans hk'.stored)
  subst hgap
  have hc : c = c' := Json.int.inj (hk.claim.symm.trans hk'.claim)
  subst hc
  rw [hk.subject.unique hk'.subject, Json.int.inj (hk.rule.symm.trans hk'.rule),
    Json.int.inj (hk.type.symm.trans hk'.type),
    Json.int.inj (hk.required.symm.trans hk'.required)]

/-- Stores that grow without a new gap or reference. -/
theorem keep {e e' : Engine} (h : DedupExact e) (hgrow : Grows e e') (hsub : SubjectsKept e e')
    (hindex : e.gapDedupIndex.Equiv e'.gapDedupIndex) (hgaps : e.gaps.Equiv e'.gaps)
    (hrefs : e.claimGapRefs.Equiv e'.claimGapRefs) : DedupExact e' where
  sound hkey := by
    obtain ⟨n, ruleId, gapType, required, gap, c, hk, hkeyed⟩ := h.sound ((hindex _).trans hkey)
    exact ⟨n, ruleId, gapType, required, gap, c, hk, hkeyed.grow hgrow hsub⟩
  complete hg := by
    obtain ⟨key, hkey⟩ := h.complete (by rwa [hgaps.contains])
    exact ⟨key, (hindex key).symm.trans hkey⟩
  references hg := by
    obtain ⟨n, ruleId, gapType, required, hn, hkey⟩ := h.references (by rwa [hrefs.getD])
    exact ⟨n, ruleId, gapType, required, hsub.subject hn, (hindex _).symm.trans hkey⟩

/-- The references after claim `c` was given one to `g`. -/
theorem mem_referGap {e : Engine} {c c' g g' : Int}
    (h : g' ∈ (e.referGap c g).getD c' ∅) :
    g' ∈ e.claimGapRefs.getD c' ∅ ∨ c = c' ∧ g' = g := by
  rw [Engine.referGap, Dict.getD_insert] at h
  split at h
  · rename_i heq
    subst heq
    rcases Finset.mem_insert.mp h with hnew | hold
    · exact .inr ⟨rfl, hnew⟩
    · exact .inl hold
  · exact .inl h

/-- A known key: the claim refers to the gap that is there. -/
theorem shareGap {e : Engine} (h : DedupExact e)
    {c g n ruleId gapType requiredEvidenceType : Int} (hsubject : SubjectOf e c n)
    (known : e.gapDedupIndex.get?
      (Engine.dedupKey (.int n) ruleId gapType requiredEvidenceType) = some g) :
    DedupExact (e.putGapRef c g) := by
  have hgrow : Grows e (e.putGapRef c g) := { Grows.refl e with gapRefs := Grows.mem_bucket _ }
  exact {
    sound := fun hkey => by
      obtain ⟨n, ruleId, gapType, required, gap, c, hk, hkeyed⟩ := h.sound hkey
      exact ⟨n, ruleId, gapType, required, gap, c, hk, hkeyed.grow hgrow (.of_claims rfl)⟩
    complete := h.complete
    references := fun hg => by
      -- an old reference, or the one that is added
      rcases mem_referGap hg with hold | ⟨rfl, rfl⟩
      · exact h.references hold
      · exact ⟨n, ruleId, gapType, requiredEvidenceType, hsubject, known⟩ }

/-- An unknown key: a new gap, found under it from now on. -/
theorem addGap {e : Engine} (h : DedupExact e) {c g n ruleId gapType requiredEvidenceType : Int}
    {score : ScoreValue} (hsubject : SubjectOf e c n)
    (unknown : e.gapDedupIndex.get?
      (Engine.dedupKey (.int n) ruleId gapType requiredEvidenceType) = none)
    (hgrow : Grows e (e.putGap c g (Engine.dedupKey (.int n) ruleId gapType requiredEvidenceType)
      ⟨g, .int c, .int gapType, .int requiredEvidenceType, some score, .int ruleId⟩)) :
    DedupExact (e.putGap c g (Engine.dedupKey (.int n) ruleId gapType requiredEvidenceType)
      ⟨g, .int c, .int gapType, .int requiredEvidenceType, some score, .int ruleId⟩) where
  sound := by
    intro key g' hkey
    simp only [Engine.putGap, Dict.get?_insert] at hkey
    split at hkey
    · cases hkey
      refine ⟨n, ruleId, gapType, requiredEvidenceType, _, c, Eq.symm ‹_›,
        Dict.get?_insert_self _ _ _, rfl, hsubject, rfl, rfl, rfl, ?_⟩
      simp [Engine.putGap, Engine.referGap, Dict.getD_insert]
    · obtain ⟨n', ruleId', gapType', required, gap, c', hk, hkeyed⟩ := h.sound hkey
      exact ⟨n', ruleId', gapType', required, gap, c', hk, hkeyed.grow hgrow (.of_claims rfl)⟩
  complete := by
    intro g' hg'
    rcases Dict.contains_insert_iff.mp hg' with rfl | hold
    · exact ⟨_, Dict.get?_insert_self _ _ _⟩
    · obtain ⟨key, hkey⟩ := h.complete hold
      -- the key of an older gap is not the new one, which was unknown
      refine ⟨key, (Dict.get?_insert_of_ne _ _ ?_).trans hkey⟩
      rintro rfl
      simp [unknown] at hkey
  references := by
    intro c' g' hg'
    rcases mem_referGap hg' with hold | ⟨rfl, rfl⟩
    · obtain ⟨n', ruleId', gapType', required, hn', hkey⟩ := h.references hold
      refine ⟨n', ruleId', gapType', required, hn', (Dict.get?_insert_of_ne _ _ ?_).trans hkey⟩
      intro heq
      simp [← heq, unknown] at hkey
    · exact ⟨n, ruleId, gapType, requiredEvidenceType, hsubject, Dict.get?_insert_self _ _ _⟩

/-- The subject `add_gap` hashes is the claim's. -/
theorem subject_of_hashed {e : Engine} (hsound : Sound e) {c : Int} {claim : Claim}
    {subject : HKey} (found : e.claims.get? c = some claim)
    (hashed : claim.subjectId.key? = some subject) : ∃ n, subject = .int n ∧ SubjectOf e c n := by
  obtain ⟨n, hn⟩ := (hsound.typed.claim found).subjectId
  rw [hn] at hashed
  exact ⟨n, (Option.some.inj hashed).symm, claim, found, hn⟩

/-- Only `add_gap` touches the three stores. -/
theorem writes {e e' : Engine} {o : Op} {r : Ret} (h : DedupExact e) (hsound : Sound e)
    (hw : Writes e o r e') : DedupExact e' := by
  have hgrow := Grows.writes hsound.counters hw
  have hsub := SubjectsKept.writes hsound.counters hw
  cases hw with
  | shareGap found hashed known absent =>
    obtain ⟨n, rfl, hsubject⟩ := subject_of_hashed hsound found hashed
    exact h.shareGap hsubject known
  | addGap found hashed unknown admitted fresh =>
    obtain ⟨n, rfl, hsubject⟩ := subject_of_hashed hsound found hashed
    exact h.addGap hsubject unknown hgrow
  | _ => exact h.keep hgrow hsub (.refl _) (.refl _) (.refl _)

end DedupExact

/-! ## The log

Each gap was stored by a call of the log, with the severity and the claim of that call. -/

/-- A successful `add_gap` in the log. -/
def gapCall (claimId gapType requiredEvidenceType : Int) (severity : PyFloat) (ruleId g : Int) :
    CallRecord Op PyErr Ret :=
  ⟨.addGap claimId gapType requiredEvidenceType severity ruleId, .ok (.id g)⟩

/-- The record is an `add_gap` that returned `g`. -/
def ReturnsGap (record : CallRecord Op PyErr Ret) (g : Int) : Prop :=
  ∃ claimId gapType requiredEvidenceType severity ruleId,
    record = gapCall claimId gapType requiredEvidenceType severity ruleId g

/-- The stored gap has the claim and the severity of this call. -/
def StoredFrom (e : Engine) (g claimId : Int) (severity : PyFloat) : Prop :=
  ∃ gap score, e.gaps.get? g = some gap ∧ gap.claimId = .int claimId ∧
    ScoreValue.new (.float severity) = .ok score ∧ gap.severity = some score

/-- What the first call stored stays. -/
theorem StoredFrom.grow {e e' : Engine} (hgrow : Grows e e') {g c : Int} {severity : PyFloat}
    (h : StoredFrom e g c severity) : StoredFrom e' g c severity := by
  obtain ⟨gap, score, hget, hrest⟩ := h
  exact ⟨gap, score, hgrow.gaps hget, hrest⟩

/-- The calls of `add_gap` that returned, against the gaps that are there. -/
structure GapCalls (log : Log) (e : Engine) : Prop where
  indexed : ∀ {c gapType requiredEvidenceType severity ruleId g},
    gapCall c gapType requiredEvidenceType severity ruleId g ∈ log →
      ∃ n, SubjectOf e c n ∧ e.gapDedupIndex.get?
        (Engine.dedupKey (.int n) ruleId gapType requiredEvidenceType) = some g
  created : ∀ {g}, e.gaps.contains g = true → ∃ record ∈ log, ReturnsGap record g
  /-- The first call that returned a gap made its record. -/
  first : ∀ {before after c gapType requiredEvidenceType severity ruleId g},
    log = before ++ gapCall c gapType requiredEvidenceType severity ruleId g :: after →
      (∀ record ∈ before, ¬ ReturnsGap record g) → StoredFrom e g c severity

namespace GapCalls

theorem new (uuid : UuidHex) : GapCalls [] (Engine.new uuid) where
  indexed h := by simp at h
  created h := by simp [Engine.new, Dict.contains] at h
  first h := by simp at h

/-- One more record: the old ones keep what they say, the new one is checked. -/
theorem snoc {log : Log} {e e' : Engine} {record : CallRecord Op PyErr Ret} (h : GapCalls log e)
    (hgrow : Grows e e') (hsub : SubjectsKept e e')
    (hindex : ∀ {key g}, e.gapDedupIndex.get? key = some g →
      e'.gapDedupIndex.get? key = some g)
    (hindexed : ∀ {c gapType requiredEvidenceType severity ruleId g},
      record = gapCall c gapType requiredEvidenceType severity ruleId g →
        ∃ n, SubjectOf e' c n ∧ e'.gapDedupIndex.get?
          (Engine.dedupKey (.int n) ruleId gapType requiredEvidenceType) = some g)
    (hcreated : ∀ {g}, e'.gaps.contains g = true →
      e.gaps.contains g = true ∨ ReturnsGap record g)
    (hfirst : ∀ {c gapType requiredEvidenceType severity ruleId g},
      record = gapCall c gapType requiredEvidenceType severity ruleId g →
        StoredFrom e' g c severity ∨ e.gaps.contains g = true) :
    GapCalls (log ++ [record]) e' where
  indexed hmem := by
    rcases List.mem_append.mp hmem with hold | hnew
    · obtain ⟨n, hn, hkey⟩ := h.indexed hold
      exact ⟨n, hsub.subject hn, hindex hkey⟩
    · exact hindexed (List.mem_singleton.mp hnew).symm
  created hg := by
    rcases hcreated hg with hold | hnew
    · obtain ⟨record', hmem, hret⟩ := h.created hold
      exact ⟨record', List.mem_append_left _ hmem, hret⟩
    · exact ⟨record, by simp, hnew⟩
  first := by
    intro before after c gapType required severity ruleId g heq hnone
    -- the call in question is the new record, or one of the old log
    rcases List.eq_nil_or_concat after with rfl | ⟨after', last, rfl⟩
    · obtain ⟨rfl, hrecord⟩ := List.append_inj' heq rfl
      refine (hfirst (List.singleton_inj.mp hrecord)).resolve_right fun hold => ?_
      obtain ⟨record', hmem, hret⟩ := h.created hold
      exact hnone record' hmem hret
    · rw [List.concat_eq_append, ← List.cons_append, ← List.append_assoc] at heq
      obtain ⟨hlog, -⟩ := List.append_inj' heq rfl
      exact .grow hgrow (h.first hlog hnone)

/-- A call that is no successful `add_gap` and makes no gap. -/
theorem keep {log : Log} {e e' : Engine} {o : Op} {result : Except PyErr Ret}
    (h : GapCalls log e) (hgrow : Grows e e') (hsub : SubjectsKept e e')
    (hindex : e.gapDedupIndex = e'.gapDedupIndex) (hgaps : e.gaps = e'.gaps)
    (hcall : ∀ {g}, ¬ ReturnsGap ⟨o, result⟩ g) : GapCalls (log ++ [⟨o, result⟩]) e' :=
  h.snoc hgrow hsub (fun hkey => hindex ▸ hkey)
    (fun hrecord => absurd ⟨_, _, _, _, _, hrecord⟩ hcall) (fun hg => .inl (hgaps ▸ hg))
    fun hrecord => absurd ⟨_, _, _, _, _, hrecord⟩ hcall

theorem writes {log : Log} {e e' : Engine} {o : Op} {r : Ret} (h : GapCalls log e)
    (hsound : Sound e) (hw : Writes e o r e') :
    GapCalls (log ++ [⟨o, .ok r⟩]) e' := by
  have hgrow := Grows.writes hsound.counters hw
  have hsub := SubjectsKept.writes hsound.counters hw
  -- a call on a known key returned that gap, a call on a new one stored its own
  cases hw with
  | @shareGap claimId gapType required ruleId g severity _ _ found hashed known absent =>
    obtain ⟨n, rfl, hsubject⟩ := DedupExact.subject_of_hashed hsound found hashed
    have hgap : e.gaps.contains g = true := hsound.references.dedupGap known
    refine h.snoc hgrow hsub id (fun hrecord => ?_) (fun hg => .inl hg) fun hrecord => ?_
    · cases hrecord
      exact ⟨n, hsub.subject hsubject, known⟩
    · cases hrecord
      exact .inr hgap
  | @addGap claimId gapType required ruleId g severity _ _ score found hashed unknown admitted
      fresh =>
    obtain ⟨n, rfl, hsubject⟩ := DedupExact.subject_of_hashed hsound found hashed
    refine h.snoc hgrow hsub (fun {key _} hkey => ?_) (fun hrecord => ?_) (fun hg => ?_)
      fun hrecord => ?_
    · refine (Dict.get?_insert_of_ne _ _ ?_).trans hkey
      rintro rfl
      simp [unknown] at hkey
    · cases hrecord
      exact ⟨n, hsub.subject hsubject, Dict.get?_insert_self _ _ _⟩
    · rcases Dict.contains_insert_iff.mp hg with rfl | hold
      · exact .inr ⟨_, _, _, _, _, rfl⟩
      · exact .inl hold
    · cases hrecord
      exact .inl ⟨_, score, Dict.get?_insert_self _ _ _, rfl, admitted, rfl⟩
  | setHints =>
    refine h.keep hgrow hsub rfl rfl ?_
    rintro g ⟨_, _, _, _, _, hrecord⟩
    cases hrecord
  | _ =>
    refine h.keep hgrow hsub rfl rfl ?_
    rintro g ⟨_, _, _, _, _, hrecord⟩
    cases hrecord

theorem outcome {log : Log} {e : Engine} {o : Op} {result : EStateM.Result PyErr Engine Ret}
    (h : GapCalls log e) (hsound : Sound e) (ho : Outcome e o result) :
    GapCalls (log ++ [⟨o, Ragcore.outcome result⟩]) (finalState result) := by
  -- calls that raised are in the log too, but returned no gap
  cases ho with
  | raised err =>
    refine h.keep (.refl e) (.of_claims rfl) rfl rfl ?_
    rintro g ⟨_, _, _, _, _, hrecord⟩
    cases hrecord
  | idle r noId =>
    refine h.keep (.refl e) (.of_claims rfl) rfl rfl ?_
    rintro g ⟨_, _, _, _, _, hrecord⟩
    cases hrecord
    cases noId
  | knownGap found hashed known referenced =>
    obtain ⟨n, rfl, hsubject⟩ := DedupExact.subject_of_hashed hsound found hashed
    refine h.snoc (.refl e) (.of_claims rfl) id (fun hrecord => ?_) .inl fun hrecord => ?_
    · cases hrecord
      exact ⟨n, hsubject, known⟩
    · cases hrecord
      exact .inr (hsound.references.dedupGap known)
  | wrote hw => exact h.writes hsound hw
  | torn found uncounted => exact absurd uncounted hsound.typed.counts
  | restated found updated equal =>
    refine h.keep { Grows.refl e with } (.of_claims rfl) rfl rfl ?_
    rintro g ⟨_, _, _, _, _, hrecord⟩
    cases hrecord

end GapCalls

/-- An exception comes before the stores are touched. -/
theorem DedupExact.outcome {e : Engine} {o : Op} {result : EStateM.Result PyErr Engine Ret}
    (h : DedupExact e) (hsound : Sound e) (ho : Outcome e o result) :
    DedupExact (finalState result) := by
  cases ho with
  | wrote hw => exact h.writes hsound hw
  | torn found uncounted => exact absurd uncounted hsound.typed.counts
  | raised => exact h
  | idle => exact h
  | knownGap => exact h
  | restated => exact h.keep { Grows.refl e with } (.of_claims rfl) (.refl _) (.refl _) (.refl _)

/-- Equal stores have the same account. -/
theorem GapCalls.congr {log : Log} {e e' : Engine} (h : GapCalls log e) (heq : e.Equiv e') :
    GapCalls log e' where
  indexed hmem := by
    obtain ⟨n, hn, hkey⟩ := h.indexed hmem
    exact ⟨n, (SubjectsKept.of_equiv heq).subject hn, (heq.gapDedupIndex _).symm.trans hkey⟩
  created hg := h.created (by rwa [heq.gaps.contains])
  first hlog hnone := .grow (.of_equiv heq) (h.first hlog hnone)

/-- The invariants of a session about gaps. -/
structure GapAccount (log : Log) (e : Engine) : Prop where
  sound : Sound e
  exact : DedupExact e
  calls : GapCalls log e

/-- Log and stores agree in every state that is reached. -/
theorem Session.Reachable.gapAccount {s : Session} (h : s.Reachable) :
    GapAccount s.log s.engine :=
  h.preserves (fun uuid => ⟨.new uuid, .new uuid, .new uuid⟩)
    (fun _ e o he => have ho := o.outcome_cases e
      ⟨he.sound.op o, he.exact.outcome he.sound ho, he.calls.outcome he.sound ho⟩)
    fun _ e uuid _ he hrun => by
      rw [he.sound.trip hrun]
      have heq := e.equiv_reloaded uuid
      exact ⟨he.sound.congr heq, he.exact.keep (.of_equiv heq) (.of_equiv heq) heq.gapDedupIndex
        heq.gaps heq.claimGapRefs, he.calls.congr heq⟩

/-! ## The law

Two calls return the same gap exactly when they ask for the same key, and the gap is the one of the
first call. -/

/-- The index, its keys, and what any two successful `add_gap` calls of the run returned. -/
structure DedupLaw (log : Log) (e : Engine) : Prop where
  toGap : ∀ {key g}, e.gapDedupIndex.get? key = some g → e.gaps.contains g = true
  onto : ∀ {g}, e.gaps.contains g = true → ∃ key, e.gapDedupIndex.get? key = some g
  injective : ∀ {key key' g}, e.gapDedupIndex.get? key = some g →
    e.gapDedupIndex.get? key' = some g → key = key'
  keyed : ∀ {key g}, e.gapDedupIndex.get? key = some g →
    ∃ n ruleId gapType requiredEvidenceType gap c,
      key = Engine.dedupKey (.int n) ruleId gapType requiredEvidenceType ∧
        KeyedAs e g n ruleId gapType requiredEvidenceType gap c
  references : ∀ {c g}, g ∈ e.claimGapRefs.getD c ∅ → ∃ n key,
    SubjectOf e c n ∧ e.gapDedupIndex.get? key = some g ∧ key.1 = .int n
  sameGap : ∀ {c gapType required severity ruleId g c' gapType' required' severity' ruleId' g'},
    gapCall c gapType required severity ruleId g ∈ log →
      gapCall c' gapType' required' severity' ruleId' g' ∈ log →
        ∃ n n', SubjectOf e c n ∧ SubjectOf e c' n' ∧
          (g = g' ↔ n = n' ∧ ruleId = ruleId' ∧ gapType = gapType' ∧ required = required')
  first : ∀ {before after c gapType required severity ruleId g},
    log = before ++ gapCall c gapType required severity ruleId g :: after →
      (∀ record ∈ before, ¬ ReturnsGap record g) → StoredFrom e g c severity

theorem GapAccount.law {log : Log} {e : Engine} (h : GapAccount log e) : DedupLaw log e where
  toGap hkey := h.sound.references.dedupGap hkey
  onto hg := h.exact.complete hg
  injective hkey hkey' := h.exact.injective hkey hkey'
  keyed hkey := h.exact.sound hkey
  references hg := by
    obtain ⟨n, ruleId, gapType, required, hn, hkey⟩ := h.exact.references hg
    exact ⟨n, _, hn, hkey, rfl⟩
  sameGap hcall hcall' := by
    obtain ⟨n, hn, hkey⟩ := h.calls.indexed hcall
    obtain ⟨n', hn', hkey'⟩ := h.calls.indexed hcall'
    -- the same gap has one key; the same key finds one gap
    refine ⟨n, n', hn, hn', ?_, ?_⟩
    · rintro rfl
      simpa [Engine.dedupKey] using h.exact.injective hkey hkey'
    · rintro ⟨rfl, rfl, rfl, rfl⟩
      exact Option.some.inj (hkey.symm.trans hkey')
  first hlog hnone := h.calls.first hlog hnone

theorem Session.Reachable.subjectsKept {s : Session} (h : s.Reachable) (later : List Action) :
    SubjectsKept s.engine (s.run later).engine :=
  (Session.preserves (P := fun _ e => Sound e ∧ SubjectsKept s.engine e)
    (fun _ e o he => by
      refine ⟨he.1.op o, ⟨fun hn => ?_⟩⟩
      rcases he.1.typed.outcome_cases (o.outcome_cases e) with
        ⟨err, hrun⟩ | ⟨r, hrun⟩ | ⟨r, e', hrun, hw⟩
      · exact hrun ▸ he.2.subject hn
      · exact hrun ▸ he.2.subject hn
      · exact hrun ▸ (SubjectsKept.writes he.1.counters hw).subject (he.2.subject hn))
    (fun _ e uuid _ he hrun => by
      rw [he.1.trip hrun]
      have heq := e.equiv_reloaded uuid
      exact ⟨he.1.congr heq, ⟨fun hn => (SubjectsKept.of_equiv heq).subject (he.2.subject hn)⟩⟩)
    ⟨h.sound, .of_claims rfl⟩ later).2

/-- **The gap dedup index is exact**, and the subject a claim contributes to it never changes. -/
theorem dedup_exact {s : Session} (h : s.Reachable) :
    DedupLaw s.log s.engine ∧ ∀ later, SubjectsKept s.engine (s.run later).engine :=
  ⟨h.gapAccount.law, h.subjectsKept⟩

set_option maxRecDepth 4000 in
/-- Two calls with one key through two claims about one entity return one gap, which keeps the
claim and the severity of the first. -/
theorem dedup_exact_rivals :
    gapCall 1 1 7 (.fin (1 / 2)) 0 1 ∈ Session.rivals.log ∧
      gapCall 2 1 7 (.fin (1 / 4)) 0 1 ∈ Session.rivals.log ∧
      DedupLaw Session.rivals.log Session.rivals.engine ∧
      StoredFrom Session.rivals.engine 1 1 (.fin (1 / 2)) := by
  have hlaw := (dedup_exact Session.rivals_reachable).1
  refine ⟨List.mem_of_getElem? (i := 3) (by with_unfolding_all rfl),
    List.mem_of_getElem? (i := 4) (by with_unfolding_all rfl), hlaw, ?_⟩
  -- nothing before the first of the two calls adds a gap
  have hlog : Session.rivals.log =
      [⟨.addEntity 1 0, .ok (.id 1)⟩, ⟨.addClaim 1 1 0 1 1 (.fin (9 / 10)) 0 0, .ok (.id 1)⟩,
        ⟨.addClaim 1 2 0 1 1 (.fin (9 / 10)) 0 0, .ok (.id 2)⟩] ++
      gapCall 1 1 7 (.fin (1 / 2)) 0 1 :: Session.rivals.log.drop 4 := by
    with_unfolding_all rfl
  refine hlaw.first hlog fun record hmem hgap => ?_
  obtain ⟨_, _, _, _, _, rfl⟩ := hgap
  simp [gapCall] at hmem

end Ragcore
