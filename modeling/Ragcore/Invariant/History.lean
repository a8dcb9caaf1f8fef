import Ragcore.Snapshot.RoundTrip

/-!
# Ragcore — the lifecycle history is an exact account

Status is written by `add_claim` and by the transition methods, history by the recorder alone.
`History` ties the two to the log of a session: from the status a claim was added with, its
events lead step by step to the status it has, and the sequence numbers of all claims together
are `1 .. lifecycle_seq`.

The chain is one equation between lists: the `from` statuses followed by the current status are
the initial status followed by the `to` statuses.
-/

namespace Ragcore

abbrev Log := List (CallRecord Op PyErr Ret)

/-- The log has an `add_claim` that returned `c` and was given this status. -/
def AddedWith (log : Log) (c status : Int) : Prop :=
  ∃ record ∈ log, record.result = .ok (.id c) ∧ record.op.initialStatus? = some status

theorem addedWith_append {log : Log} {o : Op} {result : Except PyErr Ret} {c status : Int} :
    AddedWith (log ++ [⟨o, result⟩]) c status ↔
      AddedWith log c status ∨ result = .ok (.id c) ∧ o.initialStatus? = some status := by
  simp only [AddedWith, List.mem_append, List.mem_singleton]
  constructor
  · rintro ⟨record, hmem | rfl, hrest⟩
    · exact .inl ⟨record, hmem, hrest⟩
    · exact .inr hrest
  · rintro (⟨record, hmem, hrest⟩ | hrest)
    · exact ⟨record, .inl hmem, hrest⟩
    · exact ⟨_, .inr rfl, hrest⟩

namespace Engine

def eventsOf (e : Engine) (c : Int) : List ClaimLifecycleEvent := e.claimLifecycleEvents.getD c []

/-- The sequence numbers of all events of all claims. -/
def seqs (e : Engine) : List Json :=
  e.claimLifecycleEvents.values.flatten.map ClaimLifecycleEvent.seq

end Engine

/-- `1, 2, …, n`. -/
def seqsUpTo (n : Nat) : List Json := (List.range n).map fun i => .int (i + 1)

theorem mem_seqsUpTo {n : Nat} {v : Json} : v ∈ seqsUpTo n ↔ ∃ i < n, v = .int (i + 1) := by
  simp [seqsUpTo, eq_comm]

theorem seqsUpTo_succ (n : Nat) : seqsUpTo (n + 1) = seqsUpTo n ++ [.int (n + 1)] := by
  simp [seqsUpTo, List.range_succ]

/-- The event is what transition `t` records about claim `c`. -/
structure ClaimLifecycleEvent.Records (c : Int) (t : Transition) (event : ClaimLifecycleEvent) :
    Prop where
  claimId : event.claimId = .int c
  fromStatus : event.fromStatus = t.source
  toStatus : event.toStatus = t.target
  label : event.transition = .str t.label

/-- Both sequence numbers are ints and the first is smaller. -/
def ClaimLifecycleEvent.Before (a b : ClaimLifecycleEvent) : Prop :=
  ∃ m n : Int, a.seq = .int m ∧ b.seq = .int n ∧ m < n

theorem Transition.source_isInt (t : Transition) : IsInt t.source := by
  cases t <;> exact ⟨_, rfl⟩

/-- What a transition does to the histories. -/
theorem Engine.eventsOf_putTransition (e : Engine) (claimId : Int) (claim : Claim)
    (status seq : Json) (label : String) (c : Int) :
    (e.putTransition claimId claim status seq label).eventsOf c =
      if claimId = c then
        e.eventsOf claimId ++ [⟨seq, .int claimId, claim.status, status, .str label⟩]
      else e.eventsOf c := Dict.getD_insert _ _ _ _ _

/-! ## The invariant

The log of a claim starts at the status it was added with and ends at the one it has. -/

structure History (log : Log) (e : Engine) : Prop where
  seq : ∃ n : Nat, e.lifecycleSeq = .int n ∧ e.seqs.Perm (seqsUpTo n)
  owner : ∀ {c}, e.claimLifecycleEvents.contains c = true → e.claims.contains c = true
  legal : ∀ {c event}, event ∈ e.eventsOf c → ∃ t, event.Records c t
  increasing : ∀ c, (e.eventsOf c).Pairwise ClaimLifecycleEvent.Before
  chain : ∀ {c claim status}, e.claims.get? c = some claim → AddedWith log c status →
    (e.eventsOf c).map ClaimLifecycleEvent.fromStatus ++ [claim.status] =
      .int status :: (e.eventsOf c).map ClaimLifecycleEvent.toStatus
  added : ∀ {c}, e.claims.contains c = true → ∃ status, AddedWith log c status
  known : ∀ {c status}, AddedWith log c status → e.claims.contains c = true

namespace History

theorem new (uuid : UuidHex) : History [] (Engine.new uuid) where
  seq := ⟨0, rfl, .refl _⟩
  owner := by simp [Engine.new, Dict.contains]
  legal := by simp [Engine.eventsOf, Engine.new]
  increasing := by simp [Engine.eventsOf, Engine.new]
  chain := by simp [Engine.new]
  added := by simp [Engine.new, Dict.contains]
  known := by
    rintro c status ⟨record, hmem, -⟩
    simp at hmem

/-- The account depends on three stores and on the claims added. -/
theorem keep {log log' : Log} {e e' : Engine} (h : History log e)
    (hlog : ∀ c status, AddedWith log' c status ↔ AddedWith log c status)
    (hclaims : e.claims.Equiv e'.claims)
    (hevents : e.claimLifecycleEvents.Equiv e'.claimLifecycleEvents)
    (hseq : e.lifecycleSeq = e'.lifecycleSeq) : History log' e' := by
  -- the logs and the claims are shared, as dicts
  have heventsOf : ∀ c, e'.eventsOf c = e.eventsOf c := fun c => (hevents.getD c []).symm
  exact {
    seq := by
      obtain ⟨n, hn, hperm⟩ := h.seq
      refine ⟨n, hseq ▸ hn, .trans (.map _ ?_) hperm⟩
      exact hevents.flatten_values.symm
    owner := fun hc => by
      rw [← hclaims.contains]
      exact h.owner (by rw [hevents.contains, hc])
    legal := fun hevent => h.legal (by rwa [heventsOf] at hevent)
    increasing := fun c => by
      rw [heventsOf]
      exact h.increasing c
    chain := fun hget hadded => by
      rw [heventsOf]
      exact h.chain ((hclaims _).trans hget) ((hlog _ _).mp hadded)
    added := fun hc => by
      obtain ⟨status, hstatus⟩ := h.added (by rw [hclaims.contains, hc])
      exact ⟨status, (hlog _ _).mpr hstatus⟩
    known := fun hadded => by
      rw [← hclaims.contains]
      exact h.known ((hlog _ _).mp hadded) }

theorem events_of_absent {log : Log} {e : Engine} (h : History log e) {c : Int}
    (habsent : e.claims.get? c = none) : e.eventsOf c = [] := by
  have hnone : e.claimLifecycleEvents.get? c = none := by
    rw [Dict.get?_eq_none] at habsent ⊢
    exact fun hc => habsent (h.owner hc)
  simp [Engine.eventsOf, Dict.getD, hnone]

/-- A new claim starts a history of its own. -/
theorem addClaim {log : Log} {e : Engine} (h : History log e) {o : Op} {n status : Int}
    {claim : Claim} (habsent : e.claims.get? n = none) (hop : o.initialStatus? = some status)
    (hstatus : claim.status = .int status) :
    History (log ++ [⟨o, .ok (.id n)⟩]) (e.putClaim n claim) where
  seq := h.seq
  owner hc := Dict.contains_insert_of_contains (h.owner hc)
  legal hevent := h.legal hevent
  increasing := h.increasing
  chain := by
    intro c claim' status' hget hadded
    simp only [Engine.putClaim, Dict.get?_insert] at hget
    rcases addedWith_append.mp hadded with hold | ⟨hid, hnew⟩
    · -- a claim of the old log has an entry, so it is not the new one
      have hne : n ≠ c := by
        rintro rfl
        exact Dict.get?_eq_none.mp habsent (h.known hold)
      rw [if_neg hne] at hget
      exact h.chain hget hold
    · cases hid
      rw [if_pos rfl] at hget
      cases hget
      rw [hop] at hnew
      cases hnew
      -- no event has been recorded for `n`: the chain is its first status alone
      change (e.eventsOf n).map _ ++ _ = _ :: (e.eventsOf n).map _
      rw [h.events_of_absent habsent, hstatus]
      rfl
  added := by
    intro c hc
    rcases Dict.contains_insert_iff.mp hc with rfl | hold
    · exact ⟨status, addedWith_append.mpr (.inr ⟨rfl, hop⟩)⟩
    · obtain ⟨status', hadded⟩ := h.added hold
      exact ⟨status', addedWith_append.mpr (.inl hadded)⟩
  known := by
    intro c status' hadded
    rcases addedWith_append.mp hadded with hold | ⟨hid, -⟩
    · exact Dict.contains_insert_of_contains (h.known hold)
    · cases hid
      simp [Engine.putClaim]

/-- A transition extends the history of its claim by one event. -/
theorem transition {log log' : Log} {e : Engine} (h : History log e)
    (hlog : ∀ c status, AddedWith log' c status ↔ AddedWith log c status) {t : Transition}
    {claimId : Int} {claim : Claim} {seq : Json} (found : e.claims.get? claimId = some claim)
    (source : claim.status = t.source) (counted : e.lifecycleSeq.addInt 1 = .ok seq) :
    History log' (e.putTransition claimId claim t.target seq t.label) := by
  obtain ⟨n, hn, hperm⟩ := h.seq
  rw [hn] at counted
  cases counted
  have hevents := e.eventsOf_putTransition claimId claim t.target (.int (n + 1)) t.label
  have hcontains : ∀ c, (e.claims.insert claimId { claim with status := t.target }).contains c =
      true ↔ e.claims.contains c = true := by
    intro c
    rw [Dict.contains_insert_iff]
    exact or_iff_right_of_imp fun hc => hc ▸ Dict.contains_of_get? found
  exact {
    seq := by
      refine ⟨n + 1, by push_cast; rfl, ?_⟩
      rw [seqsUpTo_succ]
      refine ((Dict.flatten_values_append _ _ _).map _).trans ?_
      rw [List.map_append]
      exact hperm.append_right _
    owner := fun hc => (hcontains _).mpr <| by
      rcases Dict.contains_insert_iff.mp hc with rfl | hold
      · exact Dict.contains_of_get? found
      · exact h.owner hold
    legal := by
      intro c event hevent
      rw [hevents] at hevent
      split at hevent
      · rename_i heq
        subst heq
        rcases List.mem_append.mp hevent with hold | hnew
        · exact h.legal hold
        · rw [List.mem_singleton.mp hnew]
          exact ⟨t, rfl, source, rfl, rfl⟩
      · exact h.legal hevent
    increasing := by
      intro c
      rw [hevents]
      split
      · refine List.pairwise_append.mpr ⟨h.increasing claimId, List.pairwise_singleton _ _, ?_⟩
        intro a ha b hb
        rw [List.mem_singleton.mp hb]
        -- the numbers given out so far are `1 .. n`, and the new event has `n + 1`
        have hmem : a.seq ∈ e.seqs := List.mem_map_of_mem (Dict.mem_flatten_values ha)
        obtain ⟨i, hi, hseq⟩ := mem_seqsUpTo.mp (hperm.mem_iff.mp hmem)
        exact ⟨_, _, hseq, rfl, by omega⟩
      · exact h.increasing c
    chain := by
      intro c claim' status hget hadded
      simp only [Engine.putTransition, Dict.get?_insert] at hget
      rw [hevents]
      split at hget
      · -- the chain of the claim grows by the target at its end
        rename_i heq
        subst heq
        cases hget
        have hchain := h.chain found ((hlog _ _).mp hadded)
        rw [if_pos rfl, List.map_append, List.map_append, ← List.cons_append, ← hchain]
        rfl
      · rename_i hne
        rw [if_neg hne]
        exact h.chain hget ((hlog _ _).mp hadded)
    added := fun hc => by
      obtain ⟨status, hstatus⟩ := h.added ((hcontains _).mp hc)
      exact ⟨status, (hlog _ _).mpr hstatus⟩
    known := fun hadded => (hcontains _).mpr (h.known ((hlog _ _).mp hadded)) }

theorem writes {log : Log} {e e' : Engine} {o : Op} {r : Ret} (h : History log e)
    (hsound : Sound e) (hw : Writes e o r e') : History (log ++ [⟨o, .ok r⟩]) e' := by
  -- no other call is an `add_claim`
  have hlog : o.initialStatus? = none → ∀ c status,
      AddedWith (log ++ [⟨o, .ok r⟩]) c status ↔ AddedWith log c status := by
    intro hnone c status
    simp [addedWith_append, hnone]
  cases hw with
  | addClaim subject valid fresh =>
    exact h.addClaim (Engine.fresh_of_covers hsound.counters.claim fresh) rfl rfl
  | @transition t claimId claim seq found source guard counted =>
    have hsource := (hsound.typed.claim found).status.eq_of_eq t.source_isInt source
    exact h.transition (hlog rfl) found hsource counted
  | @setHints _ hints onHints _ _ =>
    refine h.keep (fun c status => ?_) (.refl _) (.refl _) rfl
    simp [addedWith_append]
  | _ => exact h.keep (hlog rfl) (.refl _) (.refl _) rfl

theorem outcome {log : Log} {e : Engine} {o : Op} {result : EStateM.Result PyErr Engine Ret}
    (h : History log e) (hsound : Sound e) (ho : Outcome e o result) :
    History (log ++ [⟨o, Ragcore.outcome result⟩]) (finalState result) := by
  -- without a new id the log of the calls adds no claim
  have hsame : ∀ {result : Except PyErr Ret}, (∀ n, result ≠ .ok (.id n)) →
      ∀ c status, AddedWith (log ++ [⟨o, result⟩]) c status ↔ AddedWith log c status := by
    intro result hne c status
    rw [addedWith_append]
    exact or_iff_left fun hnew => hne c hnew.1
  cases ho with
  | raised err => exact h.keep (hsame (by simp)) (.refl _) (.refl _) rfl
  | idle r noId =>
    refine h.keep (hsame fun n hn => ?_) (.refl _) (.refl _) rfl
    cases hn
    cases noId
  | knownGap =>
    refine h.keep (fun c status => ?_) (.refl _) (.refl _) rfl
    simp [addedWith_append, Op.initialStatus?]
  | wrote hw => exact h.writes hsound hw
  | torn found uncounted => exact absurd uncounted hsound.typed.counts
  | restated found updated equal =>
    exact h.keep (hsame (by simp)) (.refl _) (.refl _) rfl

end History

theorem Session.Reachable.history {s : Session} (h : s.Reachable) : History s.log s.engine :=
  (h.preserves (P := fun log e => Sound e ∧ History log e) (fun uuid => ⟨.new uuid, .new uuid⟩)
    (fun _ e o he => ⟨he.1.op o, he.2.outcome he.1 (o.outcome_cases e)⟩)
    fun _ e uuid _ he hrun => by
      rw [he.1.trip hrun]
      have heq := e.equiv_reloaded uuid
      exact ⟨he.1.congr heq, he.2.keep (fun _ _ => .rfl) heq.claims heq.claimLifecycleEvents
        heq.lifecycleSeq⟩).2

/-! ## The law

The log is a chain of legal transitions, and the numbers over all logs are the numbers up to the
counter. -/

/-- The history of one claim, added with one of the statuses in the log. -/
structure ClaimAccount (log : Log) (e : Engine) (c : Int) (claim : Claim) : Prop where
  added : ∃ status, AddedWith log c status
  chain : ∀ status, AddedWith log c status →
    (e.eventsOf c).map ClaimLifecycleEvent.fromStatus ++ [claim.status] =
      .int status :: (e.eventsOf c).map ClaimLifecycleEvent.toStatus
  legal : ∀ event ∈ e.eventsOf c, ∃ t : Transition, event.Records c t
  refuted : ∀ event ∈ e.eventsOf c, event.fromStatus ≠ claimStatusRefuted
  candidate : ∀ event ∈ e.eventsOf c, event.toStatus ≠ claimStatusCandidate
  increasing : (e.eventsOf c).Pairwise ClaimLifecycleEvent.Before

theorem History.account {log : Log} {e : Engine} (h : History log e) {c : Int} {claim : Claim}
    (hget : e.claims.get? c = some claim) : ClaimAccount log e c claim where
  added := h.added (Dict.contains_of_get? hget)
  chain := fun _ hadded => h.chain hget hadded
  legal := fun _ hevent => h.legal hevent
  refuted := by
    intro event hevent hfrom
    obtain ⟨t, ht⟩ := h.legal hevent
    rw [ht.fromStatus] at hfrom
    -- the six transitions, each with its two statuses
    cases t <;> simp [Transition.source, claimStatusCandidate, claimStatusConfirmed,
      claimStatusDisputed, claimStatusRefuted] at hfrom
  candidate := by
    intro event hevent hto
    obtain ⟨t, ht⟩ := h.legal hevent
    rw [ht.toStatus] at hto
    cases t <;> simp [Transition.target, claimStatusCandidate, claimStatusConfirmed,
      claimStatusDisputed, claimStatusRefuted] at hto
  increasing := h.increasing c

/-- **The lifecycle history is an exact account of status.** -/
theorem lifecycle_history_exact {s : Session} (h : s.Reachable) :
    (∀ c claim, s.engine.claims.get? c = some claim →
      s.engine.claimLifecycleHistory c = .ok (s.engine.eventsOf c) ∧
        ClaimAccount s.log s.engine c claim) ∧
    (∀ c, s.engine.claimLifecycleEvents.contains c = true → s.engine.claims.contains c = true) ∧
    ∃ n : Nat, s.engine.lifecycleSeq = .int n ∧ s.engine.seqs.Perm (seqsUpTo n) :=
  ⟨fun _ _ hget => ⟨bind_ok_iff.mpr ⟨(), Engine.assertExists_ok_iff.mpr
    (Dict.contains_of_get? hget), rfl⟩, h.history.account hget⟩, fun _ hc => h.history.owner hc,
    h.history.seq⟩

/-- The disputed claim was added as a candidate, confirmed, then disputed. -/
theorem lifecycle_history_exact_disputed :
    ∃ claim, ClaimAccount Session.disputed.log Session.disputed.engine 1 claim :=
  ⟨_, ((lifecycle_history_exact Session.disputed_reachable).1 1 _
    (by with_unfolding_all rfl)).2⟩

end Ragcore
