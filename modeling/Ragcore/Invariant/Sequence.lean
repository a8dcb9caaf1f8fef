import Ragcore.Invariant.Allocation
import Ragcore.Invariant.History
import Ragcore.Lib.Double
import Ragcore.Snapshot.Usable

/-!
# Ragcore — transitions of a restored engine

A restore checks the six id counters against the restored ids; `lifecycle_seq` it takes as it
is, next to the events it should bound. A transition of the restored engine can then raise with
the status already replaced, or record an event that is not the newest.

* **`Ordered`** — a transition method does nothing, or commits one event newer than all events in
  the history of any claim.
* **`SeqAhead`** — the next sequence number is an int above the events of all claims, those still
  to be added included; every call keeps it.
* **`transitions_ordered_iff`** — after a restore all transitions of all runs are ordered exactly
  when the snapshot is ahead. A float counter is not: it stops growing.

A snapshot may file events under an id that is no claim. Under an id the claim counter has passed
they are nobody's history; above it they become the history of the claim that gets the id.
-/

namespace Ragcore

/-- `v < w` between numbers. -/
def Json.Below (v w : Json) : Prop :=
  ∃ x y, v.number? = some x ∧ w.number? = some y ∧ x.lt y = true

theorem Json.below_int {v : Json} {n : Int} :
    v.Below (.int n) ↔ ∃ x, v.number? = some x ∧ x.lt (.fin n) = true := by
  constructor
  · rintro ⟨x, y, hx, hy, hlt⟩
    cases hy
    exact ⟨x, hx, hlt⟩
  · rintro ⟨x, hx, hlt⟩
    exact ⟨x, _, hx, rfl, hlt⟩

/-- A number below an int is below the next one. -/
theorem Json.Below.succ {v : Json} {n : Int} (h : v.Below (.int n)) : v.Below (.int (n + 1)) := by
  rw [below_int] at h ⊢
  obtain ⟨x, hx, hlt⟩ := h
  refine ⟨x, hx, ?_⟩
  cases x with
  | fin q =>
    rw [PyFloat.fin_lt_fin, decide_eq_true_iff] at hlt ⊢
    push_cast
    linarith
  | inf => exact hlt
  | negInf => exact hlt
  | nan obj => exact hlt

/-! ## One transition

The method's guards decide whether it commits. When it does, the status is written first and the
event recorded after, so the law is about both writes together and about the number the recorder
takes from the counter. -/

/-- What a call of a transition method leaves: the stores as they were, or the claim's status
replaced and one event appended to its history, newer than every event of every claim. -/
def Ordered (e : Engine) (t : Transition) (c : Int) : Prop :=
  (finalState (t.method c e)).toDecodedEngineState = e.toDecodedEngineState ∨
    ∃ claim event, e.claims.get? c = some claim ∧
      (finalState (t.method c e)).toDecodedEngineState =
        { e.toDecodedEngineState with
          claims := e.claims.insert c { claim with status := t.target }
          lifecycleSeq := event.seq
          claimLifecycleEvents := e.claimLifecycleEvents.insert c (e.eventsOf c ++ [event]) } ∧
      ∀ k, e.claims.contains k = true → ∀ old ∈ e.eventsOf k, old.seq.Below event.seq

/-- A claim of the engine, or an id that the claim counter has still to give out. -/
def Engine.Claimable (e : Engine) (k : Int) : Prop :=
  e.claims.contains k = true ∨ ∃ n, e.nextCounter "claim" = .ok n ∧ n ≤ k

/-- `v` is the next sequence number, and above all numbers recorded for a claim or for an id that
can become one. -/
structure NextSeq (e : Engine) (v : Json) : Prop where
  counted : e.lifecycleSeq.addInt 1 = .ok v
  newest : ∀ k, e.Claimable k → ∀ event ∈ e.eventsOf k, event.seq.Below v

theorem NextSeq.ordered {e : Engine} {v : Json} (h : NextSeq e v) (t : Transition) (c : Int) :
    Ordered e t c := by
  rcases Engine.transition_cases t c e with ⟨err, hrun⟩ | hrun | ⟨claim, hclaim, -, -, hrun⟩
  · exact .inl (by rw [hrun]; rfl)
  · exact .inl (by rw [hrun]; rfl)
  · -- a commit whose number cannot be counted on records nothing
    rcases Engine.commitTransition_cases c claim t.target t.label e with
      ⟨err, hseq, -⟩ | ⟨seq, hseq, hcommit⟩
    · rw [h.counted] at hseq
      cases hseq
    · rw [h.counted] at hseq
      cases hseq
      refine .inr ⟨claim, ⟨v, .int c, claim.status, t.target, .str t.label⟩, hclaim, ?_,
        fun k hk => h.newest k (.inl hk)⟩
      rw [hrun, hcommit]
      rfl

/-- A candidate claim with a contradiction. -/
structure Refutable (e : Engine) (c : Int) (claim : Claim) : Prop where
  stored : e.claims.get? c = some claim
  candidate : claim.status = claimStatusCandidate
  contradicted : e.contradictions.getD c ∅ ≠ ∅

theorem Refutable.refutes {e : Engine} {c : Int} {claim : Claim} (h : Refutable e c claim) :
    Engine.refuteClaimIfReady c e =
      Engine.commitTransition c claim claimStatusRefuted "refute_if_ready" e := by
  have hexists : e.assertClaimExists c = .ok () :=
    Engine.assertExists_ok_iff.mpr (Dict.contains_of_get? h.stored)
  have hget : e.getClaim c = .ok claim := Engine.subscript_ok_iff.mpr h.stored
  -- the gates of the refutation, in its order
  have hcandidate : claim.status.eq claimStatusCandidate = true := by
    rw [h.candidate]
    rfl
  unfold Engine.refuteClaimIfReady
  rw [run_readState_bind, hexists]
  simp only
  rw [run_readState_bind, hget]
  simp only [hcandidate, Bool.not_true, Bool.false_eq_true, if_false]
  rw [run_get_bind, if_neg h.contradicted]

/-- A refutation is ordered only if the counter is ahead of the events of all claims. -/
theorem Refutable.counted {e : Engine} {c : Int} {claim : Claim} (h : Refutable e c claim)
    (hordered : Ordered e .refute c) :
    ∃ v, e.lifecycleSeq.addInt 1 = .ok v ∧
      (∀ k, e.claims.contains k = true → ∀ old ∈ e.eventsOf k, old.seq.Below v) ∧
        (finalState (Engine.refuteClaimIfReady c e)).lifecycleSeq = v ∧
          (finalState (Engine.refuteClaimIfReady c e)).claims.contains c = true ∧
            ∃ event ∈ (finalState (Engine.refuteClaimIfReady c e)).eventsOf c, event.seq = v := by
  have hstatus : ∀ status, { claim with status } = claim → claim.status = status := by
    intro status heq
    exact (congrArg Claim.status heq).symm
  have hmethod : Transition.method .refute c e = Engine.refuteClaimIfReady c e := rfl
  unfold Ordered at hordered
  rw [hmethod, h.refutes] at hordered
  rw [h.refutes]
  rcases Engine.commitTransition_cases c claim claimStatusRefuted "refute_if_ready" e with
    ⟨err, hseq, hcommit⟩ | ⟨v, hseq, hcommit⟩
  · -- the recorder raised: the status is replaced and the event is missing
    rw [hcommit] at hordered
    rcases hordered with hsame | ⟨claim', event, hclaim', hstores, -⟩
    · have hclaims := congrArg (fun s => s.claims.get? c) hsame
      simp only [finalState_error, Engine.putStatus, Dict.get?_insert_self, h.stored] at hclaims
      have := hstatus _ (Option.some.inj hclaims)
      rw [h.candidate] at this
      cases this
    · -- no event is added where the law asks for one
      have hevents := congrArg (fun s => (s.claimLifecycleEvents.getD c []).length) hstores
      simp [Engine.putStatus, Dict.getD_insert, Engine.eventsOf] at hevents
  · -- the event is recorded, so the law says that it is the newest
    rw [hcommit] at hordered ⊢
    refine ⟨v, hseq, ?_, rfl, Dict.contains_of_get? (Dict.get?_insert_self _ _ _), ?_⟩
    · rcases hordered with hsame | ⟨claim', event, hclaim', hstores, hnewest⟩
      · have hclaims := congrArg (fun s => s.claims.get? c) hsame
        simp only [finalState_ok, Engine.putTransition, Dict.get?_insert_self, h.stored] at hclaims
        have := hstatus _ (Option.some.inj hclaims)
        rw [h.candidate] at this
        cases this
      · have hv : v = event.seq := congrArg DecodedEngineState.lifecycleSeq hstores
        rw [hv]
        exact hnewest
    · rw [finalState_ok, Engine.eventsOf_putTransition, if_pos rfl]
      exact ⟨_, List.mem_append_right _ (List.mem_singleton_self _), rfl⟩

/-! ## Runs that refute

From any engine whose counters work, public calls reach a state with a refutable claim without
touching a history, and so one more transition. Before that, calls of `add_claim` alone make a
claim of any id above the counter, whose events are then somebody's history. -/

theorem Engine.runCalls_append (e : Engine) (calls later : List Call) :
    e.runCalls (calls ++ later) = (e.runCalls calls).runCalls later := List.foldl_append

theorem Engine.runCalls_op {e e' : Engine} {o : Op} {r : Ret} (hrun : o.run e = .ok r e')
    (rest : List Call) : e.runCalls (.op o :: rest) = e'.runCalls rest := by
  have hstep : finalState ((Call.op o).run e) = e' := by
    rw [Call.run, finalState_map, hrun]
    rfl
  show (finalState ((Call.op o).run e)).runCalls rest = e'.runCalls rest
  rw [hstep]

theorem CountersCover.runCalls {e : Engine} (h : CountersCover e) (calls : List Call) :
    CountersCover (e.runCalls calls) :=
  Engine.runCalls_preserves (fun e o he => he.outcome (o.outcome_cases e)) h calls

theorem CountersCover.step {e e' : Engine} (h : CountersCover e) {o : Op} {r : Ret}
    (hrun : o.run e = .ok r e') : CountersCover e' := by
  have hout := h.outcome (o.outcome_cases e)
  rwa [hrun] at hout

/-- What the calls that prepare a refutation leave alone. -/
structure KeepsHistories (e e' : Engine) : Prop where
  lifecycleSeq : e'.lifecycleSeq = e.lifecycleSeq
  events : e'.claimLifecycleEvents = e.claimLifecycleEvents
  claims : ∀ k, e.claims.contains k = true → e'.claims.contains k = true

namespace KeepsHistories

theorem trans {e e' e'' : Engine} (h : KeepsHistories e e') (h' : KeepsHistories e' e'') :
    KeepsHistories e e'' :=
  ⟨h'.lifecycleSeq.trans h.lifecycleSeq, h'.events.trans h.events,
    fun k hk => h'.claims k (h.claims k hk)⟩

theorem eventsOf {e e' : Engine} (h : KeepsHistories e e') (k : Int) :
    e'.eventsOf k = e.eventsOf k := by
  rw [Engine.eventsOf, h.events, Engine.eventsOf]

end KeepsHistories

/-- The score of the claims and evidences these runs add. -/
theorem scoreValue_zero : ScoreValue.new (.float (.fin 0)) = .ok ⟨0, le_rfl, zero_le_one⟩ := by
  with_unfolding_all rfl

/-- `add_claim` repeated makes a claim of any id the counter has still to give out. -/
theorem exists_claim_from {subject : Int} (d : Nat) {e : Engine} (h : CountersCover e)
    (hsubject : e.entities.contains subject = true) {n : Int}
    (hn : e.nextCounter "claim" = .ok n) :
    ∃ calls, (e.runCalls calls).claims.contains (n + d) = true ∧
      KeepsHistories e (e.runCalls calls) := by
  induction d generalizing e n with
  | zero =>
    have hclaim : (Op.addClaim subject 0 0 0 0 (.fin 0) 0 0).run e = .ok (.id n) _ :=
      run_map_ok (Engine.addClaim_ok hsubject (.inl rfl) scoreValue_zero hn 0 0 0 0 0)
    refine ⟨[.op (.addClaim subject 0 0 0 0 (.fin 0) 0 0)], ?_⟩
    rw [Engine.runCalls_op hclaim]
    exact ⟨Dict.contains_insert_iff.mpr (.inl (by simp)), rfl, rfl,
      fun k hk => Dict.contains_insert_iff.mpr (.inr hk)⟩
  | succ d ih =>
    obtain ⟨claim, hclaim⟩ : ∃ claim : Claim,
        (Op.addClaim subject 0 0 0 0 (.fin 0) 0 0).run e = .ok (.id n) (e.putClaim n claim) :=
      ⟨_, run_map_ok (Engine.addClaim_ok hsubject (.inl rfl) scoreValue_zero hn 0 0 0 0 0)⟩
    -- the call leaves the counter at `n`
    have hnext : (e.putClaim n claim).nextCounter "claim" = .ok (n + 1) := by
      simp [Engine.nextCounter, Engine.putClaim, Dict.getD_insert]
    obtain ⟨later, hcontains, hkeeps⟩ := ih (h.step hclaim) hsubject hnext
    refine ⟨.op (.addClaim subject 0 0 0 0 (.fin 0) 0 0) :: later, ?_⟩
    rw [Engine.runCalls_op hclaim]
    have hid : n + ((d + 1 : Nat) : Int) = n + 1 + d := by push_cast; ring
    rw [hid]
    exact ⟨hcontains, hkeeps.lifecycleSeq, hkeeps.events,
      fun k hk => hkeeps.claims k (Dict.contains_insert_iff.mpr (.inr hk))⟩

/-- Any id that can become a claim becomes one in some run, with the histories as they are. -/
theorem Engine.Claimable.exists_claim {e : Engine} {k : Int} (hk : e.Claimable k)
    (h : CountersCover e) :
    ∃ calls, (e.runCalls calls).claims.contains k = true ∧
      KeepsHistories e (e.runCalls calls) := by
  rcases hk with hclaim | ⟨n, hn, hle⟩
  · exact ⟨[], hclaim, rfl, rfl, fun _ => id⟩
  · -- the claims need a subject, so an entity comes first
    obtain ⟨subject, hsubject⟩ := h.next .entity
    have hentity : (Op.addEntity 0 0).run e = .ok (.id subject) _ :=
      run_map_ok (Engine.addEntity_ok hsubject 0 0)
    have hnext : (e.putEntity subject ⟨.int subject, .int 0, .int 0⟩).nextCounter "claim" =
        .ok n := by
      simpa [Engine.nextCounter, Engine.putEntity, Dict.getD_insert] using hn
    obtain ⟨calls, hcontains, hkeeps⟩ := exists_claim_from (k - n).toNat (h.step hentity)
      (Dict.contains_of_get? (Dict.get?_insert_self _ _ _)) hnext
    refine ⟨.op (.addEntity 0 0) :: calls, ?_⟩
    rw [Engine.runCalls_op hentity]
    have hid : n + ((k - n).toNat : Int) = k := by omega
    rw [hid] at hcontains
    exact ⟨hcontains, hkeeps.lifecycleSeq, hkeeps.events, hkeeps.claims⟩

/-- From any engine whose counters work, four calls make a refutable claim and touch no history. -/
theorem exists_refutable {e : Engine} (h : CountersCover e) :
    ∃ calls c claim, Refutable (e.runCalls calls) c claim ∧
      KeepsHistories e (e.runCalls calls) := by
  -- an entity, a claim about it and an evidence for that, whatever the engine holds
  obtain ⟨n, hn⟩ := h.next .entity
  have hentity : (Op.addEntity 0 0).run e = .ok (.id n) _ := run_map_ok (Engine.addEntity_ok hn 0 0)
  -- the states get names, to keep the goals small
  obtain ⟨e₁, he₁⟩ : ∃ e₁, e₁ = e.putEntity n ⟨.int n, .int 0, .int 0⟩ := ⟨_, rfl⟩
  rw [← he₁] at hentity
  have hsubject : e₁.entities.contains n = true := by
    rw [he₁]
    exact Dict.contains_of_get? (Dict.get?_insert_self _ _ _)
  obtain ⟨c, hc⟩ := (h.step hentity).next .claim
  obtain ⟨claim, hclaim, hstatus⟩ : ∃ claim : Claim,
      (Op.addClaim n 0 0 0 0 (.fin 0) 0 0).run e₁ = .ok (.id c) (e₁.putClaim c claim) ∧
        claim.status = claimStatusCandidate :=
    ⟨_, run_map_ok (Engine.addClaim_ok hsubject (.inl rfl) scoreValue_zero hc 0 0 0 0 0), rfl⟩
  obtain ⟨e₂, he₂⟩ : ∃ e₂, e₂ = e₁.putClaim c claim := ⟨_, rfl⟩
  rw [← he₂] at hclaim
  have hstored : e₂.claims.get? c = some claim := by
    rw [he₂]
    exact Dict.get?_insert_self _ _ _
  have h₂ := (h.step hentity).step hclaim
  obtain ⟨v, hv⟩ := h₂.next .evidence
  obtain ⟨record, hevidence⟩ : ∃ record : Evidence,
      (Op.addEvidence c 0 0 (.fin 0)).run e₂ = .ok (.id v) (e₂.putEvidence v record) :=
    ⟨_, run_map_ok (Engine.addEvidence_ok (Dict.contains_of_get? hstored) scoreValue_zero hv 0 0)⟩
  obtain ⟨e₃, he₃⟩ : ∃ e₃, e₃ = e₂.putEvidence v record := ⟨_, rfl⟩
  rw [← he₃] at hevidence
  have hstored₃ : e₃.claims.get? c = some claim := by rw [he₃]; exact hstored
  have hkeeps : KeepsHistories e e₃ := by
    rw [he₃, he₂, he₁]
    exact ⟨rfl, rfl, fun k hk => Dict.contains_insert_iff.mpr (.inr hk)⟩
  obtain ⟨calls, hrun⟩ : ∃ calls, ∀ rest, e.runCalls (calls ++ rest) = e₃.runCalls rest := by
    refine ⟨[.op (.addEntity 0 0), .op (.addClaim n 0 0 0 0 (.fin 0) 0 0),
      .op (.addEvidence c 0 0 (.fin 0))], fun rest => ?_⟩
    rw [List.cons_append, Engine.runCalls_op hentity, List.cons_append, Engine.runCalls_op hclaim,
      List.cons_append, Engine.runCalls_op hevidence, List.nil_append]
  by_cases hnone : e₃.contradictions.getD c ∅ = ∅
  · -- the evidence is held against the claim
    have hregister : (Op.registerContradiction c v).run e₃ =
        .ok (.flag true) (e₃.putContradiction c v) :=
      run_map_ok (Engine.registerContradiction_ok (Dict.contains_of_get? hstored₃)
        (by rw [he₃]; exact Dict.contains_of_get? (Dict.get?_insert_self _ _ _)) (by simp [hnone]))
    refine ⟨calls ++ [.op (.registerContradiction c v)], c, claim, ?_⟩
    rw [hrun, Engine.runCalls_op hregister]
    exact ⟨⟨hstored₃, hstatus,
        by simp [Engine.runCalls, Engine.putContradiction, Dict.getD_insert]⟩,
      hkeeps.lifecycleSeq, hkeeps.events, hkeeps.claims⟩
  · -- an orphan bucket already holds contradictions of `c`
    refine ⟨calls ++ [], c, claim, ?_⟩
    rw [hrun]
    exact ⟨⟨hstored₃, hstatus, hnone⟩, hkeeps⟩

/-! ## Runs

`SeqAhead` is the invariant: a transition moves the counter on by one and records its event under
the old bound, and an `add_claim` only turns an id that could become a claim into one. -/

/-- The next sequence number is an int, above all numbers recorded for a claim or for an id that
can become one. -/
def SeqAhead (e : Engine) : Prop := ∃ n : Int, NextSeq e (.int n)

/-- No call makes an id claimable that was not. -/
theorem Engine.Claimable.of_writes {e e' : Engine} {o : Op} {r : Ret} {k : Int}
    (hw : Writes e o r e') (hk : e'.Claimable k) : e.Claimable k := by
  cases hw with
  | @addClaim _ _ _ _ _ _ _ n _ _ _ _ fresh =>
    -- the counter is at the new id, and the ids above it were above the old counter
    rcases hk with hclaim | ⟨n', hn', hle⟩
    · rcases Dict.contains_insert_iff.mp hclaim with rfl | hold
      · exact .inr ⟨_, fresh, le_rfl⟩
      · exact .inl hold
    · have hnext : n + 1 = n' := by
        simpa [Engine.nextCounter, Engine.putClaim, Dict.getD_insert] using hn'
      exact .inr ⟨n, fresh, by omega⟩
  | transition found _ _ _ =>
    refine hk.imp (fun hclaim => ?_) id
    rcases Dict.contains_insert_iff.mp hclaim with rfl | hold
    · exact Dict.contains_of_get? found
    · exact hold
  | addEntity | addObservation | addEvidence | addRelation | addGap =>
    -- another kind's counter moved
    refine hk.imp id fun hnext => ?_
    obtain ⟨n, hn, hle⟩ := hnext
    refine ⟨n, ?_, hle⟩
    simpa [Engine.nextCounter, Engine.putEntity, Engine.putObservation, Engine.putEvidence,
      Engine.putRelation, Engine.putGap, Dict.getD_insert] using hn
  | _ => exact hk

namespace SeqAhead

/-- The account looks at the counter, the histories and the ids that are or can become claims. -/
theorem keep {e e' : Engine} (h : SeqAhead e) (hseq : e'.lifecycleSeq = e.lifecycleSeq)
    (hevents : e'.claimLifecycleEvents = e.claimLifecycleEvents)
    (hclaimable : ∀ k, e'.Claimable k → e.Claimable k) : SeqAhead e' := by
  obtain ⟨n, hcounted, hnewest⟩ := h
  refine ⟨n, by rw [hseq, hcounted], fun k hk event hevent => ?_⟩
  rw [Engine.eventsOf, hevents] at hevent
  exact hnewest k (hclaimable k hk) event hevent

theorem outcome {e : Engine} {o : Op} {result : EStateM.Result PyErr Engine Ret}
    (h : SeqAhead e) (ho : Outcome e o result) : SeqAhead (finalState result) := by
  cases ho with
  | wrote hw =>
    have hclaimable := fun k => Engine.Claimable.of_writes (k := k) hw
    cases hw with
    | transition found source guard counted =>
      obtain ⟨n, hcounted, hnewest⟩ := h
      rw [hcounted] at counted
      cases counted
      refine ⟨n + 1, rfl, fun k hk event hevent => ?_⟩
      rw [finalState_ok] at hk
      rw [finalState_ok, Engine.eventsOf_putTransition] at hevent
      split at hevent
      · rename_i hself
        subst hself
        -- an event that was there, or the one that got the number
        rcases List.mem_append.mp hevent with hold | hnew
        · exact (hnewest _ (hclaimable _ hk) event hold).succ
        · rw [List.mem_singleton.mp hnew, Json.below_int]
          exact ⟨_, rfl, by rw [PyFloat.fin_lt_fin, decide_eq_true_iff]; push_cast; linarith⟩
      · exact (hnewest k (hclaimable k hk) event hevent).succ
    | _ => exact h.keep rfl rfl hclaimable
  | torn _ uncounted =>
    obtain ⟨n, hcounted, -⟩ := h
    rw [hcounted] at uncounted
    cases uncounted
  | _ => exact h.keep rfl rfl fun _ => id

theorem runCalls {e : Engine} (h : SeqAhead e) (calls : List Call) : SeqAhead (e.runCalls calls) :=
  Engine.runCalls_preserves (fun e o he => he.outcome (o.outcome_cases e)) h calls

end SeqAhead

/-- Every transition of every later run is ordered. -/
def AlwaysOrdered (e : Engine) : Prop := ∀ calls t c, Ordered (e.runCalls calls) t c

theorem AlwaysOrdered.runCalls {e : Engine} (h : AlwaysOrdered e) (calls : List Call) :
    AlwaysOrdered (e.runCalls calls) := by
  intro later t c
  rw [← Engine.runCalls_append]
  exact h (calls ++ later) t c

theorem SeqAhead.alwaysOrdered {e : Engine} (h : SeqAhead e) : AlwaysOrdered e := by
  intro calls t c
  obtain ⟨n, hnext⟩ := h.runCalls calls
  exact hnext.ordered t c

/-! Conversely, one run refutes the law where a recorded number is not below the next one: it makes
the id a claim if it is none yet, and refutes another claim. A float counter needs a longer run. -/

section AlwaysOrdered

variable {e : Engine} (h : AlwaysOrdered e) (hcount : CountersCover e)
include h hcount

/-- One more refutation: the counter moves on, above the events of all claims, to a number some
event of a claim has. -/
theorem AlwaysOrdered.refutation :
    ∃ v, e.lifecycleSeq.addInt 1 = .ok v ∧
      (∀ k, e.claims.contains k = true → ∀ event ∈ e.eventsOf k, event.seq.Below v) ∧
        ∃ calls, (e.runCalls calls).lifecycleSeq = v ∧
          ∃ k, (e.runCalls calls).claims.contains k = true ∧
            ∃ event ∈ (e.runCalls calls).eventsOf k, event.seq = v := by
  obtain ⟨calls, c, claim, hrefutable, hkeeps⟩ := exists_refutable hcount
  obtain ⟨v, hcounted, hnewest, hv, hstored, hevent⟩ := hrefutable.counted (h calls .refute c)
  -- the calls keep the claim refutable, so the refutation commits after them
  have hrefute : finalState ((Call.op (.transition .refute c)).run (e.runCalls calls)) =
      finalState (Engine.refuteClaimIfReady c (e.runCalls calls)) := by
    rw [Call.run, finalState_map, Op.run, finalState_map]
    rfl
  have hrun : e.runCalls (calls ++ [.op (.transition .refute c)]) =
      finalState (Engine.refuteClaimIfReady c (e.runCalls calls)) := by
    rw [Engine.runCalls_append, ← hrefute]
    rfl
  refine ⟨v, by rw [← hkeeps.lifecycleSeq, hcounted], fun k hk event hmem => ?_,
    calls ++ [.op (.transition .refute c)], by rw [hrun, hv], c, by rw [hrun]; exact hstored,
    by rw [hrun]; exact hevent⟩
  exact hnewest k (hkeeps.claims k hk) event (by rwa [hkeeps.eventsOf])

/-- So the next number is above the events filed under ids that can become claims as well. -/
theorem AlwaysOrdered.nextSeq {v : Json} (hv : e.lifecycleSeq.addInt 1 = .ok v) : NextSeq e v := by
  refine ⟨hv, fun k hk event hmem => ?_⟩
  -- the run in which `k` is a claim has the same counter and the same histories
  obtain ⟨calls, hclaim, hkeeps⟩ := hk.exists_claim hcount
  obtain ⟨v', hcounted, hnewest, -⟩ := (h.runCalls calls).refutation (hcount.runCalls calls)
  rw [hkeeps.lifecycleSeq, hv] at hcounted
  cases hcounted
  exact hnewest k hclaim event (by rwa [hkeeps.eventsOf])

/-- A float counter stops growing, so it is not always ahead. -/
theorem AlwaysOrdered.not_float (x : PyFloat) : e.lifecycleSeq ≠ .float x := by
  intro hseq
  choose next hnext using PyFloat.addInt_one_isOk
  -- `n` refutations move the counter on `n` times, and from the first on some event of a claim
  -- has its value
  have hruns : ∀ n, ∃ calls, (e.runCalls calls).lifecycleSeq = .float (next^[n] x) ∧
      (n ≠ 0 → ∃ k, (e.runCalls calls).claims.contains k = true ∧
        ∃ event ∈ (e.runCalls calls).eventsOf k, event.seq = .float (next^[n] x)) := by
    intro n
    induction n with
    | zero => exact ⟨[], hseq, fun hne => absurd rfl hne⟩
    | succ n ih =>
      obtain ⟨calls, hcalls, -⟩ := ih
      obtain ⟨v, hcounted, -, later, hlater, hevent⟩ :=
        (h.runCalls calls).refutation (hcount.runCalls calls)
      rw [hcalls, Json.addInt, hnext] at hcounted
      cases hcounted
      rw [Function.iterate_succ_apply']
      exact ⟨calls ++ later, by rw [Engine.runCalls_append, hlater], fun _ => by
        rw [Engine.runCalls_append]
        exact hevent⟩
  refine PyFloat.not_forall_lt_addInt (fun n => next^[n + 1] x) (fun n => ?_) fun n => ?_
  · rw [hnext, Function.iterate_succ_apply' next (n + 1)]
  · -- the next event must pass the one that has the counter's value
    obtain ⟨calls, hcalls, hrecorded⟩ := hruns (n + 1)
    obtain ⟨k, hclaim, event, hmem, hevent⟩ := hrecorded n.succ_ne_zero
    obtain ⟨v, hcounted, hnewest, -⟩ := (h.runCalls calls).refutation (hcount.runCalls calls)
    rw [hcalls, Json.addInt, hnext] at hcounted
    cases hcounted
    obtain ⟨y, z, hy, hz, hyz⟩ := hnewest k hclaim event hmem
    rw [hevent] at hy
    cases hy
    cases hz
    rw [Function.iterate_succ_apply' next (n + 1)]
    exact hyz

theorem AlwaysOrdered.seqAhead : SeqAhead e := by
  obtain ⟨v, hcounted, -⟩ := h.refutation hcount
  have hnext := h.nextSeq hcount hcounted
  -- a number that is no int cannot be counted on
  cases hseq : e.lifecycleSeq with
  | int m =>
    rw [hseq] at hcounted
    cases hcounted
    exact ⟨m + 1, hnext⟩
  | bool b =>
    rw [hseq] at hcounted
    cases hcounted
    exact ⟨_, hnext⟩
  | float x => exact absurd hseq (h.not_float hcount x)
  | _ =>
    rw [hseq] at hcounted
    cases hcounted

end AlwaysOrdered

/-! ## The condition on the snapshot

The restore files the events under the keys of the snapshot, whether or not these are claims, and
takes the claim counter from `next_id`, so `SeqAhead` of the restored engine can be read off. -/

namespace Snapshot

/-- A claim of the snapshot, or an id above its claim counter. -/
def Claimable (s : Json) (k : Int) : Prop :=
  k ∈ ids s "claims" ∨ ∃ m, counterOf (s.field "next_id") "claim" = .int m ∧ m < k

/-- `lifecycle_seq + 1` is an int above the `seq` of every event filed under a claim or under an
id that can become one. -/
def SequenceAhead (s : Json) : Prop :=
  ∃ n : Int, (s.field "lifecycle_seq").addInt 1 = .ok (.int n) ∧
    ∀ item ∈ entries s "claim_lifecycle_events", Claimable s (entryKey item) →
      ∀ event ∈ (entryValue item).items, (event.field "seq").Below (.int n)

theorem eventFromDict_seq {v : Json} {r : ClaimLifecycleEvent} (h : eventFromDict v = .ok r) :
    r.seq = v.field "seq" := by
  obtain ⟨d, hd, h⟩ := bind_ok_iff.mp h
  obtain ⟨_, _, h⟩ := bind_ok_iff.mp h
  cases h
  cases v with
  | dict fields =>
    cases hd
    simp [argument, Dict.getD, Json.field]
  | _ => cases hd

/-- A value that is not a list decodes only when it has nothing to iterate over. -/
theorem eventsFromValue_seqs {v : Json} {events : List ClaimLifecycleEvent}
    (h : eventsFromValue v = .ok events) :
    List.Forall₂ (fun item event => event.seq = item.field "seq") v.items events := by
  obtain ⟨records, hrecords, h⟩ := bind_ok_iff.mp h
  have hforall := (mapM_ok_iff.mp h).imp fun _ _ => eventFromDict_seq
  -- a list of texts decodes to no event
  have hstrings : (∀ r ∈ records, ∃ text, r = .str text) → events = [] := by
    intro hall
    cases mapM_ok_iff.mp h with
    | nil => rfl
    | cons hfirst _ =>
      obtain ⟨text, rfl⟩ := hall _ List.mem_cons_self
      cases hfirst
  cases v with
  | list xs =>
    cases hrecords
    exact hforall
  | str text =>
    cases hrecords
    rw [hstrings (by simp)]
    exact .nil
  | dict fields =>
    cases hrecords
    rw [hstrings (by simp)]
    exact .nil
  | _ => cases hrecords

theorem claimable_restored_iff {s : Json} {d : DecodedEngineState} (hs : Restorable s)
    (hd : Decoded s d) (uuid : UuidHex) {k : Int} :
    ((Engine.new uuid).install d).Claimable k ↔ Claimable s k := by
  refine or_congr (Restored.contains_iff_mem_ids hd.claims) ?_
  -- the restore took the counter as it is, and the integrity pass admitted an int only
  obtain ⟨m, hm, -⟩ := hs.counters ("claim", "claims") (by decide)
  have hcounter : ((Engine.new uuid).install d).nextId.getD "claim" (.int 0) = .int m :=
    (nextId_getD hs hd "claim").trans hm
  rw [Engine.nextCounter, hcounter]
  constructor
  · rintro ⟨n, hn, hle⟩
    cases hn
    exact ⟨m, hm, by omega⟩
  · rintro ⟨m', hm', hlt⟩
    rw [show counterOf (s.field "next_id") "claim" = .int m from hm] at hm'
    cases hm'
    exact ⟨m + 1, rfl, by omega⟩

theorem seqAhead_restored_iff {s : Json} {d : DecodedEngineState} (hs : Restorable s)
    (hd : Decoded s d) (uuid : UuidHex) :
    SeqAhead ((Engine.new uuid).install d) ↔ SequenceAhead s := by
  have hseq : ((Engine.new uuid).install d).lifecycleSeq = s.field "lifecycle_seq" :=
    hd.lifecycleSeq
  have hclaimable := fun k => claimable_restored_iff hs hd uuid (k := k)
  have hevents : ∀ n : Int,
      (∀ k, ((Engine.new uuid).install d).Claimable k →
        ∀ event ∈ ((Engine.new uuid).install d).eventsOf k, event.seq.Below (.int n)) ↔
        ∀ item ∈ entries s "claim_lifecycle_events", Claimable s (entryKey item) →
          ∀ event ∈ (entryValue item).items, (event.field "seq").Below (.int n) := by
    intro n
    constructor
    · -- every event of the snapshot is decoded into the history of its claim
      intro h item hitem hid event hevent
      obtain ⟨⟨k, events⟩, hp, rfl, hread⟩ :=
        exists_of_forall₂_left hd.claimLifecycleEvents hitem
      obtain ⟨r, hr, hrseq⟩ := exists_of_forall₂_left (eventsFromValue_seqs hread) hevent
      rw [← hrseq]
      refine h _ ((hclaimable _).mpr hid) r ?_
      show r ∈ d.claimLifecycleEvents.getD _ []
      rwa [Dict.getD_of_get? (Dict.mem_entries_iff.mp hp)]
    · -- and every event in a history was decoded from the snapshot
      intro h k hk event hevent
      cases hget : d.claimLifecycleEvents.get? k with
      | none =>
        have hnone : ((Engine.new uuid).install d).eventsOf k = [] := by
          rw [Engine.eventsOf, Dict.getD, Engine.install, hget]
          rfl
        simp [hnone] at hevent
      | some events =>
        have hsome : ((Engine.new uuid).install d).eventsOf k = events := Dict.getD_of_get? hget
        rw [hsome] at hevent
        obtain ⟨item, hitem, rfl, hread⟩ := hd.claimLifecycleEvents.get?_iff.mp hget
        obtain ⟨source, hsource, hseq⟩ :=
          exists_of_forall₂_right (eventsFromValue_seqs hread) hevent
        rw [hseq]
        exact h item hitem ((hclaimable _).mp hk) source hsource
  constructor
  · rintro ⟨n, hcounted, hnewest⟩
    exact ⟨n, hseq ▸ hcounted, (hevents n).mp hnewest⟩
  · rintro ⟨n, hcounted, hnewest⟩
    exact ⟨n, hseq ▸ hcounted, (hevents n).mpr hnewest⟩

theorem sequenceAhead_migrated {fields : Fields} {current : Json}
    (h : migrateSnapshotToCurrent fields = .ok current) :
    SequenceAhead current ↔ SequenceAhead (.dict fields) := by
  -- migration touches the version and the hint types, and neither is read
  have hseq : current.field "lifecycle_seq" = (Json.dict fields).field "lifecycle_seq" :=
    field_migrated h (by decide) (by decide)
  have hnext : current.field "next_id" = (Json.dict fields).field "next_id" :=
    field_migrated h (by decide) (by decide)
  have hclaims : entries current "claims" = entries (.dict fields) "claims" :=
    entries_migrated h (by decide) (by decide)
  have hevents : entries current "claim_lifecycle_events" =
      entries (.dict fields) "claim_lifecycle_events" :=
    entries_migrated h (by decide) (by decide)
  unfold SequenceAhead Claimable ids
  simp only [hseq, hnext, hclaims, hevents]

/-- A snapshot of a confirmed claim, contradicted, with one event of the given number. -/
def oneEvent (lifecycleSeq seq : Json) : Json :=
  .dict [
    ("schema_version", .int 2),
    ("next_id", .dict [("entity", .int 1), ("claim", .int 1), ("evidence", .int 1)]),
    ("lifecycle_seq", lifecycleSeq),
    ("entities", .list []), ("observations", .list []),
    ("claims", .list [entry (.int 1) (.dict [
      ("id", .int 1), ("subject_id", .int 1), ("type", .int 1), ("status", .int 1),
      ("created_by_rule", .int 0), ("created_by_rule_version", .int 1),
      ("reason_code", .int 0), ("base_confidence", .dict [("value", .float (.fin 1))]),
      ("flags", .int 0)])]),
    ("evidences", .list [entry (.int 1) (.dict [
      ("id", .int 1), ("claim_id", .int 1), ("raw_ref_id", .int 1), ("type", .int 7),
      ("strength", .dict [("value", .float (.fin 1))])])]),
    ("relations", .list []), ("gaps", .list []),
    ("rule_definitions", .list []), ("rule_stats", .list []), ("gap_dedup_index", .list []),
    ("claim_gap_refs", .list []), ("gap_resolutions", .list []),
    ("contradictions", .list [entry (.int 1) (.list [.int 1])]),
    ("resolved_contradictions", .list []),
    ("claim_lifecycle_events", .list [entry (.int 1) (.list [.dict [
      ("seq", seq), ("claim_id", .int 1), ("from_status", .int 0), ("to_status", .int 1),
      ("transition", .str "confirm_if_ready")]])]),
    ("hint_evidence_types", .list [])]

/-- The engine it restores to. -/
def oneEventEngine (lifecycleSeq seq : Json) : Engine :=
  { Engine.new default with
    nextId := .ofFields [("entity", .int 1), ("claim", .int 1), ("evidence", .int 1)]
    lifecycleSeq
    claims := Dict.insert ∅ 1
      { id := 1, subjectId := .int 1, type := .int 1, status := .int 1, createdByRule := .int 0
        createdByRuleVersion := .int 1, reasonCode := .int 0
        baseConfidence := some ⟨1, zero_le_one, le_rfl⟩, flags := .int 0 }
    evidences := Dict.insert ∅ 1
      { id := 1, claimId := 1, rawRefId := .int 1, type := .int 7
        strength := some ⟨1, zero_le_one, le_rfl⟩ }
    contradictions := Dict.insert ∅ 1 {1}
    claimLifecycleEvents := Dict.insert ∅ 1
      [⟨seq, .int 1, .int 0, .int 1, .str "confirm_if_ready"⟩] }

/-- Restored with `lifecycle_seq` 0 behind an event number 5, the claim's dispute is number 1. -/
theorem oneEvent_behind :
    Engine.fromSnapshot default (oneEvent (.int 0) (.int 5)) =
        .ok (oneEventEngine (.int 0) (.int 5)) ∧
      ((finalState (Engine.disputeClaimIfReady 1 (oneEventEngine (.int 0) (.int 5)))).eventsOf 1).map
        ClaimLifecycleEvent.seq = [.int 5, .int 1] ∧
      ¬ AlwaysOrdered (oneEventEngine (.int 0) (.int 5)) := by
  have hevents : ((finalState (Engine.disputeClaimIfReady 1
      (oneEventEngine (.int 0) (.int 5)))).eventsOf 1).map ClaimLifecycleEvent.seq =
        [.int 5, .int 1] := by
    with_unfolding_all rfl
  refine ⟨by with_unfolding_all rfl, hevents, fun h => ?_⟩
  -- the dispute commits with number one, behind the five that is there
  rcases h [] .dispute 1 with hsame | ⟨claim, event, -, hstores, hnewest⟩
  · have hlength := congrArg (fun s => (s.claimLifecycleEvents.getD 1 []).length) hsame
    have htwo := congrArg List.length hevents
    rw [List.length_map] at htwo
    cases htwo.symm.trans hlength
  · have hseq : event.seq = .int 1 := (congrArg DecodedEngineState.lifecycleSeq hstores).symm
    have hbelow := hnewest 1 rfl ⟨.int 5, .int 1, .int 0, .int 1, .str "confirm_if_ready"⟩
      (List.mem_singleton_self _)
    rw [hseq, Json.below_int] at hbelow
    obtain ⟨x, hx, hlt⟩ := hbelow
    cases hx
    norm_num at hlt

/-- **Transitions stay atomic and ordered after a restore exactly when the snapshot's counter is
ahead of its events.** -/
theorem transitions_ordered_iff (uuid : UuidHex) (s : Json) (e : Engine)
    (h : Engine.fromSnapshot uuid s = .ok e) : AlwaysOrdered e ↔ SequenceAhead s := by
  obtain ⟨fields, current, d, rfl, hcurrent, hrestorable, hd, -, rfl⟩ := fromSnapshot_ok_iff.mp h
  rw [← sequenceAhead_migrated hcurrent, ← seqAhead_restored_iff hrestorable hd uuid]
  exact ⟨fun hordered => hordered.seqAhead (fromSnapshot_countersCover h), SeqAhead.alwaysOrdered⟩

/-- The law on a snapshot that is ahead. -/
theorem transitions_ordered_iff_oneEvent : AlwaysOrdered (oneEventEngine (.int 5) (.int 5)) := by
  refine (transitions_ordered_iff default (oneEvent (.int 5) (.int 5)) _
    (by with_unfolding_all rfl)).mpr ⟨6, rfl, fun item hitem _ event hevent => ?_⟩
  rw [List.mem_singleton.mp hitem] at hevent
  rw [List.mem_singleton.mp hevent, Json.below_int]
  exact ⟨.fin 5, rfl, by norm_num⟩

end Snapshot

end Ragcore
