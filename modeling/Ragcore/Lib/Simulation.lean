import Ragcore.Lib.Runs

/-!
# Ragcore — one program from two related states

`Agree R x y` says that two runs end alike: with the same value or with the same exception, in
states related by `R`. The rules below follow the constructs a method is written with, so a
program is compared with itself line by line: a read must return the same thing in both
states, and a write must keep them related.

* **`responses`** — what a client sees of the requests it makes one after another, raised
  ones included.
* **`responses_eq`** — related states answer every sequence of requests alike.
* **`Replays.op`** — where a call that raises changes nothing, the calls that returned are a run.
-/

namespace Ragcore

section Agree

variable {ε σ τ α β : Type} {R : σ → τ → Prop}

/-- Both runs return the same value or raise the same exception, in related states. -/
inductive Agree (R : σ → τ → Prop) : EStateM.Result ε σ α → EStateM.Result ε τ α → Prop
  | ok {a : α} {s : σ} {t : τ} (related : R s t) : Agree R (.ok a s) (.ok a t)
  | error {err : ε} {s : σ} {t : τ} (related : R s t) : Agree R (.error err s) (.error err t)

namespace Agree

/-- The states they leave are related. -/
theorem states {x : EStateM.Result ε σ α} {y : EStateM.Result ε τ α} (h : Agree R x y) :
    R (finalState x) (finalState y) := by
  cases h with
  | ok related => exact related
  | error related => exact related

/-- And what they return is the same. -/
theorem outcomes {x : EStateM.Result ε σ α} {y : EStateM.Result ε τ α} (h : Agree R x y) :
    outcome x = outcome y := by
  cases h with
  | ok _ => rfl
  | error _ => rfl

variable {s : σ} {t : τ}

theorem pure (h : R s t) (a : α) :
    Agree R ((Pure.pure a : EStateM ε σ α) s) ((Pure.pure a : EStateM ε τ α) t) := .ok h

theorem throw (h : R s t) (err : ε) :
    Agree R ((MonadExcept.throw err : EStateM ε σ α) s)
      ((MonadExcept.throw err : EStateM ε τ α) t) := .error h

/-- Agreement goes through a sequence. -/
theorem bind {x : EStateM ε σ α} {y : EStateM ε τ α} {f : α → EStateM ε σ β}
    {g : α → EStateM ε τ β} (hxy : Agree R (x s) (y t))
    (hfg : ∀ a s' t', R s' t' → Agree R (f a s') (g a t')) :
    Agree R ((x >>= f) s) ((y >>= g) t) := by
  rw [run_bind, run_bind]
  -- both first parts return, or both raise the same exception
  cases hx : x s with
  | ok a s' =>
    rw [hx] at hxy
    cases hy : y t with
    | ok b t' =>
      rw [hy] at hxy
      cases hxy with
      | ok related => exact hfg _ _ _ related
    | error err t' =>
      rw [hy] at hxy
      cases hxy
  | error err s' =>
    rw [hx] at hxy
    cases hy : y t with
    | ok b t' =>
      rw [hy] at hxy
      cases hxy
    | error err' t' =>
      rw [hy] at hxy
      cases hxy with
      | error related => exact .error related

theorem map {x : EStateM ε σ α} {y : EStateM ε τ α} (f : α → β) (hxy : Agree R (x s) (y t)) :
    Agree R ((f <$> x) s) ((f <$> y) t) := by
  simp only [Functor.map, EStateM.map]
  cases hx : x s <;> cases hy : y t <;> rw [hx, hy] at hxy <;> cases hxy
  · exact .ok ‹_›
  · exact .error ‹_›

/-- A read that gives the same on both sides. -/
theorem readState_bind {r : σ → Except ε α} {r' : τ → Except ε α} {f : α → EStateM ε σ β}
    {g : α → EStateM ε τ β} (h : R s t) (hr : r s = r' t)
    (hfg : ∀ a, r s = .ok a → Agree R (f a s) (g a t)) :
    Agree R ((readState r >>= f) s) ((readState r' >>= g) t) := by
  rw [run_readState_bind, run_readState_bind, ← hr]
  cases hok : r s with
  | ok a => exact hfg a hok
  | error err => exact .error h

/-- A read whose answers are related. -/
theorem readState_bind_of {γ : Type} {P : α → γ → Prop} {r : σ → Except ε α} {r' : τ → Except ε γ}
    {f : α → EStateM ε σ β} {g : γ → EStateM ε τ β} (h : R s t)
    (hr : SameOutcome P (r s) (r' t)) (hfg : ∀ a b, P a b → Agree R (f a s) (g b t)) :
    Agree R ((readState r >>= f) s) ((readState r' >>= g) t) := by
  rw [run_readState_bind, run_readState_bind]
  generalize r s = x at hr
  generalize r' t = y at hr
  cases hr with
  | ok related => exact hfg _ _ related
  | error err => exact .error h

/-- A read the states answer alike up to `f`. -/
theorem readState_map {r : σ → Except ε α} {r' : τ → Except ε α} (f : α → β) (h : R s t)
    (hr : f <$> r s = f <$> r' t) :
    Agree R ((f <$> readState r) s) ((f <$> readState r') t) := by
  simp only [run_map_readState, readState]
  rw [hr]
  cases f <$> r' t with
  | ok b => exact .ok h
  | error err => exact .error h

theorem get_bind {f : σ → EStateM ε σ β} {g : τ → EStateM ε τ β}
    (h : Agree R (f s s) (g t t)) : Agree R ((get >>= f) s) ((get >>= g) t) := h

/-- Two writes that keep the relation. -/
theorem modify_bind {u : σ → σ} {v : τ → τ} {f : PUnit → EStateM ε σ β}
    {g : PUnit → EStateM ε τ β} (h : Agree R (f ⟨⟩ (u s)) (g ⟨⟩ (v t))) :
    Agree R ((modify u >>= f) s) ((modify v >>= g) t) := h

theorem ite {c c' : Prop} [Decidable c] [Decidable c'] {x y : EStateM ε σ α}
    {x' y' : EStateM ε τ α} (hc : c ↔ c') (hx : c → Agree R (x s) (x' t))
    (hy : ¬ c → Agree R (y s) (y' t)) :
    Agree R ((if c then x else y) s) ((if c' then x' else y') t) := by
  by_cases h : c
  · rw [if_pos h, if_pos (hc.mp h)]
    exact hx h
  · rw [if_neg h, if_neg (fun h' => h (hc.mpr h'))]
    exact hy h

end Agree

end Agree

/-! ## Sequences of requests

Related states answer every sequence of requests alike. -/

section Responses

variable {ε σ τ α β Req : Type}

/-- A request that raises is answered by its exception, and the client goes on. -/
def responses (run : Req → EStateM ε σ α) : List Req → σ → List (Except ε α)
  | [], _ => []
  | r :: rest, s => outcome (run r s) :: responses run rest (finalState (run r s))

/-- **Related states answer alike**, as far as `f` can tell. -/
theorem responses_eq {R : σ → τ → Prop} {run : Req → EStateM ε σ α} {run' : Req → EStateM ε τ α}
    {f : α → β}
    (hstep : ∀ r s t, R s t → Agree R ((f <$> run r) s) ((f <$> run' r) t)) (requests : List Req)
    {s : σ} {t : τ} (h : R s t) :
    (responses run requests s).map (f <$> ·) = (responses run' requests t).map (f <$> ·) := by
  -- the states are general, since every answer may move them
  induction requests generalizing s t with
  | nil => rfl
  | cons r rest ih =>
    have hagree := hstep r s t h
    have hout := hagree.outcomes
    have hrel := hagree.states
    rw [outcome_map, outcome_map] at hout
    rw [finalState_map, finalState_map] at hrel
    rw [responses, responses, List.map_cons, List.map_cons, hout, ih hrel]

end Responses

/-! ## A log without its failures

Calls that raised changed nothing, so a replay can leave them out. -/

section Journal

variable {Op Ret ε σ : Type} {run : Op → EStateM ε σ Ret} {R : σ → σ → Prop}

/-- The call did not raise. -/
def CallRecord.returned (r : CallRecord Op ε Ret) : Bool :=
  match r.result with
  | .ok _ => true
  | .error _ => false

/-- The calls of a log that returned. -/
def journal (log : List (CallRecord Op ε Ret)) : List (CallRecord Op ε Ret) :=
  log.filter CallRecord.returned

/-- One more call at the end of a log. -/
theorem Steps.snoc {s t : σ} {records : List (CallRecord Op ε Ret)} (h : Steps run s records t)
    (o : Op) : Steps run s (records ++ [⟨o, outcome (run o t)⟩]) (finalState (run o t)) := by
  induction h with
  | nil s => exact .single o s
  | cons first rest ih => exact .cons first ih

/-- The journal of `log` is a run from `start`, to a state related to `s`. -/
def Replays (run : Op → EStateM ε σ Ret) (R : σ → σ → Prop) (start : σ)
    (log : List (CallRecord Op ε Ret)) (s : σ) : Prop :=
  ∃ t, Steps run start (journal log) t ∧ R s t

/-- **The rule for journals.** Related states run alike and a call that raises changes nothing, so
the journal goes on being a run when a call is logged. -/
theorem Replays.op {start s : σ} {log : List (CallRecord Op ε Ret)} {o : Op}
    (h : Replays run R start log s) (hagree : ∀ t, R s t → Agree R (run o s) (run o t))
    (hfail : ∀ err s', run o s = .error err s' → s' = s) :
    Replays run R start (log ++ [⟨o, outcome (run o s)⟩]) (finalState (run o s)) := by
  obtain ⟨t, hsteps, hrelated⟩ := h
  have hrun := hagree t hrelated
  cases hs : run o s with
  | error err s' =>
    -- the record is left out and the state is the one before
    obtain rfl := hfail err s' hs
    refine ⟨t, ?_, hrelated⟩
    rw [journal, List.filter_append]
    exact (List.append_nil (journal log)).symm ▸ hsteps
  | ok ret s' =>
    -- the record is kept, and the replayed call returns the same
    have hsnoc := hsteps.snoc o
    rw [← hrun.outcomes, hs, outcome_ok] at hsnoc
    refine ⟨_, ?_, hs ▸ hrun.states⟩
    rw [journal, List.filter_append]
    exact hsnoc

/-- What relates to the state may take its place. -/
theorem Replays.of_related {start s s' : σ} {log : List (CallRecord Op ε Ret)}
    (h : Replays run R start log s) (hrelated : ∀ t, R s t → R s' t) :
    Replays run R start log s' := by
  obtain ⟨t, hsteps, ht⟩ := h
  exact ⟨t, hsteps, hrelated t ht⟩

end Journal

end Ragcore
