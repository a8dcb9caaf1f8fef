import Ragcore.Lib.Fallible

/-!
# Ragcore — recorded runs

A component is a family of methods `run : Op → EStateM ε σ Ret`. What a client does to it is
the list of calls it makes with what each returned; a method that raises is a call like any
other, and the state it leaves is the state the next call starts from.

* **`Steps`** — the calls that lead from one state to another.
* **`Steps.preserves`** — the induction rule: a property of the calls made so far and the
  state they left holds after every run, once each single call keeps it.
* **`script`** — the calls of a program that makes them in order and stops at the first raise.
-/

namespace Ragcore

variable {Op Ret ε σ α : Type}

structure CallRecord (Op ε Ret : Type) where
  op : Op
  result : Except ε Ret

/-- What the caller sees of a run. -/
def outcome : EStateM.Result ε σ α → Except ε α
  | .ok a _ => .ok a
  | .error err _ => .error err

@[simp] theorem outcome_ok (a : α) (s : σ) :
    outcome (.ok a s : EStateM.Result ε σ α) = .ok a := rfl

@[simp] theorem outcome_error (err : ε) (s : σ) :
    outcome (.error err s : EStateM.Result ε σ α) = .error err := rfl

theorem outcome_map {β : Type} (f : α → β) (x : EStateM ε σ α) (s : σ) :
    outcome ((f <$> x) s) = f <$> outcome (x s) := by
  rw [run_map]
  cases x s <;> rfl

/-- Two states that a query cannot tell apart are told apart only by what comes after it. -/
theorem outcome_readState_bind {β : Type} {r : σ → Except ε α} {f : α → EStateM ε σ β} {s t : σ}
    (hr : r t = r s) (hf : ∀ a, outcome (f a t) = outcome (f a s)) :
    outcome ((readState r >>= f) t) = outcome ((readState r >>= f) s) := by
  rw [run_readState_bind r f t, run_readState_bind r f s, hr]
  cases r s with
  | ok a => exact hf a
  | error err => rfl

theorem outcome_ite {c : Prop} [Decidable c] {x y : EStateM ε σ α} {s t : σ}
    (hx : outcome (x t) = outcome (x s)) (hy : outcome (y t) = outcome (y s)) :
    outcome ((if c then x else y) t) = outcome ((if c then x else y) s) := by
  split
  · exact hx
  · exact hy

section Steps

variable {run : Op → EStateM ε σ Ret}

inductive Steps (run : Op → EStateM ε σ Ret) : σ → List (CallRecord Op ε Ret) → σ → Prop
  | nil (s : σ) : Steps run s [] s
  | cons (o : Op) {s t : σ} {records : List (CallRecord Op ε Ret)}
      (rest : Steps run (finalState (run o s)) records t) :
      Steps run s (⟨o, outcome (run o s)⟩ :: records) t

theorem Steps.single (o : Op) (s : σ) :
    Steps run s [⟨o, outcome (run o s)⟩] (finalState (run o s)) := .cons o (.nil _)

theorem Steps.of_error {o : Op} {s t : σ} {err : ε} (h : run o s = .error err t) :
    Steps run s [⟨o, .error err⟩] t := by
  have hsingle : Steps run s _ _ := .single o s
  rwa [h] at hsingle

/-- A first call that returned, and the calls after it. -/
theorem Steps.of_ok {o : Op} {s t u : σ} {ret : Ret} {records : List (CallRecord Op ε Ret)}
    (h : run o s = .ok ret t) (rest : Steps run t records u) :
    Steps run s (⟨o, .ok ret⟩ :: records) u := by
  have hcons : Steps run s (⟨o, outcome (run o s)⟩ :: records) u :=
    .cons o (by rw [h]; exact rest)
  rwa [h] at hcons

/-- **The induction rule for runs.** -/
theorem Steps.preserves {P : List (CallRecord Op ε Ret) → σ → Prop}
    (hop : ∀ log s o, P log s → P (log ++ [⟨o, outcome (run o s)⟩]) (finalState (run o s)))
    {s t : σ} {records : List (CallRecord Op ε Ret)} (h : Steps run s records t)
    {log : List (CallRecord Op ε Ret)} (hP : P log s) : P (log ++ records) t := by
  induction h generalizing log with
  | nil => simpa using hP
  | cons o _ ih => simpa using ih (hop _ _ o hP)

/-- The rule for a property of the state alone. -/
theorem Steps.preserves_state {P : σ → Prop} (hop : ∀ s o, P s → P (finalState (run o s)))
    {s t : σ} {records : List (CallRecord Op ε Ret)} (h : Steps run s records t) (hP : P s) :
    P t := by
  induction h with
  | nil => exact hP
  | cons o _ ih => exact ih (hop _ o hP)

/-- The rule for a property kept by the calls that were made. -/
theorem Steps.preserves_of_mem {P : σ → Prop} {s t : σ} {records : List (CallRecord Op ε Ret)}
    (h : Steps run s records t) (hop : ∀ s, ∀ r ∈ records, P s → P (finalState (run r.op s)))
    (hP : P s) : P t := by
  induction h with
  | nil => exact hP
  | cons o _ ih =>
    refine ih (fun s r hr => hop s r (List.mem_cons_of_mem _ hr)) ?_
    exact hop _ _ List.mem_cons_self hP

/-- The calls of `for o in ops: run(o)`. -/
def script (run : Op → EStateM ε σ Ret) : List Op → σ → List (CallRecord Op ε Ret)
  | [], _ => []
  | o :: rest, s =>
    match run o s with
    | .ok ret t => ⟨o, .ok ret⟩ :: script run rest t
    | .error err _ => [⟨o, .error err⟩]

theorem mem_of_mem_script {ops : List Op} {s : σ} {r : CallRecord Op ε Ret}
    (h : r ∈ script run ops s) : r.op ∈ ops := by
  induction ops generalizing s with
  | nil => cases h
  | cons o rest ih =>
    rw [script] at h
    split at h
    · rcases List.mem_cons.mp h with rfl | hrest
      · exact List.mem_cons_self
      · exact List.mem_cons_of_mem _ (ih hrest)
    · rw [List.mem_singleton.mp h]
      exact List.mem_cons_self

end Steps

end Ragcore
