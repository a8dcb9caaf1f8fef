import Ragcore.Lib.Simulation

/-!
# Ragcore — what an observer sees of the others

A component serves the requests of many clients, one after another. To one observer a request bears
on what it watches or it does not, which may depend on the state.

* **`purge`** — the requests of a run that bear on it; **`heard`** — the responses to these.
* **`Unwinding`** — what a single request must satisfy, against a relation between the states the
  observer cannot tell apart.
* **`Unwinding.heard_eq`** — the rule for runs: two runs with the same purge are heard alike.
-/

namespace Ragcore

section Interference

variable {Req Resp ε σ : Type}

def purge (run : Req → EStateM ε σ Resp) (bears : σ → Req → Bool) : List Req → σ → List Req
  | [], _ => []
  | r :: rest, s =>
    if bears s r then r :: purge run bears rest (finalState (run r s))
    else purge run bears rest (finalState (run r s))

def heard (run : Req → EStateM ε σ Resp) (bears : σ → Req → Bool) :
    List Req → σ → List (Except ε Resp)
  | [], _ => []
  | r :: rest, s =>
    if bears s r then outcome (run r s) :: heard run bears rest (finalState (run r s))
    else heard run bears rest (finalState (run r s))

/-- `Inv` holds of the states of a run, and `Same` of two states the observer cannot tell apart. -/
structure Unwinding (run : Req → EStateM ε σ Resp) (bears : σ → Req → Bool)
    (Inv : σ → Prop) (Same : σ → σ → Prop) : Prop where
  keeps : ∀ {s} r, Inv s → Inv (finalState (run r s))
  refl : ∀ s, Same s s
  judged : ∀ {s t}, Same s t → ∀ r, bears s r = bears t r
  /-- A request that does not bear on it changes nothing the observer can tell. -/
  apart : ∀ {s t r}, Inv s → Same s t → bears s r = false → Same (finalState (run r s)) t
  /-- Any other does the same in states the observer cannot tell apart. -/
  agree : ∀ {s t r}, Inv s → Inv t → Same s t → bears s r = true → Agree Same (run r s) (run r t)

namespace Unwinding

variable {run : Req → EStateM ε σ Resp} {bears : σ → Req → Bool} {Inv : σ → Prop}
  {Same : σ → σ → Prop}

/-- A run is heard as the run of its purge, from any state that looks the same. -/
theorem heard_purge (h : Unwinding run bears Inv Same) (requests : List Req) {s t : σ}
    (hs : Inv s) (ht : Inv t) (hsame : Same s t) :
    heard run bears requests s = heard run bears (purge run bears requests s) t := by
  induction requests generalizing s t with
  | nil => rfl
  | cons r rest ih =>
    have hs' := h.keeps r hs
    cases hr : bears s r with
    | false =>
      -- the request is dropped, and the state it leaves still looks like `t`
      have happart := h.apart hs hsame hr
      rw [heard, purge, hr]
      simp only [Bool.false_eq_true, if_false]
      exact ih hs' ht happart
    | true =>
      have hrt : bears t r = true := (h.judged hsame r).symm.trans hr
      have hagree := h.agree hs ht hsame hr
      rw [heard, purge, hr]
      simp only [if_true]
      rw [heard, hrt, if_pos rfl, hagree.outcomes]
      congr 1
      exact ih hs' (h.keeps r ht) hagree.states

/-- **The rule for runs.** Two runs from one state with the same purge are heard alike. -/
theorem heard_eq (h : Unwinding run bears Inv Same) {s : σ} (hs : Inv s)
    {requests requests' : List Req}
    (hpurge : purge run bears requests s = purge run bears requests' s) :
    heard run bears requests s = heard run bears requests' s := by
  calc heard run bears requests s
      = heard run bears (purge run bears requests s) s := h.heard_purge requests hs hs (h.refl s)
    _ = heard run bears (purge run bears requests' s) s := by rw [hpurge]
    _ = heard run bears requests' s := (h.heard_purge requests' hs hs (h.refl s)).symm

end Unwinding

end Interference

end Ragcore
