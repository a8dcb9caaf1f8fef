import Mathlib

/-!
# Ragcore — deciding on a state and acting on it later

A party notes the version of a shared state, lets others work on the state, and acts only if the
version is still the one it noted. Nothing is locked in between.

* **`Versioned`** — a state whose version comes back only with the state itself.
* **`Commit`** — an act, with the state it was decided on and the states before and after it.
* **`Serial`** — the acts so far, in order, none of them on a state other than its own; kept by
  whatever the others do (`Serial.later`) and by an act that passed its check (`Serial.act`).
* **`Serial.distinct`** — of the acts decided on one version at most the last changed anything.
-/

namespace Ragcore

/-- `Later s t`: what happens to a state `s` can lead to `t`. -/
structure Versioned (σ ν : Type) where
  version : σ → ν
  Later : σ → σ → Prop
  stays {s t : σ} : Later s t → Later t t
  trans {s t u : σ} : Later s t → Later t u → Later s u
  antisymm {s t : σ} : Later s t → Later t s → t = s
  exact {s t : σ} : Later s t → version t = version s → t = s

structure Commit (σ : Type) where
  decided : σ
  before : σ
  after : σ

/-- The act changed the state. -/
def Commit.Effective {σ : Type} (c : Commit σ) : Prop := c.after ≠ c.before

variable {σ ν : Type}

structure Serial (V : Versioned σ ν) (log : List (Commit σ)) (current : σ) : Prop where
  decided : ∀ c ∈ log, c.before = c.decided
  acted : ∀ c ∈ log, V.Later c.before c.after
  reached : ∀ c ∈ log, V.Later c.after current
  ordered : log.Pairwise fun c d => V.Later c.after d.before

namespace Serial

variable {V : Versioned σ ν} {log : List (Commit σ)} {current next : σ}

theorem nil (current : σ) : Serial V [] current :=
  ⟨by simp, by simp, by simp, .nil⟩

/-- What the others do leaves the acts so far as they are. -/
theorem later (h : Serial V log current) (hlater : V.Later current next) : Serial V log next :=
  ⟨h.decided, h.acted, fun c hc => V.trans (h.reached c hc) hlater, h.ordered⟩

/-- **An act behind its check.** The version read before the act is the one noted, so the act is
made on the state it was decided on. -/
theorem act (h : Serial V log current) {decided : σ} (hwaited : V.Later decided current)
    (hversion : V.version current = V.version decided) (hacted : V.Later current next) :
    Serial V (log ++ [⟨decided, current, next⟩]) next := by
  have hsame : current = decided := V.exact hwaited hversion
  -- the log grows at its end, behind everything that was acted before
  refine ⟨?_, ?_, ?_, ?_⟩
  · intro c hc
    rcases List.mem_append.mp hc with hold | hnew
    · exact h.decided c hold
    · rw [List.mem_singleton.mp hnew]
      exact hsame
  · intro c hc
    rcases List.mem_append.mp hc with hold | hnew
    · exact h.acted c hold
    · rw [List.mem_singleton.mp hnew]
      exact hacted
  · intro c hc
    rcases List.mem_append.mp hc with hold | hnew
    · exact V.trans (h.reached c hold) hacted
    · rw [List.mem_singleton.mp hnew]
      exact V.stays hacted
  · rw [List.pairwise_append]
    refine ⟨h.ordered, List.pairwise_singleton _ _, fun c hc d hd => ?_⟩
    rw [List.mem_singleton.mp hd]
    exact h.reached c hc

/-- **No decision takes effect twice.** An act that changed the state leaves a version that no
later act was decided on. -/
theorem distinct (h : Serial V log current) :
    log.Pairwise fun c d => c.Effective → V.version d.decided ≠ V.version c.decided := by
  refine h.ordered.imp_of_mem fun {c d} hc hd hordered heffective hversion => heffective ?_
  rw [← h.decided c hc, ← h.decided d hd] at hversion
  -- between the two acts the state went away from `c.before` and is back
  have hback : d.before = c.before := V.exact (V.trans (h.acted c hc) hordered) hversion
  exact V.antisymm (h.acted c hc) (hback ▸ hordered)

end Serial

end Ragcore
