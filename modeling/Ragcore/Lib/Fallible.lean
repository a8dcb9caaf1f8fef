import Mathlib

/-!
# Ragcore — rules for computations that may raise

`Except ε` carries the loaders and validators, `EStateM ε σ` the methods that change a state.
This module holds what is true of both whatever they compute:

* when a sequence, a loop or a comprehension succeeds (`bind_ok_iff`, `forM_ok_iff`,
  `mapM_ok_iff`);
* **`RaisesOnly P x`** — every exception `x` can end with satisfies `P`; closed under the same
  constructions, so an error taxonomy is checked one statement at a time;
* **`SameOutcome R`** — two programs over different values end alike;
* the run equations of `EStateM` at an explicit start state;
* **`Follows`** — a program ends as a function of values says, in a state that has only grown; one
  rule for each way programs are put together.
-/

namespace Ragcore

/-! ## Success of `Except` programs

A program that checks and then goes on returns exactly when each check passed and each part
returned. These lemmas take such a program apart from its result. -/

section Success

variable {ε α β γ : Type}

/-- Raise `err` unless the condition holds. -/
def ensure (condition : Bool) (err : ε) : Except ε Unit :=
  if condition then .ok () else .error err

/-- A check passes exactly when its condition holds. -/
@[simp] theorem ensure_ok_iff {condition : Bool} {err : ε} {u : Unit} :
    ensure condition err = .ok u ↔ condition = true := by
  cases condition <;> simp [ensure]

/-- The value, or `err` where there is none. -/
def require (value : Option α) (err : ε) : Except ε α :=
  match value with
  | some a => .ok a
  | none => .error err

@[simp] theorem require_ok_iff {value : Option α} {err : ε} {a : α} :
    require value err = .ok a ↔ value = some a := by
  cases value <;> simp [require]

/-- The first part returned, and the rest returned on its value. -/
theorem bind_ok_iff {x : Except ε α} {f : α → Except ε β} {b : β} :
    (x >>= f) = .ok b ↔ ∃ a, x = .ok a ∧ f a = .ok b := by
  cases x with
  | error err => simp [bind, Except.bind]
  | ok a => simp [bind, Except.bind]

theorem bind_isOk {x : Except ε α} {f : α → Except ε β} {a : α} (hx : x = .ok a)
    (hf : ∃ b, f a = .ok b) : ∃ b, (x >>= f) = .ok b := by
  subst hx
  exact hf

/-- A value that is fetched and then read, as one step. -/
theorem bind_bind_ok_iff {γ : Type} {x : Except ε α} {f : α → Except ε β} {g : β → Except ε γ}
    {c : γ} : (x >>= fun a => f a >>= g) = .ok c ↔ ∃ b, x >>= f = .ok b ∧ g b = .ok c := by
  rw [← bind_assoc]
  exact bind_ok_iff

/-- A loop of checks passes exactly when every check does. -/
theorem forM_ok_iff {xs : List α} {f : α → Except ε Unit} :
    forM xs f = .ok () ↔ ∀ x ∈ xs, f x = .ok () := by
  induction xs with
  | nil => simp [pure, Except.pure]
  | cons x xs ih =>
    rw [List.forM_cons, bind_ok_iff]
    constructor
    · rintro ⟨⟨⟩, hx, hrest⟩
      exact List.forall_mem_cons.mpr ⟨hx, ih.mp hrest⟩
    · intro h
      exact ⟨⟨⟩, h x (by simp), ih.mpr fun y hy => h y (by simp [hy])⟩

/-- A comprehension returns exactly when it does item by item. -/
theorem mapM_ok_iff {xs : List α} {f : α → Except ε β} {ys : List β} :
    xs.mapM f = .ok ys ↔ List.Forall₂ (fun x y => f x = .ok y) xs ys := by
  -- the list of results grows with the list of items
  induction xs generalizing ys with
  | nil => cases ys <;> simp [pure, Except.pure]
  | cons x xs ih =>
    rw [List.mapM_cons, bind_ok_iff]
    constructor
    · rintro ⟨y, hy, hrest⟩
      obtain ⟨zs, hzs, hys⟩ := bind_ok_iff.mp hrest
      cases hys
      exact .cons hy (ih.mp hzs)
    · rintro (_ | ⟨hy, hrest⟩)
      exact ⟨_, hy, bind_ok_iff.mpr ⟨_, ih.mpr hrest, rfl⟩⟩

theorem exists_of_forall₂_left {R : α → β → Prop} {xs : List α} {ys : List β}
    (h : List.Forall₂ R xs ys) {x : α} (hx : x ∈ xs) : ∃ y ∈ ys, R x y := by
  induction h with
  | nil => simp at hx
  | cons hr _ ih =>
    rcases List.mem_cons.mp hx with rfl | hx
    · exact ⟨_, by simp, hr⟩
    · obtain ⟨y, hy, hxy⟩ := ih hx
      exact ⟨y, by simp [hy], hxy⟩

theorem exists_of_forall₂_right {R : α → β → Prop} {xs : List α} {ys : List β}
    (h : List.Forall₂ R xs ys) {y : β} (hy : y ∈ ys) : ∃ x ∈ xs, R x y :=
  exists_of_forall₂_left h.flip hy

/-- Two relations that agree on the items relate the same lists. -/
theorem forall₂_congr_of_mem {R S : α → β → Prop} {xs : List α} {ys : List β}
    (h : ∀ x ∈ xs, ∀ y, R x y ↔ S x y) : List.Forall₂ R xs ys ↔ List.Forall₂ S xs ys := by
  induction xs generalizing ys with
  | nil => simp
  | cons x xs ih =>
    cases ys with
    | nil => simp
    | cons y ys =>
      rw [List.forall₂_cons, List.forall₂_cons, h x (by simp) y,
        ih fun z hz => h z (by simp [hz])]

theorem forall₂_imp_of_mem {R S : α → β → Prop} {xs : List α} {ys : List β}
    (h : List.Forall₂ R xs ys) (himp : ∀ x ∈ xs, ∀ y, R x y → S x y) : List.Forall₂ S xs ys := by
  induction h with
  | nil => exact .nil
  | cons hr _ ih =>
    exact .cons (himp _ (by simp) _ hr) (ih fun x hx => himp x (by simp [hx]))

/-- Related lists have related filters. -/
theorem map_filter_of_forall₂ {R : α → β → Prop} {xs : List α} {ys : List β} {p : α → Bool}
    {q : β → Bool} {f : α → γ} {g : β → γ} (h : List.Forall₂ R xs ys)
    (hfilter : ∀ x y, R x y → p x = q y) (hmap : ∀ x y, R x y → f x = g y) :
    (xs.filter p).map f = (ys.filter q).map g := by
  induction h with
  | nil => rfl
  | @cons x y _ _ hr _ ih =>
    rw [List.filter_cons, List.filter_cons, hfilter x y hr]
    cases q y with
    | true => simp [hmap x y hr, ih]
    | false => simpa using ih

/-- A comprehension whose body never raises is a `map`. -/
theorem mapM_eq_ok_map {xs : List α} {f : α → Except ε β} {g : α → β}
    (h : ∀ x ∈ xs, f x = .ok (g x)) : xs.mapM f = .ok (xs.map g) := by
  rw [mapM_ok_iff, List.forall₂_map_right_iff, List.forall₂_same]
  exact h

/-- A comprehension only sees its items. -/
theorem mapM_congr_of_mem {xs : List α} {f g : α → Except ε β} (h : ∀ x ∈ xs, f x = g x) :
    xs.mapM f = xs.mapM g := by
  induction xs with
  | nil => rfl
  | cons x rest ih =>
    rw [List.mapM_cons, List.mapM_cons, h x List.mem_cons_self,
      ih fun y hy => h y (List.mem_cons_of_mem _ hy)]

theorem mapM_isOk {xs : List α} {f : α → Except ε β} (h : ∀ x ∈ xs, ∃ y, f x = .ok y) :
    ∃ ys, xs.mapM f = .ok ys := by
  induction xs with
  | nil => exact ⟨[], rfl⟩
  | cons x xs ih =>
    obtain ⟨y, hy⟩ := h x (by simp)
    obtain ⟨ys, hys⟩ := ih fun z hz => h z (by simp [hz])
    exact ⟨y :: ys, by rw [List.mapM_cons, hy]; simp [bind, Except.bind, hys, pure, Except.pure]⟩

end Success

/-! ## Error taxonomies

`RaisesOnly P x`: an exception of `x` satisfies `P`. The rules follow the structure of a program.
-/

section Taxonomy

variable {ε α β : Type} {P : ε → Prop}

/-- Every exception `x` ends with satisfies `P`. -/
def RaisesOnly (P : ε → Prop) (x : Except ε α) : Prop := ∀ err, x = .error err → P err

theorem RaisesOnly.ok (a : α) : RaisesOnly P (.ok a : Except ε α) := by
  intro err h
  cases h

theorem RaisesOnly.pure (a : α) : RaisesOnly P (Pure.pure a : Except ε α) := .ok a

theorem RaisesOnly.error {err : ε} (h : P err) : RaisesOnly P (.error err : Except ε α) := by
  intro err' h'
  cases h'
  exact h

theorem RaisesOnly.ensure {condition : Bool} {err : ε} (h : P err) :
    RaisesOnly P (Ragcore.ensure condition err) := by
  cases condition with
  | true => exact .ok ()
  | false => exact .error h

theorem RaisesOnly.require {value : Option α} {err : ε} (h : P err) :
    RaisesOnly P (Ragcore.require value err) := by
  cases value with
  | some a => exact .ok a
  | none => exact .error h

/-- The rest only runs after the first part returned. -/
theorem RaisesOnly.bind {x : Except ε α} {f : α → Except ε β} (hx : RaisesOnly P x)
    (hf : ∀ a, x = .ok a → RaisesOnly P (f a)) : RaisesOnly P (x >>= f) := by
  cases x with
  | error err =>
    intro err' h
    cases h
    exact hx err rfl
  | ok a => exact hf a rfl

/-- Behind a computation that raises nothing else, only what follows can. -/
theorem RaisesOnly.bind_iff {x : Except ε α} {f : α → Except ε β} (hx : RaisesOnly P x) :
    RaisesOnly P (x >>= f) ↔ ∀ a, x = .ok a → RaisesOnly P (f a) := by
  constructor
  · rintro h a rfl
    exact h
  · exact hx.bind

/-- A pure continuation raises nothing of its own. -/
theorem RaisesOnly.bind_pure_iff {x : Except ε α} {f : α → β} :
    RaisesOnly P (x >>= fun a => Pure.pure (f a)) ↔ RaisesOnly P x := by
  constructor
  · rintro h err rfl
    exact h err rfl
  · intro hx
    exact hx.bind fun a _ => .pure (f a)

/-- A loop raises what one of its rounds raises. -/
theorem RaisesOnly.forM {xs : List α} {f : α → Except ε Unit}
    (h : ∀ x ∈ xs, RaisesOnly P (f x)) : RaisesOnly P (forM xs f) := by
  induction xs with
  | nil => exact .ok _
  | cons x xs ih =>
    rw [List.forM_cons]
    exact .bind (h x (by simp)) fun _ _ => ih fun y hy => h y (by simp [hy])

theorem RaisesOnly.mapM {xs : List α} {f : α → Except ε β}
    (h : ∀ x ∈ xs, RaisesOnly P (f x)) : RaisesOnly P (xs.mapM f) := by
  induction xs with
  | nil => exact .ok _
  | cons x xs ih =>
    rw [List.mapM_cons]
    refine .bind (h x (by simp)) fun y _ => ?_
    exact .bind (ih fun z hz => h z (by simp [hz])) fun ys _ => .pure _

theorem RaisesOnly.mono {Q : ε → Prop} {x : Except ε α} (h : RaisesOnly P x)
    (hPQ : ∀ err, P err → Q err) : RaisesOnly Q x := fun err herr => hPQ err (h err herr)

end Taxonomy

/-! ## Computations that end alike

Both return related values, or both raise the same exception. -/

/-- Related values, or one exception. -/
inductive SameOutcome {ε α β : Type} (R : α → β → Prop) : Except ε α → Except ε β → Prop where
  | ok {a : α} {b : β} (related : R a b) : SameOutcome R (.ok a) (.ok b)
  | error (err : ε) : SameOutcome R (.error err) (.error err)

theorem SameOutcome.same {ε α : Type} (x : Except ε α) : SameOutcome (· = ·) x x := by
  cases x with
  | ok a => exact .ok rfl
  | error err => exact .error err

/-- Alike at first and alike on related values is alike in all. -/
theorem SameOutcome.bind {ε α β γ δ : Type} {R : α → β → Prop} {S : γ → δ → Prop}
    {x : Except ε α} {y : Except ε β} {f : α → Except ε γ} {g : β → Except ε δ}
    (first : SameOutcome R x y) (next : ∀ a b, R a b → SameOutcome S (f a) (g b)) :
    SameOutcome S (x >>= f) (y >>= g) := by
  cases first with
  | ok related => exact next _ _ related
  | error err => exact .error err

/-- What is forgotten about the exceptions of a sequence is forgotten step by step. -/
theorem mapError_bind {ε ε' α β : Type} (kind : ε → ε') (x : Except ε α) (f : α → Except ε β) :
    (x >>= f).mapError kind = x.mapError kind >>= fun a => (f a).mapError kind := by
  cases x <;> rfl

/-! ## Running `EStateM` programs

The state after each primitive of a program, so that a run can be followed step by step. -/

section Running

variable {ε σ α β : Type}

/-- Run a read-only computation: a raise leaves the state as it is. -/
def readState (f : σ → Except ε α) : EStateM ε σ α := fun s =>
  match f s with
  | .ok a => .ok a s
  | .error err => .error err s

theorem run_get_bind (f : σ → EStateM ε σ β) (s : σ) : (get >>= f) s = f s s := rfl

theorem run_modify_bind (g : σ → σ) (f : PUnit → EStateM ε σ β) (s : σ) :
    (modify g >>= f) s = f ⟨⟩ (g s) := rfl

theorem run_readState_bind (r : σ → Except ε α) (f : α → EStateM ε σ β) (s : σ) :
    (readState r >>= f) s =
      match r s with
      | .ok a => f a s
      | .error err => .error err s := by
  simp only [bind, EStateM.bind, readState]
  cases r s <;> rfl

/-- A read that returns leaves the state. -/
theorem run_readState_ok {r : σ → Except ε α} {s : σ} {a : α} (h : r s = .ok a) :
    readState r s = .ok a s := by
  unfold readState
  rw [h]

/-- The rest runs in the state the first part left, unless that raised. -/
theorem run_bind (x : EStateM ε σ α) (f : α → EStateM ε σ β) (s : σ) :
    (x >>= f) s =
      match x s with
      | .ok a s' => f a s'
      | .error err s' => .error err s' := by
  simp only [bind, EStateM.bind]
  cases x s <;> rfl

/-- The run from `s` does not raise. -/
def Returns (x : EStateM ε σ α) (s : σ) : Prop := ∃ a t, x s = .ok a t

theorem Returns.pure (a : α) (s : σ) : Returns (Pure.pure a : EStateM ε σ α) s := ⟨a, s, rfl⟩

theorem Returns.get_bind {f : σ → EStateM ε σ β} {s : σ} (h : Returns (f s) s) :
    Returns (get >>= f) s := h

/-- A read that returns can be passed over. -/
theorem Returns.readState_bind {r : σ → Except ε α} {f : α → EStateM ε σ β} {s : σ} {a : α}
    (hr : r s = .ok a) (h : Returns (f a) s) : Returns (readState r >>= f) s := by
  obtain ⟨b, t, hb⟩ := h
  exact ⟨b, t, by rw [run_readState_bind, hr]; exact hb⟩

/-- A branch returns where its condition selects it. -/
theorem Returns.ite {c : Prop} [Decidable c] {x y : EStateM ε σ α} {s : σ}
    (hx : c → Returns x s) (hy : ¬ c → Returns y s) : Returns (if c then x else y) s := by
  split
  · exact hx ‹_›
  · exact hy ‹_›

/-- The state a run ends in, raised or not. -/
def finalState : EStateM.Result ε σ α → σ
  | .ok _ s => s
  | .error _ s => s

@[simp] theorem finalState_ok (a : α) (s : σ) :
    finalState (.ok a s : EStateM.Result ε σ α) = s := rfl

@[simp] theorem finalState_error (err : ε) (s : σ) :
    finalState (.error err s : EStateM.Result ε σ α) = s := rfl

/-- A result may be renamed, the state stays. -/
theorem run_map (f : α → β) (x : EStateM ε σ α) (s : σ) :
    (f <$> x) s =
      match x s with
      | .ok a s' => .ok (f a) s'
      | .error err s' => .error err s' := by
  simp only [Functor.map, EStateM.map]
  cases x s <;> rfl

/-- What is made of a read is a read. -/
theorem run_map_readState (f : α → β) (r : σ → Except ε α) (s : σ) :
    (f <$> readState r) s = readState (fun s => f <$> r s) s := by
  simp only [run_map, readState]
  cases r s <;> rfl

theorem finalState_map (f : α → β) (x : EStateM ε σ α) (s : σ) :
    finalState ((f <$> x) s) = finalState (x s) := by
  rw [run_map]
  cases x s <;> rfl

end Running

/-! ## Programs that mirror functions

A program changes a state, a function of values does not. The program mirrors the function if it
ends with a related value, or with the same exception, in a state that has only grown. -/

section Following

variable {ε σ α β γ δ : Type} {Grown : σ → σ → Prop} {start s : σ} {post : α → β → σ → Prop}
  {after : γ → δ → σ → Prop} {x : EStateM ε σ α} {y : Except ε β}

/-- From `s`, the program ends as `y` says, with `post` for the values, in a state that has grown
from `start`. -/
def Follows (Grown : σ → σ → Prop) (start s : σ) (post : α → β → σ → Prop) (x : EStateM ε σ α)
    (y : Except ε β) : Prop :=
  match x s with
  | .ok a s' => Grown start s' ∧ ∃ b, y = .ok b ∧ post a b s'
  | .error err s' => Grown start s' ∧ y = .error err

namespace Follows

theorem pure {a : α} {b : β} (grown : Grown start s) (related : post a b s) :
    Follows Grown start s post (Pure.pure a : EStateM ε σ α) (Pure.pure b) :=
  ⟨grown, b, rfl, related⟩

/-- The same exception on both sides, wherever the state is by then. -/
theorem error (grown : Grown start s) (err : ε) :
    Follows Grown start s post (throw err) (.error err) := ⟨grown, rfl⟩

/-- The rest follows from a state that has grown, with related values. -/
theorem bind {f : α → EStateM ε σ γ} {g : β → Except ε δ} (first : Follows Grown start s post x y)
    (next : ∀ a b s', Grown start s' → post a b s' → Follows Grown start s' after (f a) (g b)) :
    Follows Grown start s after (x >>= f) (y >>= g) := by
  unfold Follows at first ⊢
  rw [run_bind]
  -- the first part returned or raised on both sides
  cases run : x s with
  | ok a s' =>
    rw [run] at first
    obtain ⟨grown, b, rfl, related⟩ := first
    exact next a b s' grown related
  | error err s' =>
    rw [run] at first
    obtain ⟨grown, rfl⟩ := first
    exact ⟨grown, rfl⟩

/-- A computation that only reads. -/
theorem read {f : σ → Except ε α} {R : α → β → Prop} (grown : Grown start s)
    (same : SameOutcome R (f s) y) :
    Follows Grown start s (fun a b s' => s' = s ∧ R a b) (readState f) y := by
  unfold Follows readState
  generalize f s = outcome at same ⊢
  cases same with
  | ok related => exact ⟨grown, _, rfl, rfl, related⟩
  | error err => exact ⟨grown, rfl⟩

/-- A computation that only reads, and what follows it. -/
theorem read_bind {f : σ → Except ε α} {R : α → β → Prop} {next : α → EStateM ε σ γ}
    {next' : β → Except ε δ} (grown : Grown start s) (same : SameOutcome R (f s) y)
    (rest : ∀ a b, R a b → Follows Grown start s after (next a) (next' b)) :
    Follows Grown start s after (readState f >>= next) (y >>= next') := by
  refine .bind (.read grown same) fun a b s' _ found => ?_
  obtain ⟨rfl, related⟩ := found
  exact rest a b related

theorem get_bind {f : σ → EStateM ε σ γ} {z : Except ε δ}
    (next : Follows Grown start s after (f s) z) :
    Follows Grown start s after (get >>= f) z := next

/-- A program that ends in a known state, for a function that has its value. -/
theorem ret {a : α} {b : β} {s' : σ} (run : x s = .ok a s') (grown : Grown start s')
    (related : post a b s') : Follows Grown start s post x (Pure.pure b) := by
  unfold Follows
  rw [run]
  exact ⟨grown, b, rfl, related⟩

/-- A program step the function does not take. -/
theorem step {f : α → EStateM ε σ γ} {z : Except ε δ} {a : α} {s' : σ} (run : x s = .ok a s')
    (next : Follows Grown start s' after (f a) z) : Follows Grown start s after (x >>= f) z := by
  unfold Follows at next ⊢
  rw [run_bind, run]
  exact next

/-- For a function that has a value, the program returns. -/
theorem returns {b : β} (follows : Follows Grown start s post x (.ok b)) :
    ∃ a s', x s = .ok a s' ∧ Grown start s' ∧ post a b s' := by
  unfold Follows at follows
  cases run : x s with
  | ok a s' =>
    rw [run] at follows
    obtain ⟨grown, _, same, related⟩ := follows
    cases same
    exact ⟨a, s', rfl, grown, related⟩
  | error err s' =>
    rw [run] at follows
    cases follows.2

/-- What the results satisfy may be weakened. -/
theorem imp {post' : α → β → σ → Prop} (first : Follows Grown start s post x y)
    (weaker : ∀ a b s', post a b s' → post' a b s') : Follows Grown start s post' x y := by
  unfold Follows at first ⊢
  cases run : x s with
  | ok a s' =>
    rw [run] at first
    obtain ⟨grown, b, same, related⟩ := first
    exact ⟨grown, b, same, weaker a b s' related⟩
  | error err s' =>
    rw [run] at first
    exact first

/-- A call of a program that leaves the caller's part of the state alone. -/
theorem call (trans : ∀ {a b c}, Grown a b → Grown b c → Grown a c) (grown : Grown start s)
    (callee : Follows Grown s s post x y) :
    Follows Grown start s (fun a b s' => Grown s s' ∧ post a b s') x y := by
  unfold Follows at callee ⊢
  cases run : x s with
  | ok a s' =>
    rw [run] at callee
    obtain ⟨kept, b, rfl, related⟩ := callee
    exact ⟨trans grown kept, b, rfl, kept, related⟩
  | error err s' =>
    rw [run] at callee
    obtain ⟨kept, rfl⟩ := callee
    exact ⟨trans grown kept, rfl⟩

/-- A loop over related lists, each turn from a state that has grown from the one before the
loop. What a turn returns stays related while the state grows. -/
theorem mapM (refl : ∀ a, Grown a a) (trans : ∀ {a b c}, Grown a b → Grown b c → Grown a c)
    {P : α → β → Prop} {Q : γ → δ → σ → Prop}
    (mono : ∀ {c d s s'}, Grown s s' → Q c d s → Q c d s') {xs : List α} {ys : List β}
    {f : α → EStateM ε σ γ} {g : β → Except ε δ} (related : List.Forall₂ P xs ys)
    (turn : ∀ a b, P a b → ∀ s', Grown s s' → Follows Grown s' s' Q (f a) (g b)) :
    Follows Grown s s (fun cs ds s' => List.Forall₂ (fun c d => Q c d s') cs ds) (xs.mapM f)
      (ys.mapM g) := by
  have loop : ∀ s', Grown s s' →
      Follows Grown s' s' (fun cs ds s' => List.Forall₂ (fun c d => Q c d s') cs ds) (xs.mapM f)
        (ys.mapM g) := by
    induction related with
    | nil => exact fun s' _ => .pure (refl s') .nil
    | @cons a b xs ys head _ ih =>
      intro s' grown
      rw [List.mapM_cons, List.mapM_cons]
      refine .bind (.call trans (refl s') (turn a b head s' grown)) fun c d s₁ grown₁ first => ?_
      refine .bind (.call trans grown₁ (ih s₁ (trans grown grown₁))) fun cs ds s₂ grown₂ rest => ?_
      -- the first result has outlasted the rest of the loop
      exact .pure grown₂ (.cons (mono rest.1 first.2) rest.2)
  exact loop s (refl s)

end Follows

end Following

end Ragcore
