import Mathlib

/-!
# Ragcore — insertion-ordered dictionaries

`Dict κ ν` is a finite map that remembers the order in which its keys first arrived, the way
a Python `dict` does: writing to a present key keeps its place, writing to a fresh key appends
it. The field `nodup` rules out a key bound twice, so a lookup never depends on which of two
entries is read.

* **`Dict.Equiv`** — equality of dictionaries as maps (`==` on Python dicts ignores order).
* **`Dict.sortedBy`** — the entries in ascending key order, the normal form of `Equiv`
  (`sortedBy_congr`).
* **`Dict.ofList`** — the dict comprehension; over distinct keys it is the list itself
  (`ofList_entries`).
-/

namespace Ragcore

structure Dict (κ ν : Type) where
  entries : List (κ × ν)
  nodup : (entries.map Prod.fst).Nodup

namespace Dict

variable {κ ν ω : Type}

@[ext]
theorem ext {d d' : Dict κ ν} (h : d.entries = d'.entries) : d = d' := by
  cases d; cases d'; simp_all

/-- `{}`. -/
def empty : Dict κ ν := ⟨[], by simp⟩

instance : EmptyCollection (Dict κ ν) := ⟨empty⟩

instance : Inhabited (Dict κ ν) := ⟨∅⟩

/-- `d.keys()`, in insertion order. -/
def keys (d : Dict κ ν) : List κ := d.entries.map Prod.fst

/-- `d.values()`, in insertion order. -/
def values (d : Dict κ ν) : List ν := d.entries.map Prod.snd

@[simp] theorem entries_empty : (∅ : Dict κ ν).entries = [] := rfl
@[simp] theorem keys_empty : (∅ : Dict κ ν).keys = [] := rfl
@[simp] theorem values_empty : (∅ : Dict κ ν).values = [] := rfl

theorem keys_nodup (d : Dict κ ν) : d.keys.Nodup := d.nodup

section Lookup

variable [DecidableEq κ]

/-- `d.get(k)`, with `none` where Python raises `KeyError` or returns `None`. -/
def get? (d : Dict κ ν) (k : κ) : Option ν := d.entries.lookup k

/-- `k in d`. -/
def contains (d : Dict κ ν) (k : κ) : Bool := (d.get? k).isSome

/-- `d.get(k, default)`. -/
def getD (d : Dict κ ν) (k : κ) (default : ν) : ν := (d.get? k).getD default

/-- Overwrite the entry under `k` where it stands, or append it. -/
def insertEntry (k : κ) (v : ν) : List (κ × ν) → List (κ × ν)
  | [] => [(k, v)]
  | (k', v') :: rest => if k' = k then (k, v) :: rest else (k', v') :: insertEntry k v rest

/-- The lookup of a list, with the test that decides on its head. -/
theorem lookup_cons_if (k k' : κ) (v : ν) (l : List (κ × ν)) :
    ((k', v) :: l).lookup k = if k' = k then some v else l.lookup k := by
  by_cases h : k' = k
  · simp [h]
  · have hb : (k == k') = false := by simpa using Ne.symm h
    simp [List.lookup_cons, h, hb]

theorem mem_of_lookup {l : List (κ × ν)} {k : κ} {v : ν} (h : l.lookup k = some v) :
    (k, v) ∈ l := by
  obtain ⟨l₁, l₂, rfl, -⟩ := List.lookup_eq_some_iff.mp h
  simp

/-- A lookup misses exactly the keys that are not there. -/
theorem lookup_eq_none {l : List (κ × ν)} {k : κ} :
    l.lookup k = none ↔ k ∉ l.map Prod.fst := by
  rw [List.lookup_eq_none_iff, List.mem_map]
  constructor
  · rintro h ⟨p, hp, rfl⟩
    simpa using h p hp
  · intro h p hp
    by_contra hk
    exact h ⟨p, hp, by simpa using (Eq.symm (by simpa using hk) : p.1 = k)⟩

/-- Where no key is bound twice, every entry is the one its key finds. -/
theorem lookup_of_mem {l : List (κ × ν)} (hnd : (l.map Prod.fst).Nodup) {k : κ} {v : ν}
    (h : (k, v) ∈ l) : l.lookup k = some v := by
  induction l with
  | nil => simp at h
  | cons p rest ih =>
    obtain ⟨k', v'⟩ := p
    simp only [List.map_cons, List.nodup_cons] at hnd
    rw [lookup_cons_if]
    -- at the head, or behind a head with another key
    rcases List.mem_cons.mp h with heq | hrest
    · cases heq
      simp
    · have hne : k' ≠ k := by
        intro hk
        exact hnd.1 (hk ▸ List.mem_map_of_mem (f := Prod.fst) hrest)
      simp [hne, ih hnd.2 hrest]

/-- Overwriting keeps the key at its place. -/
theorem insertEntry_keys_of_mem {l : List (κ × ν)} {k : κ} (v : ν) (h : k ∈ l.map Prod.fst) :
    (insertEntry k v l).map Prod.fst = l.map Prod.fst := by
  induction l with
  | nil => simp at h
  | cons p rest ih =>
    obtain ⟨k', v'⟩ := p
    by_cases hk : k' = k
    · simp [insertEntry, hk]
    · have hrest : k ∈ rest.map Prod.fst := by simpa [Ne.symm hk] using h
      simp [insertEntry, hk, ih hrest]

theorem insertEntry_of_notMem {l : List (κ × ν)} {k : κ} (v : ν) (h : k ∉ l.map Prod.fst) :
    insertEntry k v l = l ++ [(k, v)] := by
  induction l with
  | nil => rfl
  | cons p rest ih =>
    obtain ⟨k', v'⟩ := p
    simp only [List.map_cons, List.mem_cons, not_or] at h
    simp [insertEntry, Ne.symm h.1, ih h.2]

theorem insertEntry_nodup {l : List (κ × ν)} (k : κ) (v : ν) (h : (l.map Prod.fst).Nodup) :
    ((insertEntry k v l).map Prod.fst).Nodup := by
  by_cases hk : k ∈ l.map Prod.fst
  · rw [insertEntry_keys_of_mem v hk]
    exact h
  · rw [insertEntry_of_notMem v hk, List.map_append]
    refine List.nodup_append.mpr ⟨h, by simp, ?_⟩
    intro a ha b hb hab
    have hbk : b = k := by simpa using hb
    exact hk (hbk ▸ hab ▸ ha)

/-- Only the key that is written reads differently. -/
theorem lookup_insertEntry (l : List (κ × ν)) (k k' : κ) (v : ν) :
    (insertEntry k v l).lookup k' = if k = k' then some v else l.lookup k' := by
  induction l with
  | nil => rw [insertEntry, lookup_cons_if]
  | cons p rest ih =>
    obtain ⟨k₀, v₀⟩ := p
    -- the entry that is written over, or one before it
    by_cases h₀ : k₀ = k
    · rw [insertEntry, if_pos h₀, lookup_cons_if, lookup_cons_if, h₀]
      split <;> rfl
    · rw [insertEntry, if_neg h₀, lookup_cons_if, lookup_cons_if, ih]
      by_cases hk : k = k'
      · have hne : k₀ ≠ k' := hk ▸ h₀
        simp [hne, hk]
      · simp [hk]

/-- `d[k] = v`. -/
def insert (d : Dict κ ν) (k : κ) (v : ν) : Dict κ ν :=
  ⟨insertEntry k v d.entries, insertEntry_nodup k v d.nodup⟩

@[simp] theorem get?_empty (k : κ) : (∅ : Dict κ ν).get? k = none := rfl

theorem get?_insert (d : Dict κ ν) (k k' : κ) (v : ν) :
    (d.insert k v).get? k' = if k = k' then some v else d.get? k' :=
  lookup_insertEntry d.entries k k' v

@[simp] theorem get?_insert_self (d : Dict κ ν) (k : κ) (v : ν) :
    (d.insert k v).get? k = some v := by
  simp [get?_insert]

@[simp] theorem get?_insert_of_ne (d : Dict κ ν) {k k' : κ} (v : ν) (h : k ≠ k') :
    (d.insert k v).get? k' = d.get? k' := by
  simp [get?_insert, h]

/-- A property of every entry, checked for the one inserted. -/
theorem forall_insert {P : κ → ν → Prop} {d : Dict κ ν} (h : ∀ {k v}, d.get? k = some v → P k v)
    {n : κ} {a : ν} (ha : P n a) {k : κ} {v : ν} (hv : (d.insert n a).get? k = some v) :
    P k v := by
  rw [get?_insert] at hv
  split at hv
  · cases hv
    subst n
    exact ha
  · exact h hv

/-- An entry is there exactly when its key finds it. -/
theorem mem_entries_iff {d : Dict κ ν} {k : κ} {v : ν} :
    (k, v) ∈ d.entries ↔ d.get? k = some v :=
  ⟨lookup_of_mem d.nodup, mem_of_lookup⟩

theorem mem_keys_iff {d : Dict κ ν} {k : κ} : k ∈ d.keys ↔ d.contains k = true := by
  rw [contains, Option.isSome_iff_ne_none, ne_eq, get?, lookup_eq_none]
  simp [keys]

theorem contains_iff {d : Dict κ ν} {k : κ} : d.contains k = true ↔ ∃ v, d.get? k = some v := by
  rw [contains, Option.isSome_iff_exists]

theorem contains_of_get? {d : Dict κ ν} {k : κ} {v : ν} (h : d.get? k = some v) :
    d.contains k = true := contains_iff.mpr ⟨v, h⟩

theorem get?_eq_none {d : Dict κ ν} {k : κ} : d.get? k = none ↔ ¬ d.contains k = true := by
  rw [contains, Option.isSome_iff_ne_none, ne_eq, not_not]

theorem mem_values_iff {d : Dict κ ν} {v : ν} : v ∈ d.values ↔ ∃ k, d.get? k = some v := by
  constructor
  · intro h
    obtain ⟨⟨k, v'⟩, hmem, rfl⟩ := List.mem_map.mp h
    exact ⟨k, mem_entries_iff.mp hmem⟩
  · rintro ⟨k, hk⟩
    exact List.mem_map.mpr ⟨(k, v), mem_entries_iff.mpr hk, rfl⟩

@[simp] theorem contains_insert (d : Dict κ ν) (k k' : κ) (v : ν) :
    (d.insert k v).contains k' = (decide (k = k') || d.contains k') := by
  by_cases h : k = k' <;> simp [contains, h]

theorem contains_insert_iff {d : Dict κ ν} {k k' : κ} {v : ν} :
    (d.insert k v).contains k' = true ↔ k = k' ∨ d.contains k' = true := by
  simp

theorem contains_insert_of_contains {d : Dict κ ν} {k k' : κ} {v : ν}
    (h : d.contains k' = true) : (d.insert k v).contains k' = true := by
  simp [h]

theorem getD_insert (d : Dict κ ν) (k k' : κ) (v default : ν) :
    (d.insert k v).getD k' default = if k = k' then v else d.getD k' default := by
  by_cases h : k = k' <;> simp [getD, h]

theorem getD_of_get? {d : Dict κ ν} {k : κ} {v default : ν} (h : d.get? k = some v) :
    d.getD k default = v := by simp [getD, h]

@[simp] theorem getD_empty (k : κ) (default : ν) : (∅ : Dict κ ν).getD k default = default := rfl

/-- Overwriting a bound key keeps the order of the keys. -/
theorem keys_insert_of_contains {d : Dict κ ν} {k : κ} (v : ν) (h : d.contains k = true) :
    (d.insert k v).keys = d.keys :=
  insertEntry_keys_of_mem v (mem_keys_iff.mpr h)

theorem entries_insert_of_not_contains {d : Dict κ ν} {k : κ} (v : ν)
    (h : ¬ d.contains k = true) : (d.insert k v).entries = d.entries ++ [(k, v)] :=
  insertEntry_of_notMem v (mt mem_keys_iff.mp h)

/-- Writing what is there changes nothing. -/
theorem insertEntry_self {l : List (κ × ν)} {k : κ} {v : ν} (h : l.lookup k = some v) :
    insertEntry k v l = l := by
  induction l with
  | nil => simp at h
  | cons p rest ih =>
    obtain ⟨k', v'⟩ := p
    rw [lookup_cons_if] at h
    by_cases hk : k' = k
    · have hv : v' = v := by simpa [hk] using h
      simp [insertEntry, hk, hv]
    · have hrest : rest.lookup k = some v := by simpa [hk] using h
      simp [insertEntry, hk, ih hrest]

/-- The second of two writes to one key wins. -/
theorem insertEntry_insertEntry (l : List (κ × ν)) (k : κ) (v w : ν) :
    insertEntry k w (insertEntry k v l) = insertEntry k w l := by
  induction l with
  | nil => simp [insertEntry]
  | cons p rest ih =>
    obtain ⟨k', v'⟩ := p
    by_cases hk : k' = k
    · simp [insertEntry, hk]
    · simp [insertEntry, hk, ih]

/-- The second of two writes under one key is the one that counts. -/
theorem insert_insert (d : Dict κ ν) (k : κ) (v w : ν) :
    (d.insert k v).insert k w = d.insert k w :=
  ext (insertEntry_insertEntry d.entries k v w)

/-- Writing back the value a key already has changes nothing. -/
theorem insert_self {d : Dict κ ν} {k : κ} {v : ν} (h : d.get? k = some v) :
    d.insert k v = d :=
  ext (insertEntry_self h)

end Lookup

/-! ## Equality as maps

Two dicts that answer every lookup alike may still list their entries in different orders. `d == d'`
of the source does not see the order, an iteration does. -/

section Equiv

variable [DecidableEq κ]

/-- `d == d'`: the same keys with the same values, whatever the order. -/
def Equiv (d d' : Dict κ ν) : Prop := ∀ k, d.get? k = d'.get? k

theorem Equiv.refl (d : Dict κ ν) : d.Equiv d := fun _ => rfl

theorem Equiv.symm {d d' : Dict κ ν} (h : d.Equiv d') : d'.Equiv d := fun k => (h k).symm

theorem Equiv.trans {a b c : Dict κ ν} (h : a.Equiv b) (h' : b.Equiv c) : a.Equiv c :=
  fun k => (h k).trans (h' k)

theorem Equiv.contains {d d' : Dict κ ν} (h : d.Equiv d') (k : κ) :
    d.contains k = d'.contains k := by
  simp [Dict.contains, h k]

theorem Equiv.getD {d d' : Dict κ ν} (h : d.Equiv d') (k : κ) (v : ν) :
    d.getD k v = d'.getD k v := by
  simp [Dict.getD, h k]

theorem Equiv.insert {d d' : Dict κ ν} (h : d.Equiv d') (k : κ) (v : ν) :
    (d.insert k v).Equiv (d'.insert k v) := by
  intro k'
  simp [get?_insert, h k']

/-- A write that leaves an equal map wrote back what was there. -/
theorem Equiv.get?_of_insert {d : Dict κ ν} {k : κ} {v : ν} (h : d.Equiv (d.insert k v)) :
    d.get? k = some v := by
  simpa using h k

/-- The order is all that can differ. -/
theorem Equiv.perm {d d' : Dict κ ν} (h : d.Equiv d') : d.entries.Perm d'.entries := by
  have hnd : d.entries.Nodup := List.Nodup.of_map _ d.nodup
  have hnd' : d'.entries.Nodup := List.Nodup.of_map _ d'.nodup
  refine (List.perm_ext_iff_of_nodup hnd hnd').mpr ?_
  rintro ⟨k, v⟩
  rw [mem_entries_iff, mem_entries_iff, h k]

end Equiv

/-! ## Counting values

How a write moves the number of values with a property: by one for a new key, not at all where the
overwritten value counts alike. -/

section Count

variable [DecidableEq κ] {p : ν → Bool}

theorem countP_values_insert_new {d : Dict κ ν} {k : κ} (v : ν) (h : d.get? k = none) :
    (d.insert k v).values.countP p = d.values.countP p + if p v then 1 else 0 := by
  rw [values, entries_insert_of_not_contains v (get?_eq_none.mp h), List.map_append,
    List.countP_append]
  simp [values, List.countP_cons]

/-- An overwritten value that counts like the new one leaves the count. -/
theorem countP_insertEntry {l : List (κ × ν)} {k : κ} {v w : ν} (h : l.lookup k = some w)
    (hp : p v = p w) :
    ((insertEntry k v l).map Prod.snd).countP p = (l.map Prod.snd).countP p := by
  induction l with
  | nil => cases h
  | cons entry rest ih =>
    obtain ⟨k', v'⟩ := entry
    rw [lookup_cons_if] at h
    -- the entry that is overwritten, or one before it
    by_cases hk : k' = k
    · rw [if_pos hk] at h
      cases h
      simp [insertEntry, hk, List.countP_cons, hp]
    · rw [if_neg hk] at h
      simp [insertEntry, hk, List.countP_cons, ih h]

/-- Overwriting a value by one that counts the same. -/
theorem countP_values_insert_same {d : Dict κ ν} {k : κ} {v w : ν} (h : d.get? k = some w)
    (hp : p v = p w) : (d.insert k v).values.countP p = d.values.countP p :=
  countP_insertEntry h hp

theorem Equiv.countP_values {d d' : Dict κ ν} (h : d.Equiv d') :
    d.values.countP p = d'.values.countP p := (h.perm.map Prod.snd).countP_eq p

end Count

/-! ## Dicts of lists

`d.setdefault(k, []).append(v)`, as the event log files its events: all values together grow by the
one that was appended. -/

section Lists

variable [DecidableEq κ]

/-- Appending under one key appends to the concatenation, up to the order. -/
theorem flatten_insertEntry (k : κ) (v : ν) (l : List (κ × List ν)) :
    ((insertEntry k ((l.lookup k).getD [] ++ [v]) l).map Prod.snd).flatten.Perm
      ((l.map Prod.snd).flatten ++ [v]) := by
  induction l with
  | nil => simp [insertEntry]
  | cons p rest ih =>
    obtain ⟨k', vs⟩ := p
    rw [lookup_cons_if]
    -- the bucket that is extended, or one before it
    by_cases hk : k' = k
    · simp only [hk, if_true, insertEntry, Option.getD_some, List.map_cons, List.flatten_cons,
        List.append_assoc]
      exact List.perm_append_comm.append_left vs
    · simp only [hk, if_false, insertEntry, List.map_cons, List.flatten_cons, List.append_assoc]
      exact ih.append_left vs

/-- Appending to one list appends to all of them together. -/
theorem flatten_values_append (d : Dict κ (List ν)) (k : κ) (v : ν) :
    (d.insert k (d.getD k [] ++ [v])).values.flatten.Perm (d.values.flatten ++ [v]) :=
  flatten_insertEntry k v d.entries

/-- The concatenation does not depend on the order of the keys, up to a permutation. -/
theorem Equiv.flatten_values {d d' : Dict κ (List ν)} (h : d.Equiv d') :
    d.values.flatten.Perm d'.values.flatten := (h.perm.map Prod.snd).flatten

/-- An element of one of the lists is among the elements of all. -/
theorem mem_flatten_values {d : Dict κ (List ν)} {k : κ} {v : ν} (h : v ∈ d.getD k []) :
    v ∈ d.values.flatten := by
  cases hget : d.get? k with
  | none => simp [getD, hget] at h
  | some vs =>
    rw [getD_of_get? hget] at h
    exact List.mem_flatten.mpr ⟨vs, mem_values_iff.mpr ⟨k, hget⟩, h⟩

end Lists

/-! ## Ascending key order

`sorted(d.items())`. The keys are ranked into a linear order, and the sort is stable, so it is the
only ascending listing of the entries. -/

section Sorted

variable {β : Type} [LinearOrder β]

/-- `sorted(d.items())`; `rank` places the keys in a linear order. -/
def sortedBy (rank : κ → β) (d : Dict κ ν) : List (κ × ν) :=
  d.entries.insertionSort fun p q => rank p.1 ≤ rank q.1

variable {rank : κ → β}

instance (rank : κ → β) : Std.Total fun p q : κ × ν => rank p.1 ≤ rank q.1 :=
  ⟨fun p q => le_total (rank p.1) (rank q.1)⟩

instance (rank : κ → β) : IsTrans (κ × ν) fun p q => rank p.1 ≤ rank q.1 :=
  ⟨fun _ _ _ => le_trans⟩

/-- Sorting loses no entry and adds none. -/
theorem sortedBy_perm (d : Dict κ ν) : (d.sortedBy rank).Perm d.entries :=
  List.perm_insertionSort _ _

@[simp] theorem mem_sortedBy {d : Dict κ ν} {p : κ × ν} :
    p ∈ d.sortedBy rank ↔ p ∈ d.entries := d.sortedBy_perm.mem_iff

theorem sortedBy_nodup (d : Dict κ ν) : ((d.sortedBy rank).map Prod.fst).Nodup :=
  (d.sortedBy_perm.map Prod.fst).nodup_iff.mpr d.nodup

theorem sortedBy_pairwise_le (d : Dict κ ν) :
    (d.sortedBy rank).Pairwise fun p q => rank p.1 ≤ rank q.1 :=
  List.pairwise_insertionSort _ _

/-- With different ranks for different keys the listing is strictly ascending. -/
theorem sortedBy_pairwise_lt (hrank : Function.Injective rank) (d : Dict κ ν) :
    ((d.sortedBy rank).map Prod.fst).Pairwise fun k k' => rank k < rank k' := by
  rw [List.pairwise_map]
  have hne : (d.sortedBy rank).Pairwise fun p q => p.1 ≠ q.1 :=
    List.pairwise_map.mp d.sortedBy_nodup
  refine (d.sortedBy_pairwise_le.and hne).imp ?_
  rintro p q ⟨hle, hpq⟩
  exact lt_of_le_of_ne hle (hrank.ne hpq)

/-- A list already in ascending key order is its own sort. -/
theorem sortedBy_of_pairwise {d : Dict κ ν}
    (h : d.entries.Pairwise fun p q => rank p.1 ≤ rank q.1) : d.sortedBy rank = d.entries :=
  h.insertionSort_eq

variable [DecidableEq κ]

/-- Equal maps have one sorted form. -/
theorem sortedBy_congr (hrank : Function.Injective rank) {d d' : Dict κ ν} (h : d.Equiv d') :
    d.sortedBy rank = d'.sortedBy rank := by
  refine List.Perm.eq_of_pairwise ?_ d.sortedBy_pairwise_le
    d'.sortedBy_pairwise_le ((d.sortedBy_perm.trans h.perm).trans d'.sortedBy_perm.symm)
  rintro ⟨k, v⟩ ⟨k', v'⟩ hp hq hle hge
  have hk : k = k' := hrank (le_antisymm hle hge)
  subst hk
  rw [mem_sortedBy, mem_entries_iff] at hp hq
  have hv : some v = some v' := by rw [← hp, h k, hq]
  simpa using hv

/-- The dict that was filled in ascending key order. -/
def sort (rank : κ → β) (d : Dict κ ν) : Dict κ ν := ⟨d.sortedBy rank, d.sortedBy_nodup⟩

/-- Sorting does not change what a key finds. -/
theorem lookup_sortedBy (rank : κ → β) (d : Dict κ ν) (k : κ) :
    (d.sortedBy rank).lookup k = d.get? k := by
  apply Option.ext
  intro v
  have hiff : (d.sort rank).get? k = some v ↔ (k, v) ∈ d.sortedBy rank := mem_entries_iff.symm
  rw [mem_sortedBy, mem_entries_iff] at hiff
  exact hiff

/-- The sorted dict is the same map. -/
theorem sort_equiv (rank : κ → β) (d : Dict κ ν) : (d.sort rank).Equiv d :=
  fun k => lookup_sortedBy rank d k

end Sorted

/-! ## Comprehensions

`{k: v for k, v in …}` inserts pair by pair, so a repeated key keeps its first place and its last
value. Without repeated keys the entries are the list itself. -/

section OfList

variable [DecidableEq κ]

/-- `{k: v for k, v in l}`. -/
def ofList (l : List (κ × ν)) : Dict κ ν := l.foldl (fun d p => d.insert p.1 p.2) ∅

/-- Inserting new keys one after another appends them. -/
theorem foldl_insert_entries {l : List (κ × ν)} {d : Dict κ ν}
    (h : (d.keys ++ l.map Prod.fst).Nodup) :
    (l.foldl (fun d p => d.insert p.1 p.2) d).entries = d.entries ++ l := by
  induction l generalizing d with
  | nil => simp
  | cons p rest ih =>
    -- the keys that follow differ from all that were inserted
    have hfresh : ¬ d.contains p.1 = true := by
      rw [← mem_keys_iff]
      intro hmem
      exact (List.nodup_append.mp h).2.2 _ hmem _ (by simp) rfl
    have hentries := entries_insert_of_not_contains p.2 hfresh
    have hkeys : (d.insert p.1 p.2).keys = d.keys ++ [p.1] := by
      simp [keys, hentries]
    rw [List.foldl_cons, ih (by simpa [hkeys] using h), hentries, List.append_assoc]
    rfl

theorem ofList_entries {l : List (κ × ν)} (h : (l.map Prod.fst).Nodup) :
    (ofList l).entries = l := by
  have := foldl_insert_entries (d := ∅) (l := l) (by simpa using h)
  simpa [ofList] using this

/-- The entries of `l` without those that repeat an earlier key. -/
def firstBindings : List (κ × ν) → List (κ × ν)
  | [] => []
  | p :: rest => p :: (firstBindings rest).filter fun q => q.1 ≠ p.1

/-- Keeping the first binding of each key leaves no key twice. -/
theorem firstBindings_nodup (l : List (κ × ν)) : ((firstBindings l).map Prod.fst).Nodup := by
  induction l with
  | nil => simp [firstBindings]
  | cons p rest ih =>
    rw [firstBindings, List.map_cons, List.nodup_cons]
    refine ⟨by simp, ?_⟩
    exact ih.sublist (List.filter_sublist.map Prod.fst)

theorem lookup_filter {l : List (κ × ν)} {k k₀ : κ} (h : k ≠ k₀) :
    (l.filter fun q => q.1 ≠ k₀).lookup k = l.lookup k := by
  induction l with
  | nil => rfl
  | cons p rest ih =>
    obtain ⟨k', v'⟩ := p
    by_cases hk : k' = k₀
    · have hne : k' ≠ k := fun e => h (e ▸ hk)
      rw [lookup_cons_if, if_neg hne, ← ih]
      simp [hk]
    · rw [lookup_cons_if, ← ih, ← lookup_cons_if]
      simp [hk]

/-- A key finds its first binding, with or without the others. -/
theorem lookup_firstBindings (l : List (κ × ν)) (k : κ) :
    (firstBindings l).lookup k = l.lookup k := by
  induction l with
  | nil => rfl
  | cons p rest ih =>
    obtain ⟨k', v'⟩ := p
    rw [firstBindings, lookup_cons_if, lookup_cons_if]
    by_cases hk : k' = k
    · simp [hk]
    · rw [if_neg hk, if_neg hk, lookup_filter (Ne.symm hk), ih]

/-- The map a list of fields denotes, an earlier field hiding a later one of its name. -/
def ofFields (l : List (κ × ν)) : Dict κ ν := ⟨firstBindings l, firstBindings_nodup l⟩

theorem entries_ofFields {l : List (κ × ν)} (h : (l.map Prod.fst).Nodup) :
    (ofFields l).entries = l := by
  show firstBindings l = l
  induction l with
  | nil => rfl
  | cons p rest ih =>
    rw [List.map_cons, List.nodup_cons] at h
    rw [firstBindings, ih h.2, List.filter_eq_self.mpr]
    intro q mem
    have different : q.1 ≠ p.1 := fun same => h.1 (same ▸ List.mem_map_of_mem mem)
    simpa using different

@[simp] theorem get?_ofFields (l : List (κ × ν)) (k : κ) : (ofFields l).get? k = l.lookup k :=
  lookup_firstBindings l k

end OfList

end Dict

end Ragcore
