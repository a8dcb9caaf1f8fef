import Ragcore.Snapshot.RoundTrip
import Ragcore.Snapshot.Usable

/-!
# Ragcore — the canonical snapshot

A snapshot may list its entries in any order, repeat members inside a bucket, omit fields that
have a default, carry keys the codec does not know, or have version 1. Restoring it and encoding
the engine gives one normal form of all of that.

* **`Canonical`** — the form: the eighteen keys, version 2, everything ascending.
* **`fromSnapshot_storable`** — an accepted snapshot with int hint types restores to a storable
  engine; the other sorted collection, the dedup index, is checked by the restore.
* **`canonical_form`** — the normal form is canonical, accepted, restores to the same stores, is
  its own normal form, and is shared exactly by the snapshots that restore to equal stores.
-/

namespace Ragcore

namespace Snapshot

/-! ## The form

Keys in ascending order, current version: one snapshot for each state. -/

/-- An ascending list of ints. -/
def IsAscending (v : Json) : Prop := ∃ ns : List Int, v = .list (ns.map .int) ∧ ns.Pairwise (· < ·)

/-- The current version, the declared collections, every one in ascending order. -/
structure Canonical (t : Json) : Prop where
  keys : ∃ fields : Fields, t = .dict fields ∧ fields.map Prod.fst = snapshotRequiredKeys
  version : t.field "schema_version" = .int 2
  counters : ∃ fields : Fields, t.field "next_id" = .dict fields ∧
    (fields.map Prod.fst).Pairwise (· < ·)
  intKeyed : ∀ name ∈ intKeyedCollections, (t.field name).isList = true ∧
    (∀ item ∈ entries t name, EntryShaped item) ∧ ((entries t name).map entryKey).Pairwise (· < ·)
  /-- Tuple keys ascend in lexicographic order. -/
  identityKeyed : ∀ p ∈ [("rule_definitions", 2), ("rule_stats", 2), ("gap_dedup_index", 4)],
    (t.field p.1).isList = true ∧ (∀ item ∈ entries t p.1, LogicalShaped p.2 item) ∧
      ((entries t p.1).map logicalKey).Pairwise (· < ·)
  buckets : ∀ name ∈ ["claim_gap_refs", "contradictions", "resolved_contradictions"],
    ∀ item ∈ entries t name, IsAscending (entryValue item)
  hints : IsAscending (t.field "hint_evidence_types")

/-! ## Encoding gives the form

Every store is written in ascending order. -/

section Encoded

variable {t : Json}

/-- A store is written in ascending order of its ids. -/
theorem ascending_serialized {ν : Type} {name : String} {value : ν → Json} {d : Dict Int ν}
    (h : t.field name = serializeDictInt value d) :
    ((entries t name).map entryKey).Pairwise (· < ·) := by
  rw [entries_serialized h, List.map_map]
  exact d.sortedBy_pairwise_lt Function.injective_id

theorem intKeyed_ascending {ν : Type} {name : String} {value : ν → Json} {d : Dict Int ν}
    (h : t.field name = serializeDictInt value d) :
    (t.field name).isList = true ∧ (∀ item ∈ entries t name, EntryShaped item) ∧
      ((entries t name).map entryKey).Pairwise (· < ·) :=
  ⟨(intKeyed_serialized h).isList, (intKeyed_serialized h).shaped, ascending_serialized h⟩

theorem intKeyed_ascendingSet {name : String} {d : Dict Int (Finset Int)}
    (h : t.field name = serializeDictIntSet d) :
    (t.field name).isList = true ∧ (∀ item ∈ entries t name, EntryShaped item) ∧
      ((entries t name).map entryKey).Pairwise (· < ·) := intKeyed_ascending h

theorem pair_ascending {ν : Type} {name : String} {asdict : ν → Json} {d : Dict (Int × Int) ν}
    (h : t.field name = serializeDictTupleDataclass asdict d) :
    (t.field name).isList = true ∧ (∀ item ∈ entries t name, LogicalShaped 2 item) ∧
      ((entries t name).map logicalKey).Pairwise (· < ·) := by
  have hkeyed := identityKeyed_serializedPair h
  refine ⟨hkeyed.isList, hkeyed.shaped, ?_⟩
  have hkeys : (entries t name).map logicalKey =
      ((d.sortedBy pairRank).map Prod.fst).map fun k => [k.1, k.2] := by
    rw [entries_serializedPair h, List.map_map, List.map_map]
    rfl
  rw [hkeys, List.pairwise_map]
  refine (d.sortedBy_pairwise_lt pairRank_injective).imp fun {k k'} hlt => ?_
  -- the lexicographic order of pairs is the one of lists of two
  rcases Prod.Lex.lt_iff.mp hlt with hfst | ⟨hfst, hsnd⟩
  · exact List.cons_lt_cons_iff.mpr (.inl hfst)
  · exact List.cons_lt_cons_iff.mpr (.inr ⟨hfst, List.cons_lt_cons_iff.mpr (.inl hsnd)⟩)

/-- The ranks of dedup keys compare component by component, as the lists of their parts do. -/
theorem cons_lt_of_dedupRank_lt {p q : DedupKey} {m n : Int} (hp : p.1 = .int m)
    (hq : q.1 = .int n) (h : dedupRank p < dedupRank q) :
    [m, p.2.1, p.2.2.1, p.2.2.2] < [n, q.2.1, q.2.2.1, q.2.2.2] := by
  -- component by component
  rcases Prod.Lex.lt_iff.mp h with h1 | ⟨h1, h⟩
  · have hkeys : HKey.int m < HKey.int n := by
      rw [← hp, ← hq]
      exact h1
    exact List.cons_lt_cons_iff.mpr (.inl (HKey.int_lt_int.mp hkeys))
  · have hkeys : p.1 = q.1 := h1
    rw [hp, hq] at hkeys
    refine List.cons_lt_cons_iff.mpr (.inr ⟨HKey.int_inj.mp hkeys, ?_⟩)
    rcases Prod.Lex.lt_iff.mp h with h2 | ⟨h2, h⟩
    · exact List.cons_lt_cons_iff.mpr (.inl h2)
    · refine List.cons_lt_cons_iff.mpr (.inr ⟨h2, ?_⟩)
      rcases Prod.Lex.lt_iff.mp h with h3 | ⟨h3, h4⟩
      · exact List.cons_lt_cons_iff.mpr (.inl h3)
      · exact List.cons_lt_cons_iff.mpr (.inr ⟨h3, List.cons_lt_cons_iff.mpr (.inl h4)⟩)

/-- A dedup key is written as its four ints. -/
theorem logicalKey_dedup {key : DedupKey} {g n : Int} (h : key.1 = .int n) :
    logicalKey (entry (dedupKeyAsList key) (.int g)) = [n, key.2.1, key.2.2.1, key.2.2.2] := by
  rw [dedupKeyAsList_int h]
  rfl

theorem dedup_ascending {index : Dict DedupKey Int}
    (h : t.field "gap_dedup_index" = .list (dedupEntries index))
    (hint : ∀ {key g}, index.get? key = some g → ∃ n : Int, key.1 = .int n) :
    (t.field "gap_dedup_index").isList = true ∧
      (∀ item ∈ entries t "gap_dedup_index", LogicalShaped 4 item) ∧
        ((entries t "gap_dedup_index").map logicalKey).Pairwise (· < ·) := by
  have hkeyed := identityKeyed_dedup h hint
  refine ⟨hkeyed.isList, hkeyed.shaped, ?_⟩
  have hsubject : ∀ p ∈ index.sortedBy dedupRank, ∃ n : Int, p.1.1 = .int n := fun p hp =>
    hint (Dict.mem_entries_iff.mp (Dict.mem_sortedBy.mp hp))
  have hsorted : (index.sortedBy dedupRank).Pairwise fun p q => dedupRank p.1 < dedupRank q.1 :=
    List.pairwise_map.mp (index.sortedBy_pairwise_lt dedupRank_injective)
  rw [entries, h]
  simp only [Json.items, dedupEntries, List.map_map]
  rw [List.pairwise_map]
  refine hsorted.imp_of_mem fun {p q} hp hq hlt => ?_
  obtain ⟨m, hm⟩ := hsubject p hp
  obtain ⟨n, hn⟩ := hsubject q hq
  rw [Function.comp_apply, Function.comp_apply, logicalKey_dedup hm, logicalKey_dedup hn]
  exact cons_lt_of_dedupRank_lt hm hn hlt

/-- The list of a set is strictly ascending. -/
theorem isAscending_sorted (bucket : Finset Int) :
    IsAscending (.list ((sortSet (· ≤ ·) bucket).map .int)) :=
  ⟨_, rfl, sortSet_pairwise_lt bucket⟩

theorem buckets_ascending {name : String} {d : Dict Int (Finset Int)}
    (h : t.field name = serializeDictIntSet d) :
    ∀ item ∈ entries t name, IsAscending (entryValue item) := by
  intro item hitem
  obtain ⟨k, bucket, -, rfl⟩ := (mem_entries_serialized h).mp hitem
  exact isAscending_sorted bucket

/-- Ascending int keys are the keys of ascending ints. -/
theorem exists_ascending_ints : ∀ {keys : List HKey}, (∀ key ∈ keys, ∃ n : Int, key = .int n) →
    keys.Pairwise (· < ·) → ∃ ns : List Int, keys = ns.map .int ∧ ns.Pairwise (· < ·)
  | [], _, _ => ⟨[], rfl, .nil⟩
  | key :: rest, hall, hpair => by
    obtain ⟨hkey, hrest⟩ := List.forall_mem_cons.mp hall
    obtain ⟨n, rfl⟩ := hkey
    obtain ⟨hlt, hpair⟩ := List.pairwise_cons.mp hpair
    obtain ⟨ns, rfl, hns⟩ := exists_ascending_ints hrest hpair
    refine ⟨n :: ns, rfl, List.pairwise_cons.mpr ⟨fun m hm => ?_, hns⟩⟩
    exact HKey.int_lt_int.mp (hlt (.int m) (List.mem_map_of_mem hm))

/-- The hint types ascend when they are ints. -/
theorem hints_ascending {hints : Finset HKey}
    (hint : ∀ {key}, key ∈ hints → ∃ n : Int, key = .int n) :
    IsAscending (.list ((sortSet (· ≤ ·) hints).map HKey.toJson)) := by
  obtain ⟨ns, hkeys, hns⟩ := exists_ascending_ints
    (fun key hkey => hint (mem_sortSet.mp hkey)) (sortSet_pairwise_lt hints)
  refine ⟨ns, ?_, hns⟩
  rw [hkeys, List.map_map]
  exact congrArg Json.list (List.map_congr_left fun n _ => HKey.toJson_int n)

end Encoded

/-- **Encoding a storable engine gives the canonical form.** -/
theorem canonical_encoded {e : Engine} (h : Storable e) :
    Canonical (encoded e.toDecodedEngineState) where
  keys := ⟨_, rfl, rfl⟩
  version := rfl
  counters := ⟨_, rfl, e.nextId.sortedBy_pairwise_lt Function.injective_id⟩
  intKeyed := by
    -- the collections under ids, the pairs, the index, one after another
    have hevents : (encoded e.toDecodedEngineState).field "claim_lifecycle_events" =
        serializeDictInt (fun records => .list (records.map eventAsdict))
          e.claimLifecycleEvents := rfl
    simp only [intKeyedCollections, List.forall_mem_cons, List.not_mem_nil, false_implies,
      implies_true, and_true]
    exact ⟨intKeyed_ascending (d := e.entities) rfl, intKeyed_ascending (d := e.observations) rfl,
      intKeyed_ascending (d := e.claims) rfl, intKeyed_ascending (d := e.evidences) rfl,
      intKeyed_ascending (d := e.relations) rfl, intKeyed_ascending (d := e.gaps) rfl,
      intKeyed_ascendingSet (d := e.claimGapRefs) rfl,
      intKeyed_ascending (d := e.gapResolutions) rfl,
      intKeyed_ascendingSet (d := e.contradictions) rfl,
      intKeyed_ascendingSet (d := e.resolvedContradictions) rfl,
      intKeyed_ascending hevents⟩
  identityKeyed := by
    simp only [List.forall_mem_cons, List.not_mem_nil, false_implies, implies_true, and_true]
    have hfield : (encoded e.toDecodedEngineState).field "gap_dedup_index" =
        .list (dedupEntries e.gapDedupIndex) := rfl
    exact ⟨pair_ascending (d := e.ruleDefinitions) rfl, pair_ascending (d := e.ruleStats) rfl,
      dedup_ascending hfield h.dedupSubject⟩
  buckets := by
    simp only [List.forall_mem_cons, List.not_mem_nil, false_implies, implies_true, and_true]
    exact ⟨buckets_ascending (d := e.claimGapRefs) rfl,
      buckets_ascending (d := e.contradictions) rfl,
      buckets_ascending (d := e.resolvedContradictions) rfl⟩
  hints := hints_ascending h.hint

/-! ## Restored engines

A snapshot that was accepted can be written again, in the form. -/

/-- The hint types a restore reads are ints. -/
def IntHints (s : Json) : Prop := ∀ t ∈ hintTypes s, IsInt t

/-- An accepted snapshot with int hint types gives an engine that can be written. -/
theorem fromSnapshot_storable {uuid : UuidHex} {s : Json} {e : Engine}
    (h : Engine.fromSnapshot uuid s = .ok e) (hhints : IntHints s) : Storable e where
  counters := fromSnapshot_countersCover h
  references := fromSnapshot_referential h
  dedupSubject := by
    obtain ⟨_, current, d, _, _, hrestorable, hd, _, rfl⟩ := fromSnapshot_ok_iff.mp h
    intro key g hg
    obtain ⟨item, hitem, rfl, -⟩ := hd.gapDedupIndex.get?_iff.mp hg
    obtain ⟨a, b, c, k, -, hkey⟩ := (hrestorable.dedup.shaped item hitem).tuple4
    exact ⟨a, by rw [tuple4Of, hkey]; rfl⟩
  hint := by
    obtain ⟨fields, current, d, rfl, hcurrent, hrestorable, hd, _, rfl⟩ := fromSnapshot_ok_iff.mp h
    intro key hkey
    have hset := hd.hintEvidenceTypes
    rw [Json.eq_list_of_isList hrestorable.hints] at hset
    have hmem : key ∈ bucketKeys (.list (current.field "hint_evidence_types").items) :=
      (setOf_list_ok_iff.mp hset).2 ▸ hkey
    obtain ⟨member, hmember, hmkey⟩ := List.mem_filterMap.mp (List.mem_toFinset.mp hmem)
    obtain ⟨n, rfl⟩ := hhints member (hintTypes_migrated hcurrent ▸ hmember)
    exact ⟨n, (Option.some.inj hmkey).symm⟩

/-- A version-1 snapshot has no hint types to restore. -/
theorem hints_of_version1 {uuid : UuidHex} {s : Json} {e : Engine}
    (h : Engine.fromSnapshot uuid s = .ok e)
    (hversion : (s.field "schema_version").eq (.int 1) = true) : e.hintEvidenceTypes = ∅ := by
  obtain ⟨fields, current, d, rfl, hcurrent, hrestorable, hd, _, rfl⟩ := fromSnapshot_ok_iff.mp h
  have hset := hd.hintEvidenceTypes
  rw [Json.eq_list_of_isList hrestorable.hints, hintTypes_migrated hcurrent, hintTypes,
    if_pos hversion] at hset
  exact (setOf_list_ok_iff.mp hset).2

/-- One snapshot encodes equal stores only. -/
theorem equiv_of_toSnapshot_eq {e e' : Engine} (h : Storable e) (h' : Storable e')
    (heq : e.toSnapshot = e'.toSnapshot) : e.Equiv e' := by
  have hencoded : encoded e.toDecodedEngineState = encoded e'.toDecodedEngineState := by
    rw [toSnapshot_eq h, toSnapshot_eq h'] at heq
    exact Except.ok.inj heq
  have hrestored := Engine.fromSnapshot_encoded h default
  rw [hencoded, Engine.fromSnapshot_encoded h' default] at hrestored
  have hreloaded := Except.ok.inj hrestored
  refine (e.equiv_reloaded default).trans ?_
  rw [← hreloaded]
  exact (e'.equiv_reloaded default).symm

/-- **Encoding after decoding is canonicalisation.** -/
theorem canonical_form (uuid : UuidHex) (s : Json) (e : Engine)
    (h : Engine.fromSnapshot uuid s = .ok e) (hhints : IntHints s) :
    (∃ t, e.toSnapshot = .ok t ∧ Canonical t ∧ ∀ uuid', ∃ e',
      Engine.fromSnapshot uuid' t = .ok e' ∧ e'.Equiv e ∧ e'.toSnapshot = .ok t) ∧
    ((s.field "schema_version").eq (.int 1) = true → e.hintEvidenceTypes = ∅) ∧
    ∀ uuid' s' e', Engine.fromSnapshot uuid' s' = .ok e' → IntHints s' →
      (e.toSnapshot = e'.toSnapshot ↔ e.Equiv e') := by
  have hstorable := fromSnapshot_storable h hhints
  refine ⟨⟨_, toSnapshot_eq hstorable, canonical_encoded hstorable, fun uuid' => ?_⟩,
    hints_of_version1 h, fun uuid' s' e' h' hhints' => ⟨?_, encodeSnapshot_congr⟩⟩
  · exact ⟨_, Engine.fromSnapshot_encoded hstorable uuid', (e.equiv_reloaded uuid').symm,
      Engine.toSnapshot_reloaded hstorable uuid'⟩
  · exact equiv_of_toSnapshot_eq hstorable (fromSnapshot_storable h' hhints')

/-- A version-1 snapshot with its entities in descending order and a key of another program. -/
def disordered : Json :=
  .dict [
    ("schema_version", .int 1), ("exported_by", .str "tool"),
    ("entities", .list [
      entry (.int 2) (.dict [("id", .int 2), ("type", .int 1), ("flags", .int 0)]),
      entry (.int 1) (.dict [("flags", .int 0), ("type", .int 1), ("id", .int 1)])]),
    ("next_id", .dict [("entity", .int 2), ("claim", .int 1)]),
    ("lifecycle_seq", .int 0), ("observations", .list []), ("claims", .list []),
    ("evidences", .list []), ("relations", .list []), ("gaps", .list []),
    ("rule_definitions", .list []), ("rule_stats", .list []), ("gap_dedup_index", .list []),
    ("claim_gap_refs", .list []), ("gap_resolutions", .list []),
    ("contradictions", .list []), ("resolved_contradictions", .list []),
    ("claim_lifecycle_events", .list [])]

/-- The law on that snapshot. -/
theorem canonical_form_disordered : ∃ e t, Engine.fromSnapshot default disordered = .ok e ∧
    e.toSnapshot = .ok t ∧ Canonical t ∧ e.hintEvidenceTypes = ∅ := by
  obtain ⟨e, he⟩ : ∃ e, Engine.fromSnapshot default disordered = .ok e :=
    ⟨(Engine.new default).install
      { (Engine.new default).toDecodedEngineState with
        nextId := .ofFields [("entity", .int 2), ("claim", .int 1)]
        entities := Dict.insert (Dict.insert ∅ 2 ⟨.int 2, .int 1, .int 0⟩) 1
          ⟨.int 1, .int 1, .int 0⟩ }, by with_unfolding_all rfl⟩
  obtain ⟨⟨t, ht, hcanonical, -⟩, hversion, -⟩ := canonical_form default disordered e he nofun
  exact ⟨e, t, he, ht, hcanonical, hversion rfl⟩

end Snapshot

end Ragcore
