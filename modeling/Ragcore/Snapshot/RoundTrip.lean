import Ragcore.Invariant.Accepted

/-!
# Ragcore — decoding undoes encoding

* **`encoded`** — the snapshot of a state whose hint types and dedup subjects are ints, written
  without the sorts that could fail.
* **`Sound`** — the three invariants every run keeps.
* **`Storable`** — what encoding and restoring rely on; of the types, only those that are sorted.
* **`restorable_encoded`** / **`decoded_encoded`** — the snapshot of a storable engine passes the
  integrity check and decodes to its own stores in ascending key order.
* **`roundTrip_eq`** — the engine a round trip ends in.
-/

namespace Ragcore

/-- What the round trip relies on in an engine. -/
structure Sound (e : Engine) : Prop where
  typed : WellTyped e
  counters : CountersCover e
  references : Referential e

namespace Sound

theorem new (uuid : UuidHex) : Sound (Engine.new uuid) := ⟨.new uuid, .new uuid, .new uuid⟩

theorem congr {e e' : Engine} (h : Sound e) (heq : e.Equiv e') : Sound e' :=
  ⟨h.typed.congr heq, h.counters.congr heq, h.references.congr heq⟩

/-- A call keeps it, whether it returns or raises. -/
theorem op {e : Engine} (h : Sound e) (o : Op) : Sound (finalState (o.run e)) :=
  have ho := o.outcome_cases e
  ⟨h.typed.outcome ho, h.counters.outcome ho, h.references.outcome ho⟩

/-- So does a run of calls, firings among them. -/
theorem runCalls {e : Engine} (h : Sound e) (calls : List Call) : Sound (e.runCalls calls) :=
  Engine.runCalls_preserves (fun _ o he => he.op o) h calls

end Sound

/-- What encoding and restoring rely on. -/
structure Storable (e : Engine) : Prop where
  dedupSubject : ∀ {key g}, e.gapDedupIndex.get? key = some g → ∃ n : Int, key.1 = .int n
  hint : ∀ {key}, key ∈ e.hintEvidenceTypes → ∃ n : Int, key = .int n
  counters : CountersCover e
  references : Referential e

/-- A sound engine can be written down. -/
theorem Sound.storable {e : Engine} (h : Sound e) : Storable e :=
  ⟨h.typed.dedupSubject, h.typed.hint, h.counters, h.references⟩

theorem Reached.sound {e : Engine} (h : Reached e) : Sound e :=
  ⟨h.typed, h.countersCover, h.referential⟩

namespace Snapshot

/-! ## The snapshot of a typed state

What `to_snapshot` writes, as a value: no case of the encoders is left once the fields have their
types. -/

/-- The index under its keys, each a list of four ints. -/
def dedupEntries (index : Dict DedupKey Int) : List Json :=
  (index.sortedBy dedupRank).map fun p => entry (dedupKeyAsList p.1) (.int p.2)

/-- The whole snapshot, collection by collection. -/
def encoded (state : DecodedEngineState) : Json := .dict [
  ("schema_version", .int currentSnapshotSchemaVersion),
  ("next_id", .dict (state.nextId.sortedBy id)),
  ("lifecycle_seq", state.lifecycleSeq),
  ("entities", serializeDictInt entityAsdict state.entities),
  ("observations", serializeDictInt observationAsdict state.observations),
  ("claims", serializeDictInt claimAsdict state.claims),
  ("evidences", serializeDictInt evidenceAsdict state.evidences),
  ("relations", serializeDictInt relationAsdict state.relations),
  ("gaps", serializeDictInt gapAsdict state.gaps),
  ("rule_definitions", serializeDictTupleDataclass ruleDefAsdict state.ruleDefinitions),
  ("rule_stats", serializeDictTupleDataclass ruleStatsAsdict state.ruleStats),
  ("gap_dedup_index", .list (dedupEntries state.gapDedupIndex)),
  ("claim_gap_refs", serializeDictIntSet state.claimGapRefs),
  ("gap_resolutions", serializeDictInt .int state.gapResolutions),
  ("contradictions", serializeDictIntSet state.contradictions),
  ("resolved_contradictions", serializeDictIntSet state.resolvedContradictions),
  ("claim_lifecycle_events",
    serializeDictIntListDataclass eventAsdict state.claimLifecycleEvents),
  ("hint_evidence_types", .list ((sortSet (· ≤ ·) state.hintEvidenceTypes).map HKey.toJson))]

/-- Ints order, so neither sort of the encoder fails. -/
theorem toSnapshot_eq {e : Engine} (h : Storable e) :
    e.toSnapshot = .ok (encoded e.toDecodedEngineState) := by
  have hdedup : serializeDictTuple4Int e.gapDedupIndex =
      .ok (.list (dedupEntries e.gapDedupIndex)) := by
    refine if_pos fun k hk k' hk' => ?_
    obtain ⟨g, hg⟩ := Dict.contains_iff.mp (Dict.mem_keys_iff.mp hk)
    obtain ⟨g', hg'⟩ := Dict.contains_iff.mp (Dict.mem_keys_iff.mp hk')
    obtain ⟨m, hm⟩ := h.dedupSubject hg
    obtain ⟨n, hn⟩ := h.dedupSubject hg'
    simp [dedupComparable, hm, hn]
  have hhints : sortKeys e.hintEvidenceTypes = .ok (sortSet (· ≤ ·) e.hintEvidenceTypes) := by
    refine if_pos fun a ha b hb _ => ?_
    obtain ⟨m, rfl⟩ := h.hint ha
    obtain ⟨n, rfl⟩ := h.hint hb
    exact HKey.comparable_int m n
  exact bind_ok_iff.mpr ⟨_, hdedup, bind_ok_iff.mpr ⟨_, hhints, rfl⟩⟩

/-! ## Records

Each decoder undoes its encoder. -/

/-- A score that is not set is written as `null` and read as `None`. -/
@[simp] theorem svFromDict_svToDict (score : Option ScoreValue) :
    svFromDict (svToDict score) = .ok score := by
  cases score with
  | none => rfl
  | some score =>
    simp [svToDict, svFromDict, Json.getItem, bind, Except.bind, pure, Except.pure]

/-- The decoders of the records, one by one. -/
theorem entityFromDict_asdict (r : Entity) : entityFromDict (entityAsdict r) = .ok r := rfl

theorem observationFromDict_asdict (r : Observation) :
    observationFromDict (observationAsdict r) = .ok r := rfl

theorem claimFromDict_asdict (r : Claim) : claimFromDict (claimAsdict r) = .ok r := by
  refine bind_ok_iff.mpr ⟨_, rfl, bind_ok_iff.mpr ⟨svToDict r.baseConfidence, rfl, ?_⟩⟩
  refine bind_ok_iff.mpr ⟨_, svFromDict_svToDict _, bind_ok_iff.mpr ⟨(), rfl, ?_⟩⟩
  exact bind_ok_iff.mpr ⟨r.id, intId_ok_iff.mpr (Json.asInt?_int r.id), rfl⟩

theorem evidenceFromDict_asdict (r : Evidence) : evidenceFromDict (evidenceAsdict r) = .ok r := by
  refine bind_ok_iff.mpr ⟨_, rfl, bind_ok_iff.mpr ⟨svToDict r.strength, rfl, ?_⟩⟩
  refine bind_ok_iff.mpr ⟨_, svFromDict_svToDict _, bind_ok_iff.mpr ⟨(), rfl, ?_⟩⟩
  refine bind_ok_iff.mpr ⟨r.id, intId_ok_iff.mpr (Json.asInt?_int r.id), ?_⟩
  exact bind_ok_iff.mpr ⟨r.claimId, intId_ok_iff.mpr (Json.asInt?_int r.claimId), rfl⟩

theorem relationFromDict_asdict (r : Relation) : relationFromDict (relationAsdict r) = .ok r :=
  rfl

theorem gapFromDict_asdict (r : Gap) : gapFromDict (gapAsdict r) = .ok r := by
  refine bind_ok_iff.mpr ⟨_, rfl, bind_ok_iff.mpr ⟨svToDict r.severity, rfl, ?_⟩⟩
  refine bind_ok_iff.mpr ⟨_, svFromDict_svToDict _, bind_ok_iff.mpr ⟨(), rfl, ?_⟩⟩
  exact bind_ok_iff.mpr ⟨r.id, intId_ok_iff.mpr (Json.asInt?_int r.id), rfl⟩

theorem ruleDefFromDict_asdict (r : RuleDefinition) :
    ruleDefFromDict (ruleDefAsdict r) = .ok r := by
  refine bind_ok_iff.mpr ⟨_, rfl, bind_ok_iff.mpr ⟨svToDict r.priorConfidence, rfl, ?_⟩⟩
  exact bind_ok_iff.mpr ⟨_, svFromDict_svToDict _, rfl⟩

theorem ruleStatsFromDict_asdict (r : RuleStats) :
    ruleStatsFromDict (ruleStatsAsdict r) = .ok r := by
  refine bind_ok_iff.mpr ⟨_, rfl, bind_ok_iff.mpr ⟨r.observedPrecision, ?_, ?_⟩⟩
  · exact svFromDict_svToDict r.observedPrecision
  · exact bind_ok_iff.mpr ⟨_, svFromDict_svToDict r.falsePositiveRate, rfl⟩

theorem eventFromDict_asdict (r : ClaimLifecycleEvent) : eventFromDict (eventAsdict r) = .ok r :=
  rfl

theorem eventsFromValue_asdict (events : List ClaimLifecycleEvent) :
    eventsFromValue (.list (events.map eventAsdict)) = .ok events := by
  refine bind_ok_iff.mpr ⟨_, rfl, mapM_ok_iff.mpr ?_⟩
  rw [List.forall₂_map_left_iff, List.forall₂_same]
  exact fun r _ => eventFromDict_asdict r

/-- The sorted list of a set is read as the set. -/
theorem idBucket_sorted (bucket : Finset Int) :
    idBucket (.list ((sortSet (· ≤ ·) bucket).map .int)) = .ok bucket := by
  have hhashes : ((sortSet (· ≤ ·) bucket).map Json.int).mapM Json.hash =
      .ok ((sortSet (· ≤ ·) bucket).map HKey.int) := by
    rw [mapM_ok_iff, List.forall₂_map_left_iff, List.forall₂_map_right_iff, List.forall₂_same]
    exact fun n _ => Json.hash_int n
  refine bind_ok_iff.mpr ⟨_, bind_ok_iff.mpr ⟨_, rfl, bind_ok_iff.mpr ⟨_, hhashes, rfl⟩⟩, ?_⟩
  refine congrArg Except.ok (Finset.ext fun n => ?_)
  simp [mem_intMembers]

/-- So is the sorted list of hint types, whatever values they are. -/
theorem setOf_sorted (keys : Finset HKey) :
    (Json.list ((sortSet (· ≤ ·) keys).map HKey.toJson)).setOf = .ok keys := by
  have hhashes : ((sortSet (· ≤ ·) keys).map HKey.toJson).mapM Json.hash =
      .ok (sortSet (· ≤ ·) keys) := by
    rw [mapM_ok_iff, List.forall₂_map_left_iff, List.forall₂_same]
    exact fun k _ => Json.hash_ok_iff.mpr (Json.key?_toJson k)
  refine bind_ok_iff.mpr ⟨_, rfl, bind_ok_iff.mpr ⟨_, hhashes, ?_⟩⟩
  exact congrArg Except.ok sortSet_toFinset

/-! ## Stores

A store is written in ascending order of its keys and read back in that order. The store it is read
back to is the sorted one. -/

section IntStore

variable {ν : Type} {s : Json} {name : String} {value : ν → Json} {d : Dict Int ν}
  (h : s.field name = serializeDictInt value d)
include h

/-- What the entries of a written store are. -/
theorem entries_serialized :
    entries s name = (d.sortedBy id).map fun p => entry (.int p.1) (value p.2) := by
  rw [entries, h]
  rfl

theorem mem_entries_serialized {item : Json} :
    item ∈ entries s name ↔ ∃ k r, d.get? k = some r ∧ entry (.int k) (value r) = item := by
  rw [entries_serialized h, List.mem_map]
  constructor
  · rintro ⟨⟨k, r⟩, hp, rfl⟩
    exact ⟨k, r, Dict.mem_entries_iff.mp (Dict.mem_sortedBy.mp hp), rfl⟩
  · rintro ⟨k, r, hr, rfl⟩
    exact ⟨(k, r), Dict.mem_sortedBy.mpr (Dict.mem_entries_iff.mpr hr), rfl⟩

/-- The ids of the collection are the keys of the store. -/
theorem mem_ids_serialized {k : Int} : k ∈ ids s name ↔ d.contains k = true := by
  rw [mem_ids, Dict.contains_iff]
  constructor
  · rintro ⟨item, hitem, rfl⟩
    obtain ⟨k, r, hr, rfl⟩ := (mem_entries_serialized h).mp hitem
    exact ⟨r, hr⟩
  · rintro ⟨r, hr⟩
    exact ⟨_, (mem_entries_serialized h).mpr ⟨k, r, hr, rfl⟩, rfl⟩

theorem intKeyed_serialized : IntKeyed s name where
  isList := by
    rw [h]
    rfl
  shaped := by
    intro item hitem
    obtain ⟨k, r, -, rfl⟩ := (mem_entries_serialized h).mp hitem
    exact ⟨rfl, rfl, rfl⟩
  nodup := by
    rw [entries_serialized h, List.map_map]
    exact d.sortedBy_nodup

/-- Where the values decode, the store decodes to its sorted self. -/
theorem restored_serialized {readValue : Json → Except PyErr ν}
    (hvalue : ∀ r, readValue (value r) = .ok r) :
    Restored entryKey readValue (entries s name) (d.sort id) := by
  rw [Restored, entries_serialized h, List.forall₂_map_left_iff]
  exact List.forall₂_same.mpr fun p _ => ⟨rfl, hvalue p.2⟩

end IntStore

theorem intKeyed_serializedSet {s : Json} {name : String} {d : Dict Int (Finset Int)}
    (h : s.field name = serializeDictIntSet d) : IntKeyed s name := intKeyed_serialized h

theorem intKeyed_serializedList {ν : Type} {s : Json} {name : String} {asdict : ν → Json}
    {d : Dict Int (List ν)} (h : s.field name = serializeDictIntListDataclass asdict d) :
    IntKeyed s name := intKeyed_serialized h

section PairStore

variable {ν : Type} {s : Json} {name : String} {asdict : ν → Json} {d : Dict (Int × Int) ν}
  (h : s.field name = serializeDictTupleDataclass asdict d)
include h

/-- The same for stores under a pair of ints. -/
theorem entries_serializedPair : entries s name = (d.sortedBy pairRank).map fun p =>
    entry (.list [.int p.1.1, .int p.1.2]) (asdict p.2) := by
  rw [entries, h]
  rfl

theorem identityKeyed_serializedPair : IdentityKeyed s name 2 where
  isList := by
    rw [h]
    rfl
  shaped := by
    intro item hitem
    rw [entries_serializedPair h] at hitem
    obtain ⟨p, -, rfl⟩ := List.mem_map.mp hitem
    exact ⟨rfl, rfl, rfl, rfl, by simp [entry, Json.field, Json.items, Json.exactInt]⟩
  nodup := by
    rw [entries_serializedPair h, List.map_map]
    -- distinct pairs are distinct lists of two
    have hkeys : (d.sortedBy pairRank).map (logicalKey ∘ fun p =>
        entry (.list [.int p.1.1, .int p.1.2]) (asdict p.2)) =
        ((d.sortedBy pairRank).map Prod.fst).map fun k => [k.1, k.2] := by
      rw [List.map_map]
      rfl
    rw [hkeys]
    exact d.sortedBy_nodup.map fun k k' hk => by
      simpa [Prod.ext_iff] using hk

theorem restored_serializedPair {readValue : Json → Except PyErr ν}
    (hvalue : ∀ r, readValue (asdict r) = .ok r) :
    Restored pairOf readValue (entries s name) (d.sort pairRank) := by
  rw [Restored, entries_serializedPair h, List.forall₂_map_left_iff]
  exact List.forall₂_same.mpr fun p _ => ⟨rfl, hvalue p.2⟩

end PairStore

/-- A key whose subject is an int is a list of four ints. -/
theorem dedupKeyAsList_int {key : DedupKey} {n : Int} (hn : key.1 = .int n) :
    dedupKeyAsList key = .list [.int n, .int key.2.1, .int key.2.2.1, .int key.2.2.2] := by
  rw [dedupKeyAsList, hn, HKey.toJson_int]

section DedupStore

variable {s : Json} {index : Dict DedupKey Int}
  (h : s.field "gap_dedup_index" = .list (dedupEntries index))
  (hint : ∀ {key g}, index.get? key = some g → ∃ n : Int, key.1 = .int n)
include h

theorem mem_entries_dedup {item : Json} : item ∈ entries s "gap_dedup_index" ↔
    ∃ key g, index.get? key = some g ∧ entry (dedupKeyAsList key) (.int g) = item := by
  rw [entries, h]
  simp only [Json.items, dedupEntries, List.mem_map]
  constructor
  · rintro ⟨⟨key, g⟩, hp, rfl⟩
    exact ⟨key, g, Dict.mem_entries_iff.mp (Dict.mem_sortedBy.mp hp), rfl⟩
  · rintro ⟨key, g, hg, rfl⟩
    exact ⟨(key, g), Dict.mem_sortedBy.mpr (Dict.mem_entries_iff.mpr hg), rfl⟩

include hint

omit h in
/-- A written key is read back as it was. -/
theorem tuple4Of_dedup {key : DedupKey} {g : Int} (hg : index.get? key = some g) :
    tuple4Of (entry (dedupKeyAsList key) (.int g)) = key := by
  obtain ⟨n, hn⟩ := hint hg
  rw [dedupKeyAsList_int hn]
  exact Prod.ext hn.symm rfl

theorem identityKeyed_dedup : IdentityKeyed s "gap_dedup_index" 4 where
  isList := by
    rw [h]
    rfl
  shaped := by
    intro item hitem
    obtain ⟨key, g, hg, rfl⟩ := (mem_entries_dedup h).mp hitem
    obtain ⟨n, hn⟩ := hint hg
    rw [dedupKeyAsList_int hn]
    exact ⟨rfl, rfl, rfl, rfl, by simp [entry, Json.field, Json.items, Json.exactInt]⟩
  nodup := by
    rw [entries, h]
    simp only [Json.items, dedupEntries, List.map_map]
    refine List.Nodup.of_map
      (fun k => (HKey.int (k.getD 0 0), k.getD 1 0, k.getD 2 0, k.getD 3 0)) ?_
    rw [List.map_map]
    -- distinct keys are distinct lists of four
    have hkeys : (index.sortedBy dedupRank).map ((fun k : List Int =>
        (HKey.int (k.getD 0 0), k.getD 1 0, k.getD 2 0, k.getD 3 0)) ∘ logicalKey ∘
          fun p => entry (dedupKeyAsList p.1) (.int p.2)) =
        (index.sortedBy dedupRank).map Prod.fst := by
      refine List.map_congr_left fun p hp => ?_
      obtain ⟨n, hn⟩ := hint (Dict.mem_entries_iff.mp (Dict.mem_sortedBy.mp hp))
      simp only [Function.comp_apply, dedupKeyAsList_int hn]
      exact Prod.ext hn.symm rfl
    rw [hkeys]
    exact index.sortedBy_nodup

/-- The index decodes to its sorted self. -/
theorem restored_dedup :
    Restored tuple4Of intId (entries s "gap_dedup_index") (index.sort dedupRank) := by
  rw [Restored, entries, h]
  simp only [Json.items, dedupEntries, List.forall₂_map_left_iff]
  refine List.forall₂_same.mpr fun p hp => ⟨?_, intId_ok_iff.mpr (Json.asInt?_int p.2)⟩
  exact (tuple4Of_dedup hint (Dict.mem_entries_iff.mp (Dict.mem_sortedBy.mp hp))).symm

end DedupStore

/-! ## The whole snapshot

A referential engine passes every check of the restore on its own snapshot. -/

/-- No required collection is missing. -/
theorem has_encoded (state : DecodedEngineState) :
    ∀ name ∈ snapshotRequiredKeys, (encoded state).has name = true := by
  simp only [snapshotRequiredKeys, List.forall_mem_cons, List.not_mem_nil, false_implies,
    implies_true, and_true]
  repeat' constructor

/-- Each collection under ids has distinct ints as keys. -/
theorem intKeyed_encoded (state : DecodedEngineState) :
    ∀ name ∈ intKeyedCollections, IntKeyed (encoded state) name := by
  simp only [intKeyedCollections, List.forall_mem_cons, List.not_mem_nil, false_implies,
    implies_true, and_true]
  exact ⟨intKeyed_serialized (d := state.entities) rfl,
    intKeyed_serialized (d := state.observations) rfl,
    intKeyed_serialized (d := state.claims) rfl, intKeyed_serialized (d := state.evidences) rfl,
    intKeyed_serialized (d := state.relations) rfl, intKeyed_serialized (d := state.gaps) rfl,
    intKeyed_serializedSet (d := state.claimGapRefs) rfl,
    intKeyed_serialized (d := state.gapResolutions) rfl,
    intKeyed_serializedSet (d := state.contradictions) rfl,
    intKeyed_serializedSet (d := state.resolvedContradictions) rfl,
    intKeyed_serializedList (d := state.claimLifecycleEvents) rfl⟩

/-- A counter of the encoded `next_id` is the counter of the state. -/
theorem counterOf_encoded (nextId : Dict String Json) (kind : String) :
    counterOf (.dict (nextId.sortedBy id)) kind = nextId.getD kind (.int 0) := by
  rw [counterOf, Dict.getD, ← Dict.lookup_sortedBy id]
  cases hhas : (Json.dict (nextId.sortedBy id)).has kind with
  | true =>
    obtain ⟨v, hv⟩ := Option.isSome_iff_exists.mp hhas
    simp [Json.field, hv]
  | false =>
    have hnone : (nextId.sortedBy id).lookup kind = none := by simpa [Json.has] using hhas
    simp [hnone]

/-- The counters cover the ids that were written. -/
theorem counterCovers_encoded {ν : Type} {s : Json} {nextId : Dict String Json}
    {kind name : String} {value : ν → Json} {d : Dict Int ν} (h : Covers nextId kind d)
    (hfield : s.field name = serializeDictInt value d) :
    CounterCovers (.dict (nextId.sortedBy id)) kind (ids s name) := by
  obtain ⟨n, hn, h0, hle⟩ := h
  exact ⟨n, (counterOf_encoded nextId kind).trans hn, h0,
    fun k hk => hle k ((mem_ids_serialized hfield).mp hk)⟩

/-- Buckets are filed under claims and name what is there. -/
theorem bucketIn_serialized {s : Json} {name : String} {store : Dict Int (Finset Int)}
    {claimIds targetIds : Finset Int} (hfield : s.field name = serializeDictIntSet store)
    (hclaim : ∀ {c}, store.contains c = true → c ∈ claimIds)
    (hmember : ∀ {c v}, v ∈ store.getD c ∅ → v ∈ targetIds) :
    ∀ item ∈ entries s name, BucketIn claimIds targetIds item := by
  intro item hitem
  obtain ⟨c, bucket, hbucket, rfl⟩ := (mem_entries_serialized hfield).mp hitem
  refine ⟨hclaim (Dict.contains_of_get? hbucket), rfl, fun member hm => ?_⟩
  obtain ⟨v, hv, rfl⟩ := List.mem_map.mp hm
  have hv' : v ∈ store.getD c ∅ := by
    rw [Dict.getD_of_get? hbucket]
    exact mem_sortSet.mp hv
  exact ⟨v, hmember hv', Json.asInt?_int v⟩

/-- What is resolved was registered. -/
theorem resolvedIn_encoded {e : Engine} (h : Referential e) :
    ∀ item ∈ entries (encoded e.toDecodedEngineState) "resolved_contradictions",
      ResolvedIn (ids (encoded e.toDecodedEngineState) "claims")
        (entries (encoded e.toDecodedEngineState) "contradictions") item := by
  intro item hitem
  have hresolved : (encoded e.toDecodedEngineState).field "resolved_contradictions" =
      serializeDictIntSet e.resolvedContradictions := rfl
  have hcontradictions : (encoded e.toDecodedEngineState).field "contradictions" =
      serializeDictIntSet e.contradictions := rfl
  obtain ⟨c, bucket, hbucket, rfl⟩ := (mem_entries_serialized hresolved).mp hitem
  have hkey := h.resolvedKey (Dict.contains_of_get? hbucket)
  obtain ⟨registered, hreg⟩ := Dict.contains_iff.mp hkey
  refine ⟨(mem_ids_serialized (d := e.claims) rfl).mpr (h.contradictionClaim hkey), rfl, _,
    (mem_entries_serialized hcontradictions).mpr ⟨c, registered, hreg, rfl⟩, rfl,
    fun member hm => ?_⟩
  obtain ⟨v, hv, rfl⟩ := List.mem_map.mp hm
  have hv' : v ∈ e.resolvedContradictions.getD c ∅ := by
    rw [Dict.getD_of_get? hbucket]
    exact mem_sortSet.mp hv
  -- what is resolved was registered, and registered buckets are written
  have hin : v ∈ registered := by
    have := h.resolvedSubset hv'
    rwa [Dict.getD_of_get? hreg] at this
  exact ⟨.int v, List.mem_map_of_mem (mem_sortSet.mpr hin), rfl, rfl⟩

/-- **The integrity check accepts the snapshot of a storable engine.** -/
theorem restorable_encoded {e : Engine} (h : Storable e) :
    Restorable (encoded e.toDecodedEngineState) := by
  have hclaims : ∀ {k}, k ∈ ids (encoded e.toDecodedEngineState) "claims" ↔
      e.claims.contains k = true := mem_ids_serialized rfl
  have hevidences : ∀ {k}, k ∈ ids (encoded e.toDecodedEngineState) "evidences" ↔
      e.evidences.contains k = true := mem_ids_serialized rfl
  have hgaps : ∀ {k}, k ∈ ids (encoded e.toDecodedEngineState) "gaps" ↔
      e.gaps.contains k = true := mem_ids_serialized rfl
  have href := h.references
  have hcontradictions : (encoded e.toDecodedEngineState).field "contradictions" =
      serializeDictIntSet e.contradictions := rfl
  have hgapRefs : (encoded e.toDecodedEngineState).field "claim_gap_refs" =
      serializeDictIntSet e.claimGapRefs := rfl
  have hdedup : (encoded e.toDecodedEngineState).field "gap_dedup_index" =
      .list (dedupEntries e.gapDedupIndex) := rfl
  exact {
    required := has_encoded _
    intKeyed := intKeyed_encoded _
    ownIds := by
      simp only [List.forall_mem_cons, List.not_mem_nil, false_implies, implies_true, and_true]
      refine ⟨fun item hitem => ?_, fun item hitem => ?_, fun item hitem => ?_⟩
      · obtain ⟨k, r, hr, rfl⟩ := (mem_entries_serialized (d := e.claims) rfl).mp hitem
        exact ⟨rfl, (Json.asInt?_int r.id).trans (congrArg some (href.claimId hr))⟩
      · obtain ⟨k, r, hr, rfl⟩ := (mem_entries_serialized (d := e.evidences) rfl).mp hitem
        exact ⟨rfl, (Json.asInt?_int r.id).trans (congrArg some (href.evidenceId hr))⟩
      · obtain ⟨k, r, hr, rfl⟩ := (mem_entries_serialized (d := e.gaps) rfl).mp hitem
        exact ⟨rfl, (Json.asInt?_int r.id).trans (congrArg some (href.gapId hr))⟩
    evidenceClaims := by
      intro item hitem
      obtain ⟨k, r, hr, rfl⟩ := (mem_entries_serialized (d := e.evidences) rfl).mp hitem
      exact ⟨rfl, r.claimId, hclaims.mpr (href.evidenceClaim hr), Json.asInt?_int r.claimId⟩
    contradictions := bucketIn_serialized hcontradictions
      (fun hc => hclaims.mpr (href.contradictionClaim hc))
      fun hv => hevidences.mpr (href.contradictionEvidence hv)
    claimGapRefs := bucketIn_serialized hgapRefs
      (fun hc => hclaims.mpr (href.gapRefClaim hc)) fun hg => hgaps.mpr (href.gapRefGap hg)
    gapResolutions := by
      intro item hitem
      obtain ⟨g, v, hv, rfl⟩ := (mem_entries_serialized (d := e.gapResolutions) rfl).mp hitem
      exact ⟨hgaps.mpr (href.resolutionGap hv), v, hevidences.mpr (href.resolutionEvidence hv),
        Json.asInt?_int v⟩
    dedup := identityKeyed_dedup hdedup h.dedupSubject
    dedupTargets := by
      intro item hitem
      obtain ⟨key, g, hg, rfl⟩ := (mem_entries_dedup hdedup).mp hitem
      exact ⟨g, hgaps.mpr (href.dedupGap hg), Json.asInt?_int g⟩
    -- a resolved contradiction is registered, and for the same claim
    resolved := resolvedIn_encoded href
    ruleStats := identityKeyed_serializedPair (d := e.ruleStats) rfl
    ruleDefinitions := identityKeyed_serializedPair (d := e.ruleDefinitions) rfl
    hints := rfl
    nextId := rfl
    counters := by
      simp only [counterKindToCollection, List.forall_mem_cons, List.not_mem_nil, false_implies,
        implies_true, and_true]
      exact ⟨counterCovers_encoded h.counters.entity rfl,
        counterCovers_encoded h.counters.observation rfl,
        counterCovers_encoded h.counters.claim rfl,
        counterCovers_encoded h.counters.evidence rfl,
        counterCovers_encoded h.counters.relation rfl,
        counterCovers_encoded h.counters.gap rfl⟩ }

/-- The stores a restore fills from the snapshot of `state`: every dict in ascending key
order. -/
def sortedState (state : DecodedEngineState) : DecodedEngineState where
  nextId := .ofFields (state.nextId.sortedBy id)
  lifecycleSeq := state.lifecycleSeq
  entities := state.entities.sort id
  observations := state.observations.sort id
  claims := state.claims.sort id
  evidences := state.evidences.sort id
  relations := state.relations.sort id
  gaps := state.gaps.sort id
  ruleDefinitions := state.ruleDefinitions.sort pairRank
  ruleStats := state.ruleStats.sort pairRank
  gapDedupIndex := state.gapDedupIndex.sort dedupRank
  claimGapRefs := state.claimGapRefs.sort id
  gapResolutions := state.gapResolutions.sort id
  contradictions := state.contradictions.sort id
  resolvedContradictions := state.resolvedContradictions.sort id
  claimLifecycleEvents := state.claimLifecycleEvents.sort id
  hintEvidenceTypes := state.hintEvidenceTypes

/-- Sorting the stores leaves them the same maps. -/
theorem sortedState_equiv (state : DecodedEngineState) : state.Equiv (sortedState state) where
  nextId := fun k => by
    rw [sortedState, Dict.get?_ofFields, Dict.lookup_sortedBy]
  lifecycleSeq := rfl
  entities := (Dict.sort_equiv _ _).symm
  observations := (Dict.sort_equiv _ _).symm
  claims := (Dict.sort_equiv _ _).symm
  evidences := (Dict.sort_equiv _ _).symm
  relations := (Dict.sort_equiv _ _).symm
  gaps := (Dict.sort_equiv _ _).symm
  ruleDefinitions := (Dict.sort_equiv _ _).symm
  ruleStats := (Dict.sort_equiv _ _).symm
  gapDedupIndex := (Dict.sort_equiv _ _).symm
  claimGapRefs := (Dict.sort_equiv _ _).symm
  gapResolutions := (Dict.sort_equiv _ _).symm
  contradictions := (Dict.sort_equiv _ _).symm
  resolvedContradictions := (Dict.sort_equiv _ _).symm
  claimLifecycleEvents := (Dict.sort_equiv _ _).symm
  hintEvidenceTypes := rfl

/-- **The snapshot of a storable state decodes to the state in ascending key order.** -/
theorem decoded_encoded {e : Engine} (h : Storable e) :
    Decoded (encoded e.toDecodedEngineState) (sortedState e.toDecodedEngineState) where
  statuses := by
    intro item hitem
    obtain ⟨k, r, -, rfl⟩ := (mem_entries_serialized (d := e.claims) rfl).mp hitem
    rfl
  nextId := rfl
  lifecycleSeq := rfl
  entities := restored_serialized rfl entityFromDict_asdict
  observations := restored_serialized rfl observationFromDict_asdict
  claims := restored_serialized rfl claimFromDict_asdict
  evidences := restored_serialized rfl evidenceFromDict_asdict
  relations := restored_serialized rfl relationFromDict_asdict
  gaps := restored_serialized rfl gapFromDict_asdict
  ruleDefinitions := restored_serializedPair rfl ruleDefFromDict_asdict
  ruleStats := restored_serializedPair rfl ruleStatsFromDict_asdict
  gapDedupIndex := restored_dedup rfl h.dedupSubject
  claimGapRefs := restored_serialized rfl idBucket_sorted
  gapResolutions := restored_serialized rfl fun n => intId_ok_iff.mpr (Json.asInt?_int n)
  contradictions := restored_serialized rfl idBucket_sorted
  resolvedContradictions := restored_serialized rfl idBucket_sorted
  claimLifecycleEvents := restored_serialized rfl eventsFromValue_asdict
  hintEvidenceTypes := setOf_sorted e.hintEvidenceTypes

end Snapshot

/-! ## The façade

`Engine.to_snapshot` and `Engine.from_snapshot`. The restored engine has a new token and a revision
of its own, and otherwise the stores that were written. -/

namespace Engine

/-- The engine a round trip ends in. -/
def reloaded (uuid : UuidHex) (e : Engine) : Engine :=
  (new uuid).install (Snapshot.sortedState e.toDecodedEngineState)

/-- The restored engine differs in its identity and the order of its stores only. -/
theorem equiv_reloaded (uuid : UuidHex) (e : Engine) : e.Equiv (e.reloaded uuid) :=
  Snapshot.sortedState_equiv e.toDecodedEngineState

/-- **The snapshot of a storable engine is accepted.** -/
theorem fromSnapshot_encoded {e : Engine} (h : Storable e) (uuid : UuidHex) :
    fromSnapshot uuid (Snapshot.encoded e.toDecodedEngineState) = .ok (e.reloaded uuid) := by
  refine Snapshot.fromSnapshot_ok_iff.mpr ⟨_, _, _, rfl, rfl, Snapshot.restorable_encoded h,
    Snapshot.decoded_encoded h, fun claim hclaim => ?_, rfl⟩
  obtain ⟨k, hk⟩ := Dict.mem_values_iff.mp hclaim
  exact h.references.status ((Dict.sort_equiv id e.claims k).symm.trans hk)

/-- The snapshot of a storable engine is accepted. -/
theorem roundTrip_eq {e : Engine} (h : Storable e) (uuid : UuidHex) :
    e.roundTrip uuid = .ok (e.reloaded uuid) :=
  bind_ok_iff.mpr ⟨_, Snapshot.toSnapshot_eq h, fromSnapshot_encoded h uuid⟩

/-- The second snapshot is the first. -/
theorem toSnapshot_reloaded {e : Engine} (h : Storable e) (uuid : UuidHex) :
    (e.reloaded uuid).toSnapshot = .ok (Snapshot.encoded e.toDecodedEngineState) := by
  rw [← Snapshot.toSnapshot_eq h]
  exact (Snapshot.encodeSnapshot_congr (e.equiv_reloaded uuid)).symm

end Engine

/-- What a round trip keeps of a sound engine, it keeps along sessions. -/
theorem Sound.trip {e e' : Engine} (h : Sound e) {uuid : UuidHex}
    (hrun : e.roundTrip uuid = .ok e') : e' = e.reloaded uuid := by
  rw [Engine.roundTrip_eq h.storable uuid] at hrun
  exact (Except.ok.inj hrun).symm

theorem Session.Reachable.sound {s : Session} (h : s.Reachable) : Sound s.engine :=
  h.preserves (P := fun _ e => Sound e) .new (fun _ _ o he => he.op o)
    fun _ e uuid _ he hrun => he.trip hrun ▸ he.congr (e.equiv_reloaded uuid)

/-- **Decoding undoes encoding.** -/
theorem decode_undoes_encode (uuid uuid' : UuidHex) (calls : List Call) :
    ∃ snapshot restored,
      ((Engine.new uuid).runCalls calls).toSnapshot = .ok snapshot ∧
      Engine.fromSnapshot uuid' snapshot = .ok restored ∧
      restored.Equiv ((Engine.new uuid).runCalls calls) ∧
      restored.toSnapshot = .ok snapshot := by
  have h := ((Sound.new uuid).runCalls calls).storable
  refine ⟨_, _, Snapshot.toSnapshot_eq h, Engine.fromSnapshot_encoded h uuid', ?_,
    Engine.toSnapshot_reloaded h uuid'⟩
  exact (Engine.equiv_reloaded uuid' _).symm

end Ragcore
