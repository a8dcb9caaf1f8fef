import Ragcore.Snapshot.Validate

/-!
# Ragcore — what the restore-integrity pass decides

* **`Restorable`** — the predicate on snapshots of any shape, stated with the plain accessors
  of `Lib.PyCall`.
* **`validate_ok_iff`** — the pass accepts exactly the restorable snapshots. Each check has its
  own `_ok_iff` lemma; those about the entries of a collection assume the entry is shaped, which
  the first stage of the pass has established by then.
-/

namespace Ragcore

namespace Snapshot

/-! ## Reading a snapshot

Total functions for what the checks look at, so that a check can be compared with a property of the
value. On a snapshot that passed they read what the source reads. -/

/-- The items of a collection. -/
def entries (snapshot : Json) (name : String) : List Json := (snapshot.field name).items

/-- The id an entry is filed under. -/
def entryKey (item : Json) : Int := (item.field "key").exactInt?.getD 0

/-- The record of an entry. -/
def entryValue (item : Json) : Json := item.field "value"

/-- The keys of an int-keyed collection. -/
def ids (snapshot : Json) (name : String) : Finset Int :=
  ((entries snapshot name).map entryKey).toFinset

/-- The key of an identity collection's entry. -/
def logicalKey (item : Json) : List Int :=
  (item.field "key").items.map fun component => component.exactInt?.getD 0

/-- The value equals one of the ids. -/
def NamesIn (ids : Finset Int) (v : Json) : Prop := ∃ n ∈ ids, v.asInt? = some n

/-- A name that is an int is among the ids. -/
theorem NamesIn.mem {ids : Finset Int} {v : Json} {n : Int} (h : NamesIn ids v)
    (hv : v.asInt? = some n) : n ∈ ids := by
  obtain ⟨m, hm, hnames⟩ := h
  rw [hv] at hnames
  cases hnames
  exact hm

theorem mem_ids {snapshot : Json} {name : String} {k : Int} :
    k ∈ ids snapshot name ↔ ∃ item ∈ entries snapshot name, entryKey item = k := by
  simp [ids]

/-- A dict with an int under `key` and something under `value`. -/
structure EntryShaped (item : Json) : Prop where
  hasKey : item.has "key" = true
  hasValue : item.has "value" = true
  exactKey : (item.field "key").exactInt? = some (entryKey item)

/-- A collection under distinct ids. -/
structure IntKeyed (snapshot : Json) (name : String) : Prop where
  isList : (snapshot.field name).isList = true
  shaped : ∀ item ∈ entries snapshot name, EntryShaped item
  nodup : ((entries snapshot name).map entryKey).Nodup

/-- A dict whose key is a list of as many ints as the collection asks for. -/
structure LogicalShaped (arity : Nat) (item : Json) : Prop where
  hasKey : item.has "key" = true
  hasValue : item.has "value" = true
  keyIsList : (item.field "key").isList = true
  length : (item.field "key").items.length = arity
  exact : ∀ component ∈ (item.field "key").items, component.exactInt = true

/-- A collection under distinct logical keys. -/
structure IdentityKeyed (snapshot : Json) (name : String) (arity : Nat) : Prop where
  isList : (snapshot.field name).isList = true
  shaped : ∀ item ∈ entries snapshot name, LogicalShaped arity item
  nodup : ((entries snapshot name).map logicalKey).Nodup

/-! ## When each check passes

One equivalence for each check of the source. The loops carry what they have seen, so their
equivalences are stated for any start. -/

theorem EntryShaped.getKey {item : Json} (h : EntryShaped item) :
    item.getItem "key" = .ok (item.field "key") := Json.getItem_of_has h.hasKey

theorem EntryShaped.getValue {item : Json} (h : EntryShaped item) :
    item.getItem "value" = .ok (entryValue item) := Json.getItem_of_has h.hasValue

theorem EntryShaped.key_eq {item : Json} (h : EntryShaped item) :
    item.field "key" = .int (entryKey item) := Json.exactInt?_eq_some.mp h.exactKey

theorem requireList_ok_iff {name : String} {v : Json} {xs : List Json} :
    requireList name v = .ok xs ↔ v.isList = true ∧ v.items = xs := by
  simp [requireList, bind_ok_iff, pure, Except.pure]

/-- The ids are distinct, none was seen before, and they join what was seen. -/
theorem collectIds_ok_iff {name : String} {items : List Json} {seen out : Finset Int} :
    collectIds name items seen = .ok out ↔
      (∀ item ∈ items, EntryShaped item) ∧ (items.map entryKey).Nodup ∧
        (∀ item ∈ items, entryKey item ∉ seen) ∧
        out = seen ∪ (items.map entryKey).toFinset := by
  induction items generalizing seen with
  | nil => simp [collectIds, eq_comm]
  | cons item rest ih =>
    simp only [collectIds, bind_ok_iff, ensure_ok_iff, require_ok_iff, Bool.and_eq_true,
      decide_eq_true_eq, exists_const]
    constructor
    · rintro ⟨-, ⟨hkey, hvalue⟩, key, hget, id, hid, hfresh, hrest⟩
      rw [Json.getItem_of_has hkey] at hget
      cases hget
      have hentry : entryKey item = id := by simp [entryKey, hid]
      -- the rest was collected with `id` seen, so no later entry has it
      obtain ⟨hshaped, hnodup, hseen, hout⟩ := ih.mp hrest
      have hnotin : id ∉ rest.map entryKey := by
        intro hmem
        obtain ⟨other, hother, hk⟩ := List.mem_map.mp hmem
        exact hseen other hother (by simp [hk])
      refine ⟨List.forall_mem_cons.mpr ⟨⟨hkey, hvalue, hid.trans (by rw [hentry])⟩, hshaped⟩,
        ?_, ?_, ?_⟩
      · rw [List.map_cons, hentry, List.nodup_cons]
        exact ⟨hnotin, hnodup⟩
      · refine List.forall_mem_cons.mpr ⟨hentry ▸ hfresh, fun other hother => ?_⟩
        exact fun hmem => hseen other hother (Finset.mem_insert_of_mem hmem)
      · rw [hout, List.map_cons, List.toFinset_cons, hentry, Finset.insert_union,
          Finset.union_insert]
    · rintro ⟨hshaped, hnodup, hseen, rfl⟩
      obtain ⟨hitem, hshaped⟩ := List.forall_mem_cons.mp hshaped
      obtain ⟨hfresh, hseen⟩ := List.forall_mem_cons.mp hseen
      rw [List.map_cons, List.nodup_cons] at hnodup
      refine ⟨Json.isDict_of_has hitem.hasKey, ⟨hitem.hasKey, hitem.hasValue⟩, _, hitem.getKey, _,
        hitem.exactKey, hfresh, ih.mpr ⟨hshaped, hnodup.2, fun other hother hmem => ?_, ?_⟩⟩
      · rcases Finset.mem_insert.mp hmem with heq | hmem
        · exact hnodup.1 (heq ▸ List.mem_map_of_mem hother)
        · exact hseen other hother hmem
      · rw [List.map_cons, List.toFinset_cons, Finset.insert_union, Finset.union_insert]

/-- The set is the set of ids of a collection that is keyed by them. -/
theorem collectIdSet_ok_iff {snapshot : Json} {name : String} {out : Finset Int}
    (hhas : snapshot.has name = true) :
    collectIdSet snapshot name = .ok out ↔
      IntKeyed snapshot name ∧ out = ids snapshot name := by
  simp only [collectIdSet, Json.getItem_of_has hhas, bind_ok_iff, requireList_ok_iff,
    collectIds_ok_iff, Except.ok.injEq]
  constructor
  · rintro ⟨_, rfl, _, ⟨hlist, rfl⟩, hshaped, hnodup, -, rfl⟩
    exact ⟨⟨hlist, hshaped, hnodup⟩, by simp [ids, entries]⟩
  · rintro ⟨⟨hlist, hshaped, hnodup⟩, rfl⟩
    exact ⟨_, rfl, _, ⟨hlist, rfl⟩, hshaped, hnodup, by simp, by simp [ids, entries]⟩

/-- The ints of a logical key are read one by one. -/
theorem LogicalShaped.logical {arity : Nat} {item : Json} (h : LogicalShaped arity item)
    {err : Json → PyErr} :
    ((item.field "key").items.mapM fun c => require c.exactInt? (err c)) =
      .ok (logicalKey item) := by
  refine mapM_eq_ok_map fun c hc => ?_
  obtain ⟨n, hn⟩ := Option.isSome_iff_exists.mp (h.exact c hc)
  simp [require, hn]

/-- The same for logical keys, which come back with their records. -/
theorem collectLogicalKeys_ok_iff {name : String} {arity : Nat} {items : List Json}
    {seen : Finset (List Int)} {out : List (List Int × Json)} :
    collectLogicalKeys name arity items seen = .ok out ↔
      (∀ item ∈ items, LogicalShaped arity item) ∧ (items.map logicalKey).Nodup ∧
        (∀ item ∈ items, logicalKey item ∉ seen) ∧
        out = items.map fun item => (logicalKey item, entryValue item) := by
  induction items generalizing seen out with
  | nil => simp [collectLogicalKeys, eq_comm]
  | cons item rest ih =>
    simp only [collectLogicalKeys, bind_ok_iff, ensure_ok_iff, Bool.and_eq_true,
      decide_eq_true_eq, exists_const]
    constructor
    · rintro ⟨⟨⟨-, hkey⟩, hvalue⟩, key, hget, hlist, hlength, logical, hlogical, hfresh, value,
        hgetValue, result, hresult, hout⟩
      rw [Json.getItem_of_has hkey] at hget
      cases hget
      rw [Json.getItem_of_has hvalue] at hgetValue
      cases hgetValue
      have hexact : ∀ c ∈ (item.field "key").items, c.exactInt = true := by
        intro c hc
        obtain ⟨n, -, hn⟩ := exists_of_forall₂_left (mapM_ok_iff.mp hlogical) hc
        rw [require_ok_iff] at hn
        simp [Json.exactInt, hn]
      have hshape : LogicalShaped arity item := ⟨hkey, hvalue, hlist, hlength, hexact⟩
      have heq : logical = logicalKey item := by
        rw [hshape.logical] at hlogical
        exact (Except.ok.inj hlogical).symm
      subst heq
      -- the rest was collected with this key seen, so no later entry has it
      obtain ⟨hshaped, hnodup, hseen, rfl⟩ := ih.mp hresult
      have hnotin : logicalKey item ∉ rest.map logicalKey := by
        intro hmem
        obtain ⟨other, hother, hk⟩ := List.mem_map.mp hmem
        exact hseen other hother (by simp [hk])
      cases hout
      refine ⟨List.forall_mem_cons.mpr ⟨hshape, hshaped⟩, ?_, ?_, rfl⟩
      · rw [List.map_cons, List.nodup_cons]
        exact ⟨hnotin, hnodup⟩
      · refine List.forall_mem_cons.mpr ⟨hfresh, fun other hother => ?_⟩
        exact fun hmem => hseen other hother (Finset.mem_insert_of_mem hmem)
    · rintro ⟨hshaped, hnodup, hseen, rfl⟩
      obtain ⟨hitem, hshaped⟩ := List.forall_mem_cons.mp hshaped
      obtain ⟨hfresh, hseen⟩ := List.forall_mem_cons.mp hseen
      rw [List.map_cons, List.nodup_cons] at hnodup
      refine ⟨⟨⟨Json.isDict_of_has hitem.hasKey, hitem.hasKey⟩, hitem.hasValue⟩, _,
        Json.getItem_of_has hitem.hasKey, hitem.keyIsList, hitem.length, _, hitem.logical, hfresh,
        _,
        Json.getItem_of_has hitem.hasValue, _, ih.mpr ⟨hshaped, hnodup.2, ?_, rfl⟩, rfl⟩
      intro other hother hmem
      rcases Finset.mem_insert.mp hmem with heq | hmem
      · exact hnodup.1 (heq ▸ List.mem_map_of_mem hother)
      · exact hseen other hother hmem

theorem validateIdentityCollection_ok_iff {snapshot : Json} {name : String} {arity : Nat}
    {out : List (List Int × Json)} (hhas : snapshot.has name = true) :
    validateIdentityCollection snapshot name arity = .ok out ↔
      IdentityKeyed snapshot name arity ∧
        out = (entries snapshot name).map fun item => (logicalKey item, entryValue item) := by
  simp only [validateIdentityCollection, Json.getItem_of_has hhas, bind_ok_iff,
    requireList_ok_iff, collectLogicalKeys_ok_iff, Except.ok.injEq]
  constructor
  · rintro ⟨_, rfl, _, ⟨hlist, rfl⟩, hshaped, hnodup, -, rfl⟩
    exact ⟨⟨hlist, hshaped, hnodup⟩, rfl⟩
  · rintro ⟨⟨hlist, hshaped, hnodup⟩, rfl⟩
    exact ⟨_, rfl, _, ⟨hlist, rfl⟩, hshaped, hnodup, by simp, rfl⟩

/-- A name passes when an id equals it. -/
theorem ensureIn_ok_iff {v : Json} {ids : Finset Int} {err : PyErr} {u : Unit} :
    ensureIn v ids err = .ok u ↔ NamesIn ids v := by
  simp only [ensureIn, inIds, bind_ok_iff, ensure_ok_iff, NamesIn, Json.asInt?, Json.hash,
    pure, Except.pure, Except.ok.injEq]
  cases hkey : v.key? with
  | none => simp
  | some key =>
    cases hn : key.toInt? with
    | none => simp [hn]
    | some n => simp [hn]

/-- The record under an id carries that id. -/
theorem checkOwnId_ok_iff {name : String} {item : Json} (h : EntryShaped item) :
    checkOwnId name item = .ok () ↔
      (entryValue item).has "id" = true ∧
        ((entryValue item).field "id").asInt? = some (entryKey item) := by
  simp only [checkOwnId, h.getKey, h.getValue, h.key_eq, bind_ok_iff, ensure_ok_iff,
    Except.ok.injEq]
  constructor
  · rintro ⟨_, rfl, _, -, _, hhas, _, hid, _, rfl, heq⟩
    rw [Json.getItem_of_has hhas] at hid
    cases hid
    exact ⟨hhas, Json.eq_int.mp heq⟩
  · rintro ⟨hhas, heq⟩
    exact ⟨_, rfl, (), Json.isDict_of_has hhas, (), hhas, _, Json.getItem_of_has hhas, _, rfl,
      Json.eq_int.mpr heq⟩

/-- The claim of an evidence is restored too. -/
theorem checkEvidenceClaim_ok_iff {claimIds : Finset Int} {item : Json} (h : EntryShaped item) :
    checkEvidenceClaim claimIds item = .ok () ↔
      (entryValue item).has "claim_id" = true ∧
        NamesIn claimIds ((entryValue item).field "claim_id") := by
  simp only [checkEvidenceClaim, h.getKey, h.getValue, bind_ok_iff, ensure_ok_iff,
    Except.ok.injEq, Bool.and_eq_true, ensureIn_ok_iff]
  constructor
  · rintro ⟨_, rfl, _, ⟨-, hhas⟩, _, hid, _, rfl, hin⟩
    rw [Json.getItem_of_has hhas] at hid
    cases hid
    exact ⟨hhas, hin⟩
  · rintro ⟨hhas, hin⟩
    exact ⟨_, rfl, (), ⟨Json.isDict_of_has hhas, hhas⟩, _, Json.getItem_of_has hhas, _, rfl, hin⟩

theorem EntryShaped.requireEntry {name : String} {item : Json} (h : EntryShaped item) :
    Snapshot.requireEntry name item = .ok (.int (entryKey item), entryValue item) := by
  simp [Snapshot.requireEntry, h.getKey, h.getValue, h.key_eq, ensure, h.hasKey, h.hasValue,
    Json.isDict_of_has h.hasKey, bind, Except.bind, pure, Except.pure]

@[simp] theorem namesIn_int {ids : Finset Int} {k : Int} : NamesIn ids (.int k) ↔ k ∈ ids := by
  simp [NamesIn]

/-- A bucket entry whose claim and members exist. -/
structure BucketIn (claimIds targetIds : Finset Int) (item : Json) : Prop where
  claim : entryKey item ∈ claimIds
  isList : (entryValue item).isList = true
  members : ∀ member ∈ (entryValue item).items, NamesIn targetIds member

/-- The owner is a claim and each member is restored. -/
theorem checkBucket_ok_iff {name label target : String} {claimIds targetIds : Finset Int}
    {item : Json} (h : EntryShaped item) {out : Json × List Json} :
    checkBucket name label target claimIds targetIds item = .ok out ↔
      BucketIn claimIds targetIds item ∧
        out = (.int (entryKey item), (entryValue item).items) := by
  simp only [checkBucket, h.requireEntry, bind_ok_iff, ensure_ok_iff, ensureIn_ok_iff,
    Except.ok.injEq, pure, Except.pure]
  constructor
  · rintro ⟨_, rfl, _, hclaim, _, hlist, _, hmembers, rfl⟩
    refine ⟨⟨namesIn_int.mp hclaim, hlist, fun member hmember => ?_⟩, rfl⟩
    exact ensureIn_ok_iff.mp (forM_ok_iff.mp hmembers member hmember)
  · rintro ⟨⟨hclaim, hlist, hmembers⟩, rfl⟩
    refine ⟨_, rfl, (), namesIn_int.mpr hclaim, (), hlist, (),
      forM_ok_iff.mpr fun member hmember => ?_, rfl⟩
    exact ensureIn_ok_iff.mpr (hmembers member hmember)

/-- The hash keys of a bucket's members. -/
def bucketKeys (bucket : Json) : Finset HKey := (bucket.items.filterMap Json.key?).toFinset

/-- `set` of a list is made of the hash keys, if all members have one. -/
theorem setOf_list_ok_iff {members : List Json} {keys : Finset HKey} :
    (Json.list members).setOf = .ok keys ↔
      (∀ member ∈ members, member.key?.isSome = true) ∧ keys = bucketKeys (.list members) := by
  -- the members are hashed one by one, and the first that cannot be raises
  have hhash : (∀ member ∈ members, member.key?.isSome = true) →
      members.mapM Json.hash = .ok (members.filterMap Json.key?) := by
    intro h
    induction members with
    | nil => rfl
    | cons member rest ih =>
      obtain ⟨hmember, hrest⟩ := List.forall_mem_cons.mp h
      obtain ⟨key, hkey⟩ := Option.isSome_iff_exists.mp hmember
      simp [Json.hash, hkey, ih hrest, bind, Except.bind, pure, Except.pure]
  have hiter : (Json.list members).iterate = .ok members := rfl
  constructor
  · intro h
    obtain ⟨_, hitems, h⟩ := bind_ok_iff.mp h
    rw [hiter] at hitems
    cases hitems
    obtain ⟨hashes, hhashes, h⟩ := bind_ok_iff.mp h
    have hsome : ∀ member ∈ members, member.key?.isSome = true := by
      intro member hmember
      obtain ⟨key, _, hkey⟩ := exists_of_forall₂_left (mapM_ok_iff.mp hhashes) hmember
      simp [Json.hash_ok_iff.mp hkey]
    rw [hhash hsome] at hhashes
    cases hhashes
    exact ⟨hsome, (Except.ok.inj h).symm⟩
  · rintro ⟨hsome, rfl⟩
    exact bind_ok_iff.mpr ⟨_, hiter, bind_ok_iff.mpr ⟨_, hhash hsome, rfl⟩⟩

/-- The members of a bucket can be hashed, since they were compared with ints. -/
theorem setOf_bucket {targetIds : Finset Int} {members : List Json}
    (h : ∀ member ∈ members, NamesIn targetIds member) :
    (Json.list members).setOf = .ok (bucketKeys (.list members)) := by
  refine setOf_list_ok_iff.mpr ⟨fun member hmember => ?_, rfl⟩
  obtain ⟨n, -, hn⟩ := h member hmember
  simp [Json.asInt?_eq_some.mp hn]

/-- The index the loop ends with. -/
def indexOf (items : List Json) (index : Dict HKey (Finset HKey)) : Dict HKey (Finset HKey) :=
  items.foldl (fun index item =>
    index.insert (.int (entryKey item)) (bucketKeys (entryValue item))) index

/-- The index is built over buckets that pass. -/
theorem contradictionsIndex_ok_iff {claimIds evidenceIds : Finset Int} {items : List Json}
    (h : ∀ item ∈ items, EntryShaped item) {index out : Dict HKey (Finset HKey)} :
    contradictionsIndex claimIds evidenceIds items index = .ok out ↔
      (∀ item ∈ items, BucketIn claimIds evidenceIds item) ∧ out = indexOf items index := by
  -- the index is general: each bucket is added to what is there
  induction items generalizing index with
  | nil => simp [contradictionsIndex, indexOf, eq_comm]
  | cons item rest ih =>
    obtain ⟨hitem, hrest⟩ := List.forall_mem_cons.mp h
    simp only [contradictionsIndex, checkContradiction, bind_ok_iff, checkBucket_ok_iff hitem]
    constructor
    · rintro ⟨_, ⟨hbucket, rfl⟩, members, hset, key, hkey, hloop⟩
      have hlist := Json.eq_list_of_isList hbucket.isList
      rw [setOf_bucket hbucket.members, ← hlist] at hset
      cases hset
      cases hkey
      obtain ⟨hall, rfl⟩ := (ih hrest).mp hloop
      exact ⟨List.forall_mem_cons.mpr ⟨hbucket, hall⟩, rfl⟩
    · rintro ⟨hall, rfl⟩
      obtain ⟨hbucket, hall⟩ := List.forall_mem_cons.mp hall
      have hlist := Json.eq_list_of_isList hbucket.isList
      refine ⟨_, ⟨hbucket, rfl⟩, bucketKeys (entryValue item), ?_, _, rfl,
        (ih hrest).mpr ⟨hall, rfl⟩⟩
      rw [setOf_bucket hbucket.members, ← hlist]

/-- It finds the bucket of a claim, whose id occurs once. -/
theorem get?_indexOf {items : List Json} (h : (items.map entryKey).Nodup) {k : Int}
    {bucket : Finset HKey} :
    (indexOf items ∅).get? (.int k) = some bucket ↔
      ∃ item ∈ items, entryKey item = k ∧ bucketKeys (entryValue item) = bucket := by
  have hfold : indexOf items ∅ = Dict.ofList (items.map fun item =>
      (HKey.int (entryKey item), bucketKeys (entryValue item))) := by
    rw [Dict.ofList, List.foldl_map]
    rfl
  -- no claim has two buckets, so none is written over
  have hnodup : ((items.map fun item =>
      (HKey.int (entryKey item), bucketKeys (entryValue item))).map Prod.fst).Nodup := by
    rw [List.map_map]
    have : (Prod.fst ∘ fun item => (HKey.int (entryKey item), bucketKeys (entryValue item))) =
        HKey.int ∘ entryKey := rfl
    rw [this, ← List.map_map]
    exact h.map fun m n hmn => HKey.int_inj.mp hmn
  rw [hfold, ← Dict.mem_entries_iff, Dict.ofList_entries hnodup, List.mem_map]
  simp [Prod.ext_iff]

/-- A closed gap and the evidence that closed it are restored. -/
theorem checkGapResolution_ok_iff {gapIds evidenceIds : Finset Int} {item : Json}
    (h : EntryShaped item) :
    checkGapResolution gapIds evidenceIds item = .ok () ↔
      entryKey item ∈ gapIds ∧ NamesIn evidenceIds (entryValue item) := by
  simp [checkGapResolution, h.requireEntry, bind_ok_iff, ensureIn_ok_iff]

/-- An entry of `resolved_contradictions` under a contradiction entry that has its members. -/
structure ResolvedIn (claimIds : Finset Int) (contradictions : List Json) (item : Json) :
    Prop where
  claim : entryKey item ∈ claimIds
  isList : (entryValue item).isList = true
  registered : ∃ registered ∈ contradictions, entryKey registered = entryKey item ∧
    ∀ member ∈ (entryValue item).items, ∃ other ∈ (entryValue registered).items,
      member.key?.isSome = true ∧ member.key? = other.key?

/-- The keys of a bucket are those of its members. -/
theorem mem_bucketKeys {bucket : Json} {key : HKey} :
    key ∈ bucketKeys bucket ↔ ∃ member ∈ bucket.items, member.key? = some key := by
  simp [bucketKeys]

/-- A resolved contradiction is in the bucket of its claim. -/
theorem checkResolved_ok_iff {claimIds : Finset Int} {contradictions : List Json}
    (hnodup : (contradictions.map entryKey).Nodup) {item : Json} (h : EntryShaped item) :
    checkResolved claimIds (indexOf contradictions ∅) item = .ok () ↔
      ResolvedIn claimIds contradictions item := by
  simp only [checkResolved, h.requireEntry, bind_ok_iff, ensure_ok_iff, ensureIn_ok_iff,
    require_ok_iff, Except.ok.injEq]
  -- the bucket of the claim in the index, and every member in it
  constructor
  · rintro ⟨_, rfl, _, hclaim, _, hlist, key, hkey, bucket, hbucket, hmembers⟩
    cases hkey
    obtain ⟨registered, hreg, hkey, rfl⟩ := (get?_indexOf hnodup).mp hbucket
    refine ⟨namesIn_int.mp hclaim, hlist, registered, hreg, hkey, fun member hmember => ?_⟩
    obtain ⟨key, hhash, hin⟩ := bind_ok_iff.mp (forM_ok_iff.mp hmembers member hmember)
    obtain ⟨other, hother, hok⟩ := mem_bucketKeys.mp (of_decide_eq_true (ensure_ok_iff.mp hin))
    have hmk : member.key? = some key := Json.hash_ok_iff.mp hhash
    exact ⟨other, hother, by simp [hmk], hmk.trans hok.symm⟩
  · rintro ⟨hclaim, hlist, registered, hreg, hkey, hmembers⟩
    refine ⟨_, rfl, (), namesIn_int.mpr hclaim, (), hlist, _, rfl, _,
      (get?_indexOf hnodup).mpr ⟨registered, hreg, hkey, rfl⟩,
      forM_ok_iff.mpr fun member hmember => ?_⟩
    obtain ⟨other, hother, hsome, heq⟩ := hmembers member hmember
    obtain ⟨key, hmk⟩ := Option.isSome_iff_exists.mp hsome
    refine bind_ok_iff.mpr ⟨key, Json.hash_ok_iff.mpr hmk, ensure_ok_iff.mpr (decide_eq_true ?_)⟩
    exact mem_bucketKeys.mpr ⟨other, hother, by rw [← heq, hmk]⟩

/-- A bound on the greatest id is a bound on all. -/
theorem maxRestored_le_iff {ids : Finset Int} {n : Int} (hn : 0 ≤ n) :
    maxRestored ids ≤ n ↔ ∀ k ∈ ids, k ≤ n := by
  unfold maxRestored
  split
  · exact Finset.max'_le_iff _ _
  · rename_i hempty
    simp [Finset.not_nonempty_iff_eq_empty.mp hempty, hn]

/-- The counter of a kind, `0` where it is absent. -/
def counterOf (nextId : Json) (kind : String) : Json :=
  if nextId.has kind then nextId.field kind else .int 0

/-- A counter that no restored id is above. -/
def CounterCovers (nextId : Json) (kind : String) (ids : Finset Int) : Prop :=
  ∃ n, counterOf nextId kind = .int n ∧ 0 ≤ n ∧ ∀ k ∈ ids, k ≤ n

/-- A counter has to be at least the greatest id that was restored. -/
theorem checkCounter_ok_iff {nextId : Json} {kind : String} {ids : Finset Int} :
    checkCounter nextId kind ids = .ok () ↔ CounterCovers nextId kind ids := by
  unfold checkCounter CounterCovers counterOf
  -- a counter that is absent counts as zero
  cases hhas : nextId.has kind with
  | true =>
    simp only [if_true, Json.getItem_of_has hhas, bind_ok_iff, require_ok_iff, ensure_ok_iff,
      Except.ok.injEq, decide_eq_true_eq, Json.exactInt?_eq_some]
    constructor
    · rintro ⟨_, rfl, n, hn, _, h0, hle⟩
      exact ⟨n, hn, h0, (maxRestored_le_iff h0).mp hle⟩
    · rintro ⟨n, hn, h0, hle⟩
      exact ⟨_, rfl, n, hn, (), h0, (maxRestored_le_iff h0).mpr hle⟩
  | false =>
    simp only [Bool.false_eq_true, if_false, ensure_ok_iff, decide_eq_true_eq]
    rw [maxRestored_le_iff le_rfl]
    constructor
    · intro h
      exact ⟨0, rfl, le_rfl, h⟩
    · rintro ⟨n, hn, -, h⟩
      cases hn
      exact h

/-! ## The predicate

The conditions of all checks together, collection by collection. -/

/-- What the restore-integrity pass asks of a snapshot. -/
structure Restorable (s : Json) : Prop where
  required : ∀ name ∈ snapshotRequiredKeys, s.has name = true
  intKeyed : ∀ name ∈ intKeyedCollections, IntKeyed s name
  ownIds : ∀ name ∈ ["claims", "evidences", "gaps"], ∀ item ∈ entries s name,
    (entryValue item).has "id" = true ∧
      ((entryValue item).field "id").asInt? = some (entryKey item)
  evidenceClaims : ∀ item ∈ entries s "evidences",
    (entryValue item).has "claim_id" = true ∧
      NamesIn (ids s "claims") ((entryValue item).field "claim_id")
  contradictions : ∀ item ∈ entries s "contradictions",
    BucketIn (ids s "claims") (ids s "evidences") item
  claimGapRefs : ∀ item ∈ entries s "claim_gap_refs",
    BucketIn (ids s "claims") (ids s "gaps") item
  gapResolutions : ∀ item ∈ entries s "gap_resolutions",
    entryKey item ∈ ids s "gaps" ∧ NamesIn (ids s "evidences") (entryValue item)
  dedup : IdentityKeyed s "gap_dedup_index" 4
  dedupTargets : ∀ item ∈ entries s "gap_dedup_index", NamesIn (ids s "gaps") (entryValue item)
  resolved : ∀ item ∈ entries s "resolved_contradictions",
    ResolvedIn (ids s "claims") (entries s "contradictions") item
  ruleStats : IdentityKeyed s "rule_stats" 2
  ruleDefinitions : IdentityKeyed s "rule_definitions" 2
  hints : (s.field "hint_evidence_types").isList = true
  nextId : (s.field "next_id").isDict = true
  counters : ∀ p ∈ counterKindToCollection, CounterCovers (s.field "next_id") p.1 (ids s p.2)

/-- The sets collected first are found under their names later. -/
theorem lookup_idSets (s : Json) {name : String} (h : name ∈ intKeyedCollections) :
    ((intKeyedCollections.map fun name => (name, ids s name)).lookup name).getD ∅ =
      ids s name := by
  have hlookup : ∀ names : List String, name ∈ names →
      (names.map fun name => (name, ids s name)).lookup name = some (ids s name) := by
    intro names
    induction names with
    | nil => simp
    | cons first rest ih =>
      intro hmem
      rw [List.map_cons, Dict.lookup_cons_if]
      -- the first name, or one of the others
      by_cases hfirst : first = name
      · simp [hfirst]
      · have hrest : name ∈ rest := (List.mem_cons.mp hmem).resolve_left (Ne.symm hfirst)
        rw [if_neg hfirst, ih hrest]
  rw [hlookup _ h]
  rfl

theorem collectIdSets_ok_iff {s : Json}
    (hhas : ∀ name ∈ intKeyedCollections, s.has name = true) {out : List (String × Finset Int)} :
    (intKeyedCollections.mapM fun name => do
      let ids ← collectIdSet s name
      return (name, ids)) = .ok out ↔
      (∀ name ∈ intKeyedCollections, IntKeyed s name) ∧
        out = intKeyedCollections.map fun name => (name, ids s name) := by
  constructor
  · intro h
    have hmap := mapM_ok_iff.mp h
    -- each collection passed on its own
    have hkeyed : ∀ name ∈ intKeyedCollections, IntKeyed s name := by
      intro name hname
      obtain ⟨_, _, hp⟩ := exists_of_forall₂_left hmap hname
      obtain ⟨_, hcollect, _⟩ := bind_ok_iff.mp hp
      exact ((collectIdSet_ok_iff (hhas name hname)).mp hcollect).1
    refine ⟨hkeyed, ?_⟩
    have hsets : (intKeyedCollections.mapM fun name => do
        let ids ← collectIdSet s name
        return (name, ids)) = .ok (intKeyedCollections.map fun name => (name, ids s name)) :=
      mapM_eq_ok_map fun name hname => bind_ok_iff.mpr
        ⟨_, (collectIdSet_ok_iff (hhas name hname)).mpr ⟨hkeyed name hname, rfl⟩, rfl⟩
    rw [h] at hsets
    exact Except.ok.inj hsets
  · rintro ⟨hkeyed, rfl⟩
    exact mapM_eq_ok_map fun name hname => bind_ok_iff.mpr
      ⟨_, (collectIdSet_ok_iff (hhas name hname)).mpr ⟨hkeyed name hname, rfl⟩, rfl⟩

/-- Every collection the pass opens is required. -/
theorem intKeyed_required : ∀ name ∈ intKeyedCollections, name ∈ snapshotRequiredKeys := by
  decide

theorem owned_intKeyed : ∀ name ∈ ["claims", "evidences", "gaps"], name ∈ intKeyedCollections := by
  decide

theorem counted_intKeyed : ∀ p ∈ counterKindToCollection, p.2 ∈ intKeyedCollections := by decide

/-- A pass without an exception found every condition. -/
theorem restorable_of_validate {s : Json} (h : validateSnapshotRestoreIntegrity s = .ok ()) :
    Restorable s := by
  -- the checks in the order of the pass, each with what it returned
  -- the checks are taken apart in the order in which they run
  obtain ⟨_, _, h⟩ := bind_ok_iff.mp h
  obtain ⟨_, hreq, h⟩ := bind_ok_iff.mp h
  have hhas : ∀ name ∈ snapshotRequiredKeys, s.has name = true := fun name hname =>
    ensure_ok_iff.mp (forM_ok_iff.mp hreq name hname)
  have hget : ∀ {name v}, name ∈ snapshotRequiredKeys → s.getItem name = .ok v →
      v = s.field name := by
    intro name v hname hv
    rw [Json.getItem_of_has (hhas name hname)] at hv
    exact (Except.ok.inj hv).symm
  obtain ⟨idSets, hsets, h⟩ := bind_ok_iff.mp h
  obtain ⟨hint, rfl⟩ := (collectIdSets_ok_iff fun name hname =>
    hhas name (intKeyed_required name hname)).mp hsets
  obtain ⟨_, hown, h⟩ := bind_ok_iff.mp h
  obtain ⟨evidences, hev, h⟩ := bind_ok_iff.mp h
  obtain ⟨_, hevClaims, h⟩ := bind_ok_iff.mp h
  obtain ⟨contradictions, hcon, h⟩ := bind_ok_iff.mp h
  obtain ⟨contradictionItems, hconList, h⟩ := bind_ok_iff.mp h
  obtain ⟨index, hindex, h⟩ := bind_ok_iff.mp h
  obtain ⟨claimGapRefs, hcgr, h⟩ := bind_ok_iff.mp h
  obtain ⟨claimGapRefItems, hcgrList, h⟩ := bind_ok_iff.mp h
  obtain ⟨_, hcgrItems, h⟩ := bind_ok_iff.mp h
  obtain ⟨resolutions, hres, h⟩ := bind_ok_iff.mp h
  obtain ⟨resolutionItems, hresList, h⟩ := bind_ok_iff.mp h
  obtain ⟨_, hresItems, h⟩ := bind_ok_iff.mp h
  obtain ⟨dedup, hdedup, h⟩ := bind_ok_iff.mp h
  obtain ⟨_, htargets, h⟩ := bind_ok_iff.mp h
  obtain ⟨resolved, hrc, h⟩ := bind_ok_iff.mp h
  obtain ⟨resolvedItems, hrcList, h⟩ := bind_ok_iff.mp h
  obtain ⟨_, hrcItems, h⟩ := bind_ok_iff.mp h
  obtain ⟨_, hstats, h⟩ := bind_ok_iff.mp h
  obtain ⟨_, hdefs, h⟩ := bind_ok_iff.mp h
  obtain ⟨hintTypes, hhint, h⟩ := bind_ok_iff.mp h
  obtain ⟨_, hhintList, h⟩ := bind_ok_iff.mp h
  obtain ⟨nextId, hnext, h⟩ := bind_ok_iff.mp h
  obtain ⟨_, hnextDict, hcounters⟩ := bind_ok_iff.mp h
  -- each collection that was read is the field of that name
  cases hget (by decide) hev
  cases hget (by decide) hcon
  cases hget (by decide) hcgr
  cases hget (by decide) hres
  cases hget (by decide) hrc
  cases hget (by decide) hhint
  cases hget (by decide) hnext
  obtain ⟨-, rfl⟩ := requireList_ok_iff.mp hconList
  obtain ⟨-, rfl⟩ := requireList_ok_iff.mp hcgrList
  obtain ⟨-, rfl⟩ := requireList_ok_iff.mp hresList
  obtain ⟨-, rfl⟩ := requireList_ok_iff.mp hrcList
  have hconShaped := (hint "contradictions" (by decide)).shaped
  have hconNodup := (hint "contradictions" (by decide)).nodup
  obtain ⟨hbuckets, rfl⟩ := (contradictionsIndex_ok_iff hconShaped).mp hindex
  obtain ⟨hdedupKeyed, rfl⟩ :=
    (validateIdentityCollection_ok_iff (hhas _ (by decide))).mp hdedup
  exact {
    required := hhas
    intKeyed := hint
    ownIds := by
      intro name hname item hitem
      have hloop := forM_ok_iff.mp hown name hname
      obtain ⟨collection, hcoll, hloop⟩ := bind_ok_iff.mp hloop
      cases hget (intKeyed_required name (owned_intKeyed name hname)) hcoll
      exact (checkOwnId_ok_iff ((hint name (owned_intKeyed name hname)).shaped item hitem)).mp
        (forM_ok_iff.mp hloop item hitem)
    evidenceClaims := fun item hitem =>
      (checkEvidenceClaim_ok_iff ((hint "evidences" (by decide)).shaped item hitem)).mp
        (forM_ok_iff.mp hevClaims item hitem)
    contradictions := hbuckets
    claimGapRefs := by
      intro item hitem
      obtain ⟨_, hbucket, _⟩ := bind_ok_iff.mp (forM_ok_iff.mp hcgrItems item hitem)
      exact ((checkBucket_ok_iff
        ((hint "claim_gap_refs" (by decide)).shaped item hitem)).mp hbucket).1
    gapResolutions := fun item hitem =>
      (checkGapResolution_ok_iff
        ((hint "gap_resolutions" (by decide)).shaped item hitem)).mp
        (forM_ok_iff.mp hresItems item hitem)
    dedup := hdedupKeyed
    dedupTargets := by
      intro item hitem
      exact ensureIn_ok_iff.mp (forM_ok_iff.mp htargets _ (List.mem_map_of_mem hitem))
    resolved := fun item hitem =>
      (checkResolved_ok_iff hconNodup
        ((hint "resolved_contradictions" (by decide)).shaped item hitem)).mp
        (forM_ok_iff.mp hrcItems item hitem)
    ruleStats := ((validateIdentityCollection_ok_iff (hhas _ (by decide))).mp hstats).1
    ruleDefinitions := ((validateIdentityCollection_ok_iff (hhas _ (by decide))).mp hdefs).1
    hints := (requireList_ok_iff.mp hhintList).1
    nextId := ensure_ok_iff.mp hnextDict
    counters := by
      intro p hp
      have hcheck := checkCounter_ok_iff.mp (forM_ok_iff.mp hcounters p hp)
      simp only [lookup_idSets s (counted_intKeyed p hp)] at hcheck
      exact hcheck }

/-- Where the conditions hold, no check raises. -/
theorem validate_of_restorable {s : Json} (h : Restorable s) :
    validateSnapshotRestoreIntegrity s = .ok () := by
  have hget : ∀ {name}, name ∈ snapshotRequiredKeys → s.getItem name = .ok (s.field name) :=
    fun hname => Json.getItem_of_has (h.required _ hname)
  have hshaped : ∀ {name}, name ∈ intKeyedCollections → ∀ item ∈ entries s name,
      EntryShaped item := fun hname => (h.intKeyed _ hname).shaped
  have hlist : ∀ {name}, name ∈ intKeyedCollections →
      requireList name (s.field name) = .ok (entries s name) := fun hname =>
    requireList_ok_iff.mpr ⟨(h.intKeyed _ hname).isList, rfl⟩
  have hsets := (collectIdSets_ok_iff fun name hname =>
    h.required name (intKeyed_required name hname)).mpr ⟨h.intKeyed, rfl⟩
  have hindex : contradictionsIndex (ids s "claims") (ids s "evidences")
      (entries s "contradictions") ∅ = .ok (indexOf (entries s "contradictions") ∅) :=
    (contradictionsIndex_ok_iff (hshaped (by decide))).mpr ⟨h.contradictions, rfl⟩
  -- no check fails, in the order of the pass
  refine bind_ok_iff.mpr ⟨(), ensure_ok_iff.mpr (Json.isDict_of_has
    (h.required "claims" (by decide))), ?_⟩
  refine bind_ok_iff.mpr ⟨(), forM_ok_iff.mpr fun name hname =>
    ensure_ok_iff.mpr (h.required name hname), ?_⟩
  refine bind_ok_iff.mpr ⟨_, hsets, ?_⟩
  refine bind_ok_iff.mpr ⟨(), forM_ok_iff.mpr fun name hname => ?_, ?_⟩
  · refine bind_ok_iff.mpr ⟨_, hget (intKeyed_required name (owned_intKeyed name hname)), ?_⟩
    exact forM_ok_iff.mpr fun item hitem =>
      (checkOwnId_ok_iff (hshaped (owned_intKeyed name hname) item hitem)).mpr
        (h.ownIds name hname item hitem)
  refine bind_ok_iff.mpr ⟨_, hget (by decide), ?_⟩
  refine bind_ok_iff.mpr ⟨(), forM_ok_iff.mpr fun item hitem =>
    (checkEvidenceClaim_ok_iff (hshaped (by decide) item hitem)).mpr
      (h.evidenceClaims item hitem), ?_⟩
  refine bind_ok_iff.mpr ⟨_, hget (by decide), ?_⟩
  refine bind_ok_iff.mpr ⟨_, hlist (by decide), ?_⟩
  refine bind_ok_iff.mpr ⟨_, hindex, ?_⟩
  refine bind_ok_iff.mpr ⟨_, hget (by decide), ?_⟩
  refine bind_ok_iff.mpr ⟨_, hlist (by decide), ?_⟩
  refine bind_ok_iff.mpr ⟨(), forM_ok_iff.mpr fun item hitem => ?_, ?_⟩
  · exact bind_ok_iff.mpr ⟨_, (checkBucket_ok_iff (hshaped (by decide) item hitem)).mpr
      ⟨h.claimGapRefs item hitem, rfl⟩, rfl⟩
  refine bind_ok_iff.mpr ⟨_, hget (by decide), ?_⟩
  refine bind_ok_iff.mpr ⟨_, hlist (by decide), ?_⟩
  refine bind_ok_iff.mpr ⟨(), forM_ok_iff.mpr fun item hitem =>
    (checkGapResolution_ok_iff (hshaped (by decide) item hitem)).mpr
      (h.gapResolutions item hitem), ?_⟩
  refine bind_ok_iff.mpr ⟨_, (validateIdentityCollection_ok_iff
    (h.required _ (by decide))).mpr ⟨h.dedup, rfl⟩, ?_⟩
  refine bind_ok_iff.mpr ⟨(), forM_ok_iff.mpr fun p hp => ?_, ?_⟩
  · obtain ⟨item, hitem, rfl⟩ := List.mem_map.mp hp
    exact ensureIn_ok_iff.mpr (h.dedupTargets item hitem)
  refine bind_ok_iff.mpr ⟨_, hget (by decide), ?_⟩
  refine bind_ok_iff.mpr ⟨_, hlist (by decide), ?_⟩
  refine bind_ok_iff.mpr ⟨(), forM_ok_iff.mpr fun item hitem =>
    (checkResolved_ok_iff (h.intKeyed "contradictions" (by decide)).nodup
      (hshaped (by decide) item hitem)).mpr (h.resolved item hitem), ?_⟩
  refine bind_ok_iff.mpr ⟨_, (validateIdentityCollection_ok_iff
    (h.required _ (by decide))).mpr ⟨h.ruleStats, rfl⟩, ?_⟩
  refine bind_ok_iff.mpr ⟨_, (validateIdentityCollection_ok_iff
    (h.required _ (by decide))).mpr ⟨h.ruleDefinitions, rfl⟩, ?_⟩
  refine bind_ok_iff.mpr ⟨_, hget (by decide), ?_⟩
  refine bind_ok_iff.mpr ⟨_, requireList_ok_iff.mpr ⟨h.hints, rfl⟩, ?_⟩
  refine bind_ok_iff.mpr ⟨_, hget (by decide), ?_⟩
  refine bind_ok_iff.mpr ⟨(), ensure_ok_iff.mpr h.nextId, ?_⟩
  refine forM_ok_iff.mpr fun p hp => checkCounter_ok_iff.mpr ?_
  simp only [lookup_idSets s (counted_intKeyed p hp)]
  exact h.counters p hp

/-- **The pass decides `Restorable`.** -/
theorem validate_ok_iff {s : Json} :
    validateSnapshotRestoreIntegrity s = .ok () ↔ Restorable s :=
  ⟨restorable_of_validate, validate_of_restorable⟩

end Snapshot

end Ragcore
