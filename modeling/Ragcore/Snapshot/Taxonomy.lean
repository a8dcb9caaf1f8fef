import Ragcore.Snapshot.Restore

/-!
# Ragcore — what a failing restore raises

Every lookup, hash, comparison and keyword call on the way through migration, validation,
decoding and status admission, with the exceptions it can end in.

* **`Declared`** — `TypeError` and `ValueError`, the contract surface of a restore.
* **`Caught`** — these and `KeyError`: what the body of the `try` block may raise. Outside it
  each subscript comes after a check that its key is there.
* **`fromSnapshot_declared`** — a restore of any value ends in an engine or a declared exception.
-/

namespace Ragcore

namespace Snapshot

/-- The exceptions a restore may end in. -/
def Declared (err : PyErr) : Prop := err.kind = .typeError ∨ err.kind = .valueError

/-- The exceptions the body of the `try` block may end in. -/
def Caught (err : PyErr) : Prop := Declared err ∨ err.kind = .keyError

@[simp] theorem Declared.typeError (m : List MsgPart) : Declared (.typeError m) := .inl rfl

@[simp] theorem Declared.valueError (m : List MsgPart) : Declared (.valueError m) := .inr rfl

@[simp] theorem Caught.keyError (m : List MsgPart) : Caught (.keyError m) := .inr rfl

@[simp] theorem Caught.typeError (m : List MsgPart) : Caught (.typeError m) := .inl (.typeError m)

@[simp] theorem Caught.valueError (m : List MsgPart) : Caught (.valueError m) :=
  .inl (.valueError m)

end Snapshot

/-- What may be declared may be caught. -/
theorem RaisesOnly.caught {α : Type} {x : Except PyErr α}
    (h : RaisesOnly Snapshot.Declared x) : RaisesOnly Snapshot.Caught x :=
  h.mono fun _ => .inl

namespace Snapshot

/-! ## Primitives

The operations on decoded values. A lookup by name raises `KeyError` on a missing field, which the
decoder turns into a `ValueError`; every other failure is declared as it is. -/

theorem hash_declared (v : Json) : RaisesOnly Declared v.hash := by
  unfold Json.hash
  cases v.key? with
  | none => exact .error (.typeError _)
  | some key => exact .ok key

/-- A field that was checked for is read without a `KeyError`. -/
theorem getItem_declared {v : Json} {name : String} (h : v.has name = true) :
    RaisesOnly Declared (v.getItem name) := by
  rw [Json.getItem_of_has h]
  exact .ok _

/-- Without that check the `KeyError` is caught outside. -/
theorem getItem_caught (v : Json) (name : String) : RaisesOnly Caught (v.getItem name) := by
  unfold Json.getItem
  split
  · split
    · exact .ok _
    · exact .error (.keyError _)
  · exact .error (.typeError _)
  · exact .error (.typeError _)
  · exact .error (.typeError _)

theorem iterate_declared (v : Json) : RaisesOnly Declared v.iterate := by
  unfold Json.iterate
  cases v.iterate? with
  | none => exact .error (.typeError _)
  | some xs => exact .ok xs

theorem setOf_declared (v : Json) : RaisesOnly Declared v.setOf :=
  .bind (iterate_declared v) fun _ _ =>
    .bind (.mapM fun x _ => hash_declared x) fun _ _ => .pure _

/-- An item that is no pair is a `TypeError` or a `ValueError`, as in `dict(v)`. -/
theorem dictFromPairs_declared (pairs : List Json) (d : Dict HKey Json) :
    RaisesOnly Declared (Json.dictFromPairs pairs d) := by
  induction pairs generalizing d with
  | nil => exact .ok d
  | cons pair rest ih =>
    unfold Json.dictFromPairs
    split
    · exact .error (.typeError _)
    · exact .bind (hash_declared _) fun key _ => ih _
    · exact .error (.valueError _)

theorem dictOf_declared (v : Json) : RaisesOnly Declared v.dictOf := by
  unfold Json.dictOf
  split
  · exact .ok _
  · exact .bind (iterate_declared v) fun pairs _ => dictFromPairs_declared pairs ∅

/-- `{**v}` of a value that is no mapping is a `TypeError`. -/
theorem mappingOf_declared (v : Json) : RaisesOnly Declared v.mappingOf := by
  unfold Json.mappingOf
  split
  · exact .ok _
  · exact .error (.typeError _)

/-- A missing argument is a `KeyError`. -/
theorem dictItem_caught (d : Dict HKey Json) (name : String) :
    RaisesOnly Caught (dictItem d name) := by
  unfold dictItem
  split
  · exact .ok _
  · exact .error (.keyError _)

/-- Keyword arguments that do not fit raise `TypeError`. -/
theorem bindArguments_declared (cls : String) (required optional : List String)
    (d : Dict HKey Json) : RaisesOnly Declared (bindArguments cls required optional d) := by
  unfold bindArguments
  split
  · split
    · exact .error (.typeError _)
    · split
      · exact .error (.typeError _)
      · exact .ok ()
  · exact .error (.typeError _)

/-! ## Migration

The version is checked before anything is read. -/

theorem migrate_declared (fields : Fields) :
    RaisesOnly Declared (migrateSnapshotToCurrent fields) :=
  .bind (.ensure (.valueError _)) fun _ _ =>
    .bind (hash_declared _) fun _ _ =>
      .bind (.ensure (.valueError _)) fun _ _ =>
        .bind (.ensure (.valueError _)) fun _ _ => .pure _

/-! ## Collections

The collections are read under names whose presence was checked, so no `KeyError` is left. -/

theorem requireList_declared (name : String) (v : Json) :
    RaisesOnly Declared (requireList name v) :=
  .bind (.ensure (.typeError _)) fun _ _ => .pure _

/-- A bad id, a duplicate and an entry that is no dict are each declared. -/
theorem collectIds_declared (name : String) (items : List Json) (seen : Finset Int) :
    RaisesOnly Declared (collectIds name items seen) := by
  induction items generalizing seen with
  | nil => exact .ok seen
  | cons item rest ih =>
    refine .bind (.ensure (.typeError _)) fun _ _ => ?_
    refine .bind (.ensure (.valueError _)) fun _ shaped => ?_
    have hasKey := (Bool.and_eq_true _ _ ▸ ensure_ok_iff.mp shaped).1
    refine .bind (getItem_declared hasKey) fun key _ => ?_
    refine .bind (.require (.typeError _)) fun id _ => ?_
    exact .bind (.ensure (.valueError _)) fun _ _ => ih _

theorem collectIdSet_declared {s : Json} {name : String} (h : s.has name = true) :
    RaisesOnly Declared (collectIdSet s name) :=
  .bind (getItem_declared h) fun _ _ =>
    .bind (requireList_declared name _) fun items _ => collectIds_declared name items ∅

/-- So are a logical key of another arity and a duplicate one. -/
theorem collectLogicalKeys_declared (name : String) (arity : Nat) (items : List Json)
    (seen : Finset (List Int)) :
    RaisesOnly Declared (collectLogicalKeys name arity items seen) := by
  induction items generalizing seen with
  | nil => exact .ok []
  | cons item rest ih =>
    refine .bind (.ensure (.valueError _)) fun _ shaped => ?_
    have has := ensure_ok_iff.mp shaped
    simp only [Bool.and_eq_true] at has
    refine .bind (getItem_declared has.1.2) fun key _ => ?_
    refine .bind (.ensure (.typeError _)) fun _ _ => ?_
    refine .bind (.ensure (.valueError _)) fun _ _ => ?_
    refine .bind (.mapM fun component _ => .require (.typeError _)) fun logical _ => ?_
    refine .bind (.ensure (.valueError _)) fun _ _ => ?_
    refine .bind (getItem_declared has.2) fun value _ => ?_
    exact .bind (ih _) fun _ _ => .pure _

theorem validateIdentityCollection_declared {s : Json} {name : String} (arity : Nat)
    (h : s.has name = true) : RaisesOnly Declared (validateIdentityCollection s name arity) :=
  .bind (getItem_declared h) fun _ _ =>
    .bind (requireList_declared name _) fun items _ =>
      collectLogicalKeys_declared name arity items ∅

/-! ## Cross-references

Each check of the integrity pass names the entry that fails it. -/

theorem ensureIn_declared (v : Json) (ids : Finset Int) {err : PyErr} (h : Declared err) :
    RaisesOnly Declared (ensureIn v ids err) :=
  .bind (.bind (hash_declared v) fun _ _ => .pure _) fun _ _ => .ensure h

/-- The record was found to be a dict before its id is read. -/
theorem checkOwnId_declared (name : String) {item : Json} (h : EntryShaped item) :
    RaisesOnly Declared (checkOwnId name item) := by
  refine .bind (getItem_declared h.hasValue) fun value _ => ?_
  refine .bind (.ensure (.typeError _)) fun _ _ => ?_
  refine .bind (.ensure (.valueError _)) fun _ hasId => ?_
  refine .bind (getItem_declared (ensure_ok_iff.mp hasId)) fun id _ => ?_
  exact .bind (getItem_declared h.hasKey) fun key _ => .ensure (.valueError _)

/-- A missing `claim_id` is reported, not raised as a `KeyError`. -/
theorem checkEvidenceClaim_declared (claimIds : Finset Int) {item : Json} (h : EntryShaped item) :
    RaisesOnly Declared (checkEvidenceClaim claimIds item) := by
  refine .bind (getItem_declared h.hasValue) fun value _ => ?_
  refine .bind (.ensure (.valueError _)) fun _ named => ?_
  have hasClaim := ensure_ok_iff.mp named
  simp only [Bool.and_eq_true] at hasClaim
  refine .bind (getItem_declared hasClaim.2) fun evClaimId _ => ?_
  exact .bind (getItem_declared h.hasKey) fun key _ =>
    ensureIn_declared evClaimId claimIds (.valueError _)

theorem requireEntry_declared (name : String) (item : Json) :
    RaisesOnly Declared (requireEntry name item) := by
  refine .bind (.ensure (.valueError _)) fun _ shaped => ?_
  have has := ensure_ok_iff.mp shaped
  simp only [Bool.and_eq_true] at has
  exact .bind (getItem_declared has.1.2) fun _ _ =>
    .bind (getItem_declared has.2) fun _ _ => .pure _

/-- The owner of the bucket and its members are checked one by one. -/
theorem checkBucket_declared (name label target : String) (claimIds targetIds : Finset Int)
    (item : Json) :
    RaisesOnly Declared (checkBucket name label target claimIds targetIds item) := by
  refine .bind (requireEntry_declared name item) fun entry _ => ?_
  refine .bind (ensureIn_declared _ claimIds (.valueError _)) fun _ _ => ?_
  refine .bind (.ensure (.typeError _)) fun _ _ => ?_
  exact .bind (.forM fun member _ => ensureIn_declared member targetIds (.valueError _))
    fun _ _ => .pure _

/-- The index hashes what it files, and an unhashable member is a `TypeError`. -/
theorem contradictionsIndex_declared (claimIds evidenceIds : Finset Int) (items : List Json)
    (index : Dict HKey (Finset HKey)) :
    RaisesOnly Declared (contradictionsIndex claimIds evidenceIds items index) := by
  induction items generalizing index with
  | nil => exact .ok index
  | cons item rest ih =>
    refine .bind (checkBucket_declared _ _ _ claimIds evidenceIds item) fun entry _ => ?_
    refine .bind (setOf_declared _) fun members _ => ?_
    exact .bind (hash_declared _) fun key _ => ih _

theorem checkGapResolution_declared (gapIds evidenceIds : Finset Int) (item : Json) :
    RaisesOnly Declared (checkGapResolution gapIds evidenceIds item) :=
  .bind (requireEntry_declared _ item) fun _ _ =>
    .bind (ensureIn_declared _ gapIds (.valueError _)) fun _ _ =>
      ensureIn_declared _ evidenceIds (.valueError _)

/-- A resolved contradiction must be registered under its claim. -/
theorem checkResolved_declared (claimIds : Finset Int) (index : Dict HKey (Finset HKey))
    (item : Json) : RaisesOnly Declared (checkResolved claimIds index item) := by
  refine .bind (requireEntry_declared _ item) fun entry _ => ?_
  refine .bind (ensureIn_declared _ claimIds (.valueError _)) fun _ _ => ?_
  refine .bind (.ensure (.typeError _)) fun _ _ => ?_
  refine .bind (hash_declared _) fun key _ => ?_
  refine .bind (.require (.valueError _)) fun registered _ => ?_
  exact .forM fun member _ => .bind (hash_declared member) fun _ _ => .ensure (.valueError _)

/-- A counter that is no int or too small is declared. -/
theorem checkCounter_declared (nextId : Json) (kind : String) (ids : Finset Int) :
    RaisesOnly Declared (checkCounter nextId kind ids) := by
  unfold checkCounter
  dsimp only
  split
  · rename_i has
    refine .bind (getItem_declared has) fun value _ => ?_
    refine .bind (.require (.typeError _)) fun counter _ => ?_
    exact .bind (.ensure (.valueError _)) fun _ _ => .ensure (.valueError _)
  · exact .ensure (.valueError _)

/-! ## The integrity pass

The checks in the order of the source. Every collection it opens is one of the required ones. -/

/-- The pass raises `TypeError` and `ValueError` and nothing else. -/
theorem validate_declared (s : Json) :
    RaisesOnly Declared (validateSnapshotRestoreIntegrity s) := by
  refine .bind (.ensure (.typeError _)) fun _ _ => ?_
  refine .bind (.forM fun name _ => .ensure (.valueError _)) fun _ required => ?_
  -- Every top-level subscript below is of a required key.
  have has : ∀ name ∈ snapshotRequiredKeys, s.has name = true := fun name listed =>
    ensure_ok_iff.mp (forM_ok_iff.mp required name listed)
  have get : ∀ {name}, name ∈ snapshotRequiredKeys → RaisesOnly Declared (s.getItem name) :=
    fun listed => getItem_declared (has _ listed)
  refine .bind (.mapM fun name listed => .bind (collectIdSet_declared
    (has name (intKeyed_required name listed))) fun _ _ => .pure _) fun idSets collected => ?_
  -- The entries the id sets were collected from carry `key` and `value`.
  have keyed := ((collectIdSets_ok_iff fun name listed =>
    has name (intKeyed_required name listed)).mp collected).1
  have entriesOf : ∀ {name v}, name ∈ intKeyedCollections → s.getItem name = .ok v →
      ∀ item ∈ v.items, EntryShaped item := by
    intro name v listed read
    rw [Json.getItem_of_has (has name (intKeyed_required name listed))] at read
    cases read
    exact (keyed name listed).shaped
  refine .bind (.forM fun name owned => ?_) fun _ _ => ?_
  · refine .bind (get (intKeyed_required name (owned_intKeyed name owned))) fun v read => ?_
    exact .forM fun item mem =>
      checkOwnId_declared name (entriesOf (owned_intKeyed name owned) read item mem)
  refine .bind (get (by decide)) fun evidences read => ?_
  refine .bind (.forM fun item mem =>
    checkEvidenceClaim_declared _ (entriesOf (by decide) read item mem)) fun _ _ => ?_
  refine .bind (get (by decide)) fun contradictions _ => ?_
  refine .bind (requireList_declared _ _) fun contradictionItems _ => ?_
  refine .bind (contradictionsIndex_declared _ _ _ ∅) fun index _ => ?_
  refine .bind (get (by decide)) fun claimGapRefs _ => ?_
  refine .bind (requireList_declared _ _) fun claimGapRefItems _ => ?_
  refine .bind (.forM fun item _ =>
    .bind (checkBucket_declared _ _ _ _ _ item) fun _ _ => .pure _) fun _ _ => ?_
  refine .bind (get (by decide)) fun resolutions _ => ?_
  refine .bind (requireList_declared _ _) fun resolutionItems _ => ?_
  refine .bind (.forM fun item _ => checkGapResolution_declared _ _ item) fun _ _ => ?_
  refine .bind (validateIdentityCollection_declared 4 (has _ (by decide))) fun dedup _ => ?_
  refine .bind (.forM fun entry _ => ensureIn_declared _ _ (.valueError _)) fun _ _ => ?_
  refine .bind (get (by decide)) fun resolved _ => ?_
  refine .bind (requireList_declared _ _) fun resolvedItems _ => ?_
  refine .bind (.forM fun item _ => checkResolved_declared _ _ item) fun _ _ => ?_
  refine .bind (validateIdentityCollection_declared 2 (has _ (by decide))) fun _ _ => ?_
  refine .bind (validateIdentityCollection_declared 2 (has _ (by decide))) fun _ _ => ?_
  refine .bind (get (by decide)) fun hintTypes _ => ?_
  refine .bind (requireList_declared _ _) fun _ _ => ?_
  refine .bind (get (by decide)) fun nextId _ => ?_
  refine .bind (.ensure (.typeError _)) fun _ _ => ?_
  exact .forM fun p _ => checkCounter_declared nextId p.1 _

/-! ## Records

The constructors of the dataclasses, whose arguments may be missing. -/

/-- A score out of range is a `ValueError`, a value that is no number a `TypeError`. -/
theorem scoreValue_declared (v : Json) : RaisesOnly Declared (ScoreValue.new v) := by
  unfold ScoreValue.new
  split
  · exact .error (.typeError _)
  · split
    · exact .ok _
    · exact .error (.valueError _)
  · exact .error (.valueError _)

/-- A score without its field is a `KeyError`. -/
theorem svFromDict_caught (d : Json) : RaisesOnly Caught (svFromDict d) := by
  unfold svFromDict
  split
  · exact .ok none
  · exact .bind (getItem_caught d "value") fun value _ =>
      .bind (scoreValue_declared value).caught fun _ _ => .pure _

theorem intId_caught (v : Json) : RaisesOnly Caught (intId v) := .require (.typeError _)

/-- `Cls(**d)` without a decoded field. -/
theorem record_caught {α : Type} {cls : String} {required optional : List String} {d : Json}
    {build : Dict HKey Json → α} :
    RaisesOnly Caught (do
      let d ← d.mappingOf
      bindArguments cls required optional d
      return build d) :=
  .bind (mappingOf_declared d).caught fun _ _ =>
    .bind (bindArguments_declared _ _ _ _).caught fun _ _ => .pure _

/-- The records that only bind their arguments. -/
theorem entityFromDict_caught (d : Json) : RaisesOnly Caught (entityFromDict d) := record_caught

theorem observationFromDict_caught (d : Json) : RaisesOnly Caught (observationFromDict d) :=
  record_caught

theorem relationFromDict_caught (d : Json) : RaisesOnly Caught (relationFromDict d) :=
  record_caught

theorem eventFromDict_caught (d : Json) : RaisesOnly Caught (eventFromDict d) := record_caught

/-- The records that also decode scores and ids. -/
theorem claimFromDict_caught (d : Json) : RaisesOnly Caught (claimFromDict d) := by
  refine .bind (dictOf_declared d).caught fun d _ => ?_
  refine .bind (dictItem_caught d "base_confidence") fun score _ => ?_
  refine .bind (svFromDict_caught score) fun _ _ => ?_
  refine .bind (bindArguments_declared _ _ _ _).caught fun _ _ => ?_
  exact .bind (intId_caught _) fun _ _ => .pure _

theorem evidenceFromDict_caught (d : Json) : RaisesOnly Caught (evidenceFromDict d) := by
  refine .bind (dictOf_declared d).caught fun d _ => ?_
  refine .bind (dictItem_caught d "strength") fun score _ => ?_
  refine .bind (svFromDict_caught score) fun _ _ => ?_
  refine .bind (bindArguments_declared _ _ _ _).caught fun _ _ => ?_
  exact .bind (intId_caught _) fun _ _ => .bind (intId_caught _) fun _ _ => .pure _

theorem gapFromDict_caught (d : Json) : RaisesOnly Caught (gapFromDict d) := by
  refine .bind (dictOf_declared d).caught fun d _ => ?_
  refine .bind (dictItem_caught d "severity") fun score _ => ?_
  refine .bind (svFromDict_caught score) fun _ _ => ?_
  refine .bind (bindArguments_declared _ _ _ _).caught fun _ _ => ?_
  exact .bind (intId_caught _) fun _ _ => .pure _

theorem ruleDefFromDict_caught (d : Json) : RaisesOnly Caught (ruleDefFromDict d) := by
  refine .bind (dictOf_declared d).caught fun d _ => ?_
  refine .bind (dictItem_caught d "prior_confidence") fun score _ => ?_
  refine .bind (svFromDict_caught score) fun _ _ => ?_
  exact .bind (bindArguments_declared _ _ _ _).caught fun _ _ => .pure _

theorem ruleStatsFromDict_caught (d : Json) : RaisesOnly Caught (ruleStatsFromDict d) := by
  refine .bind (dictOf_declared d).caught fun d _ => ?_
  refine .bind (svFromDict_caught _) fun _ _ => ?_
  refine .bind (svFromDict_caught _) fun _ _ => ?_
  exact .bind (bindArguments_declared _ _ _ _).caught fun _ _ => .pure _

/-! ## Stores

A store decodes key by key and value by value. -/

/-- A key that is not of its shape is a `TypeError`; a value raises what its decoder raises. -/
theorem restoreDict_caught {κ α : Type} [DecidableEq κ] {readKey : Json → Option κ}
    {readValue : Json → Except PyErr α} (collection : Json)
    (value : ∀ v, RaisesOnly Caught (readValue v)) :
    RaisesOnly Caught (restoreDict readKey readValue collection) := by
  refine .bind (iterate_declared collection).caught fun items _ => ?_
  refine .bind (.mapM fun item _ => ?_) fun pairs _ => .pure _
  refine .bind (getItem_caught item "key") fun key _ => ?_
  refine .bind (.require (.typeError _)) fun k _ => ?_
  refine .bind (getItem_caught item "value") fun v _ => ?_
  exact .bind (value v) fun _ _ => .pure _

theorem idBucket_caught (value : Json) : RaisesOnly Caught (idBucket value) :=
  .bind (setOf_declared value).caught fun _ _ => .pure _

/-- A claim without a status is a `ValueError`. -/
theorem requireStatuses_caught (s : Json) : RaisesOnly Caught (requireStatuses s) := by
  refine .bind (getItem_caught s "claims") fun claims _ => ?_
  refine .bind (iterate_declared claims).caught fun items _ => ?_
  exact .forM fun item _ => .bind (getItem_caught item "value") fun _ _ => .ensure (.valueError _)

theorem nextIdOf_caught (nextId : Json) : RaisesOnly Caught (nextIdOf nextId) := by
  unfold nextIdOf
  split
  · exact .ok _
  · exact .error (.typeError _)

theorem decodeStores_caught (s : Json) : RaisesOnly Caught (decodeStores s) := by
  have get := getItem_caught s
  refine .bind (requireStatuses_caught s) fun _ _ => ?_
  refine .bind (nextIdOf_caught _) fun nextId _ => ?_
  refine .bind (get _) fun v _ => .bind (restoreDict_caught v entityFromDict_caught) fun _ _ => ?_
  refine .bind (get _) fun v _ =>
    .bind (restoreDict_caught v observationFromDict_caught) fun _ _ => ?_
  refine .bind (get _) fun v _ => .bind (restoreDict_caught v claimFromDict_caught) fun _ _ => ?_
  refine .bind (get _) fun v _ =>
    .bind (restoreDict_caught v evidenceFromDict_caught) fun _ _ => ?_
  refine .bind (get _) fun v _ =>
    .bind (restoreDict_caught v relationFromDict_caught) fun _ _ => ?_
  refine .bind (get _) fun v _ => .bind (restoreDict_caught v gapFromDict_caught) fun _ _ => ?_
  refine .bind (get _) fun v _ =>
    .bind (restoreDict_caught v ruleDefFromDict_caught) fun _ _ => ?_
  refine .bind (get _) fun v _ =>
    .bind (restoreDict_caught v ruleStatsFromDict_caught) fun _ _ => ?_
  refine .bind (get _) fun v _ => .bind (restoreDict_caught v intId_caught) fun _ _ => ?_
  refine .bind (get _) fun v _ => .bind (restoreDict_caught v idBucket_caught) fun _ _ => ?_
  refine .bind (get _) fun v _ => .bind (restoreDict_caught v intId_caught) fun _ _ => ?_
  refine .bind (get _) fun v _ => .bind (restoreDict_caught v idBucket_caught) fun _ _ => ?_
  refine .bind (get _) fun v _ => .bind (restoreDict_caught v idBucket_caught) fun _ _ => ?_
  refine .bind (get _) fun v _ => .bind (restoreDict_caught v fun value =>
    .bind (iterate_declared value).caught fun _ _ =>
      .mapM fun record _ => eventFromDict_caught record) fun _ _ => ?_
  exact .bind (get _) fun v _ => .bind (setOf_declared v).caught fun _ _ => .pure _

/-! ## The restore

The decoder runs inside a handler that turns what is caught into what is declared. -/

/-- The `except` clause leaves declared exceptions only. -/
theorem keyErrorAsValueError_declared {α : Type} {x : Except PyErr α}
    (h : RaisesOnly Caught x) : RaisesOnly Declared (keyErrorAsValueError x) := by
  unfold keyErrorAsValueError
  split
  · exact .error (.valueError _)
  · rename_i other
    intro err raised
    cases h err raised with
    | inl declared => exact declared
    | inr missing =>
      obtain ⟨kind, message⟩ := err
      cases missing
      exact absurd raised (other message)

/-- The checks raise what is declared, the decoding under the handler what is caught. -/
theorem validateAndDecodeSnapshot_declared (s : Json) :
    RaisesOnly Declared (validateAndDecodeSnapshot s) := by
  unfold validateAndDecodeSnapshot
  split
  · exact .bind (migrate_declared _) fun current _ =>
      .bind (validate_declared current) fun _ _ =>
        keyErrorAsValueError_declared (decodeStores_caught current)
  · exact .error (.typeError _)

theorem statusAdmission_declared (v : Json) :
    RaisesOnly Declared (validateClaimStatusAdmission v) := by
  unfold validateClaimStatusAdmission
  split
  · exact .error (.typeError _)
  · split
    · exact .ok ()
    · exact .error (.valueError _)

/-- **A restore ends in an engine or a declared exception**, whatever the value. -/
theorem fromSnapshot_declared (uuid : UuidHex) (s : Json) :
    RaisesOnly Declared (Engine.fromSnapshot uuid s) :=
  .bind (validateAndDecodeSnapshot_declared s) fun _ _ =>
    .bind (.forM fun claim _ => statusAdmission_declared claim.status) fun _ _ => .pure _

end Snapshot

end Ragcore
