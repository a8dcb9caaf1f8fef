import Ragcore.Lib.Fallible
import Ragcore.Lib.PyCall

/-!
# Ragcore — snapshot migration and restore integrity

The validating half of `ragcore/_engine/serialization.py`: version migration and the fail-fast
pass `_validate_snapshot_restore_integrity` over a snapshot of any shape. Subscripts, hashes
and comparisons are those of the source, so each can raise in its own way. A collection is
checked for being a list before its entries are looped over, which is why the loops read it
with `Json.items`.
-/

namespace Ragcore

namespace Snapshot

/-! ## Migration

The supported versions; the first one lacks the hint types. -/

def supportedSnapshotSchemaVersions : List HKey := [.int 1, .int 2]

/-- The new version, and no hint types. -/
def migrateSnapshotV1ToV2 (snapshot : Fields) : Fields :=
  let out := Dict.insertEntry "schema_version" (.int 2) snapshot
  Dict.insertEntry "hint_evidence_types" (.list []) out

/-- An unsupported version is a `ValueError`. -/
def migrateSnapshotToCurrent (snapshot : Fields) : Except PyErr Json := do
  let version := (Json.dict snapshot).field "schema_version"
  ensure (version.key? ≠ some .none) (.valueError ["Snapshot schema_version is required"])
  let key ← version.hash
  ensure (key ∈ supportedSnapshotSchemaVersions)
    (.valueError ["Unsupported snapshot schema_version: ", .value version, "; supported: [1, 2]"])
  let migrated :=
    if version.eq (.int 1) then migrateSnapshotV1ToV2 snapshot else snapshot
  ensure (((Json.dict migrated).field "schema_version").eq (.int 2))
    (.valueError ["Unsupported snapshot schema_version: ", .value version])
  return .dict migrated

/-! ## Collections and their keys

Ids are exact ints, logical keys lists of them, and neither occurs twice. -/

/-- The collections a snapshot must have. -/
def snapshotRequiredKeys : List String := [
  "schema_version", "next_id", "lifecycle_seq",
  "entities", "observations", "claims", "evidences", "relations", "gaps",
  "rule_definitions", "rule_stats", "gap_dedup_index",
  "claim_gap_refs", "gap_resolutions",
  "contradictions", "resolved_contradictions",
  "claim_lifecycle_events", "hint_evidence_types"]

/-- The kinds of ids, with the collection each counter covers. -/
def counterKindToCollection : List (String × String) := [
  ("entity", "entities"), ("observation", "observations"), ("claim", "claims"),
  ("evidence", "evidences"), ("relation", "relations"), ("gap", "gaps")]

/-- The collections `_collect_id_set` runs over. -/
def intKeyedCollections : List String := [
  "entities", "observations", "claims", "evidences", "relations", "gaps", "claim_gap_refs",
  "gap_resolutions", "contradictions", "resolved_contradictions", "claim_lifecycle_events"]

/-- A message that starts with `snapshot[{name!r}]`. -/
def slot (name : String) (rest : List MsgPart) : List MsgPart :=
  "snapshot[" :: .repr (.str name) :: "]" :: rest

/-- The `isinstance(items, list)` check every collection passes first. -/
def requireList (name : String) (items : Json) : Except PyErr (List Json) := do
  ensure items.isList (.typeError (slot name [s!" must be a list, got {items.typeName}"]))
  return items.items

/-- The loop over a collection, with the ids seen so far. -/
def collectIds (name : String) : List Json → Finset Int → Except PyErr (Finset Int)
  | [], ids => .ok ids
  | item :: rest, ids => do
    ensure item.isDict
      (.typeError (slot name [s!" entry must be a dict, got {item.typeName}"]))
    ensure (item.has "key" && item.has "value")
      (.valueError (slot name [" entry must carry 'key' and 'value'"]))
    let key ← item.getItem "key"
    let id ← require key.exactInt? (.typeError (slot name [s!" entry key must be a built-in int (bool excluded), got {key.typeName}"]))
    ensure (id ∉ ids) (.valueError (slot name [s!" has a duplicate entry key {id}"]))
    collectIds name rest (insert id ids)

def collectIdSet (snapshot : Json) (name : String) : Except PyErr (Finset Int) := do
  let collection ← snapshot.getItem name
  let items ← requireList name collection
  collectIds name items ∅

/-- The same for keys of several ints. -/
def collectLogicalKeys (name : String) (arity : Nat) :
    List Json → Finset (List Int) → Except PyErr (List (List Int × Json))
  | [], _ => .ok []
  | item :: rest, seen => do
    ensure (item.isDict && item.has "key" && item.has "value")
      (.valueError (slot name [" entries must carry 'key' and 'value'"]))
    let key ← item.getItem "key"
    ensure key.isList
      (.typeError [s!"{name} key must be a {arity}-element list, got {key.typeName}"])
    ensure (key.items.length = arity)
      (.valueError [s!"{name} key must be a {arity}-element list, got length {key.items.length}"])
    let logical ← key.items.mapM fun component =>
      require component.exactInt? (.typeError
        [s!"{name} key component must be a built-in int (bool excluded), got {component.typeName}"])
    ensure (logical ∉ seen)
      (.valueError [s!"{name} has a duplicate logical key ", .value key])
    let value ← item.getItem "value"
    let result ← collectLogicalKeys name arity rest (insert logical seen)
    return (logical, value) :: result

def validateIdentityCollection (snapshot : Json) (name : String) (arity : Nat) :
    Except PyErr (List (List Int × Json)) := do
  let collection ← snapshot.getItem name
  let items ← requireList name collection
  collectLogicalKeys name arity items ∅

/-! ## Cross-references

Each name is looked up among the ids that were collected before. -/

/-- `v in ids` for a set of ints. -/
def inIds (v : Json) (ids : Finset Int) : Except PyErr Bool := do
  let key ← v.hash
  return key.toInt?.any fun n => n ∈ ids

/-- `if v not in ids: raise ...`. -/
def ensureIn (v : Json) (ids : Finset Int) (err : PyErr) : Except PyErr Unit := do
  let found ← inIds v ids
  ensure found err

/-- The record under a key carries that key as its id. -/
def checkOwnId (name : String) (item : Json) : Except PyErr Unit := do
  let value ← item.getItem "value"
  ensure value.isDict
    (.typeError (slot name [s!" entry value must be a dict, got {value.typeName}"]))
  ensure (value.has "id") (.valueError (slot name [" entry value is missing 'id'"]))
  let id ← value.getItem "id"
  let key ← item.getItem "key"
  ensure (id.eq key) (.valueError (slot name [" entry key ", .repr key, " does not match value id ", .repr id]))

/-- An evidence names a claim that is restored. -/
def checkEvidenceClaim (claimIds : Finset Int) (item : Json) : Except PyErr Unit := do
  let value ← item.getItem "value"
  ensure (value.isDict && value.has "claim_id") (.valueError
    ["Evidence entry ", .repr (item.field "key"), " must carry a value dict with 'claim_id'"])
  let evClaimId ← value.getItem "claim_id"
  let key ← item.getItem "key"
  ensureIn evClaimId claimIds
    (.valueError ["Evidence ", .value key, " references unknown Claim ", .value evClaimId])

/-- The entry check the reference collections repeat. -/
def requireEntry (name : String) (item : Json) : Except PyErr (Json × Json) := do
  ensure (item.isDict && item.has "key" && item.has "value")
    (.valueError (slot name [" entries must carry 'key' and 'value'"]))
  let key ← item.getItem "key"
  let value ← item.getItem "value"
  return (key, value)

/-- A bucket of ids filed under a claim: the claim exists, the bucket is a list and each member
is a restored `target`. -/
def checkBucket (name label target : String) (claimIds targetIds : Finset Int) (item : Json) :
    Except PyErr (Json × List Json) := do
  let (claim, bucket) ← requireEntry name item
  ensureIn claim claimIds
    (.valueError [s!"{label} references unknown Claim ", .value claim])
  ensure bucket.isList (.typeError
    [label, "[", .value claim, s!"] value must be a list/set/tuple, got {bucket.typeName}"])
  bucket.items.forM fun member => ensureIn member targetIds
    (.valueError [label, "[", .value claim, s!"] references unknown {target} ", .value member])
  return (claim, bucket.items)

/-- A bucket of `contradictions`: its claim and the evidences against it. -/
def checkContradiction (claimIds evidenceIds : Finset Int) (item : Json) :
    Except PyErr (Json × List Json) :=
  checkBucket "contradictions" "contradiction" "Evidence" claimIds evidenceIds item

def checkClaimGapRefs (claimIds gapIds : Finset Int) (item : Json) : Except PyErr Unit := do
  let _ ← checkBucket "claim_gap_refs" "claim_gap_refs" "Gap" claimIds gapIds item

/-- The loop that fills `contradictions_index`. -/
def contradictionsIndex (claimIds evidenceIds : Finset Int) :
    List Json → Dict HKey (Finset HKey) → Except PyErr (Dict HKey (Finset HKey))
  | [], index => .ok index
  | item :: rest, index => do
    let (claim, bucket) ← checkContradiction claimIds evidenceIds item
    let members ← (Json.list bucket).setOf
    let key ← claim.hash
    contradictionsIndex claimIds evidenceIds rest (index.insert key members)

def checkGapResolution (gapIds evidenceIds : Finset Int) (item : Json) : Except PyErr Unit := do
  let (gapId, evId) ← requireEntry "gap_resolutions" item
  ensureIn gapId gapIds (.valueError ["gap_resolutions references unknown Gap ", .value gapId])
  ensureIn evId evidenceIds (.valueError
    ["gap_resolutions[", .value gapId, "] references unknown Evidence ", .value evId])

def checkDedupTarget (gapIds : Finset Int) (target : Json) : Except PyErr Unit :=
  ensureIn target gapIds
    (.valueError ["gap_dedup_index target references unknown Gap ", .value target])

/-- What is resolved was registered for the same claim. -/
def checkResolved (claimIds : Finset Int) (index : Dict HKey (Finset HKey)) (item : Json) :
    Except PyErr Unit := do
  let (claim, bucket) ← requireEntry "resolved_contradictions" item
  ensureIn claim claimIds
    (.valueError ["resolved_contradictions references unknown Claim ", .value claim])
  ensure bucket.isList (.typeError ["resolved_contradictions[", .value claim,
    s!"] value must be a list/set/tuple, got {bucket.typeName}"])
  let key ← claim.hash
  let registered ← require (index.get? key) (.valueError
    ["resolved_contradictions[", .value claim, "] has no matching contradictions entry"])
  bucket.items.forM fun member => do
    let memberKey ← member.hash
    ensure (memberKey ∈ registered) (.valueError ["resolved_contradictions[", .value claim,
      "] includes Evidence ", .value member, " not registered in contradictions"])

/-! ## Counters

A counter below a restored id would give that id again. -/

/-- `max(restored_ids) if restored_ids else 0`. -/
def maxRestored (ids : Finset Int) : Int := if h : ids.Nonempty then ids.max' h else 0

/-- The counter of a kind covers the ids of its collection. -/
def checkCounter (nextId : Json) (kind : String) (ids : Finset Int) : Except PyErr Unit := do
  let maxId := maxRestored ids
  if nextId.has kind then
    let value ← nextId.getItem kind
    let counter ← require value.exactInt? (.typeError ["next_id[", .repr (.str kind),
      s!"] must be a built-in int (bool excluded), got {value.typeName}"])
    ensure (0 ≤ counter)
      (.valueError ["next_id[", .repr (.str kind), s!"] must be >= 0, got {counter}"])
    ensure (maxId ≤ counter) (.valueError ["next_id[", .repr (.str kind),
      s!"]={counter} is below max restored ID {maxId}; collision risk"])
  else
    ensure (maxId ≤ 0) (.valueError ["next_id[", .repr (.str kind),
      s!"] is missing but max restored ID is {maxId}; collision risk"])

/-! ## The pass

All checks, before anything is decoded. -/

/-- The checks in the order in which they raise. -/
def validateSnapshotRestoreIntegrity (snapshot : Json) : Except PyErr Unit := do
  ensure snapshot.isDict
    (.typeError [s!"snapshot must be a dict, got {snapshot.typeName}"])
  snapshotRequiredKeys.forM fun required => ensure (snapshot.has required)
    (.valueError ["snapshot is missing required top-level key ", .repr (.str required)])
  let idSets ← intKeyedCollections.mapM fun name => do
    let ids ← collectIdSet snapshot name
    return (name, ids)
  let idSet := fun name => (idSets.lookup name).getD ∅
  let claimIds := idSet "claims"
  let evidenceIds := idSet "evidences"
  let gapIds := idSet "gaps"
  ["claims", "evidences", "gaps"].forM fun name => do
    let collection ← snapshot.getItem name
    collection.items.forM (checkOwnId name)
  let evidences ← snapshot.getItem "evidences"
  evidences.items.forM (checkEvidenceClaim claimIds)
  let contradictions ← snapshot.getItem "contradictions"
  let contradictionItems ← requireList "contradictions" contradictions
  let index ← contradictionsIndex claimIds evidenceIds contradictionItems ∅
  let claimGapRefs ← snapshot.getItem "claim_gap_refs"
  let claimGapRefItems ← requireList "claim_gap_refs" claimGapRefs
  claimGapRefItems.forM (checkClaimGapRefs claimIds gapIds)
  let resolutions ← snapshot.getItem "gap_resolutions"
  let resolutionItems ← requireList "gap_resolutions" resolutions
  resolutionItems.forM (checkGapResolution gapIds evidenceIds)
  let dedup ← validateIdentityCollection snapshot "gap_dedup_index" 4
  dedup.forM fun entry => checkDedupTarget gapIds entry.2
  let resolved ← snapshot.getItem "resolved_contradictions"
  let resolvedItems ← requireList "resolved_contradictions" resolved
  resolvedItems.forM (checkResolved claimIds index)
  let _ ← validateIdentityCollection snapshot "rule_stats" 2
  let _ ← validateIdentityCollection snapshot "rule_definitions" 2
  let hintTypes ← snapshot.getItem "hint_evidence_types"
  let _ ← requireList "hint_evidence_types" hintTypes
  let nextId ← snapshot.getItem "next_id"
  ensure nextId.isDict
    (.typeError (slot "next_id" [s!" must be a dict, got {nextId.typeName}"]))
  counterKindToCollection.forM fun p => checkCounter nextId p.1 (idSet p.2)

end Snapshot

end Ragcore
