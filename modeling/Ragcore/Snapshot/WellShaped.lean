import Ragcore.Snapshot.RoundTrip

/-!
# Ragcore — on well-shaped snapshots the restore decides integrity

The restore checks structure and references in one pass, entry by entry. Here the two are taken
apart: a snapshot of the current version whose structure is right is accepted exactly when its
references, key sets and counters are.

* **`WellShaped`** — the structure: required keys, entry lists, exact-int keys, records with
  the declared fields and types, exact-int counters, valid statuses.
* **`Integrity`** — the relations between the parts, in terms of ids and buckets of ids.
* **`validateAndDecode_isOk_iff`** — the restore accepts a `WellShaped` snapshot iff it has
  `Integrity`.
-/

namespace Ragcore

namespace Snapshot

/-! ## Shape

What the snapshot format says about types, and nothing about how the records fit together: each
collection a list of entries, each record a dict of the declared fields, each field of its type. -/

/-- The types the dataclasses declare. -/
inductive FieldType where
  | int
  | str
  | score
  | optionalScore

/-- A `{"value": q}` whose `q` is a number in `[0, 1]`. -/
def IsScore (v : Json) : Prop :=
  v.has "value" = true ∧ ∃ score : ScoreValue, (v.field "value").number? = some (.fin score.value)

/-- The values a field of each type may hold. -/
def FieldType.Holds : FieldType → Json → Prop
  | .int, v => v.exactInt = true
  | .str, v => ∃ text, v = .str text
  | .score, v => IsScore v
  | .optionalScore, v => v = .null ∨ IsScore v

/-- The declared fields of a record class, in order. -/
abbrev Schema := List (String × FieldType)

/-- Exactly the declared fields, each of its type. -/
structure RecordShaped (schema : Schema) (v : Json) : Prop where
  isDict : v.isDict = true
  typed : ∀ p ∈ schema, v.has p.1 = true ∧ p.2.Holds (v.field p.1)
  declared : ∀ name, v.has name = true → name ∈ schema.map Prod.fst

/-- The fields of each dataclass, in its order. -/
def entitySchema : Schema := [("id", .int), ("type", .int), ("flags", .int)]

def observationSchema : Schema :=
  [("id", .int), ("entity_id", .int), ("raw_ref_id", .int), ("type", .int), ("source_type", .int)]

def claimSchema : Schema :=
  [("id", .int), ("subject_id", .int), ("type", .int), ("status", .int),
    ("created_by_rule", .int), ("created_by_rule_version", .int), ("reason_code", .int),
    ("base_confidence", .score), ("flags", .int)]

def evidenceSchema : Schema :=
  [("id", .int), ("claim_id", .int), ("raw_ref_id", .int), ("type", .int), ("strength", .score)]

def relationSchema : Schema :=
  [("id", .int), ("from_kind", .int), ("from_id", .int), ("to_kind", .int), ("to_id", .int),
    ("type", .int), ("rule_id", .int), ("reason_code", .int)]

def gapSchema : Schema :=
  [("id", .int), ("claim_id", .int), ("type", .int), ("required_evidence_type", .int),
    ("severity", .score), ("created_by_rule", .int)]

def ruleDefinitionSchema : Schema :=
  [("id", .int), ("version", .int), ("maturity", .int), ("prior_confidence", .score)]

def ruleStatsSchema : Schema :=
  [("rule_id", .int), ("rule_version", .int), ("firing_count", .int),
    ("confirmed_true_count", .int), ("confirmed_false_count", .int),
    ("observed_precision", .optionalScore), ("false_positive_rate", .optionalScore)]

def eventSchema : Schema :=
  [("seq", .int), ("claim_id", .int), ("from_status", .int), ("to_status", .int),
    ("transition", .str)]

/-- The collections of records, with the fields of their records. -/
def recordCollections : List (String × Schema) :=
  [("entities", entitySchema), ("observations", observationSchema), ("claims", claimSchema),
    ("evidences", evidenceSchema), ("relations", relationSchema), ("gaps", gapSchema),
    ("rule_definitions", ruleDefinitionSchema), ("rule_stats", ruleStatsSchema)]

/-- The collections under an id or a pair, with the length of their keys. -/
def identityCollections : List (String × Nat) :=
  [("rule_definitions", 2), ("rule_stats", 2), ("gap_dedup_index", 4)]

/-- The collections that file a list of ids under an id. -/
def bucketCollections : List String :=
  ["contradictions", "claim_gap_refs", "resolved_contradictions"]

/-- A list of built-in ints. -/
def IsIntList (v : Json) : Prop := v.isList = true ∧ ∀ member ∈ v.items, member.exactInt = true

/-- A current-version snapshot whose structure is right, whatever its ids refer to. -/
structure WellShaped (s : Json) : Prop where
  required : ∀ name ∈ snapshotRequiredKeys, s.has name = true
  version : s.field "schema_version" = .int currentSnapshotSchemaVersion
  nextId : (s.field "next_id").isDict = true
  counters : ∀ p ∈ counterKindToCollection, (counterOf (s.field "next_id") p.1).exactInt = true
  lifecycleSeq : (s.field "lifecycle_seq").exactInt = true
  intKeyed : ∀ name ∈ intKeyedCollections, (s.field name).isList = true ∧
    ∀ item ∈ entries s name, EntryShaped item
  identityKeyed : ∀ p ∈ identityCollections, (s.field p.1).isList = true ∧
    ∀ item ∈ entries s p.1, LogicalShaped p.2 item
  records : ∀ p ∈ recordCollections, ∀ item ∈ entries s p.1, RecordShaped p.2 (entryValue item)
  events : ∀ item ∈ entries s "claim_lifecycle_events", (entryValue item).isList = true ∧
    ∀ event ∈ (entryValue item).items, RecordShaped eventSchema event
  buckets : ∀ name ∈ bucketCollections, ∀ item ∈ entries s name, IsIntList (entryValue item)
  ints : ∀ name ∈ ["gap_resolutions", "gap_dedup_index"], ∀ item ∈ entries s name,
    (entryValue item).exactInt = true
  hints : IsIntList (s.field "hint_evidence_types")
  statuses : ∀ item ∈ entries s "claims", ValidStatus ((entryValue item).field "status")

/-! ## Integrity

What the records owe each other: keys that match the records under them, names that are restored,
counters that cover the ids, evidence filed under its own claim. -/

/-- The int that `v` is. -/
def intOf (v : Json) : Int := v.exactInt?.getD 0

/-- The ids in a bucket. -/
def membersOf (item : Json) : Finset Int := ((entryValue item).items.map intOf).toFinset

/-- What must hold between the parts of a well-shaped snapshot. -/
structure Integrity (s : Json) : Prop where
  distinctKeys : ∀ name ∈ intKeyedCollections, ((entries s name).map entryKey).Nodup
  distinctIdentities : ∀ p ∈ identityCollections, ((entries s p.1).map logicalKey).Nodup
  ownId : ∀ name ∈ ["claims", "evidences", "gaps"], ∀ item ∈ entries s name,
    intOf ((entryValue item).field "id") = entryKey item
  evidenceClaim : ∀ item ∈ entries s "evidences",
    intOf ((entryValue item).field "claim_id") ∈ ids s "claims"
  bucketClaim : ∀ name ∈ bucketCollections, ids s name ⊆ ids s "claims"
  contradictionMembers : ∀ item ∈ entries s "contradictions", membersOf item ⊆ ids s "evidences"
  gapResolver : ∀ item ∈ entries s "gap_resolutions", intOf (entryValue item) ∈ ids s "evidences"
  gapRefMembers : ∀ item ∈ entries s "claim_gap_refs", membersOf item ⊆ ids s "gaps"
  resolutionGap : ids s "gap_resolutions" ⊆ ids s "gaps"
  dedupTarget : ∀ item ∈ entries s "gap_dedup_index", intOf (entryValue item) ∈ ids s "gaps"
  resolved : ∀ item ∈ entries s "resolved_contradictions",
    ∃ registered ∈ entries s "contradictions", entryKey registered = entryKey item ∧
      membersOf item ⊆ membersOf registered
  counters : ∀ p ∈ counterKindToCollection, 0 ≤ intOf (counterOf (s.field "next_id") p.1) ∧
    maxRestored (ids s p.2) ≤ intOf (counterOf (s.field "next_id") p.1)

/-! ## Ints among values

On a well-shaped snapshot the ids are ints, so the tests of the source become facts about sets of
ints. -/

/-- An exact int is the int it stands for. -/
theorem exactInt_iff {v : Json} : v.exactInt = true ↔ v = .int (intOf v) := by
  cases v <;> simp [Json.exactInt, Json.exactInt?, intOf]

/-- A name is restored exactly when its int is among the ids. -/
theorem namesIn_iff {v : Json} (h : v.exactInt = true) {ids : Finset Int} :
    NamesIn ids v ↔ intOf v ∈ ids := by
  rw [exactInt_iff] at h
  rw [h, namesIn_int]
  rfl

/-- The ints of a list are its items. -/
theorem mem_membersOf {item : Json} (h : IsIntList (entryValue item)) {n : Int} :
    n ∈ membersOf item ↔ .int n ∈ (entryValue item).items := by
  rw [membersOf, List.mem_toFinset, List.mem_map]
  constructor
  · rintro ⟨member, hmember, rfl⟩
    rw [← exactInt_iff.mp (h.2 member hmember)]
    exact hmember
  · intro hmember
    exact ⟨_, hmember, rfl⟩

/-- All names of a list are restored exactly when its ints are among the ids. -/
theorem namesIn_members_iff {item : Json} (h : IsIntList (entryValue item)) {ids : Finset Int} :
    (∀ member ∈ (entryValue item).items, NamesIn ids member) ↔ membersOf item ⊆ ids := by
  constructor
  · intro hall n hn
    exact namesIn_int.mp (hall _ ((mem_membersOf h).mp hn))
  · intro hsub member hmember
    rw [namesIn_iff (h.2 member hmember)]
    apply hsub
    rw [mem_membersOf h, ← exactInt_iff.mp (h.2 member hmember)]
    exact hmember

/-- Members that equal registered members, where all are ints. -/
theorem registered_iff {item registered : Json} (h : IsIntList (entryValue item))
    (hreg : IsIntList (entryValue registered)) :
    (∀ member ∈ (entryValue item).items, ∃ other ∈ (entryValue registered).items,
      member.key?.isSome = true ∧ member.key? = other.key?) ↔
      membersOf item ⊆ membersOf registered := by
  -- names and members are ints, so both sides compare ints
  constructor
  · intro hall n hn
    obtain ⟨other, hother, -, hkey⟩ := hall _ ((mem_membersOf h).mp hn)
    have hint := exactInt_iff.mp (hreg.2 other hother)
    rw [hint, Json.key?_int, Json.key?_int, Option.some.injEq, HKey.int_inj] at hkey
    rw [mem_membersOf hreg, hkey, ← hint]
    exact hother
  · intro hsub member hmember
    have hint := exactInt_iff.mp (h.2 member hmember)
    refine ⟨member, ?_, by rw [hint]; rfl, rfl⟩
    rw [hint, ← mem_membersOf hreg]
    apply hsub
    rw [mem_membersOf h, ← hint]
    exact hmember

/-! ## Well-shaped records decode

A record whose fields are declared, present and typed passes the keyword arguments of its dataclass
and the checks of its decoder. -/

/-- The keys of a JSON object are its field names. -/
theorem mem_keys_ofObject {fields : Fields} {k : HKey} (h : k ∈ (Json.ofObject fields).keys) :
    ∃ name, k = .str name ∧ (Json.dict fields).has name = true := by
  rw [Dict.mem_keys_iff, Dict.contains_iff] at h
  obtain ⟨v, hv⟩ := h
  have hmem := hv
  rw [Json.ofObject, Dict.get?_ofFields] at hmem
  obtain ⟨p, -, hp⟩ := List.mem_map.mp (Dict.mem_of_lookup hmem)
  cases hp
  rw [Json.get?_ofObject] at hv
  exact ⟨_, rfl, by simp [Json.has, hv]⟩

/-- **A shaped record binds to its class.** -/
theorem RecordShaped.bindArguments {schema : Schema} {fields : Fields}
    (h : RecordShaped schema (.dict fields)) (cls : String) {required optional : List String}
    (hnames : schema.map Prod.fst = required ++ optional) :
    Ragcore.bindArguments cls required optional (Json.ofObject fields) = .ok () := by
  -- `Class(**d)` asks for string keys, no unknown name and no missing one
  have hstr : (Json.ofObject fields).keys.all HKey.isStr = true := by
    rw [List.all_eq_true]
    intro k hk
    obtain ⟨name, rfl, -⟩ := mem_keys_ofObject hk
    rfl
  have hdeclared : (Json.ofObject fields).keys.find?
      (fun k => k ∉ (required ++ optional).map HKey.str) = none := by
    rw [List.find?_eq_none]
    intro k hk
    obtain ⟨name, rfl, hhas⟩ := mem_keys_ofObject hk
    have hname := h.declared name hhas
    rw [hnames] at hname
    simpa [or_iff_not_imp_left] using hname
  have hrequired : required.find?
      (fun name => !(Json.ofObject fields).contains (.str name)) = none := by
    rw [List.find?_eq_none]
    intro name hname
    have hmem : name ∈ schema.map Prod.fst := by
      rw [hnames]
      exact List.mem_append_left _ hname
    obtain ⟨p, hp, rfl⟩ := List.mem_map.mp hmem
    have hhas := (h.typed p hp).1
    simpa [Dict.contains, Json.has] using hhas
  unfold Ragcore.bindArguments
  rw [if_pos hstr, hdeclared]
  simp only [hrequired]

section Records

variable {schema : Schema} {fields : Fields} (h : RecordShaped schema (.dict fields))
include h

/-- A declared field is there to be read. -/
theorem RecordShaped.dictItem {name : String} (hname : name ∈ schema.map Prod.fst) :
    Ragcore.dictItem (Json.ofObject fields) name = .ok ((Json.dict fields).field name) := by
  obtain ⟨p, hp, rfl⟩ := List.mem_map.mp hname
  obtain ⟨v, hv⟩ := Option.isSome_iff_exists.mp (h.typed p hp).1
  rw [Ragcore.dictItem, Json.get?_ofObject, hv]
  simp [Json.field, hv]

theorem RecordShaped.intId {name : String} (hname : (name, FieldType.int) ∈ schema) :
    ∃ n, Snapshot.intId (argument (Json.ofObject fields) name .null) = .ok n := by
  rw [argument_ofObject, exactInt_iff.mp (h.typed _ hname).2]
  exact ⟨_, intId_ok_iff.mpr (Json.asInt?_int _)⟩

end Records

theorem svFromDict_of_isScore {v : Json} (h : IsScore v) : ∃ score, svFromDict v = .ok score := by
  obtain ⟨hhas, score, hscore⟩ := h
  obtain ⟨fields, rfl⟩ := Json.eq_dict_of_isDict (Json.isDict_of_has hhas)
  exact bind_isOk (Json.getItem_of_has hhas)
    (bind_isOk (ScoreValue.new_ok_iff.mpr hscore) ⟨some score, rfl⟩)

/-- An optional score decodes, `null` to `None`. -/
theorem svFromDict_of_optional {v : Json} (h : FieldType.optionalScore.Holds v) :
    ∃ score, svFromDict v = .ok score := by
  rcases h with rfl | h
  · exact ⟨none, rfl⟩
  · exact svFromDict_of_isScore h

/-- A reader that binds the mapping as it stands, as `cls(**d)` does. -/
theorem RecordShaped.bound_isOk {schema : Schema} {v : Json} (h : RecordShaped schema v)
    {α : Type} {fromDict : Json → Except PyErr α} {cls : String} {required optional : List String}
    {build : Dict HKey Json → α}
    (hread : fromDict v = do
      let d ← v.mappingOf
      Ragcore.bindArguments cls required optional d
      return build d)
    (hnames : schema.map Prod.fst = required ++ optional) : ∃ r, fromDict v = .ok r := by
  obtain ⟨fields, rfl⟩ := Json.eq_dict_of_isDict h.isDict
  have hmapping : (Json.dict fields).mappingOf = .ok (Json.ofObject fields) := rfl
  rw [hread]
  exact bind_isOk hmapping (bind_isOk (h.bindArguments cls hnames) ⟨_, rfl⟩)

/-- The records whose decoders only bind their arguments. -/
theorem entityFromDict_isOk {v : Json} (h : RecordShaped entitySchema v) :
    ∃ r, entityFromDict v = .ok r := h.bound_isOk rfl rfl

theorem observationFromDict_isOk {v : Json} (h : RecordShaped observationSchema v) :
    ∃ r, observationFromDict v = .ok r := h.bound_isOk rfl rfl

theorem relationFromDict_isOk {v : Json} (h : RecordShaped relationSchema v) :
    ∃ r, relationFromDict v = .ok r := h.bound_isOk rfl rfl

theorem eventFromDict_isOk {v : Json} (h : RecordShaped eventSchema v) :
    ∃ r, eventFromDict v = .ok r := h.bound_isOk rfl rfl

/-- The records whose decoders also read scores. -/
theorem claimFromDict_isOk {v : Json} (h : RecordShaped claimSchema v) :
    ∃ r, claimFromDict v = .ok r := by
  obtain ⟨fields, rfl⟩ := Json.eq_dict_of_isDict h.isDict
  have hdict : (Json.dict fields).dictOf = .ok (Json.ofObject fields) := rfl
  have hscore := (h.typed ("base_confidence", .score) (by simp [claimSchema])).2
  obtain ⟨score, hsv⟩ := svFromDict_of_isScore hscore
  obtain ⟨id, hid⟩ := h.intId (show ("id", .int) ∈ claimSchema by simp [claimSchema])
  exact bind_isOk hdict (bind_isOk (h.dictItem (by simp [claimSchema])) (bind_isOk hsv
    (bind_isOk (h.bindArguments _ rfl) (bind_isOk hid ⟨_, rfl⟩))))

theorem evidenceFromDict_isOk {v : Json} (h : RecordShaped evidenceSchema v) :
    ∃ r, evidenceFromDict v = .ok r := by
  obtain ⟨fields, rfl⟩ := Json.eq_dict_of_isDict h.isDict
  have hdict : (Json.dict fields).dictOf = .ok (Json.ofObject fields) := rfl
  have hscore := (h.typed ("strength", .score) (by simp [evidenceSchema])).2
  obtain ⟨score, hsv⟩ := svFromDict_of_isScore hscore
  obtain ⟨id, hid⟩ := h.intId (show ("id", .int) ∈ evidenceSchema by simp [evidenceSchema])
  obtain ⟨claimId, hclaimId⟩ :=
    h.intId (show ("claim_id", .int) ∈ evidenceSchema by simp [evidenceSchema])
  exact bind_isOk hdict (bind_isOk (h.dictItem (by simp [evidenceSchema])) (bind_isOk hsv
    (bind_isOk (h.bindArguments _ rfl) (bind_isOk hid (bind_isOk hclaimId ⟨_, rfl⟩)))))

theorem gapFromDict_isOk {v : Json} (h : RecordShaped gapSchema v) :
    ∃ r, gapFromDict v = .ok r := by
  obtain ⟨fields, rfl⟩ := Json.eq_dict_of_isDict h.isDict
  have hdict : (Json.dict fields).dictOf = .ok (Json.ofObject fields) := rfl
  have hscore := (h.typed ("severity", .score) (by simp [gapSchema])).2
  obtain ⟨score, hsv⟩ := svFromDict_of_isScore hscore
  obtain ⟨id, hid⟩ := h.intId (show ("id", .int) ∈ gapSchema by simp [gapSchema])
  exact bind_isOk hdict (bind_isOk (h.dictItem (by simp [gapSchema])) (bind_isOk hsv
    (bind_isOk (h.bindArguments _ rfl) (bind_isOk hid ⟨_, rfl⟩))))

theorem ruleDefFromDict_isOk {v : Json} (h : RecordShaped ruleDefinitionSchema v) :
    ∃ r, ruleDefFromDict v = .ok r := by
  obtain ⟨fields, rfl⟩ := Json.eq_dict_of_isDict h.isDict
  have hdict : (Json.dict fields).dictOf = .ok (Json.ofObject fields) := rfl
  have hscore := (h.typed ("prior_confidence", .score) (by simp [ruleDefinitionSchema])).2
  obtain ⟨score, hsv⟩ := svFromDict_of_isScore hscore
  exact bind_isOk hdict (bind_isOk (h.dictItem (by simp [ruleDefinitionSchema])) (bind_isOk hsv
    (bind_isOk (h.bindArguments _ rfl) ⟨_, rfl⟩)))

theorem ruleStatsFromDict_isOk {v : Json} (h : RecordShaped ruleStatsSchema v) :
    ∃ r, ruleStatsFromDict v = .ok r := by
  obtain ⟨fields, rfl⟩ := Json.eq_dict_of_isDict h.isDict
  have hdict : (Json.dict fields).dictOf = .ok (Json.ofObject fields) := rfl
  have hprecision :=
    (h.typed ("observed_precision", .optionalScore) (by simp [ruleStatsSchema])).2
  have hrate := (h.typed ("false_positive_rate", .optionalScore) (by simp [ruleStatsSchema])).2
  rw [← argument_ofObject] at hprecision hrate
  obtain ⟨precision, hprecision⟩ := svFromDict_of_optional hprecision
  obtain ⟨rate, hrate⟩ := svFromDict_of_optional hrate
  exact bind_isOk hdict (bind_isOk hprecision (bind_isOk hrate
    (bind_isOk (h.bindArguments _ rfl) ⟨_, rfl⟩)))

/-- A list of ints is a bucket of ids. -/
theorem idBucket_isOk {v : Json} (h : IsIntList v) : ∃ bucket, idBucket v = .ok bucket := by
  refine bind_isOk (a := bucketKeys (.list v.items)) ?_ ⟨_, rfl⟩
  rw [Json.eq_list_of_isList h.1]
  refine setOf_list_ok_iff.mpr ⟨fun member hmember => ?_, rfl⟩
  rw [exactInt_iff.mp (h.2 member hmember)]
  rfl

theorem intId_isOk {v : Json} (h : v.exactInt = true) : ∃ n, intId v = .ok n := by
  rw [exactInt_iff.mp h]
  exact ⟨_, intId_ok_iff.mpr (Json.asInt?_int _)⟩

/-- A log of well-shaped events decodes. -/
theorem eventsFromValue_isOk {v : Json} (hlist : v.isList = true)
    (h : ∀ event ∈ v.items, RecordShaped eventSchema event) :
    ∃ events, eventsFromValue v = .ok events := by
  have hiter : v.iterate = .ok v.items := by
    rw [Json.eq_list_of_isList hlist]
    rfl
  exact bind_isOk hiter (mapM_isOk fun event hevent => eventFromDict_isOk (h event hevent))

namespace WellShaped

variable {s : Json} (w : WellShaped s)
include w

/-! ## The restore on a well-shaped snapshot

The decoder's conditions and the integrity of the snapshot are the same facts, once the shape is
given. -/

/-- The value of a bucket is a list of ints. -/
theorem isIntList {name : String} (hname : name ∈ bucketCollections) {item : Json}
    (hitem : item ∈ entries s name) : IsIntList (entryValue item) := w.buckets name hname item hitem

/-- The value of a record collection has the fields of its record. -/
theorem record {p : String × Schema} (hp : p ∈ recordCollections) {item : Json}
    (hitem : item ∈ entries s p.1) : RecordShaped p.2 (entryValue item) := w.records p hp item hitem

/-- The collections of records that carry their own id. -/
theorem ownIdTyped {name : String} (hname : name ∈ ["claims", "evidences", "gaps"]) {item : Json}
    (hitem : item ∈ entries s name) :
    (entryValue item).has "id" = true ∧ ((entryValue item).field "id").exactInt = true := by
  have hschema : ∃ schema, (name, schema) ∈ recordCollections ∧ ("id", FieldType.int) ∈ schema := by
    simp only [List.mem_cons, List.not_mem_nil, or_false] at hname
    rcases hname with rfl | rfl | rfl
    · exact ⟨claimSchema, by simp [recordCollections], by simp [claimSchema]⟩
    · exact ⟨evidenceSchema, by simp [recordCollections], by simp [evidenceSchema]⟩
    · exact ⟨gapSchema, by simp [recordCollections], by simp [gapSchema]⟩
  obtain ⟨schema, hp, hid⟩ := hschema
  exact (w.record hp hitem).typed _ hid

/-- An evidence names a claim, or `null` does not pass. -/
theorem claimIdTyped {item : Json} (hitem : item ∈ entries s "evidences") :
    (entryValue item).has "claim_id" = true ∧
      ((entryValue item).field "claim_id").exactInt = true := by
  have hp : ("evidences", evidenceSchema) ∈ recordCollections := by simp [recordCollections]
  exact (w.record hp hitem).typed ("claim_id", .int) (by simp [evidenceSchema])

/-- A counter covers the ids exactly when it is at least the greatest of them. -/
theorem counterCovers_iff {p : String × String} (hp : p ∈ counterKindToCollection) :
    CounterCovers (s.field "next_id") p.1 (ids s p.2) ↔
      0 ≤ intOf (counterOf (s.field "next_id") p.1) ∧
        maxRestored (ids s p.2) ≤ intOf (counterOf (s.field "next_id") p.1) := by
  have hint := exactInt_iff.mp (w.counters p hp)
  constructor
  · rintro ⟨n, hn, h0, hle⟩
    rw [hn] at hint ⊢
    cases hint
    exact ⟨h0, (maxRestored_le_iff h0).mpr hle⟩
  · rintro ⟨h0, hle⟩
    exact ⟨_, hint, h0, (maxRestored_le_iff h0).mp hle⟩

theorem contradictions_ints {item : Json} (hitem : item ∈ entries s "contradictions") :
    IsIntList (entryValue item) := w.isIntList (by decide) hitem

theorem claimGapRefs_ints {item : Json} (hitem : item ∈ entries s "claim_gap_refs") :
    IsIntList (entryValue item) := w.isIntList (by decide) hitem

theorem resolved_ints {item : Json} (hitem : item ∈ entries s "resolved_contradictions") :
    IsIntList (entryValue item) := w.isIntList (by decide) hitem

/-- What the decoder checks gives the integrity. -/
theorem integrity_of_restorable (h : Restorable s) : Integrity s where
  distinctKeys := fun name hname => (h.intKeyed name hname).nodup
  distinctIdentities := by
    intro p hp
    simp only [identityCollections, List.mem_cons, List.not_mem_nil, or_false] at hp
    rcases hp with rfl | rfl | rfl
    · exact h.ruleDefinitions.nodup
    · exact h.ruleStats.nodup
    · exact h.dedup.nodup
  ownId := by
    intro name hname item hitem
    have hint := exactInt_iff.mp (w.ownIdTyped hname hitem).2
    have hid := (h.ownIds name hname item hitem).2
    rw [hint, Json.asInt?_int] at hid
    exact Option.some.inj hid
  evidenceClaim := fun item hitem =>
    (namesIn_iff (w.claimIdTyped hitem).2).mp (h.evidenceClaims item hitem).2
  bucketClaim := by
    -- each of the three bucket loops asks for the claim of its entry
    intro name hname k hk
    obtain ⟨item, hitem, rfl⟩ := mem_ids.mp hk
    simp only [bucketCollections, List.mem_cons, List.not_mem_nil, or_false] at hname
    rcases hname with rfl | rfl | rfl
    · exact (h.contradictions item hitem).claim
    · exact (h.claimGapRefs item hitem).claim
    · exact (h.resolved item hitem).claim
  contradictionMembers := fun item hitem =>
    (namesIn_members_iff (w.contradictions_ints hitem)).mp (h.contradictions item hitem).members
  gapResolver := fun item hitem =>
    (namesIn_iff (w.ints _ (by decide) item hitem)).mp (h.gapResolutions item hitem).2
  gapRefMembers := fun item hitem =>
    (namesIn_members_iff (w.claimGapRefs_ints hitem)).mp (h.claimGapRefs item hitem).members
  resolutionGap := by
    intro k hk
    obtain ⟨item, hitem, rfl⟩ := mem_ids.mp hk
    exact (h.gapResolutions item hitem).1
  dedupTarget := fun item hitem =>
    (namesIn_iff (w.ints _ (by decide) item hitem)).mp (h.dedupTargets item hitem)
  resolved := by
    intro item hitem
    obtain ⟨registered, hreg, hkey, hmembers⟩ := (h.resolved item hitem).registered
    exact ⟨registered, hreg, hkey,
      (registered_iff (w.resolved_ints hitem) (w.contradictions_ints hreg)).mp hmembers⟩
  counters := fun p hp => (w.counterCovers_iff hp).mp (h.counters p hp)

/-- The integrity gives what the decoder checks. -/
theorem restorable_of_integrity (h : Integrity s) : Restorable s := by
  have hclaim : ∀ {name}, name ∈ bucketCollections → ∀ item ∈ entries s name,
      entryKey item ∈ ids s "claims" := fun hname item hitem =>
    h.bucketClaim _ hname (mem_ids.mpr ⟨item, hitem, rfl⟩)
  -- the shape makes every field readable; integrity supplies what the fields must name
  have hidentity : ∀ p ∈ identityCollections, IdentityKeyed s p.1 p.2 := fun p hp =>
    ⟨(w.identityKeyed p hp).1, (w.identityKeyed p hp).2, h.distinctIdentities p hp⟩
  exact {
    required := w.required
    intKeyed := fun name hname =>
      ⟨(w.intKeyed name hname).1, (w.intKeyed name hname).2, h.distinctKeys name hname⟩
    ownIds := by
      intro name hname item hitem
      obtain ⟨hhas, hint⟩ := w.ownIdTyped hname hitem
      refine ⟨hhas, ?_⟩
      rw [exactInt_iff.mp hint, Json.asInt?_int, h.ownId name hname item hitem]
    evidenceClaims := fun item hitem => ⟨(w.claimIdTyped hitem).1,
      (namesIn_iff (w.claimIdTyped hitem).2).mpr (h.evidenceClaim item hitem)⟩
    contradictions := fun item hitem =>
      ⟨hclaim (by decide) item hitem, (w.contradictions_ints hitem).1,
        (namesIn_members_iff (w.contradictions_ints hitem)).mpr (h.contradictionMembers item hitem)⟩
    claimGapRefs := fun item hitem =>
      ⟨hclaim (by decide) item hitem, (w.claimGapRefs_ints hitem).1,
        (namesIn_members_iff (w.claimGapRefs_ints hitem)).mpr (h.gapRefMembers item hitem)⟩
    gapResolutions := fun item hitem =>
      ⟨h.resolutionGap (mem_ids.mpr ⟨item, hitem, rfl⟩),
        (namesIn_iff (w.ints _ (by decide) item hitem)).mpr (h.gapResolver item hitem)⟩
    dedup := hidentity ("gap_dedup_index", 4) (by decide)
    dedupTargets := fun item hitem =>
      (namesIn_iff (w.ints _ (by decide) item hitem)).mpr (h.dedupTarget item hitem)
    resolved := by
      intro item hitem
      obtain ⟨registered, hreg, hkey, hmembers⟩ := h.resolved item hitem
      exact ⟨hclaim (by decide) item hitem, (w.resolved_ints hitem).1, registered, hreg, hkey,
        (registered_iff (w.resolved_ints hitem) (w.contradictions_ints hreg)).mpr hmembers⟩
    ruleStats := hidentity ("rule_stats", 2) (by decide)
    ruleDefinitions := hidentity ("rule_definitions", 2) (by decide)
    hints := w.hints.1
    nextId := w.nextId
    counters := fun p hp => (w.counterCovers_iff hp).mpr (h.counters p hp) }

/-- **Beyond the structure, the integrity pass checks integrity and nothing else.** -/
theorem restorable_iff : Restorable s ↔ Integrity s :=
  ⟨w.integrity_of_restorable, w.restorable_of_integrity⟩

omit w in
/-- The store of an int-keyed collection whose values decode. -/
theorem exists_store (h : Restorable s) {α : Type} {name : String}
    (hname : name ∈ intKeyedCollections) {readValue : Json → Except PyErr α}
    (hvalues : ∀ item ∈ entries s name, ∃ a, readValue (entryValue item) = .ok a) :
    ∃ d : Dict Int α, Restored entryKey readValue (entries s name) d :=
  exists_restored (h.intKeyed name hname).nodup hvalues

/-- **A well-shaped snapshot with integrity decodes.** -/
theorem exists_decoded (h : Restorable s) : ∃ d, Decoded s d := by
  obtain ⟨fields, hnext⟩ := Json.eq_dict_of_isDict w.nextId
  have hrecord : ∀ {name schema}, (name, schema) ∈ recordCollections →
      ∀ item ∈ entries s name, RecordShaped schema (entryValue item) :=
    fun hp item hitem => w.records _ hp item hitem
  have hbucket : ∀ {name}, name ∈ bucketCollections → ∀ item ∈ entries s name,
      ∃ bucket, idBucket (entryValue item) = .ok bucket :=
    fun hname item hitem => idBucket_isOk (w.isIntList hname hitem)
  have hint : ∀ {name}, name ∈ ["gap_resolutions", "gap_dedup_index"] → ∀ item ∈ entries s name,
      ∃ n, intId (entryValue item) = .ok n :=
    fun hname item hitem => intId_isOk (w.ints _ hname item hitem)
  -- store by store, each record by its schema
  obtain ⟨entities, hentities⟩ := exists_store h (show "entities" ∈ _ by decide)
    fun item hitem => entityFromDict_isOk (hrecord (by simp [recordCollections]) item hitem)
  obtain ⟨observations, hobservations⟩ := exists_store h (show "observations" ∈ _ by decide)
    fun item hitem => observationFromDict_isOk (hrecord (by simp [recordCollections]) item hitem)
  obtain ⟨claims, hclaims⟩ := exists_store h (show "claims" ∈ _ by decide)
    fun item hitem => claimFromDict_isOk (hrecord (by simp [recordCollections]) item hitem)
  obtain ⟨evidences, hevidences⟩ := exists_store h (show "evidences" ∈ _ by decide)
    fun item hitem => evidenceFromDict_isOk (hrecord (by simp [recordCollections]) item hitem)
  obtain ⟨relations, hrelations⟩ := exists_store h (show "relations" ∈ _ by decide)
    fun item hitem => relationFromDict_isOk (hrecord (by simp [recordCollections]) item hitem)
  obtain ⟨gaps, hgaps⟩ := exists_store h (show "gaps" ∈ _ by decide)
    fun item hitem => gapFromDict_isOk (hrecord (by simp [recordCollections]) item hitem)
  obtain ⟨ruleDefinitions, hruleDefinitions⟩ := exists_restored h.ruleDefinitions.pair_nodup
    fun item hitem => ruleDefFromDict_isOk (hrecord (by simp [recordCollections]) item hitem)
  obtain ⟨ruleStats, hruleStats⟩ := exists_restored h.ruleStats.pair_nodup
    fun item hitem => ruleStatsFromDict_isOk (hrecord (by simp [recordCollections]) item hitem)
  obtain ⟨gapDedupIndex, hgapDedupIndex⟩ :=
    exists_restored h.dedup.tuple4_nodup (hint (by decide))
  obtain ⟨claimGapRefs, hclaimGapRefs⟩ :=
    exists_store h (show "claim_gap_refs" ∈ _ by decide) (hbucket (by decide))
  obtain ⟨gapResolutions, hgapResolutions⟩ :=
    exists_store h (show "gap_resolutions" ∈ _ by decide) (hint (by decide))
  obtain ⟨contradictions, hcontradictions⟩ :=
    exists_store h (show "contradictions" ∈ _ by decide) (hbucket (by decide))
  obtain ⟨resolvedContradictions, hresolvedContradictions⟩ :=
    exists_store h (show "resolved_contradictions" ∈ _ by decide) (hbucket (by decide))
  obtain ⟨claimLifecycleEvents, hclaimLifecycleEvents⟩ :=
    exists_store h (show "claim_lifecycle_events" ∈ _ by decide) fun item hitem =>
      eventsFromValue_isOk (w.events item hitem).1 (w.events item hitem).2
  refine ⟨{
    nextId := .ofFields fields
    lifecycleSeq := s.field "lifecycle_seq"
    entities, observations, claims, evidences, relations, gaps, ruleDefinitions, ruleStats
    gapDedupIndex, claimGapRefs, gapResolutions, contradictions, resolvedContradictions
    claimLifecycleEvents
    hintEvidenceTypes := bucketKeys (.list (s.field "hint_evidence_types").items) }, ?_⟩
  exact {
    statuses := fun item hitem =>
      ((hrecord (show ("claims", claimSchema) ∈ _ by simp [recordCollections]) item hitem).typed
        ("status", .int) (by simp [claimSchema])).1
    nextId := by
      rw [hnext]
      rfl
    lifecycleSeq := rfl
    entities := hentities
    observations := hobservations
    claims := hclaims
    evidences := hevidences
    relations := hrelations
    gaps := hgaps
    ruleDefinitions := hruleDefinitions
    ruleStats := hruleStats
    gapDedupIndex := hgapDedupIndex
    claimGapRefs := hclaimGapRefs
    gapResolutions := hgapResolutions
    contradictions := hcontradictions
    resolvedContradictions := hresolvedContradictions
    claimLifecycleEvents := hclaimLifecycleEvents
    hintEvidenceTypes := by
      rw [Json.eq_list_of_isList w.hints.1]
      refine setOf_list_ok_iff.mpr ⟨fun t ht => ?_, rfl⟩
      rw [exactInt_iff.mp (w.hints.2 t ht)]
      rfl }

/-- A current-version snapshot migrates to itself. -/
theorem migrate {fields : Fields} (hs : s = .dict fields) :
    migrateSnapshotToCurrent fields = .ok s := by
  have hversion := w.version
  rw [hs] at hversion ⊢
  have hkey : (HKey.int currentSnapshotSchemaVersion) ∈ supportedSnapshotSchemaVersions := by
    simp [supportedSnapshotSchemaVersions, currentSnapshotSchemaVersion]
  have hmigrated : (if (Json.int currentSnapshotSchemaVersion).eq (.int 1) then
      migrateSnapshotV1ToV2 fields else fields) = fields := by
    simp [currentSnapshotSchemaVersion]
  unfold migrateSnapshotToCurrent
  simp only [hversion, hmigrated, Json.hash_int, Json.key?_int]
  refine bind_ok_iff.mpr ⟨(), ensure_ok_iff.mpr (by simp [HKey.int]), ?_⟩
  refine bind_ok_iff.mpr ⟨_, rfl, bind_ok_iff.mpr ⟨(), ensure_ok_iff.mpr (by simp [hkey]), ?_⟩⟩
  refine bind_ok_iff.mpr ⟨(), ensure_ok_iff.mpr ?_, rfl⟩
  simp [currentSnapshotSchemaVersion]

end WellShaped

/-! ## What `to_snapshot` writes is well-shaped

Each encoder writes the declared fields and no other, so the law applies to every snapshot of a
session. -/

/-- A record whose fields are the declared ones, in order. -/
theorem RecordShaped.of_fields {schema : Schema} {fields : Fields}
    (hnames : fields.map Prod.fst = schema.map Prod.fst)
    (htyped : ∀ p ∈ schema, p.2.Holds ((Json.dict fields).field p.1)) :
    RecordShaped schema (.dict fields) := by
  have hhas : ∀ name, (Json.dict fields).has name = true ↔ name ∈ schema.map Prod.fst := by
    intro name
    rw [← hnames, Json.has, Option.isSome_iff_ne_none, Ne, Dict.lookup_eq_none, not_not]
  exact ⟨rfl, fun p hp => ⟨(hhas p.1).mpr (List.mem_map_of_mem hp), htyped p hp⟩,
    fun name hname => (hhas name).mp hname⟩

theorem exactInt_of_isInt {v : Json} (h : IsInt v) : v.exactInt = true := by
  obtain ⟨n, rfl⟩ := h
  rfl

/-- A score that is set is written as a score. -/
theorem isScore_svToDict {score : Option ScoreValue} (h : score.isSome = true) :
    IsScore (svToDict score) := by
  obtain ⟨q, rfl⟩ := Option.isSome_iff_exists.mp h
  exact ⟨rfl, q, rfl⟩

/-- A score that may be `None` is written as one. -/
theorem optionalScore_svToDict (score : Option ScoreValue) :
    FieldType.optionalScore.Holds (svToDict score) := by
  cases score with
  | none => exact .inl rfl
  | some q => exact .inr (isScore_svToDict rfl)

/-- The encoders of the records, one by one. -/
theorem entityAsdict_shaped {r : Entity} (h : r.Typed) :
    RecordShaped entitySchema (entityAsdict r) := by
  refine .of_fields rfl ?_
  simp only [entitySchema, List.forall_mem_cons, List.not_mem_nil, false_implies, implies_true,
    and_true]
  exact ⟨exactInt_of_isInt h.id, exactInt_of_isInt h.type, exactInt_of_isInt h.flags⟩

theorem observationAsdict_shaped {r : Observation} (h : r.Typed) :
    RecordShaped observationSchema (observationAsdict r) := by
  refine .of_fields rfl ?_
  simp only [observationSchema, List.forall_mem_cons, List.not_mem_nil, false_implies,
    implies_true, and_true]
  exact ⟨exactInt_of_isInt h.id, exactInt_of_isInt h.entityId, exactInt_of_isInt h.rawRefId,
    exactInt_of_isInt h.type, exactInt_of_isInt h.sourceType⟩

theorem claimAsdict_shaped {r : Claim} (h : r.Typed) :
    RecordShaped claimSchema (claimAsdict r) := by
  refine .of_fields rfl ?_
  simp only [claimSchema, List.forall_mem_cons, List.not_mem_nil, false_implies, implies_true,
    and_true]
  exact ⟨rfl, exactInt_of_isInt h.subjectId, exactInt_of_isInt h.type, exactInt_of_isInt h.status,
    exactInt_of_isInt h.createdByRule, exactInt_of_isInt h.createdByRuleVersion,
    exactInt_of_isInt h.reasonCode, isScore_svToDict h.baseConfidence, exactInt_of_isInt h.flags⟩

theorem evidenceAsdict_shaped {r : Evidence} (h : r.Typed) :
    RecordShaped evidenceSchema (evidenceAsdict r) := by
  refine .of_fields rfl ?_
  simp only [evidenceSchema, List.forall_mem_cons, List.not_mem_nil, false_implies, implies_true,
    and_true]
  exact ⟨rfl, rfl, exactInt_of_isInt h.rawRefId, exactInt_of_isInt h.type,
    isScore_svToDict h.strength⟩

theorem relationAsdict_shaped {r : Relation} (h : r.Typed) :
    RecordShaped relationSchema (relationAsdict r) := by
  refine .of_fields rfl ?_
  simp only [relationSchema, List.forall_mem_cons, List.not_mem_nil, false_implies, implies_true,
    and_true]
  exact ⟨exactInt_of_isInt h.id, exactInt_of_isInt h.fromKind, exactInt_of_isInt h.fromId,
    exactInt_of_isInt h.toKind, exactInt_of_isInt h.toId, exactInt_of_isInt h.type,
    exactInt_of_isInt h.ruleId, exactInt_of_isInt h.reasonCode⟩

theorem gapAsdict_shaped {r : Gap} (h : r.Typed) : RecordShaped gapSchema (gapAsdict r) := by
  refine .of_fields rfl ?_
  simp only [gapSchema, List.forall_mem_cons, List.not_mem_nil, false_implies, implies_true,
    and_true]
  exact ⟨rfl, exactInt_of_isInt h.claimId, exactInt_of_isInt h.type,
    exactInt_of_isInt h.requiredEvidenceType, isScore_svToDict h.severity,
    exactInt_of_isInt h.createdByRule⟩

theorem ruleDefAsdict_shaped {r : RuleDefinition} (h : r.Typed) :
    RecordShaped ruleDefinitionSchema (ruleDefAsdict r) := by
  refine .of_fields rfl ?_
  simp only [ruleDefinitionSchema, List.forall_mem_cons, List.not_mem_nil, false_implies,
    implies_true, and_true]
  exact ⟨exactInt_of_isInt h.id, exactInt_of_isInt h.version, exactInt_of_isInt h.maturity,
    isScore_svToDict h.priorConfidence⟩

theorem ruleStatsAsdict_shaped {r : RuleStats} (h : r.Typed) :
    RecordShaped ruleStatsSchema (ruleStatsAsdict r) := by
  refine .of_fields rfl ?_
  simp only [ruleStatsSchema, List.forall_mem_cons, List.not_mem_nil, false_implies, implies_true,
    and_true]
  exact ⟨exactInt_of_isInt h.ruleId, exactInt_of_isInt h.ruleVersion,
    exactInt_of_isInt h.firingCount, exactInt_of_isInt h.confirmedTrueCount,
    exactInt_of_isInt h.confirmedFalseCount, optionalScore_svToDict _, optionalScore_svToDict _⟩

theorem eventAsdict_shaped {r : ClaimLifecycleEvent} (h : r.Typed) :
    RecordShaped eventSchema (eventAsdict r) := by
  refine .of_fields rfl ?_
  simp only [eventSchema, List.forall_mem_cons, List.not_mem_nil, false_implies, implies_true,
    and_true]
  exact ⟨exactInt_of_isInt h.seq, exactInt_of_isInt h.claimId, exactInt_of_isInt h.fromStatus,
    exactInt_of_isInt h.toStatus, h.transition⟩

/-- The entries of an encoded store of typed records. -/
theorem records_serialized {ν : Type} {s : Json} {name : String} {value : ν → Json}
    {d : Dict Int ν} {P : Json → Prop} (hfield : s.field name = serializeDictInt value d)
    (h : ∀ {k r}, d.get? k = some r → P (value r)) :
    ∀ item ∈ entries s name, P (entryValue item) := by
  intro item hitem
  obtain ⟨k, r, hr, rfl⟩ := (mem_entries_serialized hfield).mp hitem
  exact h hr

/-- What holds of each encoded record holds of each item of its collection. -/
theorem records_serializedPair {ν : Type} {s : Json} {name : String} {asdict : ν → Json}
    {d : Dict (Int × Int) ν} {P : Json → Prop}
    (hfield : s.field name = serializeDictTupleDataclass asdict d)
    (h : ∀ {k r}, d.get? k = some r → P (asdict r)) :
    ∀ item ∈ entries s name, P (entryValue item) := by
  intro item hitem
  rw [entries_serializedPair hfield] at hitem
  obtain ⟨⟨k, r⟩, hp, rfl⟩ := List.mem_map.mp hitem
  exact h (Dict.mem_entries_iff.mp (Dict.mem_sortedBy.mp hp))

/-- A set is written as the list of its ints. -/
theorem isIntList_sorted (bucket : Finset Int) :
    IsIntList (.list ((sortSet (· ≤ ·) bucket).map .int)) := by
  refine ⟨rfl, fun member hmember => ?_⟩
  obtain ⟨n, -, rfl⟩ := List.mem_map.mp hmember
  rfl

theorem buckets_serialized {s : Json} {name : String} {d : Dict Int (Finset Int)}
    (hfield : s.field name = serializeDictIntSet d) :
    ∀ item ∈ entries s name, IsIntList (entryValue item) :=
  records_serialized (s := s) hfield fun _ => isIntList_sorted _

/-- **The snapshot of a sound engine is well-shaped.** -/
theorem wellShaped_encoded {e : Engine} (h : Sound e) :
    WellShaped (encoded e.toDecodedEngineState) := by
  have hrestorable := restorable_encoded h.storable
  have ht := h.typed
  exact {
    required := hrestorable.required
    version := rfl
    nextId := rfl
    -- what the pass asks of the collections, the shape asks as well
    counters := by
      intro p hp
      obtain ⟨n, hn, -⟩ := hrestorable.counters p hp
      rw [hn]
      rfl
    lifecycleSeq := exactInt_of_isInt ht.lifecycleSeq
    intKeyed := fun name hname =>
      ⟨(hrestorable.intKeyed name hname).isList, (hrestorable.intKeyed name hname).shaped⟩
    identityKeyed := by
      simp only [identityCollections, List.forall_mem_cons, List.not_mem_nil, false_implies,
        implies_true, and_true]
      exact ⟨⟨hrestorable.ruleDefinitions.isList, hrestorable.ruleDefinitions.shaped⟩,
        ⟨hrestorable.ruleStats.isList, hrestorable.ruleStats.shaped⟩,
        ⟨hrestorable.dedup.isList, hrestorable.dedup.shaped⟩⟩
    records := by
      simp only [recordCollections, List.forall_mem_cons, List.not_mem_nil, false_implies,
        implies_true, and_true]
      exact ⟨records_serialized (d := e.entities) rfl fun hr => entityAsdict_shaped (ht.entity hr),
        records_serialized (d := e.observations) rfl fun hr =>
          observationAsdict_shaped (ht.observation hr),
        records_serialized (d := e.claims) rfl fun hr => claimAsdict_shaped (ht.claim hr),
        records_serialized (d := e.evidences) rfl fun hr =>
          evidenceAsdict_shaped (ht.evidence hr),
        records_serialized (d := e.relations) rfl fun hr =>
          relationAsdict_shaped (ht.relation hr),
        records_serialized (d := e.gaps) rfl fun hr => gapAsdict_shaped (ht.gap hr),
        records_serializedPair (d := e.ruleDefinitions) rfl fun hr =>
          ruleDefAsdict_shaped (ht.ruleDefinition hr),
        records_serializedPair (d := e.ruleStats) rfl fun hr =>
          ruleStatsAsdict_shaped (ht.ruleStats hr)⟩
    events := by
      have hfield : (encoded e.toDecodedEngineState).field "claim_lifecycle_events" =
          serializeDictIntListDataclass eventAsdict e.claimLifecycleEvents := rfl
      intro item hitem
      obtain ⟨k, events, hevents, rfl⟩ := (mem_entries_serialized hfield).mp hitem
      refine ⟨rfl, fun event hevent => ?_⟩
      obtain ⟨r, hr, rfl⟩ := List.mem_map.mp hevent
      exact eventAsdict_shaped (ht.event hevents hr)
    buckets := by
      simp only [bucketCollections, List.forall_mem_cons, List.not_mem_nil, false_implies,
        implies_true, and_true]
      exact ⟨buckets_serialized (d := e.contradictions) rfl,
        buckets_serialized (d := e.claimGapRefs) rfl,
        buckets_serialized (d := e.resolvedContradictions) rfl⟩
    ints := by
      simp only [List.forall_mem_cons, List.not_mem_nil, false_implies, implies_true, and_true]
      refine ⟨records_serialized (d := e.gapResolutions) (P := fun v => v.exactInt = true) rfl
        fun _ => rfl, fun item hitem => ?_⟩
      have hfield : (encoded e.toDecodedEngineState).field "gap_dedup_index" =
          .list (dedupEntries e.gapDedupIndex) := rfl
      obtain ⟨key, g, -, rfl⟩ := (mem_entries_dedup hfield).mp hitem
      rfl
    hints := by
      refine ⟨rfl, fun t ht' => ?_⟩
      obtain ⟨key, hkey, rfl⟩ := List.mem_map.mp ht'
      obtain ⟨n, rfl⟩ := ht.hint (mem_sortSet.mp hkey)
      rw [HKey.toJson_int]
      rfl
    statuses := records_serialized (d := e.claims) (P := fun v => ValidStatus (v.field "status"))
      rfl fun hr => h.references.status hr }

/-! ## The law

On well-shaped snapshots nothing but integrity is left to refuse. -/

/-- **On well-shaped snapshots the restore decides integrity**: validation and decoding, and
`from_snapshot` as a whole, accept exactly those whose parts fit together. -/
theorem validateAndDecode_isOk_iff (s : Json) (w : WellShaped s) :
    ((∃ d, validateAndDecodeSnapshot s = .ok d) ↔ Integrity s) ∧
      ∀ uuid, (∃ e, Engine.fromSnapshot uuid s = .ok e) ↔ Integrity s := by
  obtain ⟨fields, rfl⟩ := Json.eq_dict_of_isDict
    (Json.isDict_of_has (w.required "claims" (by decide)))
  have hmigrate := w.migrate rfl
  rw [← w.restorable_iff]
  have hrestorable : ∀ {d}, validateAndDecodeSnapshot (.dict fields) = .ok d →
      Restorable (.dict fields) := by
    intro d hd
    obtain ⟨fields', current, hfields, hcurrent, hrestorable, -⟩ :=
      validateAndDecodeSnapshot_ok_iff.mp hd
    cases hfields
    rw [hmigrate] at hcurrent
    cases hcurrent
    exact hrestorable
  -- the statuses are typed, so the restore adds no refusal to the decoder's
  refine ⟨⟨fun ⟨_, hd⟩ => hrestorable hd, fun h => ?_⟩,
    fun uuid => ⟨fun ⟨_, he⟩ => ?_, fun h => ?_⟩⟩
  · obtain ⟨d, hd⟩ := w.exists_decoded h
    exact ⟨d, validateAndDecodeSnapshot_ok_iff.mpr ⟨fields, _, rfl, hmigrate, h, hd⟩⟩
  · obtain ⟨d, hd, _⟩ := bind_ok_iff.mp he
    exact hrestorable hd
  · obtain ⟨d, hd⟩ := w.exists_decoded h
    refine ⟨_, fromSnapshot_ok_iff.mpr ⟨fields, _, d, rfl, hmigrate, h, hd, ?_, rfl⟩⟩
    intro claim hclaim
    obtain ⟨item, hitem, hread⟩ := exists_of_forall₂_right hd.claims.values hclaim
    have hdec := claimFromDict_decoded (isDict_of_owned h (by decide) hitem) hread
    rw [hdec.status]
    exact w.statuses item hitem

/-- The law on the snapshot of the session that disputes a claim. -/
theorem validateAndDecode_isOk_iff_disputed :
    Integrity (encoded Session.disputed.engine.toDecodedEngineState) := by
  have hsound := Session.disputed_reachable.sound
  exact ((validateAndDecode_isOk_iff _ (wellShaped_encoded hsound)).2 default).mp
    ⟨_, Engine.fromSnapshot_encoded hsound.storable default⟩

end Snapshot

end Ragcore
