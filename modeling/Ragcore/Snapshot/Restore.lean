import Ragcore.Snapshot.Decode
import Ragcore.Snapshot.Integrity

/-!
# Ragcore — what an accepted snapshot restores

The link between an accepted snapshot and the stores built from it.

* **`Restored`** — a store holds, in order, the decoded entries of a collection.
* **`Decoded`** — all seventeen stores against the snapshot they come from.
* **`fromSnapshot_ok_iff`** — a restore succeeds exactly when the migrated snapshot is
  `Restorable`, decodes, and has only valid claim statuses.
-/

namespace Ragcore

namespace Snapshot

/-! ## One store

A list of entries is read key by key and value by value. Where the keys are distinct, the store
holds what the entries hold. -/

/-- The entries of `d` are those of the collection, keys read and values decoded. -/
def Restored {κ α : Type} (keyOf : Json → κ) (readValue : Json → Except PyErr α)
    (items : List Json) (d : Dict κ α) : Prop :=
  List.Forall₂ (fun item p => p.1 = keyOf item ∧ readValue (entryValue item) = .ok p.2) items
    d.entries

section Restored

variable {κ α : Type} {keyOf : Json → κ} {readKey : Json → Option κ}
  {readValue : Json → Except PyErr α} {items : List Json} {d : Dict κ α}

/-- What the comprehension asks of an entry's shape. -/
structure Readable (readKey : Json → Option κ) (keyOf : Json → κ) (item : Json) : Prop where
  hasKey : item.has "key" = true
  hasValue : item.has "value" = true
  key : readKey (item.field "key") = some (keyOf item)

/-- An entry is read when its value decodes. -/
theorem readEntry_ok_iff {item : Json} (h : Readable readKey keyOf item) {p : κ × α} :
    (do
      let key ← item.getItem "key"
      let k ← require (readKey key) (.typeError [s!"not a key: {key.typeName}"])
      let value ← item.getItem "value"
      let a ← readValue value
      return (k, a)) = .ok p ↔
      p.1 = keyOf item ∧ readValue (entryValue item) = .ok p.2 := by
  simp only [Json.getItem_of_has h.hasKey, Json.getItem_of_has h.hasValue, bind_ok_iff,
    Except.ok.injEq, require_ok_iff, pure, Except.pure]
  constructor
  · rintro ⟨_, rfl, k, hk, _, rfl, a, ha, rfl⟩
    rw [h.key] at hk
    exact ⟨(Option.some.inj hk).symm, ha⟩
  · rintro ⟨hk, ha⟩
    exact ⟨_, rfl, _, h.key, _, rfl, _, ha, by rw [← hk]⟩

/-- Decoding one by one: the values of the store are the decoded values of the entries. -/
theorem Restored.values (h : Restored keyOf readValue items d) :
    List.Forall₂ (fun item a => readValue (entryValue item) = .ok a) items d.values := by
  rw [Dict.values, List.forall₂_map_right_iff]
  exact h.imp fun _ _ hp => hp.2

/-- A collection whose every entry decodes has a store. -/
theorem exists_restored (hnodup : (items.map keyOf).Nodup)
    (hvalues : ∀ item ∈ items, ∃ a, readValue (entryValue item) = .ok a) :
    ∃ d : Dict κ α, Restored keyOf readValue items d := by
  have hpairs : ∃ pairs : List (κ × α), List.Forall₂
      (fun item p => p.1 = keyOf item ∧ readValue (entryValue item) = .ok p.2) items pairs ∧
        pairs.map Prod.fst = items.map keyOf := by
    clear hnodup
    -- the values decode one by one
    induction items with
    | nil => exact ⟨[], .nil, rfl⟩
    | cons item rest ih =>
      obtain ⟨hitem, hrest⟩ := List.forall_mem_cons.mp hvalues
      obtain ⟨a, ha⟩ := hitem
      obtain ⟨pairs, hforall, hkeys⟩ := ih hrest
      exact ⟨(keyOf item, a) :: pairs, .cons ⟨rfl, ha⟩ hforall, by simp [hkeys]⟩
  obtain ⟨pairs, hforall, hkeys⟩ := hpairs
  exact ⟨⟨pairs, hkeys ▸ hnodup⟩, hforall⟩

variable [DecidableEq κ]

theorem restoreDict_ok_iff (hread : ∀ item ∈ items, Readable readKey keyOf item)
    (hnodup : (items.map keyOf).Nodup) :
    restoreDict readKey readValue (.list items) = .ok d ↔ Restored keyOf readValue items d := by
  have hpairs : ∀ pairs : List (κ × α),
      (items.mapM fun item => do
        let key ← item.getItem "key"
        let k ← require (readKey key) (.typeError [s!"not a key: {key.typeName}"])
        let value ← item.getItem "value"
        let a ← readValue value
        return (k, a)) = .ok pairs ↔
        List.Forall₂ (fun item p => p.1 = keyOf item ∧ readValue (entryValue item) = .ok p.2)
          items pairs := by
    intro pairs
    rw [mapM_ok_iff]
    exact forall₂_congr_of_mem fun item hitem p => readEntry_ok_iff (hread item hitem)
  have hkeys : ∀ pairs : List (κ × α),
      List.Forall₂ (fun item p => p.1 = keyOf item ∧ readValue (entryValue item) = .ok p.2)
        items pairs → pairs.map Prod.fst = items.map keyOf := by
    intro pairs h
    clear hread hnodup hpairs
    induction h with
    | nil => rfl
    | cons hp _ ih => simp [hp.1, ih]
  simp only [restoreDict, Json.iterate, Json.iterate?, bind_ok_iff, Except.ok.injEq, pure,
    Except.pure]
  -- the keys are distinct, so the comprehension overwrites nothing
  constructor
  · rintro ⟨_, rfl, pairs, hmap, rfl⟩
    have hforall := (hpairs pairs).mp hmap
    rw [Restored, Dict.ofList_entries (hkeys pairs hforall ▸ hnodup)]
    exact hforall
  · intro h
    exact ⟨_, rfl, d.entries, (hpairs _).mpr h, Dict.ext (Dict.ofList_entries d.nodup)⟩

/-- A key finds the value of its entry. -/
theorem Restored.get?_iff (h : Restored keyOf readValue items d) {k : κ} {a : α} :
    d.get? k = some a ↔
      ∃ item ∈ items, keyOf item = k ∧ readValue (entryValue item) = .ok a := by
  rw [← Dict.mem_entries_iff]
  constructor
  · intro hmem
    obtain ⟨item, hitem, hkey, hvalue⟩ := exists_of_forall₂_right h hmem
    exact ⟨item, hitem, hkey.symm, hvalue⟩
  · rintro ⟨item, hitem, rfl, hvalue⟩
    obtain ⟨p, hp, hkey, hp'⟩ := exists_of_forall₂_left h hitem
    rw [hvalue] at hp'
    obtain ⟨k, a'⟩ := p
    cases hkey
    cases hp'
    exact hp

/-- The keys of the store are the keys of the entries. -/
theorem Restored.contains_iff (h : Restored keyOf readValue items d) {k : κ} :
    d.contains k = true ↔ ∃ item ∈ items, keyOf item = k := by
  rw [← Dict.mem_keys_iff, Dict.keys, List.mem_map]
  constructor
  · rintro ⟨p, hp, rfl⟩
    obtain ⟨item, hitem, hkey, _⟩ := exists_of_forall₂_right h hp
    exact ⟨item, hitem, hkey.symm⟩
  · rintro ⟨item, hitem, rfl⟩
    obtain ⟨p, hp, hkey, _⟩ := exists_of_forall₂_left h hitem
    exact ⟨p, hp, hkey⟩

end Restored

/-- The keys of the integrity pass are those the decoder reads. -/
theorem EntryShaped.readable {item : Json} (h : EntryShaped item) :
    Readable Json.exactInt? entryKey item := ⟨h.hasKey, h.hasValue, h.exactKey⟩

/-! ### Tuple keys

A logical key of two or four ints is a tuple of the source. -/

def pairOf (item : Json) : Int × Int := (pairKey (item.field "key")).getD (0, 0)

def tuple4Of (item : Json) : DedupKey := (tuple4Key (item.field "key")).getD (.none, 0, 0, 0)

theorem exact_component {arity : Nat} {item : Json} (h : LogicalShaped arity item)
    {c : Json} (hc : c ∈ (item.field "key").items) : c.exactInt? = some (c.exactInt?.getD 0) := by
  obtain ⟨n, hn⟩ := Option.isSome_iff_exists.mp (h.exact c hc)
  simp [hn]

theorem LogicalShaped.pair {item : Json} (h : LogicalShaped 2 item) :
    pairKey (item.field "key") = some (pairOf item) ∧
      logicalKey item = [(pairOf item).1, (pairOf item).2] := by
  obtain ⟨x, y, hxy⟩ := List.length_eq_two.mp h.length
  have hx := exact_component h (c := x) (by simp [hxy])
  have hy := exact_component h (c := y) (by simp [hxy])
  have hkey : pairKey (item.field "key") = some (x.exactInt?.getD 0, y.exactInt?.getD 0) := by
    simp only [pairKey, hxy, List.map_cons, List.map_nil]
    rw [hx, hy]
    rfl
  exact ⟨by simp [pairOf, hkey], by simp [logicalKey, pairOf, hkey, hxy]⟩

theorem LogicalShaped.tuple4 {item : Json} (h : LogicalShaped 4 item) :
    ∃ a b c d, logicalKey item = [a, b, c, d] ∧
      tuple4Key (item.field "key") = some (HKey.int a, b, c, d) := by
  obtain ⟨w, x, y, z, hkey⟩ : ∃ w x y z, (item.field "key").items = [w, x, y, z] := by
    match hitems : (item.field "key").items, h.length with
    | [w, x, y, z], _ => exact ⟨w, x, y, z, rfl⟩
  have hw := exact_component h (c := w) (by simp [hkey])
  have hx := exact_component h (c := x) (by simp [hkey])
  have hy := exact_component h (c := y) (by simp [hkey])
  have hz := exact_component h (c := z) (by simp [hkey])
  refine ⟨w.exactInt?.getD 0, x.exactInt?.getD 0, y.exactInt?.getD 0, z.exactInt?.getD 0,
    by simp [logicalKey, hkey], ?_⟩
  simp only [tuple4Key, hkey, List.map_cons, List.map_nil]
  rw [hw, hx, hy, hz]
  rfl

theorem LogicalShaped.readPair {item : Json} (h : LogicalShaped 2 item) :
    Readable pairKey pairOf item := ⟨h.hasKey, h.hasValue, h.pair.1⟩

theorem LogicalShaped.readTuple4 {item : Json} (h : LogicalShaped 4 item) :
    Readable tuple4Key tuple4Of item := by
  obtain ⟨a, b, c, d, -, hkey⟩ := h.tuple4
  exact ⟨h.hasKey, h.hasValue, by simp [tuple4Of, hkey]⟩

/-- Distinct logical keys are distinct tuples. -/
theorem IdentityKeyed.pair_nodup {s : Json} {name : String} (h : IdentityKeyed s name 2) :
    ((entries s name).map pairOf).Nodup := by
  have hmap : (entries s name).map logicalKey =
      ((entries s name).map pairOf).map fun p => [p.1, p.2] := by
    rw [List.map_map]
    exact List.map_congr_left fun item hitem => (h.shaped item hitem).pair.2
  exact List.Nodup.of_map _ (hmap ▸ h.nodup)

theorem IdentityKeyed.tuple4_nodup {s : Json} {name : String} (h : IdentityKeyed s name 4) :
    ((entries s name).map tuple4Of).Nodup := by
  have hmap : (entries s name).map logicalKey = ((entries s name).map tuple4Of).map
      fun k => [k.1.toInt?.getD 0, k.2.1, k.2.2.1, k.2.2.2] := by
    rw [List.map_map]
    refine List.map_congr_left fun item hitem => ?_
    obtain ⟨a, b, c, d, hlogical, hkey⟩ := (h.shaped item hitem).tuple4
    simp [hlogical, tuple4Of, hkey]
  exact List.Nodup.of_map _ (hmap ▸ h.nodup)

/-! ## All stores

The decoder goes through the collections in a fixed order. It returns exactly when each store is
restored. -/

/-- The log of one claim. -/
def eventsFromValue (value : Json) : Except PyErr (List ClaimLifecycleEvent) := do
  let records ← value.iterate
  records.mapM eventFromDict

/-- The stores a snapshot decodes to. -/
structure Decoded (s : Json) (d : DecodedEngineState) : Prop where
  statuses : ∀ item ∈ entries s "claims", (entryValue item).has "status" = true
  nextId : nextIdOf (s.field "next_id") = .ok d.nextId
  lifecycleSeq : d.lifecycleSeq = s.field "lifecycle_seq"
  entities : Restored entryKey entityFromDict (entries s "entities") d.entities
  observations : Restored entryKey observationFromDict (entries s "observations") d.observations
  claims : Restored entryKey claimFromDict (entries s "claims") d.claims
  evidences : Restored entryKey evidenceFromDict (entries s "evidences") d.evidences
  relations : Restored entryKey relationFromDict (entries s "relations") d.relations
  gaps : Restored entryKey gapFromDict (entries s "gaps") d.gaps
  ruleDefinitions : Restored pairOf ruleDefFromDict (entries s "rule_definitions")
    d.ruleDefinitions
  ruleStats : Restored pairOf ruleStatsFromDict (entries s "rule_stats") d.ruleStats
  gapDedupIndex : Restored tuple4Of intId (entries s "gap_dedup_index") d.gapDedupIndex
  claimGapRefs : Restored entryKey idBucket (entries s "claim_gap_refs") d.claimGapRefs
  gapResolutions : Restored entryKey intId (entries s "gap_resolutions") d.gapResolutions
  contradictions : Restored entryKey idBucket (entries s "contradictions") d.contradictions
  resolvedContradictions : Restored entryKey idBucket (entries s "resolved_contradictions")
    d.resolvedContradictions
  claimLifecycleEvents : Restored entryKey eventsFromValue (entries s "claim_lifecycle_events")
    d.claimLifecycleEvents
  hintEvidenceTypes : (s.field "hint_evidence_types").setOf = .ok d.hintEvidenceTypes

section Decoding

variable {s : Json} (h : Restorable s)
include h

/-- A required collection is there. -/
theorem getItem_eq {name : String} (hname : name ∈ snapshotRequiredKeys) :
    s.getItem name = .ok (s.field name) := Json.getItem_of_has (h.required name hname)

/-- A store over an int-keyed collection. -/
theorem restoreInt_iff {α : Type} {name : String} (hname : name ∈ intKeyedCollections)
    {readValue : Json → Except PyErr α} {d : Dict Int α} :
    (do restoreDict Json.exactInt? readValue (← s.getItem name)) = .ok d ↔
      Restored entryKey readValue (entries s name) d := by
  have hint := h.intKeyed name hname
  rw [getItem_eq h (intKeyed_required name hname)]
  change restoreDict Json.exactInt? readValue (s.field name) = .ok d ↔ _
  rw [Json.eq_list_of_isList hint.isList]
  exact restoreDict_ok_iff (fun item hitem => (hint.shaped item hitem).readable) hint.nodup

theorem restorePair_iff {α : Type} {name : String} (hname : name ∈ snapshotRequiredKeys)
    (hkeyed : IdentityKeyed s name 2) {readValue : Json → Except PyErr α}
    {d : Dict (Int × Int) α} :
    (do restoreDict pairKey readValue (← s.getItem name)) = .ok d ↔
      Restored pairOf readValue (entries s name) d := by
  rw [getItem_eq h hname]
  change restoreDict pairKey readValue (s.field name) = .ok d ↔ _
  rw [Json.eq_list_of_isList hkeyed.isList]
  exact restoreDict_ok_iff (fun item hitem => (hkeyed.shaped item hitem).readPair)
    hkeyed.pair_nodup

theorem restoreTuple4_iff {name : String} (hname : name ∈ snapshotRequiredKeys)
    (hkeyed : IdentityKeyed s name 4) {d : Dict DedupKey Int} :
    (do restoreDict tuple4Key intId (← s.getItem name)) = .ok d ↔
      Restored tuple4Of intId (entries s name) d := by
  rw [getItem_eq h hname]
  change restoreDict tuple4Key intId (s.field name) = .ok d ↔ _
  rw [Json.eq_list_of_isList hkeyed.isList]
  exact restoreDict_ok_iff (fun item hitem => (hkeyed.shaped item hitem).readTuple4)
    hkeyed.tuple4_nodup

/-- Each claim has a status, whatever it is. -/
theorem requireStatuses_ok_iff :
    requireStatuses s = .ok () ↔
      ∀ item ∈ entries s "claims", (entryValue item).has "status" = true := by
  have hint := h.intKeyed "claims" (by decide)
  -- the collection is a list, so it is iterated as it stands
  have hiter : (s.field "claims").iterate = .ok (entries s "claims") := by
    rw [Json.eq_list_of_isList hint.isList]
    rfl
  rw [requireStatuses, getItem_eq h (by decide)]
  change (do let items ← (s.field "claims").iterate; _) = _ ↔ _
  rw [hiter]
  constructor
  · intro hloop item hitem
    have := forM_ok_iff.mp hloop item hitem
    rw [(hint.shaped item hitem).getValue] at this
    exact ensure_ok_iff.mp this
  · intro hall
    refine forM_ok_iff.mpr fun item hitem => ?_
    rw [(hint.shaped item hitem).getValue]
    exact ensure_ok_iff.mpr (hall item hitem)

/-- **A restorable snapshot decodes to the stores it describes.** -/
theorem decodeStores_ok_iff {d : DecodedEngineState} :
    decodeStores s = .ok d ↔ Decoded s d := by
  have hseq : s.has "lifecycle_seq" = true := h.required _ (by decide)
  constructor
  · intro hd
    obtain ⟨_, hstatuses, hd⟩ := bind_ok_iff.mp hd
    obtain ⟨_, hnext, hd⟩ := bind_ok_iff.mp hd
    -- one store a step, in the order of the source
    obtain ⟨_, hentities, hd⟩ := bind_bind_ok_iff.mp hd
    obtain ⟨_, hobservations, hd⟩ := bind_bind_ok_iff.mp hd
    obtain ⟨_, hclaims, hd⟩ := bind_bind_ok_iff.mp hd
    obtain ⟨_, hevidences, hd⟩ := bind_bind_ok_iff.mp hd
    obtain ⟨_, hrelations, hd⟩ := bind_bind_ok_iff.mp hd
    obtain ⟨_, hgaps, hd⟩ := bind_bind_ok_iff.mp hd
    obtain ⟨_, hruleDefinitions, hd⟩ := bind_bind_ok_iff.mp hd
    obtain ⟨_, hruleStats, hd⟩ := bind_bind_ok_iff.mp hd
    obtain ⟨_, hgapDedupIndex, hd⟩ := bind_bind_ok_iff.mp hd
    obtain ⟨_, hclaimGapRefs, hd⟩ := bind_bind_ok_iff.mp hd
    obtain ⟨_, hgapResolutions, hd⟩ := bind_bind_ok_iff.mp hd
    obtain ⟨_, hcontradictions, hd⟩ := bind_bind_ok_iff.mp hd
    obtain ⟨_, hresolvedContradictions, hd⟩ := bind_bind_ok_iff.mp hd
    obtain ⟨_, hclaimLifecycleEvents, hd⟩ := bind_bind_ok_iff.mp hd
    obtain ⟨_, hgetHints, hd⟩ := bind_ok_iff.mp hd
    obtain ⟨_, hhints, hd⟩ := bind_ok_iff.mp hd
    cases hd
    rw [getItem_eq h (by decide)] at hgetHints
    cases hgetHints
    exact {
      statuses := (requireStatuses_ok_iff h).mp hstatuses
      nextId := hnext
      lifecycleSeq := if_pos hseq
      entities := (restoreInt_iff h (by decide)).mp hentities
      observations := (restoreInt_iff h (by decide)).mp hobservations
      claims := (restoreInt_iff h (by decide)).mp hclaims
      evidences := (restoreInt_iff h (by decide)).mp hevidences
      relations := (restoreInt_iff h (by decide)).mp hrelations
      gaps := (restoreInt_iff h (by decide)).mp hgaps
      ruleDefinitions := (restorePair_iff h (by decide) h.ruleDefinitions).mp hruleDefinitions
      ruleStats := (restorePair_iff h (by decide) h.ruleStats).mp hruleStats
      gapDedupIndex := (restoreTuple4_iff h (by decide) h.dedup).mp hgapDedupIndex
      claimGapRefs := (restoreInt_iff h (by decide)).mp hclaimGapRefs
      gapResolutions := (restoreInt_iff h (by decide)).mp hgapResolutions
      contradictions := (restoreInt_iff h (by decide)).mp hcontradictions
      resolvedContradictions := (restoreInt_iff h (by decide)).mp hresolvedContradictions
      claimLifecycleEvents := (restoreInt_iff h (by decide)).mp hclaimLifecycleEvents
      hintEvidenceTypes := hhints }
  · intro hd
    refine bind_ok_iff.mpr ⟨(), (requireStatuses_ok_iff h).mpr hd.statuses, ?_⟩
    refine bind_ok_iff.mpr ⟨_, hd.nextId, ?_⟩
    refine bind_bind_ok_iff.mpr ⟨_, (restoreInt_iff h (by decide)).mpr hd.entities, ?_⟩
    refine bind_bind_ok_iff.mpr ⟨_, (restoreInt_iff h (by decide)).mpr hd.observations, ?_⟩
    refine bind_bind_ok_iff.mpr ⟨_, (restoreInt_iff h (by decide)).mpr hd.claims, ?_⟩
    refine bind_bind_ok_iff.mpr ⟨_, (restoreInt_iff h (by decide)).mpr hd.evidences, ?_⟩
    refine bind_bind_ok_iff.mpr ⟨_, (restoreInt_iff h (by decide)).mpr hd.relations, ?_⟩
    refine bind_bind_ok_iff.mpr ⟨_, (restoreInt_iff h (by decide)).mpr hd.gaps, ?_⟩
    refine bind_bind_ok_iff.mpr
      ⟨_, (restorePair_iff h (by decide) h.ruleDefinitions).mpr hd.ruleDefinitions, ?_⟩
    refine bind_bind_ok_iff.mpr
      ⟨_, (restorePair_iff h (by decide) h.ruleStats).mpr hd.ruleStats, ?_⟩
    refine bind_bind_ok_iff.mpr
      ⟨_, (restoreTuple4_iff h (by decide) h.dedup).mpr hd.gapDedupIndex, ?_⟩
    refine bind_bind_ok_iff.mpr ⟨_, (restoreInt_iff h (by decide)).mpr hd.claimGapRefs, ?_⟩
    refine bind_bind_ok_iff.mpr ⟨_, (restoreInt_iff h (by decide)).mpr hd.gapResolutions, ?_⟩
    refine bind_bind_ok_iff.mpr ⟨_, (restoreInt_iff h (by decide)).mpr hd.contradictions, ?_⟩
    refine bind_bind_ok_iff.mpr
      ⟨_, (restoreInt_iff h (by decide)).mpr hd.resolvedContradictions, ?_⟩
    refine bind_bind_ok_iff.mpr ⟨_, (restoreInt_iff h (by decide)).mpr hd.claimLifecycleEvents, ?_⟩
    refine bind_ok_iff.mpr ⟨_, getItem_eq h (by decide),
      bind_ok_iff.mpr ⟨_, hd.hintEvidenceTypes, ?_⟩⟩
    rw [if_pos hseq, ← hd.lifecycleSeq]
    rfl

end Decoding

/-! ## Records

What the decoded records have in common with the values they were read from, as far as later proofs
need it. -/

/-- An argument is the field of its name. -/
theorem argument_ofObject (fields : Fields) (name : String) :
    argument (Json.ofObject fields) name .null = (Json.dict fields).field name := by
  simp [argument, Dict.getD, Json.field]

theorem dictItem_ofObject {fields : Fields} {name : String} {v : Json}
    (h : dictItem (Json.ofObject fields) name = .ok v) : v = (Json.dict fields).field name := by
  rw [dictItem, Json.get?_ofObject] at h
  cases hv : fields.lookup name with
  | none => simp [hv] at h
  | some w =>
    rw [hv] at h
    cases h
    simp [Json.field, hv]

/-- An id is a value that equals an int. -/
theorem intId_ok_iff {v : Json} {n : Int} : intId v = .ok n ↔ v.asInt? = some n :=
  require_ok_iff

/-- A decoded claim, field by field. -/
structure ClaimDecoded (v : Json) (r : Claim) : Prop where
  id : (v.field "id").asInt? = some r.id
  baseConfidence : svFromDict (v.field "base_confidence") = .ok r.baseConfidence
  status : r.status = v.field "status"
  createdByRule : r.createdByRule = v.field "created_by_rule"
  createdByRuleVersion : r.createdByRuleVersion = v.field "created_by_rule_version"

/-- The id, the subject and the status of a claim are the ones in the value. -/
theorem claimFromDict_decoded {v : Json} {r : Claim} (hdict : v.isDict = true)
    (h : claimFromDict v = .ok r) : ClaimDecoded v r := by
  obtain ⟨fields, rfl⟩ := Json.eq_dict_of_isDict hdict
  obtain ⟨d, hd, h⟩ := bind_ok_iff.mp h
  cases hd
  obtain ⟨base, hbase, h⟩ := bind_ok_iff.mp h
  obtain ⟨score, hscore, h⟩ := bind_ok_iff.mp h
  obtain ⟨_, _, h⟩ := bind_ok_iff.mp h
  obtain ⟨id, hid, h⟩ := bind_ok_iff.mp h
  cases h
  rw [dictItem_ofObject hbase] at hscore
  rw [argument_ofObject, intId_ok_iff] at hid
  exact ⟨hid, hscore, argument_ofObject _ _, argument_ofObject _ _, argument_ofObject _ _⟩

/-- The fields of an evidence that other records refer to. -/
structure EvidenceDecoded (v : Json) (r : Evidence) : Prop where
  id : (v.field "id").asInt? = some r.id
  claimId : (v.field "claim_id").asInt? = some r.claimId
  type : r.type = v.field "type"
  strength : svFromDict (v.field "strength") = .ok r.strength

theorem evidenceFromDict_decoded {v : Json} {r : Evidence} (hdict : v.isDict = true)
    (h : evidenceFromDict v = .ok r) : EvidenceDecoded v r := by
  obtain ⟨fields, rfl⟩ := Json.eq_dict_of_isDict hdict
  obtain ⟨d, hd, h⟩ := bind_ok_iff.mp h
  cases hd
  obtain ⟨strength, hstrength, h⟩ := bind_ok_iff.mp h
  obtain ⟨score, hscore, h⟩ := bind_ok_iff.mp h
  obtain ⟨_, _, h⟩ := bind_ok_iff.mp h
  obtain ⟨id, hid, h⟩ := bind_ok_iff.mp h
  obtain ⟨claimId, hclaimId, h⟩ := bind_ok_iff.mp h
  cases h
  rw [dictItem_ofObject hstrength] at hscore
  rw [argument_ofObject, intId_ok_iff] at hid hclaimId
  exact ⟨hid, hclaimId, argument_ofObject _ _, hscore⟩

theorem gapFromDict_id {v : Json} {r : Gap} (hdict : v.isDict = true)
    (h : gapFromDict v = .ok r) : (v.field "id").asInt? = some r.id := by
  obtain ⟨fields, rfl⟩ := Json.eq_dict_of_isDict hdict
  obtain ⟨d, hd, h⟩ := bind_ok_iff.mp h
  cases hd
  obtain ⟨severity, _, h⟩ := bind_ok_iff.mp h
  obtain ⟨score, _, h⟩ := bind_ok_iff.mp h
  obtain ⟨_, _, h⟩ := bind_ok_iff.mp h
  obtain ⟨id, hid, h⟩ := bind_ok_iff.mp h
  cases h
  rw [argument_ofObject, intId_ok_iff] at hid
  exact hid

/-- Only `null` decodes to no score. -/
theorem svFromDict_none_iff {v : Json} : svFromDict v = .ok none ↔ v = .null := by
  constructor
  · intro h
    cases v with
    | null => rfl
    | _ =>
      obtain ⟨_, _, h⟩ := bind_ok_iff.mp h
      obtain ⟨_, _, h⟩ := bind_ok_iff.mp h
      cases h
  · rintro rfl
    rfl

theorem mem_intMembers {keys : Finset HKey} {n : Int} :
    n ∈ intMembers keys ↔ HKey.int n ∈ keys := by
  simp [intMembers, HKey.toInt?_eq_some]

/-- The members of a decoded bucket. -/
theorem mem_idBucket {v : Json} {bucket : Finset Int} (hlist : v.isList = true)
    (h : idBucket v = .ok bucket) {n : Int} :
    n ∈ bucket ↔ ∃ member ∈ v.items, member.asInt? = some n := by
  obtain ⟨keys, hkeys, h⟩ := bind_ok_iff.mp h
  cases h
  rw [Json.eq_list_of_isList hlist] at hkeys
  obtain ⟨-, rfl⟩ := setOf_list_ok_iff.mp hkeys
  rw [mem_intMembers, mem_bucketKeys]
  simp only [Json.asInt?_eq_some]
  rfl

/-! ## The façade

`Engine.from_snapshot`: decode, admit the statuses, install the stores under a new token. -/

/-- What validation and decoding accept. -/
theorem validateAndDecodeSnapshot_ok_iff {snapshot : Json} {d : DecodedEngineState} :
    validateAndDecodeSnapshot snapshot = .ok d ↔
      ∃ fields current, snapshot = .dict fields ∧
        migrateSnapshotToCurrent fields = .ok current ∧ Restorable current ∧
        Decoded current d := by
  -- the handler does not make a failure a success
  have hkeyError : ∀ {x : Except PyErr DecodedEngineState},
      keyErrorAsValueError x = .ok d ↔ x = .ok d := by
    intro x
    unfold keyErrorAsValueError
    split <;> simp
  constructor
  · intro h
    cases snapshot with
    | dict fields =>
      obtain ⟨current, hcurrent, h⟩ := bind_ok_iff.mp h
      obtain ⟨_, hvalid, h⟩ := bind_ok_iff.mp h
      have hrestorable := validate_ok_iff.mp hvalid
      exact ⟨fields, current, rfl, hcurrent, hrestorable,
        (decodeStores_ok_iff hrestorable).mp (hkeyError.mp h)⟩
    | _ => cases h
  · rintro ⟨fields, current, rfl, hcurrent, hrestorable, hdecoded⟩
    refine bind_ok_iff.mpr ⟨current, hcurrent, bind_ok_iff.mpr
      ⟨(), validate_ok_iff.mpr hrestorable, ?_⟩⟩
    exact hkeyError.mpr ((decodeStores_ok_iff hrestorable).mpr hdecoded)

/-- **What an accepted snapshot is.** -/
theorem fromSnapshot_ok_iff {uuid : UuidHex} {snapshot : Json} {e : Engine} :
    Engine.fromSnapshot uuid snapshot = .ok e ↔
      ∃ fields current d, snapshot = .dict fields ∧
        migrateSnapshotToCurrent fields = .ok current ∧ Restorable current ∧
        Decoded current d ∧ (∀ claim ∈ d.claims.values, ValidStatus claim.status) ∧
        e = (Engine.new uuid).install d := by
  constructor
  · intro h
    obtain ⟨d, hd, h⟩ := bind_ok_iff.mp h
    obtain ⟨_, hstatuses, h⟩ := bind_ok_iff.mp h
    cases h
    obtain ⟨fields, current, hfields, hcurrent, hrestorable, hdecoded⟩ :=
      validateAndDecodeSnapshot_ok_iff.mp hd
    refine ⟨fields, current, d, hfields, hcurrent, hrestorable, hdecoded, fun claim hclaim => ?_,
      rfl⟩
    exact validateClaimStatusAdmission_ok_iff.mp (forM_ok_iff.mp hstatuses claim hclaim)
  · rintro ⟨fields, current, d, hfields, hcurrent, hrestorable, hdecoded, hstatuses, rfl⟩
    have hd : validateAndDecodeSnapshot snapshot = .ok d :=
      validateAndDecodeSnapshot_ok_iff.mpr
        ⟨fields, current, hfields, hcurrent, hrestorable, hdecoded⟩
    refine bind_ok_iff.mpr ⟨d, hd, bind_ok_iff.mpr ⟨(), ?_, rfl⟩⟩
    exact forM_ok_iff.mpr fun claim hclaim =>
      validateClaimStatusAdmission_ok_iff.mpr (hstatuses claim hclaim)

end Snapshot

end Ragcore
