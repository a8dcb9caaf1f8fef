import Ragcore.Invariant.Typed
import Ragcore.Snapshot.Restore

/-!
# Ragcore — the invariants of a restored engine

A restore checks references and counters on the snapshot; here they become facts about the
stores it builds. `fromSnapshot_countersCover` and `fromSnapshot_referential` are the base cases
of every run that starts from an accepted snapshot.

* **`Origin`** — a fresh engine, or one restored from an accepted snapshot of typed records.
* **`Reached`** — the engines that runs of public calls lead to from there.
-/

namespace Ragcore

namespace Snapshot

section Decoded

variable {s : Json} {d : DecodedEngineState} (h : Restorable s) (hd : Decoded s d)

/-- A store over an int-keyed collection has the collection's ids for keys. -/
theorem Restored.contains_iff_mem_ids {α : Type} {name : String}
    {readValue : Json → Except PyErr α} {store : Dict Int α}
    (hstore : Restored entryKey readValue (entries s name) store) {k : Int} :
    store.contains k = true ↔ k ∈ ids s name := by
  rw [hstore.contains_iff, mem_ids]

include h hd

/-- A counter of the engine is the counter of the snapshot. -/
theorem nextId_getD (kind : String) :
    d.nextId.getD kind (.int 0) = counterOf (s.field "next_id") kind := by
  obtain ⟨fields, hfields⟩ := Json.eq_dict_of_isDict h.nextId
  have hnext := hd.nextId
  rw [hfields] at hnext
  rw [hfields, ← Except.ok.inj hnext]
  rw [Dict.getD, Dict.get?_ofFields, counterOf]
  cases hhas : (Json.dict fields).has kind with
  | true =>
    obtain ⟨v, hv⟩ := Option.isSome_iff_exists.mp hhas
    simp [Json.field, hv]
  | false =>
    have hnone : fields.lookup kind = none := by simpa [Json.has] using hhas
    simp [hnone]

/-- So it covers the ids that were restored. -/
theorem covers_of_restored {α : Type} {kind name : String} {readValue : Json → Except PyErr α}
    {store : Dict Int α} (hkind : (kind, name) ∈ counterKindToCollection)
    (hstore : Restored entryKey readValue (entries s name) store) :
    Covers d.nextId kind store := by
  obtain ⟨n, hn, h0, hle⟩ := h.counters _ hkind
  exact ⟨n, (nextId_getD h hd kind).trans hn, h0,
    fun k hk => hle k (hstore.contains_iff_mem_ids.mp hk)⟩

omit hd in
/-- A record with an `id` field is filed under it. -/
theorem ownId_eq {name : String} (hname : name ∈ ["claims", "evidences", "gaps"]) {item : Json}
    (hitem : item ∈ entries s name) {n : Int}
    (hid : ((entryValue item).field "id").asInt? = some n) : n = entryKey item := by
  have := (h.ownIds name hname item hitem).2
  rw [hid] at this
  exact Option.some.inj this

omit hd in
theorem isDict_of_owned {name : String} (hname : name ∈ ["claims", "evidences", "gaps"])
    {item : Json} (hitem : item ∈ entries s name) : (entryValue item).isDict = true :=
  Json.isDict_of_has (h.ownIds name hname item hitem).1

/-- A restored record comes from an entry of the snapshot. -/
theorem claimDecoded_of_get? {k : Int} {r : Claim} (hr : d.claims.get? k = some r) :
    ∃ item ∈ entries s "claims", entryKey item = k ∧ ClaimDecoded (entryValue item) r := by
  obtain ⟨item, hitem, hk, hread⟩ := hd.claims.get?_iff.mp hr
  exact ⟨item, hitem, hk, claimFromDict_decoded (isDict_of_owned h (by decide) hitem) hread⟩

theorem evidenceDecoded_of_get? {k : Int} {r : Evidence} (hr : d.evidences.get? k = some r) :
    ∃ item ∈ entries s "evidences", entryKey item = k ∧
      EvidenceDecoded (entryValue item) r := by
  obtain ⟨item, hitem, hk, hread⟩ := hd.evidences.get?_iff.mp hr
  exact ⟨item, hitem, hk, evidenceFromDict_decoded (isDict_of_owned h (by decide) hitem) hread⟩

omit h hd in
/-- A member of a decoded bucket comes from a member of its entry. -/
theorem exists_of_mem_getD {name : String} {store : Dict Int (Finset Int)}
    (hstore : Restored entryKey idBucket (entries s name) store)
    (hlist : ∀ item ∈ entries s name, (entryValue item).isList = true) {c v : Int}
    (hv : v ∈ store.getD c ∅) :
    ∃ item ∈ entries s name, entryKey item = c ∧
      ∃ member ∈ (entryValue item).items, member.asInt? = some v := by
  cases hget : store.get? c with
  | none => simp [Dict.getD, hget] at hv
  | some bucket =>
    rw [Dict.getD_of_get? hget] at hv
    obtain ⟨item, hitem, hk, hread⟩ := hstore.get?_iff.mp hget
    exact ⟨item, hitem, hk, (mem_idBucket (hlist item hitem) hread).mp hv⟩

omit h hd in
/-- A member of an entry's list is in the decoded bucket. -/
theorem mem_getD_of_exists {name : String} {store : Dict Int (Finset Int)}
    (hstore : Restored entryKey idBucket (entries s name) store)
    (hlist : ∀ item ∈ entries s name, (entryValue item).isList = true) {item member : Json}
    {v : Int} (hitem : item ∈ entries s name) (hmember : member ∈ (entryValue item).items)
    (hv : member.asInt? = some v) : v ∈ store.getD (entryKey item) ∅ := by
  obtain ⟨⟨k, bucket⟩, hp, hkey, hread⟩ := exists_of_forall₂_left hstore hitem
  rw [← hkey, Dict.getD_of_get? (Dict.mem_entries_iff.mp hp)]
  exact (mem_idBucket (hlist item hitem) hread).mpr ⟨member, hmember, hv⟩

end Decoded

/-- The fresh engine with the decoded stores installed. -/
theorem countersCover_of_decoded {s : Json} {d : DecodedEngineState} (h : Restorable s)
    (hd : Decoded s d) (uuid : UuidHex) : CountersCover ((Engine.new uuid).install d) where
  entity := covers_of_restored h hd (by decide) hd.entities
  observation := covers_of_restored h hd (by decide) hd.observations
  claim := covers_of_restored h hd (by decide) hd.claims
  evidence := covers_of_restored h hd (by decide) hd.evidences
  relation := covers_of_restored h hd (by decide) hd.relations
  gap := covers_of_restored h hd (by decide) hd.gaps

/-- The checks of the restore are the references of the engine. -/
theorem referential_of_decoded {s : Json} {d : DecodedEngineState} (h : Restorable s)
    (hd : Decoded s d) (hstatus : ∀ claim ∈ d.claims.values, ValidStatus claim.status)
    (uuid : UuidHex) : Referential ((Engine.new uuid).install d) := by
  have hclaims : ∀ {k}, k ∈ ids s "claims" → d.claims.contains k = true := fun hk =>
    hd.claims.contains_iff_mem_ids.mpr hk
  have hevidences : ∀ {k}, k ∈ ids s "evidences" → d.evidences.contains k = true := fun hk =>
    hd.evidences.contains_iff_mem_ids.mpr hk
  have hgaps : ∀ {k}, k ∈ ids s "gaps" → d.gaps.contains k = true := fun hk =>
    hd.gaps.contains_iff_mem_ids.mpr hk
  -- the pass asked of every bucket that it be a list
  have hcon := fun item hitem => (h.contradictions item hitem).isList
  have hres := fun item hitem => (h.resolved item hitem).isList
  have hrefs := fun item hitem => (h.claimGapRefs item hitem).isList
  exact {
    evidenceClaim := by
      intro k r hr
      obtain ⟨item, hitem, -, hdec⟩ := evidenceDecoded_of_get? h hd hr
      exact hclaims ((h.evidenceClaims item hitem).2.mem hdec.claimId)
    contradictionClaim := by
      intro c hc
      obtain ⟨item, hitem, rfl⟩ := hd.contradictions.contains_iff.mp hc
      exact hclaims (h.contradictions item hitem).claim
    contradictionEvidence := by
      intro c v hv
      obtain ⟨item, hitem, -, member, hmember, hmv⟩ :=
        exists_of_mem_getD hd.contradictions hcon hv
      exact hevidences (((h.contradictions item hitem).members member hmember).mem hmv)
    resolvedKey := by
      intro c hc
      obtain ⟨item, hitem, rfl⟩ := hd.resolvedContradictions.contains_iff.mp hc
      obtain ⟨registered, hreg, hkey, -⟩ := (h.resolved item hitem).registered
      exact hd.contradictions.contains_iff.mpr ⟨registered, hreg, hkey⟩
    resolvedSubset := by
      intro c v hv
      obtain ⟨item, hitem, rfl, member, hmember, hmv⟩ :=
        exists_of_mem_getD hd.resolvedContradictions hres hv
      obtain ⟨registered, hreg, hkey, hmembers⟩ := (h.resolved item hitem).registered
      obtain ⟨other, hother, -, heq⟩ := hmembers member hmember
      -- the two lists hold equal values, so the resolved id is registered under the same claim
      have hov : other.asInt? = some v := by
        rw [Json.asInt?_eq_some, ← heq, Json.asInt?_eq_some.mp hmv]
      have hmem := mem_getD_of_exists hd.contradictions hcon hreg hother hov
      rwa [hkey] at hmem
    gapRefClaim := by
      intro c hc
      obtain ⟨item, hitem, rfl⟩ := hd.claimGapRefs.contains_iff.mp hc
      exact hclaims (h.claimGapRefs item hitem).claim
    gapRefGap := by
      intro c g hg
      obtain ⟨item, hitem, -, member, hmember, hmg⟩ :=
        exists_of_mem_getD hd.claimGapRefs hrefs hg
      exact hgaps (((h.claimGapRefs item hitem).members member hmember).mem hmg)
    resolutionGap := by
      intro g v hv
      obtain ⟨item, hitem, rfl, -⟩ := hd.gapResolutions.get?_iff.mp hv
      exact hgaps (h.gapResolutions item hitem).1
    resolutionEvidence := by
      intro g v hv
      obtain ⟨item, hitem, -, hread⟩ := hd.gapResolutions.get?_iff.mp hv
      exact hevidences ((h.gapResolutions item hitem).2.mem (intId_ok_iff.mp hread))
    dedupGap := by
      intro key g hg
      obtain ⟨item, hitem, -, hread⟩ := hd.gapDedupIndex.get?_iff.mp hg
      exact hgaps ((h.dedupTargets item hitem).mem (intId_ok_iff.mp hread))
    claimId := by
      intro k r hr
      obtain ⟨item, hitem, hk, hdec⟩ := claimDecoded_of_get? h hd hr
      exact (ownId_eq h (by decide) hitem hdec.id).trans hk
    evidenceId := by
      intro k r hr
      obtain ⟨item, hitem, hk, hdec⟩ := evidenceDecoded_of_get? h hd hr
      exact (ownId_eq h (by decide) hitem hdec.id).trans hk
    gapId := by
      intro k r hr
      obtain ⟨item, hitem, hk, hread⟩ := hd.gaps.get?_iff.mp hr
      have hid := gapFromDict_id (isDict_of_owned h (by decide) hitem) hread
      exact (ownId_eq h (by decide) hitem hid).trans hk
    status := fun hr => hstatus _ (Dict.mem_values_iff.mpr ⟨_, hr⟩) }

/-- **No restored record is above its counter.** -/
theorem fromSnapshot_countersCover {uuid : UuidHex} {s : Json} {e : Engine}
    (h : Engine.fromSnapshot uuid s = .ok e) : CountersCover e := by
  obtain ⟨_, _, d, _, _, hrestorable, hd, _, rfl⟩ := fromSnapshot_ok_iff.mp h
  exact countersCover_of_decoded hrestorable hd uuid

/-- **No restored reference dangles.** -/
theorem fromSnapshot_referential {uuid : UuidHex} {s : Json} {e : Engine}
    (h : Engine.fromSnapshot uuid s = .ok e) : Referential e := by
  obtain ⟨_, _, d, _, _, hrestorable, hd, hstatus, rfl⟩ := fromSnapshot_ok_iff.mp h
  exact referential_of_decoded hrestorable hd hstatus uuid

end Snapshot

/-! ## Runs

An engine may come from `Engine()` or from a snapshot that was accepted. What a restore checks holds
of both. -/

/-- Where a run starts: a fresh engine, or one restored from an accepted snapshot whose nested
fields are typed. -/
inductive Origin : Engine → Prop
  | fresh (uuid : UuidHex) : Origin (Engine.new uuid)
  | restored {uuid : UuidHex} {snapshot : Json} {e : Engine}
      (accepted : Engine.fromSnapshot uuid snapshot = .ok e) (typed : WellTyped e) : Origin e

namespace Origin

/-- Of a snapshot this is what the run assumes; a fresh engine has no field to type. -/
theorem typed {e : Engine} (h : Origin e) : WellTyped e := by
  cases h with
  | fresh uuid => exact .new uuid
  | restored _ typed => exact typed

theorem countersCover {e : Engine} (h : Origin e) : CountersCover e := by
  cases h with
  | fresh uuid => exact .new uuid
  | restored accepted _ => exact Snapshot.fromSnapshot_countersCover accepted

theorem referential {e : Engine} (h : Origin e) : Referential e := by
  cases h with
  | fresh uuid => exact .new uuid
  | restored accepted _ => exact Snapshot.fromSnapshot_referential accepted

end Origin

/-- A state some run of public calls leads to. -/
def Reached (e : Engine) : Prop := ∃ start calls, Origin start ∧ e = start.runCalls calls

namespace Reached

/-- What holds at every origin and is kept by every mutator holds of every state reached. -/
theorem preserves {P : Engine → Prop} (horigin : ∀ e, Origin e → P e)
    (hop : ∀ e (o : Op), P e → P (finalState (o.run e))) {e : Engine} (h : Reached e) : P e := by
  obtain ⟨start, calls, hstart, rfl⟩ := h
  exact Engine.runCalls_preserves hop (horigin start hstart) calls

theorem typed {e : Engine} (h : Reached e) : WellTyped e :=
  h.preserves (fun _ => Origin.typed) fun e o he => he.outcome (o.outcome_cases e)

theorem countersCover {e : Engine} (h : Reached e) : CountersCover e :=
  h.preserves (fun _ => Origin.countersCover) fun e o he => he.outcome (o.outcome_cases e)

theorem referential {e : Engine} (h : Reached e) : Referential e :=
  h.preserves (fun _ => Origin.referential) fun e o he => he.outcome (o.outcome_cases e)

end Reached

end Ragcore
