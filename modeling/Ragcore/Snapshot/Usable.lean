import Ragcore.Invariant.Accepted
import Ragcore.Engine.Confidence
import Ragcore.Snapshot.Encode

/-!
# Ragcore — when an accepted snapshot yields a usable engine

The restore checks structure, references and counters, and leaves the nested values of a record
to whoever reads them. Encoding sorts the hint types; the confidence computation takes the value
of a score, hashes a rule reference, clamps a firing count and looks evidence types up in a set.
Each of these can fail on a value that the restore let through.

* **`Usable`** — the condition on the snapshot itself under which none of them does.
* **`yieldsUsable_iff`** — an accepted snapshot yields a usable engine exactly when it holds.
-/

namespace Ragcore

namespace Snapshot

/-! ## The condition

What the restore does not check, of a snapshot that it accepts. -/

/-- The hint evidence types a restore reads; migration gives a version-1 snapshot none. -/
def hintTypes (s : Json) : List Json :=
  if (s.field "schema_version").eq (.int 1) then [] else (s.field "hint_evidence_types").items

/-- `v` is a member of the bucket filed under claim `c`. -/
def filedUnder (s : Json) (name : String) (c v : Int) : Bool :=
  (entries s name).any fun item => entryKey item = c &&
    (entryValue item).items.any fun member => member.asInt? = some v

/-- The types of the evidence entries of a claim that contradict it nowhere, in order. -/
def directTypes (s : Json) (c : Int) : List Json :=
  let direct := (entries s "evidences").filter fun item =>
    ((entryValue item).field "claim_id").asInt? = some c &&
      !(filedUnder s "contradictions" c (entryKey item) ||
        filedUnder s "resolved_contradictions" c (entryKey item))
  direct.map fun item => (entryValue item).field "type"

/-- The firing count of a rule statistics record, `0` where it is absent. -/
def firingCountOf (stats : Json) : Json :=
  match stats.dictOf with
  | .ok d => argument d "firing_count" (.int 0)
  | .error _ => .int 0

/-- `sorted` has an order for the values: all numbers, all strings, or nothing but `null`. -/
def Orderable (types : List Json) : Prop :=
  (∀ t ∈ types, t.number?.isSome = true) ∨ (∀ t ∈ types, ∃ text, t = .str text) ∨
    ∀ t ∈ types, t = .null

/-- What the confidence computation asks of the snapshot for the claim of one entry. -/
structure ClaimUsable (s : Json) (hints : List Json) (item : Json) : Prop where
  base : (entryValue item).field "base_confidence" ≠ .null
  strengths : ∀ evidence ∈ entries s "evidences",
    filedUnder s "contradictions" (entryKey item) (entryKey evidence) = true →
      filedUnder s "resolved_contradictions" (entryKey item) (entryKey evidence) = false →
        (entryValue evidence).field "strength" ≠ .null
  ruleStats : ((entryValue item).field "created_by_rule").eq (.int 0) = true ∨
    (((entryValue item).field "created_by_rule").key?.isSome = true ∧
      ((entryValue item).field "created_by_rule_version").key?.isSome = true ∧
        ∀ stats ∈ entries s "rule_stats",
          ((entryValue item).field "created_by_rule").asInt? = some (pairOf stats).1 →
            ((entryValue item).field "created_by_rule_version").asInt? = some (pairOf stats).2 →
              Confidence.FiringCountReady (firingCountOf (entryValue stats)))
  hints : hints = [] ∨
    Confidence.HintTestable (bucketKeys (.list hints)) (directTypes s (entryKey item))

/-- The condition under which a restored engine can be encoded and every confidence computed. -/
structure Usable (s : Json) : Prop where
  hints : Orderable (hintTypes s)
  claims : ∀ item ∈ entries s "claims", ClaimUsable s (hintTypes s) item

/-! ## Migration keeps the rest of the snapshot

So the condition can be read off the snapshot as it came in. -/

theorem field_insertEntry (fields : Fields) (name name' : String) (v : Json) :
    (Json.dict (Dict.insertEntry name v fields)).field name' =
      if name = name' then v else (Json.dict fields).field name' := by
  simp only [Json.field, Dict.lookup_insertEntry]
  split <;> rfl

theorem field_migrateV1ToV2 (fields : Fields) {name : String}
    (hversion : name ≠ "schema_version") (hhints : name ≠ "hint_evidence_types") :
    (Json.dict (migrateSnapshotV1ToV2 fields)).field name = (Json.dict fields).field name := by
  unfold migrateSnapshotV1ToV2
  rw [field_insertEntry, if_neg hhints.symm, field_insertEntry, if_neg hversion.symm]

theorem migrateSnapshotToCurrent_eq {fields : Fields} {current : Json}
    (h : migrateSnapshotToCurrent fields = .ok current) :
    current = .dict (if ((Json.dict fields).field "schema_version").eq (.int 1) then
      migrateSnapshotV1ToV2 fields else fields) := by
  obtain ⟨_, _, h⟩ := bind_ok_iff.mp h
  obtain ⟨_, _, h⟩ := bind_ok_iff.mp h
  obtain ⟨_, _, h⟩ := bind_ok_iff.mp h
  obtain ⟨_, _, h⟩ := bind_ok_iff.mp h
  exact (Except.ok.inj h).symm

theorem field_migrated {fields : Fields} {current : Json}
    (h : migrateSnapshotToCurrent fields = .ok current) {name : String}
    (hversion : name ≠ "schema_version") (hhints : name ≠ "hint_evidence_types") :
    current.field name = (Json.dict fields).field name := by
  rw [migrateSnapshotToCurrent_eq h]
  split
  · exact field_migrateV1ToV2 fields hversion hhints
  · rfl

theorem hintTypes_migrated {fields : Fields} {current : Json}
    (h : migrateSnapshotToCurrent fields = .ok current) :
    (current.field "hint_evidence_types").items = hintTypes (.dict fields) := by
  rw [migrateSnapshotToCurrent_eq h, hintTypes]
  split
  · have hnone : (Json.dict (migrateSnapshotV1ToV2 fields)).field "hint_evidence_types" =
        .list [] := by
      unfold migrateSnapshotV1ToV2
      rw [field_insertEntry, if_pos rfl]
    rw [hnone]
    rfl
  · rfl

theorem entries_migrated {fields : Fields} {current : Json}
    (h : migrateSnapshotToCurrent fields = .ok current) {name : String}
    (hversion : name ≠ "schema_version") (hhints : name ≠ "hint_evidence_types") :
    entries current name = entries (.dict fields) name := by
  rw [entries, field_migrated h hversion hhints]
  rfl

/-! ## Encoding

The restored engine can be written exactly when its keys can be sorted. -/

theorem sortKeys_isOk_iff {keys : Finset HKey} :
    (∃ sorted, sortKeys keys = .ok sorted) ↔
      ∀ a ∈ keys, ∀ b ∈ keys, a ≠ b → HKey.comparable a b = true := by
  unfold sortKeys
  split
  · simp_all
  · simp_all

/-- The kind of a hashable value decides what it compares with. -/
theorem comparable_iff_orderable {types : List Json}
    (hhash : ∀ t ∈ types, t.key?.isSome = true) :
    (∀ a ∈ bucketKeys (.list types), ∀ b ∈ bucketKeys (.list types), a ≠ b →
      HKey.comparable a b = true) ↔ Orderable types := by
  constructor
  · intro h
    cases types with
    | nil => exact .inl (by simp)
    | cons first rest =>
      -- the key of the first value fixes the kind of all others
      obtain ⟨a, ha⟩ := Option.isSome_iff_exists.mp (hhash first (by simp))
      have hother : ∀ t ∈ first :: rest, ∃ b, t.key? = some b ∧
          (a = b ∨ HKey.comparable a b = true) := by
        intro t ht
        obtain ⟨b, hb⟩ := Option.isSome_iff_exists.mp (hhash t ht)
        refine ⟨b, hb, or_iff_not_imp_left.mpr fun hne => ?_⟩
        exact h a (mem_bucketKeys.mpr ⟨first, List.mem_cons_self, ha⟩) b
          (mem_bucketKeys.mpr ⟨t, ht, hb⟩) hne
      cases a with
      | none =>
        refine .inr (.inr fun t ht => ?_)
        obtain ⟨b, hb, rfl | hcomp⟩ := hother t ht
        · exact Json.key?_eq_none.mp hb
        · simp [HKey.comparable] at hcomp
      | num x =>
        refine .inl fun t ht => ?_
        obtain ⟨b, hb, rfl | hcomp⟩ := hother t ht
        · simp [Json.key?_eq_num.mp hb]
        · cases b with
          | num y => simp [Json.key?_eq_num.mp hb]
          | none => simp [HKey.comparable] at hcomp
          | str text => simp [HKey.comparable] at hcomp
      | str text =>
        refine .inr (.inl fun t ht => ?_)
        obtain ⟨b, hb, rfl | hcomp⟩ := hother t ht
        · exact ⟨text, Json.key?_eq_str.mp hb⟩
        · cases b with
          | str text' => exact ⟨text', Json.key?_eq_str.mp hb⟩
          | none => simp [HKey.comparable] at hcomp
          | num y => simp [HKey.comparable] at hcomp
  · intro h a ha b hb hne
    obtain ⟨t, ht, hta⟩ := mem_bucketKeys.mp ha
    obtain ⟨u, hu, hub⟩ := mem_bucketKeys.mp hb
    -- two values of one kind compare; two nulls are one value
    rcases h with hnum | hstr | hnull
    · obtain ⟨x, hx⟩ := Option.isSome_iff_exists.mp (hnum t ht)
      obtain ⟨y, hy⟩ := Option.isSome_iff_exists.mp (hnum u hu)
      rw [Json.key?_eq_num.mpr hx] at hta
      rw [Json.key?_eq_num.mpr hy] at hub
      cases hta
      cases hub
      rfl
    · obtain ⟨x, rfl⟩ := hstr t ht
      obtain ⟨y, rfl⟩ := hstr u hu
      cases hta
      cases hub
      rfl
    · cases hnull t ht
      cases hnull u hu
      rw [hta] at hub
      exact absurd (Option.some.inj hub) hne

section Decoded

variable {s : Json} {d : DecodedEngineState} (h : Restorable s) (hd : Decoded s d)
include h hd

theorem hints_of_decoded :
    (∀ t ∈ (s.field "hint_evidence_types").items, t.key?.isSome = true) ∧
      d.hintEvidenceTypes = bucketKeys (.list (s.field "hint_evidence_types").items) := by
  have hset := hd.hintEvidenceTypes
  rw [Json.eq_list_of_isList h.hints] at hset
  exact setOf_list_ok_iff.mp hset

/-- Restored dedup keys are made of ints. -/
theorem dedupComparable_of_decoded :
    ∀ k ∈ d.gapDedupIndex.keys, ∀ k' ∈ d.gapDedupIndex.keys, dedupComparable k k' = true := by
  have hint : ∀ k ∈ d.gapDedupIndex.keys, ∃ n, k.1 = HKey.int n := by
    intro k hk
    rw [Dict.mem_keys_iff, hd.gapDedupIndex.contains_iff] at hk
    obtain ⟨item, hitem, rfl⟩ := hk
    obtain ⟨a, b, c, e, -, hkey⟩ := (h.dedup.shaped item hitem).tuple4
    exact ⟨a, by simp [tuple4Of, hkey]⟩
  intro k hk k' hk'
  obtain ⟨m, hm⟩ := hint k hk
  obtain ⟨n, hn⟩ := hint k' hk'
  simp [dedupComparable, hm, hn]

/-- Encoding a restored state can fail on the hint types only. -/
theorem encodeSnapshot_isOk_iff :
    (∃ snapshot, encodeSnapshot d = .ok snapshot) ↔
      Orderable (s.field "hint_evidence_types").items := by
  obtain ⟨hhash, hhints⟩ := hints_of_decoded h hd
  rw [← comparable_iff_orderable hhash, ← hhints, ← sortKeys_isOk_iff]
  constructor
  · rintro ⟨snapshot, hok⟩
    obtain ⟨_, _, hok⟩ := bind_ok_iff.mp hok
    obtain ⟨sorted, hsorted, _⟩ := bind_ok_iff.mp hok
    exact ⟨sorted, hsorted⟩
  · rintro ⟨sorted, hsorted⟩
    have hdedup : serializeDictTuple4Int d.gapDedupIndex = .ok _ :=
      if_pos (dedupComparable_of_decoded h hd)
    exact ⟨_, bind_ok_iff.mpr ⟨_, hdedup, bind_ok_iff.mpr ⟨sorted, hsorted, rfl⟩⟩⟩

omit h hd in
/-- The members of a decoded bucket are those filed in the snapshot. -/
theorem mem_getD_iff_filedUnder {name : String} {store : Dict Int (Finset Int)}
    (hstore : Restored entryKey idBucket (entries s name) store)
    (hlist : ∀ item ∈ entries s name, (entryValue item).isList = true) {c v : Int} :
    v ∈ store.getD c ∅ ↔ filedUnder s name c v = true := by
  constructor
  · intro hv
    obtain ⟨item, hitem, hkey, member, hmember, hmv⟩ := exists_of_mem_getD hstore hlist hv
    simp only [filedUnder, List.any_eq_true, Bool.and_eq_true, decide_eq_true_eq]
    exact ⟨item, hitem, hkey, member, hmember, hmv⟩
  · intro hfiled
    simp only [filedUnder, List.any_eq_true, Bool.and_eq_true, decide_eq_true_eq] at hfiled
    obtain ⟨item, hitem, hkey, member, hmember, hmv⟩ := hfiled
    rw [← hkey]
    exact mem_getD_of_exists hstore hlist hitem hmember hmv

theorem evidence_of_entry {item : Json} (hitem : item ∈ entries s "evidences") :
    ∃ r, d.evidences.get? (entryKey item) = some r ∧ EvidenceDecoded (entryValue item) r := by
  obtain ⟨⟨k, r⟩, hp, hkey, hread⟩ := exists_of_forall₂_left hd.evidences hitem
  rw [← hkey]
  exact ⟨r, Dict.mem_entries_iff.mp hp,
    evidenceFromDict_decoded (isDict_of_owned h (by decide) hitem) hread⟩

theorem mem_contradictions_iff {c v : Int} :
    v ∈ d.contradictions.getD c ∅ ↔ filedUnder s "contradictions" c v = true :=
  mem_getD_iff_filedUnder hd.contradictions fun item hitem => (h.contradictions item hitem).isList

theorem mem_resolvedContradictions_iff {c v : Int} :
    v ∈ d.resolvedContradictions.getD c ∅ ↔
      filedUnder s "resolved_contradictions" c v = true :=
  mem_getD_iff_filedUnder hd.resolvedContradictions fun item hitem =>
    (h.resolved item hitem).isList

variable (uuid : UuidHex)

theorem mem_activeContradictions_iff {c v : Int} :
    v ∈ ((Engine.new uuid).install d).activeContradictions c ↔
      filedUnder s "contradictions" c v = true ∧
        filedUnder s "resolved_contradictions" c v = false := by
  show v ∈ d.contradictions.getD c ∅ \ d.resolvedContradictions.getD c ∅ ↔ _
  rw [Finset.mem_sdiff, mem_contradictions_iff h hd, mem_resolvedContradictions_iff h hd,
    Bool.not_eq_true]

omit h hd in
theorem strengthOf_isOk_iff {v : Int} {r : Evidence} {strength : Json}
    (hget : d.evidences.get? v = some r) (hsv : svFromDict strength = .ok r.strength) :
    (∃ q, ((Engine.new uuid).install d).strengthOf v = .ok q) ↔ strength ≠ .null := by
  have hrecord : ((Engine.new uuid).install d).evidences.get? v = some r := hget
  -- a strength is `None` exactly when the snapshot says `null`
  have hnull : r.strength = none ↔ strength = .null := by
    rw [← svFromDict_none_iff, hsv, Except.ok.injEq]
  rw [Ne, ← hnull]
  constructor
  · rintro ⟨q, hq⟩ hnone
    obtain ⟨r', score, hr', hscore, -⟩ := Engine.strengthOf_ok_iff.mp hq
    cases hr'.symm.trans hrecord
    rw [hnone] at hscore
    cases hscore
  · intro hsome
    obtain ⟨score, hscore⟩ := Option.ne_none_iff_exists'.mp hsome
    exact ⟨score.value, Engine.strengthOf_ok_iff.mpr ⟨r, score, hrecord, hscore, rfl⟩⟩

theorem strengths_iff {c : Int} :
    (∀ v ∈ ((Engine.new uuid).install d).activeContradictions c,
      ∃ q, ((Engine.new uuid).install d).strengthOf v = .ok q) ↔
      ∀ evidence ∈ entries s "evidences",
        filedUnder s "contradictions" c (entryKey evidence) = true →
          filedUnder s "resolved_contradictions" c (entryKey evidence) = false →
            (entryValue evidence).field "strength" ≠ .null := by
  -- an active contradiction is one that is filed and not resolved
  constructor
  · intro hall evidence hmem hfiled hopen
    obtain ⟨r, hget, hdec⟩ := evidence_of_entry h hd hmem
    apply (strengthOf_isOk_iff uuid hget hdec.strength).mp
    exact hall _ ((mem_activeContradictions_iff h hd uuid).mpr ⟨hfiled, hopen⟩)
  · intro hall v hv
    obtain ⟨hfiled, hopen⟩ := (mem_activeContradictions_iff h hd uuid).mp hv
    obtain ⟨item, hitem, hkey, hmember⟩ := exists_of_mem_getD hd.contradictions
      (fun item hitem => (h.contradictions item hitem).isList)
      ((mem_contradictions_iff h hd).mpr hfiled)
    obtain ⟨member, hmember, hmv⟩ := hmember
    have hn := ((h.contradictions item hitem).members member hmember).mem hmv
    obtain ⟨evidence, hevidence, rfl⟩ := mem_ids.mp hn
    obtain ⟨r, hget, hdec⟩ := evidence_of_entry h hd hevidence
    exact (strengthOf_isOk_iff uuid hget hdec.strength).mpr
      (hall evidence hevidence hfiled hopen)

omit h hd in
theorem ruleStatsFromDict_firingCount {v : Json} {r : RuleStats}
    (hread : ruleStatsFromDict v = .ok r) : r.firingCount = firingCountOf v := by
  obtain ⟨fields, hfields, hread⟩ := bind_ok_iff.mp hread
  obtain ⟨_, _, hread⟩ := bind_ok_iff.mp hread
  obtain ⟨_, _, hread⟩ := bind_ok_iff.mp hread
  obtain ⟨_, _, hread⟩ := bind_ok_iff.mp hread
  cases hread
  rw [firingCountOf, hfields]

omit h in
/-- The statistics a claim's rule refers to are found in the snapshot. -/
theorem mem_ruleStats_iff {key : Int × Int} {p : Json → Prop} :
    (∀ record ∈ d.ruleStats.get? key, p record.firingCount) ↔
      ∀ stats ∈ entries s "rule_stats", pairOf stats = key →
        p (firingCountOf (entryValue stats)) := by
  constructor
  · intro hall stats hstats hkey
    obtain ⟨⟨k, record⟩, hmem, hk, hread⟩ := exists_of_forall₂_left hd.ruleStats hstats
    rw [← ruleStatsFromDict_firingCount hread]
    apply hall record
    rw [← hkey, ← hk]
    exact Dict.mem_entries_iff.mp hmem
  · intro hall record hrecord
    obtain ⟨stats, hstats, hkey, hread⟩ := hd.ruleStats.get?_iff.mp hrecord
    rw [ruleStatsFromDict_firingCount hread]
    exact hall stats hstats hkey

omit h in
theorem ruleStatsLookup_iff {rule version : Json} {p : Json → Prop} :
    (∃ stats, ((Engine.new uuid).install d).ruleStatsLookup rule version = .ok stats ∧
      ∀ record ∈ stats, p record.firingCount) ↔
      rule.key?.isSome = true ∧ version.key?.isSome = true ∧
        ∀ stats ∈ entries s "rule_stats", rule.asInt? = some (pairOf stats).1 →
          version.asInt? = some (pairOf stats).2 → p (firingCountOf (entryValue stats)) := by
  unfold Engine.ruleStatsLookup Json.hash Json.asInt?
  cases hrule : rule.key? with
  | none => simp [bind, Except.bind]
  | some ruleKey =>
    cases hversion : version.key? with
    | none => simp [bind, Except.bind]
    | some versionKey =>
      simp only [bind, Except.bind, Option.isSome_some, true_and, Option.bind_some]
      cases hr : ruleKey.toInt? with
      -- a rule that is no int names no record
      | none => simp [pure, Except.pure]
      | some ruleId =>
        cases hv : versionKey.toInt? with
        | none => simp [pure, Except.pure]
        | some ruleVersion =>
          have hfound : (∀ record ∈ d.ruleStats.get? (ruleId, ruleVersion),
              p record.firingCount) ↔ _ := mem_ruleStats_iff hd
          simp only [pure, Except.pure, Except.ok.injEq, exists_eq_left', Option.some.injEq]
          refine hfound.trans (forall₂_congr fun stats _ => ?_)
          rw [Prod.ext_iff]
          constructor
          · intro himp h1 h2
            exact himp ⟨h1.symm, h2.symm⟩
          · rintro himp ⟨h1, h2⟩
            exact himp h1.symm h2.symm

theorem directEvidenceTypes_eq {c : Int} :
    ((Engine.new uuid).install d).directEvidenceTypes c = directTypes s c := by
  have hdecoded : List.Forall₂ (fun item r => r.id = entryKey item ∧
      EvidenceDecoded (entryValue item) r) (entries s "evidences") d.evidences.values := by
    refine forall₂_imp_of_mem hd.evidences.values fun item hitem r hread => ?_
    have hdec := evidenceFromDict_decoded (isDict_of_owned h (by decide) hitem) hread
    exact ⟨ownId_eq h (by decide) hitem hdec.id, hdec⟩
  refine (map_filter_of_forall₂ hdecoded ?_ fun item r hr => hr.2.type.symm).symm
  rintro item r ⟨hid, hdec⟩
  show _ = (decide (r.claimId = c) && decide (r.id ∉ d.contradictions.getD c ∅ ∪
    d.resolvedContradictions.getD c ∅))
  rw [hdec.claimId, Bool.eq_iff_iff]
  simp [hid, mem_contradictions_iff h hd, mem_resolvedContradictions_iff h hd]

/-- **What the confidence computation asks, read in the snapshot.** -/
theorem confidenceReady_iff {item : Json} {r : Claim}
    (hdec : ClaimDecoded (entryValue item) r) :
    ((Engine.new uuid).install d).ConfidenceReady (entryKey item) r ↔
      ClaimUsable s (s.field "hint_evidence_types").items item := by
  obtain ⟨hhash, hhints⟩ := hints_of_decoded h hd
  have hbase : r.baseConfidence = none ↔ (entryValue item).field "base_confidence" = .null := by
    rw [← svFromDict_none_iff, hdec.baseConfidence, Except.ok.injEq]
  -- no item of a decodable snapshot is dropped, so the sets are empty together
  have hempty : d.hintEvidenceTypes = ∅ ↔ (s.field "hint_evidence_types").items = [] := by
    rw [hhints]
    cases hitems : (s.field "hint_evidence_types").items with
    | nil => simp [bucketKeys, Json.items]
    | cons t rest =>
      obtain ⟨key, hkey⟩ := Option.isSome_iff_exists.mp (hhash t (by simp [hitems]))
      simp [bucketKeys, Json.items, hkey]
  have hstats : ((Engine.new uuid).install d).RuleStatsReady r ↔ _ :=
    or_congr Iff.rfl (ruleStatsLookup_iff hd uuid (p := Confidence.FiringCountReady))
  rw [hdec.createdByRule, hdec.createdByRuleVersion] at hstats
  have htypes := directEvidenceTypes_eq h hd uuid (c := entryKey item)
  constructor
  · intro hready
    exact {
      base := fun hnull => hready.base (hbase.mpr hnull)
      strengths := (strengths_iff h hd uuid).mp hready.strengths
      ruleStats := hstats.mp hready.ruleStats
      hints := by
        have hint := hready.hints
        rw [htypes] at hint
        refine hint.imp hempty.mp fun htest => ?_
        rw [← hhints]
        exact htest }
  · intro husable
    exact {
      base := fun hnone => husable.base (hbase.mp hnone)
      strengths := (strengths_iff h hd uuid).mpr husable.strengths
      ruleStats := hstats.mpr husable.ruleStats
      hints := by
        rw [htypes]
        refine husable.hints.imp hempty.mpr fun htest => ?_
        show Confidence.HintTestable d.hintEvidenceTypes _
        rw [hhints]
        exact htest }

end Decoded

theorem claimUsable_migrated {fields : Fields} {current : Json}
    (h : migrateSnapshotToCurrent fields = .ok current) {hints : List Json} {item : Json} :
    ClaimUsable current hints item ↔ ClaimUsable (.dict fields) hints item := by
  -- the migration writes two fields, and these are others
  have hfiled : ∀ name, name ≠ "schema_version" → name ≠ "hint_evidence_types" →
      filedUnder current name = filedUnder (.dict fields) name := by
    intro name hversion hhints
    funext c v
    rw [filedUnder, entries_migrated h hversion hhints, filedUnder]
  have hcon := hfiled "contradictions" (by decide) (by decide)
  have hres := hfiled "resolved_contradictions" (by decide) (by decide)
  have hevidences : entries current "evidences" = entries (.dict fields) "evidences" :=
    entries_migrated h (by decide) (by decide)
  have hstats : entries current "rule_stats" = entries (.dict fields) "rule_stats" :=
    entries_migrated h (by decide) (by decide)
  have htypes : directTypes current = directTypes (.dict fields) := by
    funext c
    rw [directTypes, directTypes, hevidences, hcon, hres]
  constructor
  · rintro ⟨hbase, hstrengths, hruleStats, hhints⟩
    rw [hevidences, hcon, hres] at hstrengths
    rw [hstats] at hruleStats
    rw [htypes] at hhints
    exact ⟨hbase, hstrengths, hruleStats, hhints⟩
  · rintro ⟨hbase, hstrengths, hruleStats, hhints⟩
    refine ⟨hbase, ?_, ?_, ?_⟩
    · rw [hevidences, hcon, hres]
      exact hstrengths
    · rw [hstats]
      exact hruleStats
    · rw [htypes]
      exact hhints

/-! ## The law

Exactly then, and when each claim has its scores, the engine answers. -/

/-- What an accepted snapshot is meant to give: the engine can be encoded, and the effective
confidence of every claim in the snapshot is a score. -/
def YieldsUsable (s : Json) (e : Engine) : Prop :=
  (∃ snapshot, e.toSnapshot = .ok snapshot) ∧
    ∀ claimId ∈ ids s "claims", ∃ score : ScoreValue,
      e.computeEffectiveConfidence claimId = .ok score ∧ 0 ≤ score.value ∧ score.value ≤ 1

/-- A snapshot of one claim with the given base confidence. -/
def oneClaim (baseConfidence : Json) : Json :=
  .dict [
    ("schema_version", .int 2),
    ("next_id", .dict [("entity", .int 1), ("claim", .int 1)]),
    ("lifecycle_seq", .int 0),
    ("entities", .list []), ("observations", .list []),
    ("claims", .list [entry (.int 1) (.dict [
      ("id", .int 1), ("subject_id", .int 1), ("type", .int 1), ("status", .int 0),
      ("created_by_rule", .int 0), ("created_by_rule_version", .int 1),
      ("reason_code", .int 0), ("base_confidence", baseConfidence), ("flags", .int 0)])]),
    ("evidences", .list []), ("relations", .list []), ("gaps", .list []),
    ("rule_definitions", .list []), ("rule_stats", .list []), ("gap_dedup_index", .list []),
    ("claim_gap_refs", .list []), ("gap_resolutions", .list []),
    ("contradictions", .list []), ("resolved_contradictions", .list []),
    ("claim_lifecycle_events", .list []), ("hint_evidence_types", .list [])]

/-- The stores it restores to. -/
def oneClaimEngine (baseConfidence : Option ScoreValue) : Engine :=
  { Engine.new default with
    nextId := .ofFields [("entity", .int 1), ("claim", .int 1)]
    claims := Dict.insert ∅ 1
      { id := 1, subjectId := .int 1, type := .int 1, status := .int 0, createdByRule := .int 0
        createdByRuleVersion := .int 1, reasonCode := .int 0, baseConfidence, flags := .int 0 } }

/-- A claim without a base confidence is accepted, and its confidence raises. -/
theorem oneClaim_null_unusable :
    Engine.fromSnapshot default (oneClaim .null) = .ok (oneClaimEngine none) ∧
      ¬ YieldsUsable (oneClaim .null) (oneClaimEngine none) := by
  refine ⟨by with_unfolding_all rfl, ?_⟩
  rintro ⟨-, hscores⟩
  obtain ⟨score, hscore, -⟩ := hscores 1 (by decide)
  have herr : (oneClaimEngine none).computeEffectiveConfidence 1 = .error
      (.attributeError ["'NoneType' object has no attribute 'value'"]) := by
    with_unfolding_all rfl
  rw [herr] at hscore
  cases hscore

/-- **An accepted snapshot yields a usable engine exactly when it is `Usable`.** -/
theorem yieldsUsable_iff (uuid : UuidHex) (s : Json) (e : Engine)
    (h : Engine.fromSnapshot uuid s = .ok e) : YieldsUsable s e ↔ Usable s := by
  obtain ⟨fields, current, d, rfl, hcurrent, hrestorable, hd, hstatus, rfl⟩ :=
    fromSnapshot_ok_iff.mp h
  have hclaims : entries current "claims" = entries (.dict fields) "claims" :=
    entries_migrated hcurrent (by decide) (by decide)
  have hhints := hintTypes_migrated hcurrent
  have hencode := encodeSnapshot_isOk_iff hrestorable hd
  rw [hhints] at hencode
  -- each claim entry has its record, and its confidence is computed when the entry is usable
  have hconfidence : ∀ item ∈ entries (.dict fields) "claims",
      (∃ score, ((Engine.new uuid).install d).computeEffectiveConfidence (entryKey item) =
        .ok score) ↔ ClaimUsable (.dict fields) (hintTypes (.dict fields)) item := by
    intro item hitem
    rw [← hclaims] at hitem
    obtain ⟨⟨k, r⟩, hp, hkey, hread⟩ := exists_of_forall₂_left hd.claims hitem
    have hget : d.claims.get? (entryKey item) = some r := by
      rw [← hkey]
      exact Dict.mem_entries_iff.mp hp
    have hdec := claimFromDict_decoded (isDict_of_owned hrestorable (by decide) hitem) hread
    have hvalid := hstatus r (Dict.mem_values_iff.mpr ⟨_, hget⟩)
    rw [Engine.computeEffectiveConfidence_isOk_iff hget hvalid,
      confidenceReady_iff hrestorable hd uuid hdec, hhints, claimUsable_migrated hcurrent]
  constructor
  · rintro ⟨hsnapshot, hscores⟩
    refine ⟨hencode.mp hsnapshot, fun item hitem => (hconfidence item hitem).mp ?_⟩
    obtain ⟨score, hscore, -⟩ := hscores _ (mem_ids.mpr ⟨item, hitem, rfl⟩)
    exact ⟨score, hscore⟩
  · intro husable
    refine ⟨hencode.mpr husable.hints, fun claimId hclaim => ?_⟩
    obtain ⟨item, hitem, rfl⟩ := mem_ids.mp hclaim
    obtain ⟨score, hscore⟩ := (hconfidence item hitem).mpr (husable.claims item hitem)
    exact ⟨score, hscore, score.nonneg, score.le_one⟩

/-- The law on a snapshot that is usable. -/
theorem yieldsUsable_iff_oneClaim :
    YieldsUsable (oneClaim (.dict [("value", .float (.fin 1))]))
      (oneClaimEngine (some ⟨1, zero_le_one, le_rfl⟩)) := by
  refine (yieldsUsable_iff default _ _ (by with_unfolding_all rfl)).mpr ⟨?_, fun item hitem => ?_⟩
  · have hnone : hintTypes (oneClaim (.dict [("value", .float (.fin 1))])) = [] := rfl
    rw [hnone]
    exact .inl (by simp)
  · have hone : item = entry (.int 1) _ := List.mem_singleton.mp hitem
    subst hone
    exact ⟨nofun, nofun, .inl rfl, .inl rfl⟩

end Snapshot

end Ragcore
