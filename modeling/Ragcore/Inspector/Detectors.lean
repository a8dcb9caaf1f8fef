import Ragcore.Inspector.PacketValidator

/-!
# Ragcore — the forbidden readings, one by one

What each code of `validate_consumer_packet_interpretation` stands for. F3, F10, F12 and F13 look at
the keys of the output, F5 and F7 at its string values and at the packet.

* **`PyValue.HasEntry`** — an entry of a dict somewhere inside a value.
* **`mem_walk_iff`** — the walk yields these entries: no depth, no container and no kind of key
  hides one.
* **`interpretation_exact`** — the violations are those of the forbidden readings that are there,
  each reported once and in the order of the codes.
-/

namespace Ragcore

/-- The entry is one of a dict inside the value. -/
def PyValue.HasEntry (v : PyValue) (key : PyKey) (value : PyValue) : Prop :=
  v.Inside fun u => ∃ entries : Entries, u = .dict entries ∧ (key, value) ∈ entries

namespace Inspector

theorem hasEntry_of_mem_walk {v : PyValue} {key : PyKey} {value : PyValue}
    (mem : (key, value) ∈ walkKeysAndValues v) : v.HasEntry key value := by
  -- along the walk, through dicts, lists and tuples
  induction v using PyValue.nestedInduction with
  | dict entries ih =>
    rw [walkKeysAndValues] at mem
    obtain ⟨k, w, entry, here | inner⟩ := mem_walkEntries.mp mem
    · cases here
      exact .self ⟨entries, rfl, entry⟩
    · exact .entry entry (ih k w entry inner)
  | list xs ih =>
    rw [walkKeysAndValues] at mem
    obtain ⟨item, hitem, inner⟩ := mem_walkItems.mp mem
    exact .listItem hitem (ih item hitem inner)
  | tuple xs ih =>
    rw [walkKeysAndValues] at mem
    obtain ⟨item, hitem, inner⟩ := mem_walkItems.mp mem
    exact .tupleItem hitem (ih item hitem inner)
  | _ => simp [walkKeysAndValues] at mem

theorem mem_walk_of_hasEntry {v : PyValue} {key : PyKey} {value : PyValue}
    (found : v.HasEntry key value) : (key, value) ∈ walkKeysAndValues v := by
  unfold PyValue.HasEntry at found
  -- along the place of the entry
  induction found with
  | self holds =>
    obtain ⟨entries, rfl, mem⟩ := holds
    rw [walkKeysAndValues]
    exact mem_walkEntries.mpr ⟨key, value, mem, .inl rfl⟩
  | entry mem _ ih =>
    rw [walkKeysAndValues]
    exact mem_walkEntries.mpr ⟨_, _, mem, .inr ih⟩
  | listItem mem _ ih =>
    rw [walkKeysAndValues]
    exact mem_walkItems.mpr ⟨_, mem, ih⟩
  | tupleItem mem _ ih =>
    rw [walkKeysAndValues]
    exact mem_walkItems.mpr ⟨_, mem, ih⟩

/-- **The walk yields the entries inside.** -/
theorem mem_walk_iff {v : PyValue} {key : PyKey} {value : PyValue} :
    (key, value) ∈ walkKeysAndValues v ↔ v.HasEntry key value :=
  ⟨hasEntry_of_mem_walk, mem_walk_of_hasEntry⟩

variable (str : Lowering)

/-! ## The readings

What each code is about, as a property of the output and the packet. The detectors decide it. -/

/-- A key that exposes a strength as a probability. -/
def ProbabilityKey (key : String) : Prop :=
  str.lower key ∈ probabilityKeyExact ∨
    ∃ start ∈ probabilityKeyPrefixes, startsWith (str.lower key) start = true

/-- The reading of `output` that a code forbids. -/
def ForbiddenReading (fid : FId) (refuted : Bool) (contradictions unresolvedGaps : Nat)
    (output : PyValue) : Prop :=
  match fid with
  | .f3 => ∃ key value, output.HasEntry (.str key) value ∧ ProbabilityKey str key
  | .f5 => refuted = false ∧ contradictions ≠ 0 ∧ output.UnderKeyAsEntry (Refuting str)
  | .f7 => refuted = false ∧ unresolvedGaps ≠ 0 ∧ output.UnderKeyAsEntry (Refuting str)
  | .f10 => ∃ key value, output.HasEntry (.str key) value ∧ str.lower key ∈ verdictKeys
  | .f12 => ∃ key b, output.HasEntry (.str key) (.bool b) ∧ str.lower key ∈ autoVerifiedKeys
  | .f13 => ∃ key value, output.HasEntry (.str key) value ∧ str.lower key ∈ mutationIntentKeys

/-- A check on the lower-cased string keys is a check on the entries inside. -/
theorem any_allKeys_iff {output : PyValue} {p : String → Bool} :
    (allKeys str output).any p = true ↔
      ∃ key value, output.HasEntry (.str key) value ∧ p (str.lower key) = true := by
  rw [List.any_eq_true]
  constructor
  · rintro ⟨lowered, mem, hp⟩
    obtain ⟨⟨key, value⟩, hentry, hkey⟩ := List.mem_filterMap.mp mem
    cases key with
    | str key =>
      cases hkey
      exact ⟨key, value, mem_walk_iff.mp hentry, hp⟩
    | other obj repr => cases hkey
  · rintro ⟨key, value, hentry, hp⟩
    exact ⟨str.lower key, List.mem_filterMap.mpr ⟨_, mem_walk_iff.mpr hentry, rfl⟩, hp⟩

theorem any_startsWith_iff {lowered : String} :
    (decide (lowered ∈ probabilityKeyExact) || probabilityKeyPrefixes.any (startsWith lowered)) =
        true ↔
      lowered ∈ probabilityKeyExact ∨
        ∃ start ∈ probabilityKeyPrefixes, startsWith lowered start = true := by
  rw [Bool.or_eq_true, decide_eq_true_eq, List.any_eq_true]

variable {str}

/-- What F5 and F7 come down to, the claim refuted or not. Of a refuted claim the entry is not
read. -/
theorem detectRefutation_eq (str : Lowering) (output : PyValue) {sourcePacket : PyValue}
    {name : String} {refuted : Bool} {n : Nat}
    (hclaim : claimStatusIsAlreadyRefuted sourcePacket = .ok refuted)
    (hmembers : refuted = false → HasMembers sourcePacket name n) :
    detectRefutation str name output sourcePacket =
      .ok (!refuted && (decide (n ≠ 0) && consumerOutputCarriesRefutationValue str output)) := by
  cases refuted with
  | false => exact detectRefutation_ok str output hclaim (hmembers rfl)
  | true =>
    unfold detectRefutation
    rw [hclaim]
    rfl

theorem detectF3_iff {output : PyValue} :
    detectF3ProbabilityLabelForStrength str output = true ↔
      ∃ key value, output.HasEntry (.str key) value ∧ ProbabilityKey str key := by
  unfold detectF3ProbabilityLabelForStrength
  rw [any_allKeys_iff]
  simp only [any_startsWith_iff, ProbabilityKey]

theorem detectF10_iff {output : PyValue} :
    detectF10StatusVerdictRelabel str output = true ↔
      ∃ key value, output.HasEntry (.str key) value ∧ str.lower key ∈ verdictKeys := by
  unfold detectF10StatusVerdictRelabel
  rw [any_allKeys_iff]
  simp only [decide_eq_true_eq]

theorem detectF13_iff {output : PyValue} :
    detectF13EngineMutationIntent str output = true ↔
      ∃ key value, output.HasEntry (.str key) value ∧ str.lower key ∈ mutationIntentKeys := by
  unfold detectF13EngineMutationIntent
  rw [any_allKeys_iff]
  simp only [decide_eq_true_eq]

theorem detectF12_iff {output : PyValue} :
    detectF12ThresholdAutoVerified str output = true ↔
      ∃ key b, output.HasEntry (.str key) (.bool b) ∧ str.lower key ∈ autoVerifiedKeys := by
  unfold detectF12ThresholdAutoVerified
  rw [List.any_eq_true]
  constructor
  · rintro ⟨⟨key, value⟩, mem, hkey⟩
    -- the detector asks for a string key with a bool
    cases key with
    | other obj repr => cases hkey
    | str key =>
      cases value with
      | bool b => exact ⟨key, b, mem_walk_iff.mp mem, of_decide_eq_true hkey⟩
      | _ => cases hkey
  · rintro ⟨key, b, hentry, hkey⟩
    exact ⟨(.str key, .bool b), mem_walk_iff.mpr hentry, decide_eq_true hkey⟩

/-! ## The violations

The list that is returned, code by code and message by message. -/

/-- The packet is read without an exception, with that status of its claim and, unless the claim
is refuted, that many members in the two entries that count. -/
structure PacketRead (sourcePacket : PyValue) (refuted : Bool)
    (contradictions unresolvedGaps : Nat) : Prop where
  claim : claimStatusIsAlreadyRefuted sourcePacket = .ok refuted
  contradictions : refuted = false → HasMembers sourcePacket "contradictions" contradictions
  unresolvedGaps : refuted = false → HasMembers sourcePacket "unresolved_gaps" unresolvedGaps

/-- The codes in the order of the checks. -/
def FId.order : List FId := [.f3, .f5, .f7, .f10, .f12, .f13]

/-- What the validator returns. -/
structure ViolationsExact (str : Lowering) (refuted : Bool) (contradictions unresolvedGaps : Nat)
    (output : PyValue) (violations : List (FId × String)) : Prop where
  codes : ∀ fid, fid ∈ violations.map Prod.fst ↔
    ForbiddenReading str fid refuted contradictions unresolvedGaps output
  /-- Each code at most once, in order. -/
  ordered : (violations.map Prod.fst).Sublist FId.order
  messages : ∀ violation ∈ violations, violation.2 = violation.1.message

theorem report_codes (fid : FId) (detected : Bool) :
    ((report fid detected).map Prod.fst).Sublist [fid] := by
  cases detected <;> simp [report]

theorem report_messages {fid : FId} {detected : Bool} {violation : FId × String}
    (h : violation ∈ report fid detected) : violation.2 = violation.1.message := by
  cases detected with
  | false => cases h
  | true =>
    obtain rfl := List.mem_singleton.mp h
    rfl

/-- **The interpretation validator is exact**, for every output and every packet it can read. -/
theorem interpretation_exact (str : Lowering) {sourcePacket : PyValue} {refuted : Bool}
    {contradictions unresolvedGaps : Nat}
    (hpacket : PacketRead sourcePacket refuted contradictions unresolvedGaps) (output : PyValue) :
    ∃ violations, validateConsumerPacketInterpretation str output sourcePacket = .ok violations ∧
      ViolationsExact str refuted contradictions unresolvedGaps output violations := by
  have hf5 := detectRefutation_eq str output hpacket.claim
    hpacket.contradictions
  have hf7 := detectRefutation_eq str output hpacket.claim
    hpacket.unresolvedGaps
  unfold validateConsumerPacketInterpretation detectF5ContradictionsAutoRefutation
    detectF7UnresolvedGapsRefutation
  rw [hf5, hf7]
  refine ⟨_, rfl, ?_, ?_, ?_⟩
  · -- a code is in the report of its own detector and of no other
    intro fid
    simp only [List.map_append, List.mem_append, mem_report]
    cases fid with
    | f3 =>
      simp only [reduceCtorEq, false_and, or_false, true_and]
      exact detectF3_iff
    | f5 => simp [ForbiddenReading, carries_refutation_iff]
    | f7 => simp [ForbiddenReading, carries_refutation_iff]
    | f10 =>
      simp only [reduceCtorEq, false_and, false_or, or_false, true_and]
      exact detectF10_iff
    | f12 =>
      simp only [reduceCtorEq, false_and, false_or, or_false, true_and]
      exact detectF12_iff
    | f13 =>
      simp only [reduceCtorEq, false_and, false_or, or_false, true_and]
      exact detectF13_iff
  · -- the detectors are asked in the order of the codes
    simp only [List.map_append]
    exact (((((report_codes .f3 _).append (report_codes .f5 _)).append (report_codes .f7 _)).append
      (report_codes .f10 _)).append (report_codes .f12 _)).append (report_codes .f13 _)
  · intro violation hviolation
    simp only [List.mem_append] at hviolation
    rcases hviolation with ((((h | h) | h) | h) | h) | h
    all_goals exact report_messages h

/-- A verdict nested in a list, read against the packet of a contradicted candidate claim. -/
theorem interpretation_exact_contradicted : ∃ violations,
    validateConsumerPacketInterpretation .ascii
        (.dict [(.str "findings", .list [.dict [(.str "Verdict", .str "refuted")]])])
        contradictedPacket = .ok violations ∧
      ViolationsExact .ascii false 1 1
        (.dict [(.str "findings", .list [.dict [(.str "Verdict", .str "refuted")]])])
        violations :=
  interpretation_exact .ascii ⟨rfl, fun _ => contradictedPacket_hasMembers (.inl rfl),
    fun _ => contradictedPacket_hasMembers (.inr rfl)⟩ _

end Inspector

end Ragcore
