import Ragcore.Proposal.Composition

/-!
# Ragcore — what the shape validator accepts

The shape declared at the head of `proposal_schema.py` gives each of the six fields a type. The
validator reads `category`, `target_claim_id` and `note` with `proposal.get` and skips the check
where that is `None`, so a field that is there with the value `None` passes; the values of the three
optional fields are not read at all.

* **`Declared`** — the declared shape.
* **`Tolerated`** — what the checks come to (`validate_eq_nil_iff`).
* **`shape_declared_iff`** — the two agree but for nulls and optional values.
-/

namespace Ragcore

namespace PyValue

/-- `isinstance(v, int)`, which a bool is as well. -/
def IsInt : PyValue → Prop
  | .int _ => True
  | .bool _ => True
  | _ => False

def IsStr : PyValue → Prop
  | .str _ => True
  | _ => False

end PyValue

namespace Proposal

namespace Schema

variable (entries : Entries) (claimId : Int)

def HasField (name : String) : Prop := .str name ∈ (PyValue.dict entries).keys

/-- The three required keys, and of the others only the three optional ones. -/
structure KeysInShape : Prop where
  required : ∀ name ∈ requiredFields, HasField entries name
  allowed : ∀ key ∈ (PyValue.dict entries).keys, ∃ name ∈ allowedTopLevelFields, key = .str name

/-- The minimal shape, as declared. -/
structure Declared : Prop where
  keys : KeysInShape entries
  category : ∃ name ∈ allowedCategories, (PyValue.dict entries).get "category" = .str name
  targetClaimId : (PyValue.dict entries).get "target_claim_id" = .int claimId
  note : ((PyValue.dict entries).get "note").IsStr
  targetEvidenceId : HasField entries "target_evidence_id" →
    ((PyValue.dict entries).get "target_evidence_id").IsInt
  targetGapId : HasField entries "target_gap_id" →
    ((PyValue.dict entries).get "target_gap_id").IsInt
  supportingPacketRef : HasField entries "supporting_packet_ref" →
    ((PyValue.dict entries).get "supporting_packet_ref").IsStr

/-- What the checks come to: each of the three may be null. -/
structure Tolerated : Prop where
  keys : KeysInShape entries
  category : (PyValue.dict entries).get "category" = .none ∨
    ∃ name ∈ allowedCategories, (PyValue.dict entries).get "category" = .str name
  targetClaimId : (PyValue.dict entries).get "target_claim_id" = .none ∨
    (PyValue.dict entries).get "target_claim_id" = .int claimId
  note : (PyValue.dict entries).get "note" = .none ∨ ((PyValue.dict entries).get "note").IsStr

/-- No required field is null. -/
def RequiredNotNull : Prop :=
  ∀ name ∈ requiredFields, (PyValue.dict entries).get name ≠ .none

/-- The optional fields that are there have their types. -/
structure OptionalsTyped : Prop where
  targetEvidenceId : HasField entries "target_evidence_id" →
    ((PyValue.dict entries).get "target_evidence_id").IsInt
  targetGapId : HasField entries "target_gap_id" →
    ((PyValue.dict entries).get "target_gap_id").IsInt
  supportingPacketRef : HasField entries "supporting_packet_ref" →
    ((PyValue.dict entries).get "supporting_packet_ref").IsStr

variable {entries claimId}

/-! ## Check by check

When each of them is silent. -/

theorem missingViolations_eq_nil {keys : List PyKey} :
    missingViolations keys = [] ↔ ∀ name ∈ requiredFields, PyKey.str name ∈ keys := by
  unfold missingViolations
  simp only
  constructor
  · intro h name hname
    by_contra hmissing
    have hmem : name ∈ requiredFields.filter fun name => PyKey.str name ∉ keys :=
      List.mem_filter.mpr ⟨hname, by simpa using hmissing⟩
    split at h
    · rename_i hempty
      rw [List.isEmpty_iff.mp hempty] at hmem
      cases hmem
    · cases h
  · intro h
    have hnone : (requiredFields.filter fun name => PyKey.str name ∉ keys) = [] :=
      List.filter_eq_nil_iff.mpr fun name hname => by simpa using h name hname
    rw [hnone]
    rfl

theorem categoryViolations_eq_nil {category : PyValue} :
    categoryViolations category = [] ↔
      category = .none ∨ ∃ name ∈ allowedCategories, category = .str name := by
  cases category with
  | str name =>
    by_cases hname : name ∈ allowedCategories
    · simp [categoryViolations, hname]
    · simp [categoryViolations, hname]
  | _ => simp [categoryViolations]

theorem targetViolations_eq_nil {target sourcePacket : PyValue}
    (hpacket : packetClaimId sourcePacket = .int claimId) :
    targetViolations target sourcePacket = [] ↔ target = .none ∨ target = .int claimId := by
  -- `None` is not compared with the claim of the packet
  cases target with
  | int n =>
    have heq : (PyValue.int claimId).eqInt n = decide (claimId = n) := rfl
    simp only [targetViolations, hpacket, heq, decide_eq_true_eq, reduceCtorEq, PyValue.int.injEq,
      false_or]
    split
    · rename_i hsame
      simp [hsame]
    · rename_i hother
      simp [Ne.symm hother]
  | _ => simp [targetViolations]

theorem noteViolations_eq_nil {note : PyValue} :
    noteViolations note = [] ↔ note = .none ∨ note.IsStr := by
  cases note <;> simp [noteViolations, PyValue.IsStr]

theorem unknownViolations_eq_nil_iff {str : Lowering} {keys : List PyKey} :
    unknownViolations str (unknownKeys keys) = [] ↔
      ∀ key ∈ keys, ∃ name ∈ allowedTopLevelFields, key = .str name := by
  have hnone : unknownKeys keys = [] ↔
      ∀ key ∈ keys, ∃ name ∈ allowedTopLevelFields, key = .str name := by
    simp only [unknownKeys, List.filter_eq_nil_iff, decide_eq_true_eq, not_not, List.mem_map,
      @eq_comm PyKey (.str _)]
  rw [← hnone]
  constructor
  · exact unknownViolations_eq_nil
  · intro h
    rw [h]
    rfl

/-- **What the validator accepts**, of a dict and a packet with a claim. -/
theorem validate_eq_nil_iff (str : Lowering) {sourcePacket : PyValue}
    (hpacket : packetClaimId sourcePacket = .int claimId) :
    validateLlmProposalShape str (.dict entries) sourcePacket = [] ↔ Tolerated entries claimId := by
  simp only [validateLlmProposalShape, List.append_eq_nil_iff, missingViolations_eq_nil,
    categoryViolations_eq_nil, targetViolations_eq_nil hpacket, noteViolations_eq_nil,
    unknownViolations_eq_nil_iff]
  constructor
  · rintro ⟨⟨⟨⟨hrequired, hcategory⟩, htarget⟩, hnote⟩, hallowed⟩
    exact ⟨⟨hrequired, hallowed⟩, hcategory, htarget, hnote⟩
  · intro h
    exact ⟨⟨⟨⟨h.keys.required, h.category⟩, h.targetClaimId⟩, h.note⟩, h.keys.allowed⟩

/-- The declared shape is what is tolerated with the two checks that are not made. -/
theorem declared_iff : Declared entries claimId ↔
    Tolerated entries claimId ∧ RequiredNotNull entries ∧ OptionalsTyped entries := by
  constructor
  · intro h
    refine ⟨⟨h.keys, .inr h.category, .inr h.targetClaimId, .inr h.note⟩, ?_,
      ⟨h.targetEvidenceId, h.targetGapId, h.supportingPacketRef⟩⟩
    intro name hname hnull
    simp only [requiredFields, List.mem_cons, List.not_mem_nil, or_false] at hname
    -- the three required fields
    rcases hname with rfl | rfl | rfl
    · obtain ⟨_, _, hcategory⟩ := h.category
      rw [hnull] at hcategory
      cases hcategory
    · have htarget := h.targetClaimId
      rw [hnull] at htarget
      cases htarget
    · have hnote := h.note
      rw [hnull] at hnote
      exact hnote
  · rintro ⟨h, hnull, hoptional⟩
    exact {
      keys := h.keys
      category := h.category.resolve_left (hnull _ (by simp [requiredFields]))
      targetClaimId := h.targetClaimId.resolve_left (hnull _ (by simp [requiredFields]))
      note := h.note.resolve_left (hnull _ (by simp [requiredFields]))
      targetEvidenceId := hoptional.targetEvidenceId
      targetGapId := hoptional.targetGapId
      supportingPacketRef := hoptional.supportingPacketRef }

/-! ## The law

Together they are silent on the declared proposals, and on those whose required fields are null. -/

/-- **When the validator decides the declared shape.** A proposal it has no other objection to
must have no null in a required field and no optional field of the wrong type. -/
theorem shape_declared_iff (str : Lowering) (entries : Entries) {sourcePacket : PyValue}
    {claimId : Int} (hpacket : packetClaimId sourcePacket = .int claimId) :
    (validateLlmProposalShape str (.dict entries) sourcePacket = [] ↔
        Declared entries claimId) ↔
      (Tolerated entries claimId → RequiredNotNull entries ∧ OptionalsTyped entries) := by
  rw [validate_eq_nil_iff str hpacket, declared_iff]
  constructor
  · intro hagree htolerated
    exact (hagree.mp htolerated).2
  · intro hchecked
    exact ⟨fun htolerated => ⟨htolerated, hchecked htolerated⟩, And.left⟩

/-- A note that is null. -/
def nullNote : Entries :=
  [(.str "category", .str "uncertainty_note"), (.str "target_claim_id", .int 1),
    (.str "note", .none)]

theorem shape_declared_iff_nullNote :
    (validateLlmProposalShape .ascii (.dict nullNote) packetOfClaimOne = [] ↔ Declared nullNote 1) ↔
      (Tolerated nullNote 1 → RequiredNotNull nullNote ∧ OptionalsTyped nullNote) :=
  shape_declared_iff .ascii nullNote (show packetClaimId packetOfClaimOne = .int 1 from rfl)

/-- It is accepted, and is not in the declared shape. -/
theorem nullNote_accepted :
    ¬(validateLlmProposalShape .ascii (.dict nullNote) packetOfClaimOne = [] ↔
      Declared nullNote 1) := by
  intro hagree
  have haccepted : validateLlmProposalShape .ascii (.dict nullNote) packetOfClaimOne = [] := by
    with_unfolding_all rfl
  exact (hagree.mp haccepted).note

end Schema

end Proposal

end Ragcore
