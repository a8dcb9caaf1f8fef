import Ragcore.Proposal.Validator

/-!
# Ragcore — the two proposal validators together

`proposal_validator.py` calls a proposal safe when both validators return the empty list: the
shape validator for the top level, the safety validator below it. Together they are to keep every
forbidden key out.

They do for the keys the walk can see. The value under a key that is no string is seen by
neither: the walk leaves it out, and the shape validator looks at the top-level keys alone.

* **`Forbidden`** — the keys both are to keep out.
* **`not_forbidden_iff`** — `Forbidden` against the checks of the code. The two copies of the
  vocabularies agree.
* **`no_forbidden_key_iff`** — an accepted proposal has no forbidden key exactly when it has none
  hidden under a key that is no string.
-/

namespace Ragcore

namespace Proposal

open Schema Validator

variable {str : Lowering}

/-- A key of one of the vocabularies, once lower-cased. -/
inductive Forbidden (str : Lowering) (key : String) : Prop where
  | verdict (mem : str.lower key ∈ Schema.p1VerdictKeys)
  | statusMutation (mem : str.lower key ∈ Schema.p3StatusMutationKeys)
  | toolExecution (mem : str.lower key ∈ Schema.p4ToolExecutionKeys)
  | executes (start : startsWith (str.lower key) "execute_" = true)
  | engineMutation (mem : str.lower key ∈ Schema.p5EngineMutationKeys)
  | finalReport (mem : str.lower key ∈ Schema.p6FinalReportKeys)
  | thresholdVerdict (mem : str.lower key ∈ Schema.p7ThresholdVerdictKeys)
  | probability (identifier : isP2ProbabilityIdentifier (str.lower key) = true)
  | domainWord (word : String) (component : word ∈ identifierComponents str key)
      (mem : word ∈ p8ForbiddenVocab)

/-- The nested check of the safety validator is the top-level check of the shape validator. -/
theorem detectNestedP1P7_lower (key : String) :
    detectNestedP1P7 (str.lower key) = classifyUnknownKey str key :=
  rfl

theorem classifyUnknownKey_eq_none {key : String} :
    classifyUnknownKey str key = none ↔
      str.lower key ∉ Schema.p1VerdictKeys ∧ str.lower key ∉ Schema.p3StatusMutationKeys ∧
        str.lower key ∉ Schema.p4ToolExecutionKeys ∧
        startsWith (str.lower key) "execute_" = false ∧
        str.lower key ∉ Schema.p5EngineMutationKeys ∧
        str.lower key ∉ Schema.p6FinalReportKeys ∧
        str.lower key ∉ Schema.p7ThresholdVerdictKeys := by
  have starts : Schema.p4ToolExecutionPrefixes.any (startsWith (str.lower key)) =
      startsWith (str.lower key) "execute_" := by
    simp [Schema.p4ToolExecutionPrefixes]
  unfold classifyUnknownKey
  simp only [starts]
  split_ifs <;> simp_all

theorem p8IntrusionComponents_eq_nil {key : String} :
    p8IntrusionComponents str key = [] ↔
      ∀ word ∈ identifierComponents str key, word ∉ p8ForbiddenVocab := by
  simp [p8IntrusionComponents, List.filter_eq_nil_iff]

/-- A key is not forbidden exactly when the safety validator would pass it below the top level. -/
theorem not_forbidden_iff {key : String} : ¬Forbidden str key ↔ SafeAt str 1 key := by
  constructor
  · intro clean
    refine ⟨fun _ => ?_, ?_, ?_⟩
    · rw [detectNestedP1P7_lower, classifyUnknownKey_eq_none]
      exact ⟨fun h => clean (.verdict h), fun h => clean (.statusMutation h),
        fun h => clean (.toolExecution h), eq_false_of_ne_true fun h => clean (.executes h),
        fun h => clean (.engineMutation h), fun h => clean (.finalReport h),
        fun h => clean (.thresholdVerdict h)⟩
    · exact eq_false_of_ne_true fun h => clean (.probability h)
    · rw [p8IntrusionComponents_eq_nil]
      exact fun word component mem => clean (.domainWord word component mem)
  · intro safe forbidden
    have unnamed := safe.nested (Nat.le_refl 1)
    rw [detectNestedP1P7_lower, classifyUnknownKey_eq_none] at unnamed
    obtain ⟨p1, p3, p4, executes, p5, p6, p7⟩ := unnamed
    -- a name of the list, or a name with one of the prefixes
    cases forbidden with
    | verdict mem => exact p1 mem
    | statusMutation mem => exact p3 mem
    | toolExecution mem => exact p4 mem
    | executes start => simp [start] at executes
    | engineMutation mem => exact p5 mem
    | finalReport mem => exact p6 mem
    | thresholdVerdict mem => exact p7 mem
    | probability identifier => exact absurd safe.probability (by simp [identifier])
    | domainWord word component mem =>
      exact p8IntrusionComponents_eq_nil.mp safe.domain word component mem

/-- The names of the shape are in no vocabulary, whatever the table of `str.lower()`: they are
lower-case ASCII. -/
theorem allowed_unnamed {name : String} (allowed : name ∈ allowedTopLevelFields) :
    detectNestedP1P7 (str.lower name) = none := by
  have plain : ∀ name ∈ allowedTopLevelFields, ∀ c ∈ name.toList, c.toNat < 128 := by
    simp [allowedTopLevelFields, requiredFields, optionalFields]
  have unnamed : ∀ name ∈ allowedTopLevelFields, detectNestedP1P7 (asciiLower name) = none := by
    decide +kernel
  rw [str.lower_ascii name (plain name allowed)]
  exact unnamed name allowed

/-- A visible key of an accepted proposal is not forbidden, at the top level by the one validator
and below it by the other. -/
theorem visible_not_forbidden {proposal sourcePacket : PyValue} {key : String} {depth : Nat}
    (shape : validateLlmProposalShape str proposal sourcePacket = [])
    (safety : validateProposalSafety str proposal sourcePacket = [])
    (visible : proposal.VisibleAt key depth) : ¬Forbidden str key := by
  obtain ⟨entries, rfl, allowed⟩ := shape_accepts shape
  have safe := (safety_accepts_iff str entries sourcePacket).mp safety key depth visible
  apply not_forbidden_iff.mpr
  refine { safe with nested := fun _ => ?_ }
  -- at the top level or below it
  cases visible with
  | here mem =>
    obtain ⟨name, listed, same⟩ := allowed (.str key) (List.mem_map.mpr ⟨_, mem, rfl⟩)
    cases same
    exact allowed_unnamed listed
  | entry mem inner => exact safe.nested (by omega)

/-- **What the two validators keep out.** Of a proposal both accept, no key is forbidden exactly
when no key inside a value stored under a key that is no string is. -/
theorem no_forbidden_key_iff (str : Lowering) (proposal sourcePacket : PyValue)
    (shape : validateLlmProposalShape str proposal sourcePacket = [])
    (safety : validateProposalSafety str proposal sourcePacket = []) :
    (∀ key, proposal.HasKey key → ¬Forbidden str key) ↔
      ∀ key, proposal.HiddenKey key → ¬Forbidden str key := by
  constructor
  · intro clean key hidden
    exact clean key hidden.hasKey
  · intro clean key has
    -- a key that the walk meets was tested; one that it does not meet is the failing kind
    cases has.visible_or_hidden with
    | inl visible =>
      obtain ⟨depth, visible⟩ := visible
      exact visible_not_forbidden shape safety visible
    | inr hidden => exact clean key hidden

/-- A proposal whose `supporting_packet_ref` is a dict with the key `1`, and that value under
it. -/
def referring (ref : PyValue) : PyValue :=
  .dict [(.str "category", .str "uncertainty_note"), (.str "target_claim_id", .int 1),
    (.str "note", .str "see the packet"),
    (.str "supporting_packet_ref", .dict [(.other 1 "1", ref)])]

/-- A packet of the claim with the id `1`. -/
def packetOfClaimOne : PyValue :=
  .dict [(.str "claim", .object "Claim" [("id", .int 1)])]

theorem no_forbidden_key_iff_question :
    (∀ key, (referring (.dict [(.str "question", .bool true)])).HasKey key →
        ¬Forbidden .ascii key) ↔
      ∀ key, (referring (.dict [(.str "question", .bool true)])).HiddenKey key →
        ¬Forbidden .ascii key :=
  no_forbidden_key_iff .ascii _ packetOfClaimOne (by with_unfolding_all rfl)
    (by with_unfolding_all rfl)

/-- Both validators accept the proposal with `verdict` under the key `1`. -/
theorem verdict_survives :
    ¬(validateLlmProposalShape .ascii (referring (.dict [(.str "verdict", .bool true)]))
          packetOfClaimOne = [] →
        validateProposalSafety .ascii (referring (.dict [(.str "verdict", .bool true)]))
          packetOfClaimOne = [] →
        ∀ key, (referring (.dict [(.str "verdict", .bool true)])).HasKey key →
          ¬Forbidden .ascii key) := by
  intro claimed
  have clean := claimed (by with_unfolding_all rfl) (by with_unfolding_all rfl)
  have inner : (PyValue.dict [(.other 1 "1", .dict [(.str "verdict", .bool true)])]).HasKey
      "verdict" :=
    .entry (List.mem_singleton.mpr rfl) (.here (List.mem_singleton.mpr rfl))
  have has : (referring (.dict [(.str "verdict", .bool true)])).HasKey "verdict" :=
    .entry (k := .str "supporting_packet_ref") (by simp) inner
  exact clean "verdict" has (.verdict (by decide +kernel))

end Proposal

end Ragcore
