import Ragcore.Lib.PyValue

/-!
# Ragcore — the shape validator of LLM proposals

`validate_llm_proposal_shape` of `proposal_schema.py` checks a proposal against the minimal shape
of six fields and names the top-level keys that are forbidden. Violations come as code and
message, in the order of the checks; an empty list accepts.

* **`classifyUnknownKey`** — the vocabulary a lower-cased key falls in.
* **`shape_accepts`** — what acceptance says about the keys: the proposal is a dict and every key
  is one of the six.
-/

namespace Ragcore

namespace Proposal

/-- The codes of the two validators. -/
inductive Code where
  | s1 | s2 | s3 | s4 | s5 | s6 | s7
  | p1 | p2 | p3 | p4 | p5 | p6 | p7 | p8
  deriving DecidableEq, Repr

abbrev Violation := Code × List TextPart

namespace Schema

/-! ## Allowed shape

The fields of a proposal. -/

def requiredFields : List String := ["category", "target_claim_id", "note"]

def optionalFields : List String :=
  ["target_evidence_id", "target_gap_id", "supporting_packet_ref"]

def allowedTopLevelFields : List String := requiredFields ++ optionalFields

def allowedCategories : List String :=
  ["uncertainty_note", "evidence_gap_question", "next_inspection_question",
    "packet_summary_note", "report_note_candidate"]

/-! ## Forbidden keys

Names that are told apart from merely unknown ones. -/

def p1VerdictKeys : List String := ["verdict", "label", "judgment", "decision", "ruling"]

def p3StatusMutationKeys : List String :=
  ["status_change", "set_status", "change_status", "claim_status_change", "force_status"]

def p4ToolExecutionKeys : List String :=
  ["tool_run", "tool_command", "execute_tool", "execute_command", "run_command", "run_tool",
    "tool_invocation"]

def p4ToolExecutionPrefixes : List String := ["execute_"]

def p5EngineMutationKeys : List String :=
  ["engine_call", "engine_mutation", "engine_call_args", "mutation_payload",
    "add_evidence_args", "add_claim_args", "add_gap_args", "add_observation_args",
    "add_relation_args", "engine_write", "engine_writeback"]

def p6FinalReportKeys : List String :=
  ["final_report", "published", "final_verdict", "final_published", "publication_status",
    "report_finalized"]

def p7ThresholdVerdictKeys : List String :=
  ["binary_verdict", "threshold_verdict", "auto_verdict", "threshold_decision"]

variable (str : Lowering)

def classifyUnknownKey (key : String) : Option Code :=
  let kl := str.lower key
  if kl ∈ p1VerdictKeys then some .p1
  else if kl ∈ p3StatusMutationKeys then some .p3
  else if kl ∈ p4ToolExecutionKeys then some .p4
  else if p4ToolExecutionPrefixes.any (startsWith kl) then some .p4
  else if kl ∈ p5EngineMutationKeys then some .p5
  else if kl ∈ p6FinalReportKeys then some .p6
  else if kl ∈ p7ThresholdVerdictKeys then some .p7
  else none

/-! ## The checks

Each check reports on its own; none looks at the result of another. -/

/-- S2. -/
def missingViolations (keys : List PyKey) : List Violation :=
  let missing := requiredFields.filter fun name => PyKey.str name ∉ keys
  if missing.isEmpty then []
  else [(.s2, ["missing required field(s): ", sortedText missing])]

/-- S3. -/
def categoryViolations (category : PyValue) : List Violation :=
  let rejected : List Violation :=
    [(.s3, ["category must be one of ", sortedText allowedCategories, "; got ", .repr category])]
  match category with
  | .none => []
  | .str name => if name ∈ allowedCategories then [] else rejected
  | _ => rejected

/-- The id of the claim in the packet, `None` where the packet has none. -/
def packetClaimId (sourcePacket : PyValue) : PyValue :=
  (sourcePacket.get "claim").getattr "id"

/-- S4 and S5. -/
def targetViolations (targetClaimId sourcePacket : PyValue) : List Violation :=
  match targetClaimId with
  | .none => []
  | .int n =>
    match packetClaimId sourcePacket with
    | .none => []
    | claimId =>
      if claimId.eqInt n then []
      else [(.s5, ["target_claim_id (", .value targetClaimId,
        ") does not match source_packet claim.id (", .value claimId, ")"])]
  | _ => [(.s4, ["target_claim_id must be int (not bool)"])]

/-- S6. -/
def noteViolations (note : PyValue) : List Violation :=
  match note with
  | .none | .str _ => []
  | _ => [(.s6, ["note must be str"])]

/-- The keys outside the shape. -/
def unknownKeys (keys : List PyKey) : List PyKey :=
  keys.filter fun key => key ∉ allowedTopLevelFields.map PyKey.str

/-- `by_pid[pid]`. -/
def keysByPid (unknown : List PyKey) (pid : Code) : List String :=
  unknown.filterMap fun
    | .str key => if classifyUnknownKey str key = some pid then some key else none
    | .other _ _ => none

/-- `other_unknown`. -/
def otherUnknown (unknown : List PyKey) : List String :=
  unknown.filterMap fun
    | .str key => if classifyUnknownKey str key = none then some key else none
    | .other _ repr => some repr

/-- One violation for a kind of key, if there are such keys. -/
def keyViolation (code : Code) (before after : String) (keys : List String) : List Violation :=
  if keys.isEmpty then [] else [(code, [before, sortedText keys, after])]

/-- P1 to P7 and S7. -/
def unknownViolations (unknown : List PyKey) : List Violation :=
  keyViolation .p1 "verdict/label/judgment/decision/ruling key not allowed: "
      " (PR54 §10 P1 / PR44-D AP-CF-1 / PR52 §5 F10)" (keysByPid str unknown .p1) ++
    keyViolation .p3 "status_change / set_status / claim status mutation key not allowed: "
      " (PR54 §10 P3 / PR43-C §4.6 / PR44-D AP-L-1)" (keysByPid str unknown .p3) ++
    keyViolation .p4 "tool execution key not allowed: "
      " (PR54 §10 P4 — no proposal may authorize tool execution)" (keysByPid str unknown .p4) ++
    keyViolation .p5 "engine mutation payload key not allowed: "
      " (PR54 §10 P5 / PR52 §5 F13 / PR44-D AP-E-1)" (keysByPid str unknown .p5) ++
    keyViolation .p6 "final report / published key not allowed: "
      " (PR54 §10 P6 / PR54 §11 — human / operator decision is the gating event)"
      (keysByPid str unknown .p6) ++
    keyViolation .p7 "threshold-based binary verdict key not allowed: "
      " (PR54 §10 P7 / PR52 §5 F12 / PR44-D AP-CF-2)" (keysByPid str unknown .p7) ++
    keyViolation .s7 "unknown top-level key(s) not allowed under PR55 minimal shape: " ""
      (otherUnknown str unknown)

/-- `validate_llm_proposal_shape`. -/
def validateLlmProposalShape (proposal sourcePacket : PyValue) : List Violation :=
  match proposal with
  | .dict _ =>
    missingViolations proposal.keys ++ categoryViolations (proposal.get "category") ++
      targetViolations (proposal.get "target_claim_id") sourcePacket ++
      noteViolations (proposal.get "note") ++
      unknownViolations str (unknownKeys proposal.keys)
  | _ => [(.s1, ["proposal must be a dict"])]

/-! ## What acceptance says about the keys

All keys of an accepted proposal are declared. -/

variable {str : Lowering}

@[simp] theorem keyViolation_eq_nil {code : Code} {before after : String} {keys : List String} :
    keyViolation code before after keys = [] ↔ keys = [] := by
  cases keys <;> simp [keyViolation]

theorem classifyUnknownKey_mem {key : String} {pid : Code}
    (h : classifyUnknownKey str key = some pid) : pid ∈ [Code.p1, .p3, .p4, .p5, .p6, .p7] := by
  unfold classifyUnknownKey at h
  dsimp only at h
  split_ifs at h <;> cases h <;> decide

theorem keysByPid_ne_nil {unknown : List PyKey} {key : String} {pid : Code}
    (mem : .str key ∈ unknown) (h : classifyUnknownKey str key = some pid) :
    keysByPid str unknown pid ≠ [] := by
  have found : key ∈ keysByPid str unknown pid :=
    List.mem_filterMap.mpr ⟨.str key, mem, by simp [h]⟩
  exact List.ne_nil_of_mem found

/-- Every key outside the shape is reported, under its kind or as unknown. -/
theorem unknownViolations_eq_nil {unknown : List PyKey}
    (clean : unknownViolations str unknown = []) : unknown = [] := by
  simp only [unknownViolations, List.append_eq_nil_iff, keyViolation_eq_nil] at clean
  obtain ⟨⟨⟨⟨⟨⟨p1, p3⟩, p4⟩, p5⟩, p6⟩, p7⟩, other⟩ := clean
  apply List.eq_nil_iff_forall_not_mem.mpr
  intro key mem
  cases key with
  | other obj repr =>
    have found : repr ∈ otherUnknown str unknown :=
      List.mem_filterMap.mpr ⟨.other obj repr, mem, rfl⟩
    simp [other] at found
  | str key =>
    -- an unknown key is reported under its code, or as unknown
    cases h : classifyUnknownKey str key with
    | none =>
      have found : key ∈ otherUnknown str unknown :=
        List.mem_filterMap.mpr ⟨.str key, mem, by simp [h]⟩
      simp [other] at found
    | some pid =>
      have reported := keysByPid_ne_nil mem h
      have kind := classifyUnknownKey_mem h
      simp only [List.mem_cons, List.not_mem_nil, or_false] at kind
      rcases kind with rfl | rfl | rfl | rfl | rfl | rfl <;> contradiction

/-- An accepted proposal is a dict whose keys are all in the shape. -/
theorem shape_accepts {proposal sourcePacket : PyValue}
    (accepted : validateLlmProposalShape str proposal sourcePacket = []) :
    ∃ entries, proposal = .dict entries ∧
      ∀ key ∈ proposal.keys, ∃ name ∈ allowedTopLevelFields, key = .str name := by
  cases proposal with
  | dict entries =>
    simp only [validateLlmProposalShape, List.append_eq_nil_iff] at accepted
    have inside := unknownViolations_eq_nil accepted.2
    refine ⟨entries, rfl, ?_⟩
    intro key mem
    -- A key outside the shape would have survived the filter.
    have allowed : key ∈ allowedTopLevelFields.map PyKey.str := by
      by_contra outside
      have unknown : key ∈ unknownKeys (PyValue.dict entries).keys :=
        List.mem_filter.mpr ⟨mem, by simpa using outside⟩
      simp [inside] at unknown
    obtain ⟨name, listed, rfl⟩ := List.mem_map.mp allowed
    exact ⟨name, listed, rfl⟩
  | _ => simp [validateLlmProposalShape] at accepted

end Schema

end Proposal

end Ragcore
