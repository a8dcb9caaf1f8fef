import Ragcore.Proposal.Schema

/-!
# Ragcore — the safety validator of LLM proposals

`validate_proposal_safety` of `proposal_validator.py` walks a proposal and names unsafe keys: the
forbidden vocabularies below the top level, probability identifiers and domain words anywhere. It
has its own copies of the vocabularies.

* **`walkWithPath`** — the walk, with the path and the depth of every key it meets. It goes
  through string keys and items only: the value of any other key is left out.
* **`mem_walkWithPath_iff`** — the keys of the walk are the keys visible at their depth.
* **`safety_accepts_iff`** — what an empty result says, key by key.
-/

namespace Ragcore

namespace Proposal

namespace Validator

/-! ## Vocabularies

The keys that a proposal must not carry, code by code. -/

/-- Names of a verdict. -/
def p1VerdictKeys : List String := ["verdict", "label", "judgment", "decision", "ruling"]

def p3StatusMutationKeys : List String :=
  ["status_change", "set_status", "change_status", "claim_status_change", "force_status"]

def p4ToolExecutionKeys : List String :=
  ["tool_run", "tool_command", "execute_tool", "execute_command", "run_command", "run_tool",
    "tool_invocation"]

def p4ToolExecutionPrefixes : List String := ["execute_"]

def p5EngineMutationKeys : List String :=
  ["engine_call", "engine_mutation", "engine_call_args", "mutation_payload",
    "add_evidence_args", "add_claim_args", "add_gap_args", "add_observation_args",
    "add_relation_args", "engine_write", "engine_writeback"]

def p6FinalReportKeys : List String :=
  ["final_report", "published", "final_verdict", "final_published", "publication_status",
    "report_finalized"]

def p7ThresholdVerdictKeys : List String :=
  ["binary_verdict", "threshold_verdict", "auto_verdict", "threshold_decision"]

def p2ExactKeys : List String :=
  ["probability", "prob", "p_true", "truth_probability", "confidence_probability"]

/-- How the name of a probability may begin. -/
def p2Prefixes : List String := ["probability_of_", "prob_of_", "p_true_"]

/-- Words that may be no part of a key. -/
def p8ForbiddenVocab : List String :=
  ["cerberus", "vulnerability", "scanner", "exploit", "ssh", "cve", "nmap", "host", "port",
    "service", "asset"]

/-! ## The walk

Every entry under a text key, with its path and its depth. An entry under any other key is passed
over, and what is below it is not reached. -/

/-- What the walk yields for a dict entry. -/
structure Visit where
  path : String
  depth : Nat
  key : String
  value : PyValue

/-- The path of an entry. -/
def entryPath (path key : String) : String :=
  if path = "" then key else path ++ "." ++ key

/-- The path of an item. -/
def itemPath (path : String) (idx : Nat) : String := s!"{path}[{idx}]"

mutual

/-- `_walk_with_path`. -/
def walkWithPath (path : String) (depth : Nat) : PyValue → List Visit
  | .dict entries => walkEntries path depth entries
  | .list xs => walkItems path depth 0 xs
  | .tuple xs => walkItems path depth 0 xs
  | _ => []

/-- The entry itself, then what is below it. -/
def walkEntries (path : String) (depth : Nat) : Entries → List Visit
  | [] => []
  | (.str key, value) :: rest =>
    ⟨entryPath path key, depth, key, value⟩ ::
      (walkWithPath (entryPath path key) (depth + 1) value ++ walkEntries path depth rest)
  -- The recursion stands under `isinstance(key, str)` with the yield.
  | (.other _ _, _) :: rest => walkEntries path depth rest

/-- Items are numbered in the path and carry no key. -/
def walkItems (path : String) (depth idx : Nat) : List PyValue → List Visit
  | [] => []
  | item :: rest =>
    walkWithPath (itemPath path idx) (depth + 1) item ++ walkItems path depth (idx + 1) rest

end

/-! ## Detection

A key is compared in lower case, for P8 part by part. -/

variable (str : Lowering)

/-- `_identifier_components`. -/
def identifierComponents (key : String) : List String :=
  let normalized := replaceChar '.' '_' (replaceChar '-' '_' (str.lower key).toList)
  (((normalized.splitOn '_').filter (· ≠ [])).map .ofList).dedup

/-- The first code whose words the key is among. -/
def detectNestedP1P7 (keyLower : String) : Option Code :=
  if keyLower ∈ p1VerdictKeys then some .p1
  else if keyLower ∈ p3StatusMutationKeys then some .p3
  else if keyLower ∈ p4ToolExecutionKeys then some .p4
  else if p4ToolExecutionPrefixes.any (startsWith keyLower) then some .p4
  else if keyLower ∈ p5EngineMutationKeys then some .p5
  else if keyLower ∈ p6FinalReportKeys then some .p6
  else if keyLower ∈ p7ThresholdVerdictKeys then some .p7
  else none

/-- By name or by prefix. -/
def isP2ProbabilityIdentifier (keyLower : String) : Bool :=
  decide (keyLower ∈ p2ExactKeys) || p2Prefixes.any (startsWith keyLower)

/-- The forbidden words among the parts of a key. -/
def p8IntrusionComponents (key : String) : List String :=
  (identifierComponents str key).filter (· ∈ p8ForbiddenVocab)

/-- The label and the name of a nested violation. -/
def nestedLabel : Code → String × String
  | .p1 => ("nested verdict-like key", "P1")
  | .p3 => ("nested status mutation key", "P3")
  | .p4 => ("nested tool execution key", "P4")
  | .p5 => ("nested engine mutation payload key", "P5")
  | .p6 => ("nested final report key", "P6")
  | .p7 => ("nested threshold-based binary verdict key", "P7")
  | _ => ("", "")

/-- P1 to P7, below the top level. -/
def nestedViolations (visit : Visit) : List Violation :=
  if 1 ≤ visit.depth then
    match detectNestedP1P7 (str.lower visit.key) with
    | some pid =>
      let (label, name) := nestedLabel pid
      [(pid, [s!"{label} at path {visit.path} (PR56 nested-{name})"])]
    | none => []
  else []

/-- P2. -/
def probabilityViolations (visit : Visit) : List Violation :=
  if isP2ProbabilityIdentifier (str.lower visit.key) then
    [(.p2, [s!"probability-like identifier at path {visit.path} " ++
      "(PR56 P2 / PR54 §10 P2 / PR52 §5 F1/F2 / PR44-D AP-CF-1)"])]
  else []

/-- P8. -/
def domainViolations (visit : Visit) : List Violation :=
  let intrusion := p8IntrusionComponents str visit.key
  if intrusion.isEmpty then []
  else [(.p8, [s!"domain vocabulary identifier at path {visit.path} (components: ",
    sortedText intrusion, "; PR56 P8 / PR54 §10 P8 / PR44-D AP-X-6 / PR45-E §3)"])]

/-- All codes of one key, in the order of the source. -/
def visitViolations (visit : Visit) : List Violation :=
  nestedViolations str visit ++ probabilityViolations str visit ++ domainViolations str visit

/-- `validate_proposal_safety`, which does not look at the packet. -/
def validateProposalSafety (proposal _sourcePacket : PyValue) : List Violation :=
  match proposal with
  | .dict _ => (walkWithPath "" 0 proposal).flatMap (visitViolations str)
  | _ => []

/-! ## What the walk meets

The keys that are visited, independent of paths and order. -/

/-- An entry is met itself or below one that is met. -/
theorem mem_walkEntries {path : String} {depth : Nat} {entries : Entries} {visit : Visit} :
    visit ∈ walkEntries path depth entries ↔
      ∃ key value, (.str key, value) ∈ entries ∧
        (visit = ⟨entryPath path key, depth, key, value⟩ ∨
          visit ∈ walkWithPath (entryPath path key) (depth + 1) value) := by
  induction entries with
  | nil => simp [walkEntries]
  | cons entry rest ih =>
    obtain ⟨k, v⟩ := entry
    -- an entry under any key but a text is passed over
    cases k with
    | other obj repr => simp [walkEntries, ih]
    | str key =>
      simp only [walkEntries, List.mem_cons, List.mem_append, ih, Prod.mk.injEq, PyKey.str.injEq]
      constructor
      · rintro (here | inner | ⟨key', value, mem, found⟩)
        · exact ⟨key, v, .inl ⟨rfl, rfl⟩, .inl here⟩
        · exact ⟨key, v, .inl ⟨rfl, rfl⟩, .inr inner⟩
        · exact ⟨key', value, .inr mem, found⟩
      · rintro ⟨key', value, ⟨rfl, rfl⟩ | mem, found⟩
        · exact found.imp_right .inl
        · exact .inr (.inr ⟨key', value, mem, found⟩)

/-- The items one after another, with their numbers. -/
theorem walkItems_eq_flatMap (path : String) (depth idx : Nat) (xs : List PyValue) :
    walkItems path depth idx xs =
      (xs.zipIdx idx).flatMap fun p => walkWithPath (itemPath path p.2) (depth + 1) p.1 := by
  induction xs generalizing idx with
  | nil => rfl
  | cons item rest ih => rw [walkItems, ih, List.zipIdx_cons, List.flatMap_cons]

theorem mem_walkItems {path : String} {depth idx : Nat} {xs : List PyValue} {visit : Visit} :
    visit ∈ walkItems path depth idx xs ↔
      ∃ item i, (item, i) ∈ xs.zipIdx idx ∧
        visit ∈ walkWithPath (itemPath path i) (depth + 1) item := by
  rw [walkItems_eq_flatMap, List.mem_flatMap]
  simp only [Prod.exists]

/-- Every key the walk yields is visible, at the depth it yields. -/
theorem visible_of_mem_walk {v : PyValue} {path : String} {depth : Nat} {visit : Visit}
    (mem : visit ∈ walkWithPath path depth v) :
    ∃ d, visit.depth = depth + d ∧ v.VisibleAt visit.key d := by
  -- along the walk, with the path and the depth general
  induction v using PyValue.nestedInduction generalizing path depth with
  | dict entries ih =>
    obtain ⟨key, value, entry, here | inner⟩ := mem_walkEntries.mp mem
    · subst here
      exact ⟨0, rfl, .here entry⟩
    · obtain ⟨d, deep, visible⟩ := ih _ _ entry inner
      exact ⟨d + 1, by omega, .entry entry visible⟩
  | list xs ih =>
    obtain ⟨item, i, position, inner⟩ := mem_walkItems.mp mem
    have item_mem := List.fst_mem_of_mem_zipIdx position
    obtain ⟨d, deep, visible⟩ := ih item item_mem inner
    exact ⟨d + 1, by omega, .listItem item_mem visible⟩
  | tuple xs ih =>
    obtain ⟨item, i, position, inner⟩ := mem_walkItems.mp mem
    have item_mem := List.fst_mem_of_mem_zipIdx position
    obtain ⟨d, deep, visible⟩ := ih item item_mem inner
    exact ⟨d + 1, by omega, .tupleItem item_mem visible⟩
  | _ => simp [walkWithPath] at mem

theorem exists_position {xs : List PyValue} {item : PyValue} (mem : item ∈ xs) (idx : Nat) :
    ∃ i, (item, i) ∈ xs.zipIdx idx := by
  rw [← List.zipIdx_map_fst idx xs] at mem
  obtain ⟨⟨item', i⟩, position, rfl⟩ := List.mem_map.mp mem
  exact ⟨i, position⟩

/-- Every visible key is yielded. -/
theorem exists_mem_walk {v : PyValue} {key : String} {d : Nat} (visible : v.VisibleAt key d)
    (path : String) (depth : Nat) :
    ∃ visit ∈ walkWithPath path depth v, visit.key = key ∧ visit.depth = depth + d := by
  -- along the place of the key
  induction visible generalizing path depth with
  | @here entries v mem =>
    exact ⟨⟨entryPath path key, depth, key, v⟩, mem_walkEntries.mpr ⟨key, v, mem, .inl rfl⟩,
      rfl, rfl⟩
  | @entry entries k v d mem _ ih =>
    obtain ⟨visit, inner, same, deep⟩ := ih (entryPath path k) (depth + 1)
    exact ⟨visit, mem_walkEntries.mpr ⟨k, v, mem, .inr inner⟩, same, by omega⟩
  | @listItem xs item d mem _ ih =>
    obtain ⟨i, position⟩ := exists_position mem 0
    obtain ⟨visit, inner, same, deep⟩ := ih (itemPath path i) (depth + 1)
    exact ⟨visit, mem_walkItems.mpr ⟨item, i, position, inner⟩, same, by omega⟩
  | @tupleItem xs item d mem _ ih =>
    obtain ⟨i, position⟩ := exists_position mem 0
    obtain ⟨visit, inner, same, deep⟩ := ih (itemPath path i) (depth + 1)
    exact ⟨visit, mem_walkItems.mpr ⟨item, i, position, inner⟩, same, by omega⟩

/-- **The walk is exact.** The keys it yields from a value, with their depths, are the keys
visible in the value, with theirs. -/
theorem mem_walkWithPath_iff (v : PyValue) (key : String) (d : Nat) :
    (∃ visit ∈ walkWithPath "" 0 v, visit.key = key ∧ visit.depth = d) ↔ v.VisibleAt key d := by
  constructor
  · rintro ⟨visit, mem, rfl, rfl⟩
    obtain ⟨d, deep, visible⟩ := visible_of_mem_walk mem
    rw [Nat.zero_add] at deep
    rwa [deep]
  · intro visible
    obtain ⟨visit, mem, same, deep⟩ := exists_mem_walk visible "" 0
    exact ⟨visit, mem, same, by omega⟩

/-! ## What acceptance says about the keys

A proposal without a violation has no forbidden key where the walk goes, at any depth. -/

/-- A key the validator has nothing against at that depth. -/
structure SafeAt (depth : Nat) (key : String) : Prop where
  nested : 1 ≤ depth → detectNestedP1P7 (str.lower key) = none
  probability : isP2ProbabilityIdentifier (str.lower key) = false
  domain : p8IntrusionComponents str key = []

/-- A key is safe when none of the detectors finds it. -/
theorem visitViolations_eq_nil (visit : Visit) :
    visitViolations str visit = [] ↔ SafeAt str visit.depth visit.key := by
  have nested : nestedViolations str visit = [] ↔
      (1 ≤ visit.depth → detectNestedP1P7 (str.lower visit.key) = none) := by
    unfold nestedViolations
    -- these codes are for nested keys
    by_cases deep : 1 ≤ visit.depth
    · cases found : detectNestedP1P7 (str.lower visit.key) <;> simp [deep]
    · simp [deep]
  have probability : probabilityViolations str visit = [] ↔
      isP2ProbabilityIdentifier (str.lower visit.key) = false := by
    cases found : isP2ProbabilityIdentifier (str.lower visit.key) <;>
      simp [probabilityViolations, found]
  have domain : domainViolations str visit = [] ↔ p8IntrusionComponents str visit.key = [] := by
    cases found : p8IntrusionComponents str visit.key <;> simp [domainViolations, found]
  unfold visitViolations
  rw [List.append_eq_nil_iff, List.append_eq_nil_iff, nested, probability, domain]
  exact ⟨fun h => ⟨h.1.1, h.1.2, h.2⟩, fun h => ⟨⟨h.nested, h.probability⟩, h.domain⟩⟩

/-- **Acceptance is safety of the visible keys**, for every dict. -/
theorem safety_accepts_iff (entries : Entries) (sourcePacket : PyValue) :
    validateProposalSafety str (.dict entries) sourcePacket = [] ↔
      ∀ key depth, (PyValue.dict entries).VisibleAt key depth → SafeAt str depth key := by
  unfold validateProposalSafety
  simp only [List.flatMap_eq_nil_iff, visitViolations_eq_nil]
  constructor
  · intro safe key depth visible
    obtain ⟨visit, mem, rfl, rfl⟩ := (mem_walkWithPath_iff _ _ _).mpr visible
    exact safe visit mem
  · intro safe visit mem
    exact safe visit.key visit.depth ((mem_walkWithPath_iff _ _ _).mp ⟨visit, mem, rfl, rfl⟩)

end Validator

end Proposal

end Ragcore
