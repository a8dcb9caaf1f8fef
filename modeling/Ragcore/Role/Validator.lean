import Ragcore.Lib.PyValue

/-!
# Ragcore — the validator of role assignments

`validate_role_assignment_boundaries` of `role_assignment_validator.py` checks how a consumer wrote
down the role it gave a data item. It fills one bucket for each code and returns them in the order
of the codes. Every section fills the bucket of its own code only, so the buckets in order are what
the sections report, one after the other.

* **`Folding`** — `str.casefold()`. Its table for the characters beyond ASCII is the interpreter's.
* **`labelViolations`**, **`useListViolations`**, **`useOverlapViolations`**,
  **`duplicateViolations`** — the checks that sections share.
* **`validateRoleAssignmentBoundaries`** — the validator.
-/

namespace Ragcore

namespace Role

inductive Code where
  | ra1 | ra2 | ra3 | ra4 | ra5 | ra6 | ra7 | ra8 | ra9 | ra10
  deriving DecidableEq, Repr

abbrev Violation := Code × List TextPart

/-! ## Text

The operations on texts, over a folding of the letters that is a parameter. -/

/-- `str.isspace()` of one character. -/
def isSpace (c : Char) : Bool :=
  let n := c.toNat
  (9 ≤ n && n ≤ 13) || (28 ≤ n && n ≤ 32) || n == 0x85 || n == 0xA0 || n == 0x1680 ||
    (0x2000 ≤ n && n ≤ 0x200A) || n == 0x2028 || n == 0x2029 || n == 0x202F || n == 0x205F ||
    n == 0x3000

/-- `value.strip() == ""`. -/
def isBlank (s : String) : Bool := s.toList.all isSpace

def examplePrefix : String := "example:"

/-- `_has_example_prefix`. -/
def hasExamplePrefix (s : String) : Bool :=
  startsWith s examplePrefix && !isBlank (.ofList (s.toList.drop examplePrefix.length))

/-- `str.casefold()`: the interpreter's own table, fixed on ASCII text. -/
structure Folding where
  casefold : String → String
  casefold_ascii : ∀ s : String, (∀ c ∈ s.toList, c.toNat < 128) → casefold s = asciiLower s

/-- The table that leaves every character beyond ASCII alone. -/
def Folding.ascii : Folding := ⟨Lowering.ascii.lower, Lowering.ascii.lower_ascii⟩

/-- `value.split()`. -/
def words (s : String) : List String :=
  ((s.toList.splitOnP isSpace).filter (· ≠ [])).map .ofList

variable (str : Folding)

/-- `_normalize_use_text`. -/
def normalizeUseText (s : String) : String := str.casefold (" ".intercalate (words s))

/-! ## Fields

The names that the sections ask for. -/

def localRequiredKeys : List String :=
  ["data_item", "provenance", "record_shape", "interpretation_context", "assignment_basis",
    "primary_role", "secondary_roles", "allowed_uses", "forbidden_uses", "traceability"]

def dictFields : List String :=
  ["data_item", "provenance", "interpretation_context", "traceability"]

def nonEmptyStrFields : List String := ["record_shape", "assignment_basis"]

def listFields : List String := ["secondary_roles"]

def secondaryRequiredFields : List String :=
  ["label", "justification", "meaning_distinct_from_primary", "allowed_uses", "forbidden_uses",
    "non_contradiction_with_primary", "no_downstream_authorization"]

def secondaryExplanatoryFields : List String :=
  ["justification", "meaning_distinct_from_primary", "non_contradiction_with_primary",
    "no_downstream_authorization"]

/-- `v[name]`, where `name in v`. -/
def field? (v : PyValue) (name : String) : Option PyValue :=
  match v with
  | .dict entries => entries.lookup (.str name)
  | _ => none

/-- The items of a list; no items for anything else. -/
def items : Option PyValue → List PyValue
  | some (.list xs) => xs
  | _ => []

/-- `_is_non_empty_string`. -/
def isNonEmptyString : PyValue → Bool
  | .str s => !isBlank s
  | _ => false

def isDict : PyValue → Bool
  | .dict _ => true
  | _ => false

def isList : PyValue → Bool
  | .list _ => true
  | _ => false

/-! ## Checks that sections share

A check and its code, where the sections differ in little else. -/

/-- The violation, unless the check passes. -/
def reportUnless (ok : Bool) (code : Code) (message : String) : List Violation :=
  if ok then [] else [(code, [message])]

/-- A field that is there and fails its check. -/
def fieldViolations (code : Code) (v : PyValue) (name : String) (check : PyValue → Bool)
    (message : String) : List Violation :=
  match field? v name with
  | some value => reportUnless (check value) code message
  | none => []

/-- A label that must be there as text with the prefix. -/
def labelViolations (name : String) : PyValue → List Violation
  | .str s =>
    if isBlank s then [(.ra5, [s!"{name} must be a non-empty string"])]
    else
      reportUnless (hasExamplePrefix s) .ra5
        s!"{name} must use 'example:' prefix with a non-empty suffix"
  | _ => [(.ra5, [s!"{name} must be a non-empty string"])]

/-- `_check_use_list`. -/
def useListViolations (value : PyValue) (label : String) (requireNonEmpty : Bool) :
    List Violation :=
  match value with
  | .list xs =>
    if requireNonEmpty && xs.isEmpty then
      [(.ra7, [s!"{label} must contain at least one non-empty string"])]
    else
      xs.zipIdx.flatMap fun item =>
        reportUnless (isNonEmptyString item.1) .ra7
          s!"{label}[{item.2}] must be a non-empty string"
  | _ => [(.ra7, [s!"{label} must be a list"])]

/-- The normalized texts of a use list. -/
def normalizedUses (xs : List PyValue) : List String :=
  xs.filterMap fun
    | .str s => if isBlank s then none else some (normalizeUseText str s)
    | _ => none

/-- `_check_use_overlap`. -/
def useOverlapViolations (allowed forbidden : PyValue) (scope : String) : List Violation :=
  match allowed, forbidden with
  | .list allowed, .list forbidden =>
    let overlap := (normalizedUses str allowed).dedup.filter (· ∈ normalizedUses str forbidden)
    (overlap.mergeSort fun s t => decide (s ≤ t)).map fun normalized =>
      (.ra8, [s!"{scope} allowed_uses and forbidden_uses overlap on normalized text: ",
        .repr (.str normalized)])
  | _, _ => []

/-- The loops over labels with their dict `seen` of first positions. -/
def duplicateViolations (message : Nat → Nat → String) (code : Code) :
    List (Option String) → Nat → List (String × Nat) → List Violation
  | [], _, _ => []
  | none :: rest, idx, seen => duplicateViolations message code rest (idx + 1) seen
  | some s :: rest, idx, seen =>
    match seen.lookup s with
    | some first =>
      (code, [message idx first]) :: duplicateViolations message code rest (idx + 1) seen
    | none => duplicateViolations message code rest (idx + 1) ((s, idx) :: seen)

/-- Text that is a label for the duplicate checks. -/
def labelText? : Option PyValue → Option String
  | some (.str s) => if isBlank s then none else some s
  | _ => none

/-! ## The sections

The sections of the source in their order. A section does not assume that an earlier one passed. -/

variable (assignment : PyValue)

def secondaryRoles : List PyValue := items (field? assignment "secondary_roles")

def candidateRoles : List PyValue := items (field? assignment "candidate_roles")

/-- The text of a primary role that is neither `None` nor blank. -/
def primaryText? : Option String := labelText? (field? assignment "primary_role")

/-- Required local field missing. -/
def ra2 : List Violation :=
  localRequiredKeys.flatMap fun key =>
    reportUnless (field? assignment key).isSome .ra2 s!"required local field missing: {key}"

/-- Container and scalar shapes. -/
def ra3 : List Violation :=
  (dictFields.flatMap fun name =>
    fieldViolations .ra3 assignment name isDict s!"{name} must be a dict") ++
  (nonEmptyStrFields.flatMap fun name =>
    fieldViolations .ra3 assignment name isNonEmptyString s!"{name} must be a non-empty string") ++
  (listFields.flatMap fun name =>
    fieldViolations .ra3 assignment name isList s!"{name} must be a list")

def isPrimaryShape : PyValue → Bool
  | .none => true
  | v => isNonEmptyString v

/-- The shape of `primary_role`. -/
def ra4 : List Violation :=
  fieldViolations .ra4 assignment "primary_role" isPrimaryShape
    "primary_role must be None or a non-empty string"

/-- The label of the primary role. -/
def ra5Primary : List Violation :=
  match primaryText? assignment with
  | some s =>
    reportUnless (hasExamplePrefix s) .ra5
      "primary_role must use 'example:' prefix with a non-empty suffix"
  | none => []

/-- The label of a secondary role. -/
def ra5Entry (entry : PyValue) (idx : Nat) : List Violation :=
  match field? entry "label" with
  | some label => labelViolations s!"secondary_roles[{idx}].label" label
  | none => []

/-- The labels. -/
def ra5 : List Violation :=
  ra5Primary assignment ++
  ((secondaryRoles assignment).zipIdx.flatMap fun entry => ra5Entry entry.1 entry.2) ++
  ((candidateRoles assignment).zipIdx.flatMap fun item =>
    labelViolations s!"candidate_roles[{item.2}]" item.1)

/-- One entry of `secondary_roles`, for RA6. -/
def ra6Entry (entry : PyValue) (idx : Nat) : List Violation :=
  if isDict entry then
    (secondaryRequiredFields.flatMap fun name =>
      reportUnless (field? entry name).isSome .ra6
        s!"secondary_roles[{idx}] missing field: {name}") ++
    (secondaryExplanatoryFields.flatMap fun name =>
      fieldViolations .ra6 entry name isNonEmptyString
        s!"secondary_roles[{idx}].{name} must be a non-empty string")
  else [(.ra6, [s!"secondary_roles[{idx}] must be a dict"])]

/-- Secondary roles. -/
def ra6 : List Violation :=
  (secondaryRoles assignment).zipIdx.flatMap fun entry => ra6Entry entry.1 entry.2

/-- A use list that is there. -/
def useFieldViolations (v : PyValue) (name scope : String) (requireNonEmpty : Bool) :
    List Violation :=
  match field? v name with
  | some value => useListViolations value s!"{scope}{name}" requireNonEmpty
  | none => []

/-- The use lists of the assignment or of one entry. -/
def ra7Of (v : PyValue) (scope : String) : List Violation :=
  useFieldViolations v "allowed_uses" scope false ++
    useFieldViolations v "forbidden_uses" scope true

/-- Use lists. -/
def ra7 : List Violation :=
  ra7Of assignment "" ++
  (secondaryRoles assignment).zipIdx.flatMap fun entry =>
    ra7Of entry.1 s!"secondary_roles[{entry.2}]."

/-- An absent list overlaps with nothing. -/
def ra8Of (v : PyValue) (scope : String) : List Violation :=
  useOverlapViolations str (v.get "allowed_uses") (v.get "forbidden_uses") scope

/-- Uses that are both allowed and forbidden. -/
def ra8 : List Violation :=
  ra8Of str assignment "top-level" ++
  (secondaryRoles assignment).zipIdx.flatMap fun entry =>
    ra8Of str entry.1 s!"secondary_roles[{entry.2}]"

/-- `isinstance(lbl, str) and lbl == pr`. -/
def isLabel (label : PyValue) (primary : String) : Bool :=
  match label with
  | .str s => s == primary
  | _ => false

/-- Conflict A: a primary role and candidates. -/
def ra9A : List Violation :=
  reportUnless ((primaryText? assignment).isNone || (candidateRoles assignment).isEmpty) .ra9
    "primary_role coexists with non-empty candidate_roles"

/-- Conflict B: no primary role, but secondary ones. -/
def ra9B : List Violation :=
  match assignment.get "primary_role" with
  | .none =>
    reportUnless (secondaryRoles assignment).isEmpty .ra9
      "primary_role is None but secondary_roles is non-empty"
  | _ => []

/-- Conflict C: the primary role again. -/
def ra9C : List Violation :=
  match primaryText? assignment with
  | some primary =>
    (secondaryRoles assignment).zipIdx.flatMap fun entry =>
      reportUnless (!isLabel (entry.1.get "label") primary) .ra9
        s!"secondary_roles[{entry.2}].label equals primary_role"
  | none => []

/-- Conflict D: a secondary role twice. -/
def ra9D : List Violation :=
  duplicateViolations
    (fun idx first =>
      s!"secondary_roles[{idx}].label duplicates secondary_roles[{first}].label")
    .ra9 ((secondaryRoles assignment).map fun entry => labelText? (field? entry "label")) 0 []

/-- Resolved against unresolved. -/
def ra9 : List Violation := ra9A assignment ++ ra9B assignment ++ ra9C assignment ++ ra9D assignment

/-- Candidate roles. -/
def ra10 : List Violation :=
  fieldViolations .ra10 assignment "candidate_roles" isList "candidate_roles must be a list" ++
  duplicateViolations
    (fun idx first => s!"candidate_roles[{idx}] duplicates candidate_roles[{first}]")
    .ra10 ((candidateRoles assignment).map fun item => labelText? (some item)) 0 []

/-- `validate_role_assignment_boundaries`. -/
def validateRoleAssignmentBoundaries : List Violation :=
  match assignment with
  | .dict _ =>
    ra2 assignment ++ ra3 assignment ++ ra4 assignment ++ ra5 assignment ++ ra6 assignment ++
      ra7 assignment ++ ra8 str assignment ++ ra9 assignment ++ ra10 assignment
  | _ => [(.ra1, ["assignment is not a plain dict"])]

end Role

end Ragcore
