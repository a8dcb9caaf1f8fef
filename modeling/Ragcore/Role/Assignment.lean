import Ragcore.Lib.Fallible
import Ragcore.Role.Validator

/-!
# Ragcore — what an accepted role assignment is

A role assignment is resolved, with a primary role and secondary roles beside it, or unresolved,
with candidates and nothing else. Whatever it allows it does not forbid, and it forbids something.
These are the types below; the validator accepts a value exactly when it writes one of them down.

* **`UseLists`**, **`SecondaryRole`**, **`Roles`**, **`RoleAssignment`** — the assignments.
* **`RoleAssignment.In`** — the value is such an assignment, written down.
* **`role_assignment_exact`** — acceptance is being one.
-/

namespace Ragcore

namespace Role

/-! ## Assignments

The domain's own words: a label, use lists that do not overlap, explanations that are not blank. A
value of these types cannot break a rule of the validator. -/

/-- Text with more than white space. -/
def NonBlank (s : String) : Prop := isBlank s = false

/-- A label of the example. -/
structure IsExampleLabel (s : String) : Prop where
  nonBlank : NonBlank s
  marked : hasExamplePrefix s = true

/-- What a role may be used for and what it may not, with no use in both. -/
structure UseLists (str : Folding) where
  allowed : List String
  forbidden : List String
  allowedText : ∀ u ∈ allowed, NonBlank u
  forbiddenText : ∀ u ∈ forbidden, NonBlank u
  forbids : forbidden ≠ []
  disjoint : ∀ u ∈ allowed, ∀ w ∈ forbidden, normalizeUseText str u ≠ normalizeUseText str w

/-- A role beside the primary one, explained. -/
structure SecondaryRole (str : Folding) where
  label : String
  marked : IsExampleLabel label
  uses : UseLists str

/-- Either a primary role with secondary ones, or none resolved and candidates at most. -/
inductive Roles (str : Folding) where
  | resolved (primary : String) (secondary : List (SecondaryRole str))
      (marked : IsExampleLabel primary)
      (distinct : (primary :: secondary.map SecondaryRole.label).Nodup)
  | unresolved (candidates : List String) (marked : ∀ c ∈ candidates, IsExampleLabel c)
      (distinct : candidates.Nodup)

/-- A complete assignment. -/
structure RoleAssignment (str : Folding) where
  uses : UseLists str
  roles : Roles str

/-! ## Written down

How an assignment stands in a value of the source: under which keys, and as which texts. -/

variable {str : Folding}

/-- The texts as a list of Python. -/
def texts (xs : List String) : PyValue := .list (xs.map .str)

/-- A field that holds a text that is not blank. -/
def HasText (v : PyValue) (name : String) : Prop := ∃ s, field? v name = some (.str s) ∧ NonBlank s

/-- The two lists, item by item. -/
structure UseLists.In (v : PyValue) (uses : UseLists str) : Prop where
  allowed : field? v "allowed_uses" = some (texts uses.allowed)
  forbidden : field? v "forbidden_uses" = some (texts uses.forbidden)

/-- The label, the uses and the four explanations. -/
structure SecondaryRole.In (v : PyValue) (role : SecondaryRole str) : Prop where
  label : field? v "label" = some (.str role.label)
  uses : role.uses.In v
  explained : ∀ name ∈ secondaryExplanatoryFields, HasText v name

/-- With a primary role the candidates are empty or absent; without one the field is `None`. -/
inductive Roles.In (v : PyValue) : Roles str → Prop where
  | resolved {primary : String} {secondary : List (SecondaryRole str)} {marked distinct}
      {entries : List PyValue} (role : field? v "primary_role" = some (.str primary))
      (beside : field? v "secondary_roles" = some (.list entries))
      (written : List.Forall₂ SecondaryRole.In entries secondary)
      (candidates : ∀ value ∈ field? v "candidate_roles", value = .list []) :
      In v (.resolved primary secondary marked distinct)
  | unresolved {candidates : List String} {marked distinct}
      (role : field? v "primary_role" = some .none)
      (beside : field? v "secondary_roles" = some (.list []))
      (written : field? v "candidate_roles" = some (texts candidates) ∨
        field? v "candidate_roles" = none ∧ candidates = []) :
      In v (.unresolved candidates marked distinct)

/-- The whole value. -/
structure RoleAssignment.In (v : PyValue) (a : RoleAssignment str) : Prop where
  dicts : ∀ name ∈ dictFields, ∃ entries, field? v name = some (.dict entries)
  described : ∀ name ∈ nonEmptyStrFields, HasText v name
  uses : a.uses.In v
  roles : a.roles.In v

/-! ## The shared checks

A check of the validator returns the violations it found. Each lemma says when it finds none. -/

@[simp] theorem reportUnless_eq_nil {ok : Bool} {code : Code} {message : String} :
    reportUnless ok code message = [] ↔ ok = true := by
  cases ok <;> simp [reportUnless]

/-- An absent field is another section's concern. -/
@[simp] theorem fieldViolations_eq_nil {code : Code} {v : PyValue} {name message : String}
    {check : PyValue → Bool} :
    fieldViolations code v name check message = [] ↔
      ∀ value, field? v name = some value → check value = true := by
  unfold fieldViolations
  cases field? v name <;> simp

/-- A loop that reports nothing on any item. -/
theorem zipIdx_flatMap_eq_nil {α β : Type} {xs : List α} {f : α × Nat → List β} {P : α → Prop}
    (h : ∀ x idx, f (x, idx) = [] ↔ P x) : xs.zipIdx.flatMap f = [] ↔ ∀ x ∈ xs, P x := by
  rw [List.flatMap_eq_nil_iff]
  constructor
  · intro hall x hx
    obtain ⟨idx, hidx, rfl⟩ := List.mem_iff_getElem.mp hx
    have hmem : (xs[idx], idx) ∈ xs.zipIdx := by
      rw [List.mk_mem_zipIdx_iff_getElem?]
      exact List.getElem?_eq_getElem hidx
    exact (h _ _).mp (hall _ hmem)
  · rintro hall ⟨x, idx⟩ hmem
    exact (h _ _).mpr (hall x (List.fst_mem_of_mem_zipIdx hmem))

/-- `isinstance(v, str) and v.strip()`. -/
theorem isNonEmptyString_iff {v : PyValue} :
    isNonEmptyString v = true ↔ ∃ s, v = .str s ∧ NonBlank s := by
  cases v <;> simp [isNonEmptyString, NonBlank]

/-- A label check accepts exactly the marked labels. -/
theorem labelViolations_eq_nil {name : String} {v : PyValue} :
    labelViolations name v = [] ↔ ∃ s, v = .str s ∧ IsExampleLabel s := by
  cases v with
  | str s =>
    -- a blank label is reported as such, before its prefix is looked at
    by_cases hblank : isBlank s = true
    · simp only [labelViolations, hblank, if_true, List.cons_ne_nil, false_iff]
      rintro ⟨_, ⟨⟩, hnonBlank, _⟩
      rw [NonBlank, hblank] at hnonBlank
      cases hnonBlank
    · have hnonBlank : NonBlank s := by simpa [NonBlank] using hblank
      simp only [labelViolations, hblank, Bool.false_eq_true, if_false, reportUnless_eq_nil]
      constructor
      · intro hmarked
        exact ⟨s, rfl, hnonBlank, hmarked⟩
      · rintro ⟨_, ⟨⟩, _, hmarked⟩
        exact hmarked
  | _ => simp [labelViolations]

/-- Items that are all non-empty strings. -/
theorem forall_isNonEmptyString_iff {xs : List PyValue} :
    (∀ v ∈ xs, isNonEmptyString v = true) ↔
      ∃ ss : List String, xs = ss.map .str ∧ ∀ s ∈ ss, NonBlank s := by
  induction xs with
  | nil => exact ⟨fun _ => ⟨[], rfl, by simp⟩, fun _ => by simp⟩
  | cons v rest ih =>
    rw [List.forall_mem_cons, ih, isNonEmptyString_iff]
    constructor
    · rintro ⟨⟨s, rfl, hs⟩, ss, rfl, hss⟩
      exact ⟨s :: ss, rfl, List.forall_mem_cons.mpr ⟨hs, hss⟩⟩
    · rintro ⟨ss, hxs, hss⟩
      cases ss with
      | nil => cases hxs
      | cons s ss =>
        rw [List.map_cons, List.cons.injEq] at hxs
        obtain ⟨hs, hrest⟩ := List.forall_mem_cons.mp hss
        exact ⟨⟨s, hxs.1, hs⟩, ss, hxs.2, hrest⟩

/-- A use list is accepted when it is a list of texts that are not blank, and not empty where one is
required. -/
theorem useListViolations_eq_nil {value : PyValue} {label : String} {requireNonEmpty : Bool} :
    useListViolations value label requireNonEmpty = [] ↔
      ∃ ss : List String, value = texts ss ∧ (∀ s ∈ ss, NonBlank s) ∧
        (requireNonEmpty = true → ss ≠ []) := by
  cases value with
  | list xs =>
    have hitems : (xs.zipIdx.flatMap fun item => reportUnless (isNonEmptyString item.1) .ra7
        s!"{label}[{item.2}] must be a non-empty string") = [] ↔
        ∀ v ∈ xs, isNonEmptyString v = true :=
      zipIdx_flatMap_eq_nil fun v idx => reportUnless_eq_nil
    by_cases hempty : (requireNonEmpty && xs.isEmpty) = true
    · -- an empty list is reported before any item is looked at
      obtain ⟨rfl, hxs⟩ := Bool.and_eq_true_iff.mp hempty
      obtain rfl := List.isEmpty_iff.mp hxs
      rw [useListViolations, if_pos hempty]
      refine iff_of_false (List.cons_ne_nil _ _) ?_
      rintro ⟨ss, hss, _, hne⟩
      rw [texts, PyValue.list.injEq, eq_comm, List.map_eq_nil_iff] at hss
      exact hne rfl hss
    · rw [useListViolations, if_neg hempty, hitems, forall_isNonEmptyString_iff]
      constructor
      · rintro ⟨ss, rfl, hss⟩
        refine ⟨ss, rfl, hss, ?_⟩
        rintro rfl rfl
        exact hempty rfl
      · rintro ⟨ss, hxs, hss, _⟩
        exact ⟨ss, PyValue.list.inj hxs, hss⟩
  | _ => simp [useListViolations, texts]

/-- A text that is not blank is its own label. -/
@[simp] theorem labelText?_str {s : String} (h : NonBlank s) :
    labelText? (some (.str s)) = some s := by
  unfold NonBlank at h
  simp [labelText?, h]

/-- The normalization skips nothing in a list of texts. -/
theorem normalizedUses_map {ss : List String} (h : ∀ s ∈ ss, NonBlank s) :
    normalizedUses str (ss.map .str) = ss.map (normalizeUseText str) := by
  induction ss with
  | nil => rfl
  | cons s rest ih =>
    obtain ⟨hs, hrest⟩ := List.forall_mem_cons.mp h
    unfold NonBlank at hs
    have hcons := ih hrest
    unfold normalizedUses at hcons ⊢
    rw [List.map_cons, List.filterMap_cons_some (b := normalizeUseText str s) (by simp [hs]), hcons,
      List.map_cons]

/-- No use is reported when no two of the lists agree after normalization. -/
theorem useOverlapViolations_eq_nil {allowed forbidden : List String} {scope : String}
    (hallowed : ∀ s ∈ allowed, NonBlank s) (hforbidden : ∀ s ∈ forbidden, NonBlank s) :
    useOverlapViolations str (texts allowed) (texts forbidden) scope = [] ↔
      ∀ u ∈ allowed, ∀ w ∈ forbidden, normalizeUseText str u ≠ normalizeUseText str w := by
  simp only [useOverlapViolations, texts, normalizedUses_map hallowed,
    normalizedUses_map hforbidden, List.map_eq_nil_iff]
  rw [← List.length_eq_zero_iff, List.length_mergeSort, List.length_eq_zero_iff,
    List.filter_eq_nil_iff]
  simp only [List.mem_dedup, List.mem_map, decide_eq_true_eq]
  -- the overlap is computed on normalized texts
  constructor
  · rintro hdisjoint u hu w hw heq
    exact hdisjoint _ ⟨u, hu, rfl⟩ ⟨w, hw, heq.symm⟩
  · rintro hdisjoint _ ⟨u, hu, rfl⟩ ⟨w, hw, heq⟩
    exact hdisjoint u hu w hw heq.symm

/-- The loop reports nothing when the labels are distinct and none was seen before. -/
theorem duplicateViolations_eq_nil {message : Nat → Nat → String} {code : Code}
    {labels : List (Option String)} {idx : Nat} {seen : List (String × Nat)} :
    duplicateViolations message code labels idx seen = [] ↔
      labels.reduceOption.Nodup ∧ ∀ s ∈ labels.reduceOption, seen.lookup s = none := by
  induction labels generalizing idx seen with
  | nil => simp [duplicateViolations]
  | cons label rest ih =>
    cases label with
    | none => rw [duplicateViolations, ih, List.reduceOption_cons_of_none]
    | some s =>
      rw [duplicateViolations, List.reduceOption_cons_of_some, List.nodup_cons,
        List.forall_mem_cons]
      cases hseen : seen.lookup s with
      | some first => simp
      | none =>
        -- the label is remembered, so that the rest must avoid it as well
        have hlookup (t : String) :
            ((s, idx) :: seen).lookup t = none ↔ t ≠ s ∧ seen.lookup t = none := by
          by_cases hsame : t = s
          · simp [hsame]
          · have hbeq : (t == s) = false := beq_false_of_ne hsame
            simp only [List.lookup_cons, hbeq, ne_eq, hsame, not_false_eq_true, true_and]
        simp only [ih, hlookup]
        constructor
        · rintro ⟨hnodup, hfresh⟩
          exact ⟨⟨fun hmem => (hfresh s hmem).1 rfl, hnodup⟩, trivial, fun t ht => (hfresh t ht).2⟩
        · rintro ⟨⟨habsent, hnodup⟩, _, hfresh⟩
          refine ⟨hnodup, fun t ht => ⟨?_, hfresh t ht⟩⟩
          rintro rfl
          exact habsent ht

/-! ## Use lists and secondary roles

A dict passes the sections for use lists exactly when use lists can be read from it, and likewise
for a secondary role. -/

theorem get_eq (v : PyValue) (name : String) : v.get name = (field? v name).getD .none := by
  cases v <;> rfl

theorem isDict_of_field {v value : PyValue} {name : String} (h : field? v name = some value) :
    isDict v = true := by
  cases v with
  | dict entries => rfl
  | _ => cases h

/-- Sections 7 and 8 pass exactly on written use lists. -/
theorem uses_iff (str : Folding) {v : PyValue} (scope scope' : String) :
    (∃ uses : UseLists str, uses.In v) ↔
      (field? v "allowed_uses").isSome = true ∧ (field? v "forbidden_uses").isSome = true ∧
        ra7Of v scope = [] ∧ ra8Of str v scope' = [] := by
  -- the two lists pass one by one, then against each other
  constructor
  · rintro ⟨uses, hallowed, hforbidden⟩
    refine ⟨by rw [hallowed]; rfl, by rw [hforbidden]; rfl, ?_, ?_⟩
    · simp only [ra7Of, useFieldViolations, hallowed, hforbidden, List.append_eq_nil_iff,
        useListViolations_eq_nil]
      exact ⟨⟨_, rfl, uses.allowedText, by simp⟩, _, rfl, uses.forbiddenText, fun _ => uses.forbids⟩
    · simp only [ra8Of, get_eq, hallowed, hforbidden, Option.getD_some]
      exact (useOverlapViolations_eq_nil uses.allowedText uses.forbiddenText).mpr uses.disjoint
  · rintro ⟨hallowed, hforbidden, hra7, hra8⟩
    obtain ⟨allowed, hallowed⟩ := Option.isSome_iff_exists.mp hallowed
    obtain ⟨forbidden, hforbidden⟩ := Option.isSome_iff_exists.mp hforbidden
    simp only [ra7Of, useFieldViolations, hallowed, hforbidden, List.append_eq_nil_iff,
      useListViolations_eq_nil] at hra7
    obtain ⟨⟨us, rfl, hus, _⟩, ws, rfl, hws, hne⟩ := hra7
    simp only [ra8Of, get_eq, hallowed, hforbidden, Option.getD_some] at hra8
    exact ⟨⟨us, ws, hus, hws, hne trivial, (useOverlapViolations_eq_nil hus hws).mp hra8⟩, hallowed,
      hforbidden⟩

/-- A label that is there is one of the example. -/
def LabelOk (entry : PyValue) : Prop :=
  ∀ label, field? entry "label" = some label → ∃ s, label = .str s ∧ IsExampleLabel s

/-- Section 6 asks an entry for its fields and its explanations. -/
theorem ra6Entry_eq_nil {entry : PyValue} {idx : Nat} :
    ra6Entry entry idx = [] ↔
      isDict entry = true ∧ (∀ name ∈ secondaryRequiredFields, (field? entry name).isSome = true) ∧
        ∀ name ∈ secondaryExplanatoryFields, ∀ value, field? entry name = some value →
          isNonEmptyString value = true := by
  unfold ra6Entry
  cases hdict : isDict entry with
  | true =>
    simp only [if_true, List.append_eq_nil_iff, List.flatMap_eq_nil_iff, reportUnless_eq_nil,
      fieldViolations_eq_nil, true_and]
  | false => simp

/-- The four sections that look at a secondary role pass exactly on a written one. -/
theorem secondary_iff {entry : PyValue} (idx : Nat) (scope scope' : String) :
    (∃ role : SecondaryRole str, role.In entry) ↔
      ra6Entry entry idx = [] ∧ LabelOk entry ∧ ra7Of entry scope = [] ∧
        ra8Of str entry scope' = [] := by
  rw [ra6Entry_eq_nil]
  constructor
  · rintro ⟨role, hlabel, huses, hexplained⟩
    obtain ⟨hallowed, hforbidden, hra7, hra8⟩ := (uses_iff str scope scope').mp ⟨role.uses, huses⟩
    have hsome (name : String) (hname : name ∈ secondaryExplanatoryFields) :
        (field? entry name).isSome = true := by
      obtain ⟨s, hs, _⟩ := hexplained name hname
      rw [hs]
      rfl
    refine ⟨⟨isDict_of_field hlabel, fun name hname => ?_, fun name hname value hvalue => ?_⟩,
      fun label hl => ?_, hra7, hra8⟩
    · -- the seven fields: the label, the two use lists and the four explanations
      simp only [secondaryRequiredFields, List.mem_cons, List.not_mem_nil, or_false] at hname
      rcases hname with rfl | rfl | rfl | rfl | rfl | rfl | rfl
      · rw [hlabel]
        rfl
      · exact hsome _ (by simp [secondaryExplanatoryFields])
      · exact hsome _ (by simp [secondaryExplanatoryFields])
      · exact hallowed
      · exact hforbidden
      · exact hsome _ (by simp [secondaryExplanatoryFields])
      · exact hsome _ (by simp [secondaryExplanatoryFields])
    · obtain ⟨s, hs, hnonBlank⟩ := hexplained name hname
      rw [hvalue] at hs
      exact isNonEmptyString_iff.mpr ⟨s, Option.some.inj hs, hnonBlank⟩
    · rw [hlabel, Option.some.injEq] at hl
      exact ⟨role.label, hl.symm, role.marked⟩
  · -- the role is put together from the fields the sections found
    rintro ⟨⟨hdict, hrequired, hexplained⟩, hlabel, hra7, hra8⟩
    have hsome (name : String) (hname : name ∈ secondaryRequiredFields) :
        ∃ value, field? entry name = some value :=
      Option.isSome_iff_exists.mp (hrequired name hname)
    obtain ⟨uses, huses⟩ := (uses_iff str scope scope').mpr
      ⟨hrequired _ (by simp [secondaryRequiredFields]),
        hrequired _ (by simp [secondaryRequiredFields]), hra7, hra8⟩
    obtain ⟨label, hl⟩ := hsome "label" (by simp [secondaryRequiredFields])
    obtain ⟨s, rfl, hs⟩ := hlabel label hl
    refine ⟨⟨s, hs, uses⟩, hl, huses, fun name hname => ?_⟩
    have hrequiredName : name ∈ secondaryRequiredFields := by
      simp only [secondaryExplanatoryFields, List.mem_cons, List.not_mem_nil, or_false] at hname
      rcases hname with rfl | rfl | rfl | rfl <;> simp [secondaryRequiredFields]
    obtain ⟨value, hvalue⟩ := hsome name hrequiredName
    obtain ⟨t, rfl, ht⟩ := isNonEmptyString_iff.mp (hexplained name hname value hvalue)
    exact ⟨t, hvalue, ht⟩

/-! ## The loops over secondary roles

The sections differ in the scope they print, which has no part in whether they report. -/

theorem useFieldViolations_scope {v : PyValue} {name scope scope' : String}
    {requireNonEmpty : Bool} (h : useFieldViolations v name scope requireNonEmpty = []) :
    useFieldViolations v name scope' requireNonEmpty = [] := by
  unfold useFieldViolations at h ⊢
  cases hvalue : field? v name with
  | none => rfl
  | some value =>
    rw [hvalue] at h
    exact useListViolations_eq_nil.mpr (useListViolations_eq_nil.mp h)

/-- The scope of a violation is in its message only. -/
theorem ra7Of_scope {v : PyValue} {scope scope' : String} (h : ra7Of v scope = []) :
    ra7Of v scope' = [] := by
  unfold ra7Of at h ⊢
  obtain ⟨hallowed, hforbidden⟩ := List.append_eq_nil_iff.mp h
  rw [useFieldViolations_scope hallowed, useFieldViolations_scope hforbidden, List.append_nil]

/-- The scope only appears in the message. -/
theorem ra8Of_scope {v : PyValue} {scope scope' : String} (h : ra8Of str v scope = []) :
    ra8Of str v scope' = [] := by
  unfold ra8Of useOverlapViolations at h ⊢
  split at h
  · exact List.map_eq_nil_iff.mpr (List.map_eq_nil_iff.mp h)
  · rfl

/-- The loops of the four sections pass exactly when every entry is a secondary role. -/
theorem secondaryRoles_iff {v : PyValue} :
    (∀ entry ∈ secondaryRoles v, ∃ role : SecondaryRole str, role.In entry) ↔
      ra6 v = [] ∧ (∀ entry ∈ secondaryRoles v, LabelOk entry) ∧
        ((secondaryRoles v).zipIdx.flatMap fun entry =>
          ra7Of entry.1 s!"secondary_roles[{entry.2}].") = [] ∧
        ((secondaryRoles v).zipIdx.flatMap fun entry =>
          ra8Of str entry.1 s!"secondary_roles[{entry.2}]") = [] := by
  have h6 : ra6 v = [] ↔ ∀ entry ∈ secondaryRoles v, ra6Entry entry 0 = [] :=
    zipIdx_flatMap_eq_nil fun entry idx => ra6Entry_eq_nil.trans ra6Entry_eq_nil.symm
  have h7 : ((secondaryRoles v).zipIdx.flatMap fun entry =>
      ra7Of entry.1 s!"secondary_roles[{entry.2}].") = [] ↔
      ∀ entry ∈ secondaryRoles v, ra7Of entry "" = [] :=
    zipIdx_flatMap_eq_nil fun entry idx => ⟨ra7Of_scope, ra7Of_scope⟩
  have h8 : ((secondaryRoles v).zipIdx.flatMap fun entry =>
      ra8Of str entry.1 s!"secondary_roles[{entry.2}]") = [] ↔
      ∀ entry ∈ secondaryRoles v, ra8Of str entry "" = [] :=
    zipIdx_flatMap_eq_nil fun entry idx => ⟨ra8Of_scope, ra8Of_scope⟩
  rw [h6, h7, h8]
  constructor
  · intro h
    have hentry (entry : PyValue) (hmem : entry ∈ secondaryRoles v) :=
      (secondary_iff 0 "" "").mp (h entry hmem)
    exact ⟨fun entry hmem => (hentry entry hmem).1, fun entry hmem => (hentry entry hmem).2.1,
      fun entry hmem => (hentry entry hmem).2.2.1, fun entry hmem => (hentry entry hmem).2.2.2⟩
  · rintro ⟨hra6, hlabel, hra7, hra8⟩ entry hmem
    exact (secondary_iff 0 "" "").mpr
      ⟨hra6 entry hmem, hlabel entry hmem, hra7 entry hmem, hra8 entry hmem⟩

/-! ## Roles

What the sections on labels, on the resolution and on duplicates ask for. -/

/-- A choice for each element is a list of choices. -/
theorem exists_forall₂ {α β : Type} {R : α → β → Prop} {xs : List α}
    (h : ∀ x ∈ xs, ∃ y, R x y) : ∃ ys, List.Forall₂ R xs ys := by
  induction xs with
  | nil => exact ⟨[], .nil⟩
  | cons x rest ih =>
    obtain ⟨⟨y, hy⟩, hrest⟩ := List.forall_mem_cons.mp h
    obtain ⟨ys, hys⟩ := ih hrest
    exact ⟨y :: ys, .cons hy hys⟩

/-- The labels that the duplicate check of RA9 sees. -/
theorem reduceOption_labels {entries : List PyValue} {secondary : List (SecondaryRole str)}
    (h : List.Forall₂ SecondaryRole.In entries secondary) :
    (entries.map fun entry => labelText? (field? entry "label")).reduceOption =
      secondary.map SecondaryRole.label := by
  induction h with
  | nil => rfl
  | @cons entry role _ _ hrole _ ih =>
    rw [List.map_cons, hrole.label, labelText?_str role.marked.nonBlank,
      List.reduceOption_cons_of_some, ih, List.map_cons]

theorem reduceOption_candidates {candidates : List String}
    (h : ∀ c ∈ candidates, IsExampleLabel c) :
    ((candidates.map PyValue.str).map fun item => labelText? (some item)).reduceOption =
      candidates := by
  induction candidates with
  | nil => rfl
  | cons c rest ih =>
    obtain ⟨hc, hrest⟩ := List.forall_mem_cons.mp h
    rw [List.map_cons, List.map_cons, labelText?_str hc.nonBlank, List.reduceOption_cons_of_some,
      ih hrest]

/-- The prefix is only asked of a primary role that is a text. -/
theorem ra5Primary_eq_nil {v : PyValue} :
    ra5Primary v = [] ↔ ∀ s, primaryText? v = some s → hasExamplePrefix s = true := by
  unfold ra5Primary
  cases primaryText? v <;> simp

theorem ra5Entry_eq_nil {entry : PyValue} {idx : Nat} :
    ra5Entry entry idx = [] ↔ LabelOk entry := by
  unfold ra5Entry LabelOk
  cases field? entry "label" with
  | none => simp
  | some label => simp [labelViolations_eq_nil]

/-- Section 5 looks at the primary role, the secondary labels and the candidates. -/
theorem ra5_eq_nil {v : PyValue} :
    ra5 v = [] ↔ (∀ s, primaryText? v = some s → hasExamplePrefix s = true) ∧
      (∀ entry ∈ secondaryRoles v, LabelOk entry) ∧
      ∀ item ∈ candidateRoles v, ∃ s, item = .str s ∧ IsExampleLabel s := by
  unfold ra5
  rw [List.append_eq_nil_iff, List.append_eq_nil_iff, and_assoc, ra5Primary_eq_nil,
    zipIdx_flatMap_eq_nil fun entry idx => ra5Entry_eq_nil,
    zipIdx_flatMap_eq_nil (P := fun item => ∃ s, item = .str s ∧ IsExampleLabel s)
      fun item idx => labelViolations_eq_nil]

/-- Not both a primary role and candidates. -/
theorem ra9A_eq_nil {v : PyValue} :
    ra9A v = [] ↔ primaryText? v = none ∨ candidateRoles v = [] := by
  rw [ra9A, reportUnless_eq_nil, Bool.or_eq_true, Option.isNone_iff_eq_none, List.isEmpty_iff]

/-- No secondary roles while none is primary. -/
theorem ra9B_eq_nil {v : PyValue} :
    ra9B v = [] ↔ (v.get "primary_role" = .none → secondaryRoles v = []) := by
  unfold ra9B
  cases v.get "primary_role" <;> simp

/-- No secondary role repeats the primary one. -/
theorem ra9C_eq_nil {v : PyValue} :
    ra9C v = [] ↔ ∀ primary, primaryText? v = some primary → ∀ entry ∈ secondaryRoles v,
      isLabel (entry.get "label") primary = false := by
  unfold ra9C
  cases primaryText? v with
  | none => simp
  | some primary =>
    dsimp only
    rw [zipIdx_flatMap_eq_nil (P := fun entry => (!isLabel (entry.get "label") primary) = true)
      fun entry idx => reportUnless_eq_nil]
    simp

/-- No two secondary roles share a label. -/
theorem ra9D_eq_nil {v : PyValue} :
    ra9D v = [] ↔ ((secondaryRoles v).map fun entry =>
      labelText? (field? entry "label")).reduceOption.Nodup := by
  rw [ra9D, duplicateViolations_eq_nil]
  simp

theorem ra10_eq_nil {v : PyValue} :
    ra10 v = [] ↔ (∀ value, field? v "candidate_roles" = some value → isList value = true) ∧
      ((candidateRoles v).map fun item => labelText? (some item)).reduceOption.Nodup := by
  rw [ra10, List.append_eq_nil_iff, fieldViolations_eq_nil, duplicateViolations_eq_nil]
  simp

/-! ## Roles written down

The shape of the role fields, and how their labels agree, say together that roles are written down.
-/

/-- The shapes that the role fields have in an accepted value. -/
structure RoleFields (v : PyValue) : Prop where
  primary : field? v "primary_role" = some .none ∨
    ∃ s, field? v "primary_role" = some (.str s) ∧ IsExampleLabel s
  secondary : ∃ entries, field? v "secondary_roles" = some (.list entries)
  candidates : field? v "candidate_roles" = none ∨
    ∃ cs, field? v "candidate_roles" = some (texts cs) ∧ ∀ c ∈ cs, IsExampleLabel c

/-- No conflict between the roles. -/
structure RolesAgree (v : PyValue) : Prop where
  resolved : primaryText? v = none ∨ candidateRoles v = []
  unresolved : v.get "primary_role" = .none → secondaryRoles v = []
  primaryOnce : ∀ primary, primaryText? v = some primary → ∀ entry ∈ secondaryRoles v,
    isLabel (entry.get "label") primary = false
  secondaryOnce : ((secondaryRoles v).map fun entry =>
    labelText? (field? entry "label")).reduceOption.Nodup
  candidateOnce : ((candidateRoles v).map fun item => labelText? (some item)).reduceOption.Nodup

/-- Sections 9 and 10 ask for the agreement. -/
theorem rolesAgree_iff {v : PyValue} :
    RolesAgree v ↔ ra9 v = [] ∧
      ((candidateRoles v).map fun item => labelText? (some item)).reduceOption.Nodup := by
  simp only [ra9, List.append_eq_nil_iff, and_assoc]
  rw [ra9A_eq_nil, ra9B_eq_nil, ra9C_eq_nil, ra9D_eq_nil]
  constructor
  · intro h
    exact ⟨h.resolved, h.unresolved, h.primaryOnce, h.secondaryOnce, h.candidateOnce⟩
  · rintro ⟨hresolved, hunresolved, hprimary, hsecondary, hcandidate⟩
    exact ⟨hresolved, hunresolved, hprimary, hsecondary, hcandidate⟩

/-- `label == primary` holds of that very text. -/
theorem isLabel_iff {v : PyValue} {primary : String} :
    isLabel v primary = true ↔ v = .str primary := by
  cases v <;> simp [isLabel]

/-- A secondary role is found by its label. -/
theorem SecondaryRole.In.isLabel_iff {entry : PyValue} {role : SecondaryRole str}
    (h : role.In entry) {primary : String} :
    isLabel (entry.get "label") primary = true ↔ role.label = primary := by
  rw [Role.isLabel_iff, get_eq, h.label, Option.getD_some, PyValue.str.injEq]

/-- Written roles have the fields, agree, and their secondary entries are roles. -/
theorem Roles.In.fields {v : PyValue} {roles : Roles str} (h : roles.In v) :
    RoleFields v ∧ RolesAgree v ∧
      ∀ entry ∈ secondaryRoles v, ∃ role : SecondaryRole str, role.In entry := by
  cases h with
  | @resolved primary secondary marked distinct entries role beside written candidates =>
    -- no candidates: RA9 compares the primary role with the secondary ones
    have hsecondary : secondaryRoles v = entries := by rw [secondaryRoles, beside, items]
    have hprimary : primaryText? v = some primary := by
      rw [primaryText?, role, labelText?_str marked.nonBlank]
    have hcandidates : candidateRoles v = [] := by
      unfold candidateRoles
      cases hvalue : field? v "candidate_roles" with
      | none => rfl
      | some value => rw [candidates value hvalue, items]
    obtain ⟨hother, honce⟩ := List.nodup_cons.mp distinct
    refine ⟨⟨.inr ⟨primary, role, marked⟩, ⟨entries, beside⟩, ?_⟩,
      ⟨.inr hcandidates, ?_, ?_, ?_, ?_⟩, ?_⟩
    · cases hvalue : field? v "candidate_roles" with
      | none => exact .inl rfl
      | some value => exact .inr ⟨[], by rw [candidates value hvalue]; rfl, by simp⟩
    · rw [get_eq, role]
      exact fun hnone => nomatch hnone
    · intro other hsame entry hentry
      rw [hprimary, Option.some.injEq] at hsame
      subst hsame
      rw [hsecondary] at hentry
      obtain ⟨role', hmem, hrole⟩ := exists_of_forall₂_left written hentry
      rw [← Bool.not_eq_true, hrole.isLabel_iff]
      rintro rfl
      exact hother (List.mem_map_of_mem hmem)
    · rw [hsecondary, reduceOption_labels written]
      exact honce
    · rw [hcandidates]
      exact List.nodup_nil
    · intro entry hentry
      rw [hsecondary] at hentry
      obtain ⟨role', _, hrole⟩ := exists_of_forall₂_left written hentry
      exact ⟨role', hrole⟩
  | @unresolved candidates marked distinct role beside written =>
    -- no primary role: RA10 compares the candidates with each other
    have hsecondary : secondaryRoles v = [] := by rw [secondaryRoles, beside, items]
    have hprimary : primaryText? v = none := by
      rw [primaryText?, role]
      rfl
    have hcandidates : candidateRoles v = candidates.map .str := by
      rcases written with hwritten | ⟨hwritten, rfl⟩
      · rw [candidateRoles, hwritten, texts, items]
      · rw [candidateRoles, hwritten]
        rfl
    refine ⟨⟨.inl role, ⟨[], beside⟩, ?_⟩, ⟨.inl hprimary, fun _ => hsecondary, ?_, ?_, ?_⟩, ?_⟩
    · rcases written with hwritten | ⟨hwritten, rfl⟩
      · exact .inr ⟨candidates, hwritten, marked⟩
      · exact .inl hwritten
    · intro primary hsome
      rw [hprimary] at hsome
      cases hsome
    · rw [hsecondary]
      exact List.nodup_nil
    · rw [hcandidates, reduceOption_candidates marked]
      exact distinct
    · rw [hsecondary]
      simp

/-- And where the fields agree, roles are written down. -/
theorem RoleFields.roles {v : PyValue} (h : RoleFields v) (hagree : RolesAgree v)
    (hsecondary : ∀ entry ∈ secondaryRoles v, ∃ role : SecondaryRole str, role.In entry) :
    ∃ roles : Roles str, roles.In v := by
  obtain ⟨entries, hentries⟩ := h.secondary
  have hsecondaryRoles : secondaryRoles v = entries := by rw [secondaryRoles, hentries, items]
  rcases h.primary with hnone | ⟨primary, hprimary, hmarked⟩
  · -- unresolved: no secondary roles, whatever candidates there are
    obtain rfl : entries = [] := by
      rw [← hsecondaryRoles]
      exact hagree.unresolved (by rw [get_eq, hnone]; rfl)
    rcases h.candidates with habsent | ⟨candidates, hcandidates, hmarked⟩
    · exact ⟨.unresolved [] (by simp) List.nodup_nil,
        .unresolved hnone hentries (.inr ⟨habsent, rfl⟩)⟩
    · have hdistinct := hagree.candidateOnce
      rw [candidateRoles, hcandidates, texts, items, reduceOption_candidates hmarked] at hdistinct
      exact ⟨.unresolved candidates hmarked hdistinct,
        .unresolved hnone hentries (.inl hcandidates)⟩
  · -- resolved: no candidates, and every secondary role of its own
    have htext : primaryText? v = some primary := by
      rw [primaryText?, hprimary, labelText?_str hmarked.nonBlank]
    have hnoCandidates : candidateRoles v = [] :=
      hagree.resolved.resolve_left (by rw [htext]; exact Option.some_ne_none _)
    rw [hsecondaryRoles] at hsecondary
    obtain ⟨secondary, hwritten⟩ := exists_forall₂ hsecondary
    have honce := hagree.secondaryOnce
    rw [hsecondaryRoles, reduceOption_labels hwritten] at honce
    have hother : primary ∉ secondary.map SecondaryRole.label := by
      intro hmem
      obtain ⟨role, hrole, hlabel⟩ := List.mem_map.mp hmem
      obtain ⟨entry, hentry, hin⟩ := exists_of_forall₂_right hwritten hrole
      have hfalse := hagree.primaryOnce primary htext entry (hsecondaryRoles ▸ hentry)
      rw [hin.isLabel_iff.mpr hlabel] at hfalse
      cases hfalse
    refine ⟨.resolved primary secondary hmarked (List.nodup_cons.mpr ⟨hother, honce⟩),
      .resolved hprimary hentries hwritten fun value hvalue => ?_⟩
    rcases h.candidates with habsent | ⟨candidates, hcandidates, _⟩
    · rw [habsent] at hvalue
      cases hvalue
    · rw [candidateRoles, hcandidates, texts, items, List.map_eq_nil_iff] at hnoCandidates
      rw [hcandidates, hnoCandidates] at hvalue
      cases hvalue
      rfl

/-! ## The law

A value is accepted exactly when an assignment is written down in it: the sections report nothing on
a written assignment, and what they ask for together writes one down. -/

theorem isDict_iff {v : PyValue} : isDict v = true ↔ ∃ entries, v = .dict entries := by
  cases v <;> simp [isDict]

theorem isList_iff {v : PyValue} : isList v = true ↔ ∃ xs, v = .list xs := by
  cases v <;> simp [isList]

/-- Section 2 asks for the required keys. -/
theorem ra2_eq_nil {v : PyValue} :
    ra2 v = [] ↔ ∀ key ∈ localRequiredKeys, (field? v key).isSome = true := by
  simp only [ra2, List.flatMap_eq_nil_iff, reportUnless_eq_nil]

/-- Section 3 asks for the types of the fields, each in its group. -/
theorem ra3_eq_nil {v : PyValue} :
    ra3 v = [] ↔
      (∀ name ∈ dictFields, ∀ value, field? v name = some value → isDict value = true) ∧
      (∀ name ∈ nonEmptyStrFields, ∀ value, field? v name = some value →
        isNonEmptyString value = true) ∧
      ∀ name ∈ listFields, ∀ value, field? v name = some value → isList value = true := by
  simp only [ra3, List.append_eq_nil_iff, List.flatMap_eq_nil_iff, fieldViolations_eq_nil,
    and_assoc]

/-- What the validator reports nothing on, section by section. -/
theorem validate_eq_nil {v : PyValue} (hdict : isDict v = true) :
    validateRoleAssignmentBoundaries str v = [] ↔
      ra2 v = [] ∧ ra3 v = [] ∧ ra4 v = [] ∧ ra5 v = [] ∧ ra6 v = [] ∧ ra7 v = [] ∧
        ra8 str v = [] ∧ ra9 v = [] ∧ ra10 v = [] := by
  obtain ⟨entries, rfl⟩ := isDict_iff.mp hdict
  simp only [validateRoleAssignmentBoundaries, List.append_eq_nil_iff, and_assoc]

/-! ### Sections that report nothing on an assignment

Section by section, from the fields of the written assignment. -/

theorem RoleFields.ra4_eq_nil {v : PyValue} (h : RoleFields v) : ra4 v = [] := by
  refine fieldViolations_eq_nil.mpr fun value hvalue => ?_
  rcases h.primary with hnone | ⟨s, hs, hmarked⟩
  · rw [hnone, Option.some.injEq] at hvalue
    rw [← hvalue]
    rfl
  · rw [hs, Option.some.injEq] at hvalue
    rw [← hvalue]
    exact isNonEmptyString_iff.mpr ⟨s, rfl, hmarked.nonBlank⟩

theorem RoleFields.ra5_eq_nil {v : PyValue} (h : RoleFields v)
    (hlabels : ∀ entry ∈ secondaryRoles v, LabelOk entry) : ra5 v = [] := by
  refine Role.ra5_eq_nil.mpr ⟨?_, hlabels, ?_⟩
  · intro s hs
    -- no primary role, or one that carries the prefix
    rcases h.primary with hnone | ⟨s', hs', hmarked⟩
    · rw [primaryText?, hnone] at hs
      cases hs
    · rw [primaryText?, hs', labelText?_str hmarked.nonBlank, Option.some.injEq] at hs
      exact hs ▸ hmarked.marked
  · intro item hitem
    rcases h.candidates with habsent | ⟨cs, hcs, hmarked⟩
    · rw [candidateRoles, habsent] at hitem
      cases hitem
    · rw [candidateRoles, hcs, texts, items] at hitem
      obtain ⟨c, hc, rfl⟩ := List.mem_map.mp hitem
      exact ⟨c, rfl, hmarked c hc⟩

theorem RoleFields.ra10_eq_nil {v : PyValue} (h : RoleFields v) (hagree : RolesAgree v) :
    ra10 v = [] := by
  refine Role.ra10_eq_nil.mpr ⟨fun value hvalue => ?_, hagree.candidateOnce⟩
  rcases h.candidates with habsent | ⟨cs, hcs, _⟩
  · rw [habsent] at hvalue
    cases hvalue
  · rw [hcs, Option.some.injEq] at hvalue
    exact isList_iff.mpr ⟨_, hvalue.symm⟩

namespace RoleAssignment.In

variable {v : PyValue} {a : RoleAssignment str}

/-- The ten required fields come from all parts of the assignment. -/
theorem ra2_eq_nil (h : a.In v) (hfields : RoleFields v) : ra2 v = [] := by
  have hdict (name : String) (hname : name ∈ dictFields) : (field? v name).isSome = true := by
    obtain ⟨fields, hfield⟩ := h.dicts name hname
    rw [hfield]
    rfl
  have htext (name : String) (hname : name ∈ nonEmptyStrFields) :
      (field? v name).isSome = true := by
    obtain ⟨s, hs, _⟩ := h.described name hname
    rw [hs]
    rfl
  have hprimary : (field? v "primary_role").isSome = true := by
    rcases hfields.primary with hnone | ⟨s, hs, _⟩
    · rw [hnone]
      rfl
    · rw [hs]
      rfl
  obtain ⟨entries, hentries⟩ := hfields.secondary
  obtain ⟨hallowed, hforbidden, _⟩ := (uses_iff str "" "top-level").mp ⟨a.uses, h.uses⟩
  refine Role.ra2_eq_nil.mpr fun key hkey => ?_
  -- in the order of `localRequiredKeys`
  simp only [localRequiredKeys, List.mem_cons, List.not_mem_nil, or_false] at hkey
  rcases hkey with rfl | rfl | rfl | rfl | rfl | rfl | rfl | rfl | rfl | rfl
  · exact hdict _ (by simp [dictFields])
  · exact hdict _ (by simp [dictFields])
  · exact htext _ (by simp [nonEmptyStrFields])
  · exact hdict _ (by simp [dictFields])
  · exact htext _ (by simp [nonEmptyStrFields])
  · exact hprimary
  · rw [hentries]
    rfl
  · exact hallowed
  · exact hforbidden
  · exact hdict _ (by simp [dictFields])

theorem ra3_eq_nil (h : a.In v) (hfields : RoleFields v) : ra3 v = [] := by
  refine Role.ra3_eq_nil.mpr ⟨?_, ?_, ?_⟩
  · intro name hname value hvalue
    obtain ⟨fields, hfield⟩ := h.dicts name hname
    rw [hvalue, Option.some.injEq] at hfield
    exact isDict_iff.mpr ⟨fields, hfield⟩
  · intro name hname value hvalue
    obtain ⟨s, hs, hnonBlank⟩ := h.described name hname
    rw [hvalue, Option.some.injEq] at hs
    exact isNonEmptyString_iff.mpr ⟨s, hs, hnonBlank⟩
  · intro name hname value hvalue
    obtain rfl := List.mem_singleton.mp hname
    obtain ⟨entries, hentries⟩ := hfields.secondary
    rw [hentries, Option.some.injEq] at hvalue
    exact isList_iff.mpr ⟨entries, hvalue.symm⟩

/-- A written assignment is accepted. -/
theorem accepted (h : a.In v) : validateRoleAssignmentBoundaries str v = [] := by
  obtain ⟨hfields, hagree, hsecondary⟩ := h.roles.fields
  obtain ⟨_, _, hra7, hra8⟩ := (uses_iff str "" "top-level").mp ⟨a.uses, h.uses⟩
  obtain ⟨hra6, hlabels, hloop7, hloop8⟩ := secondaryRoles_iff.mp hsecondary
  obtain ⟨entries, hentries⟩ := hfields.secondary
  refine (validate_eq_nil (isDict_of_field hentries)).mpr ⟨h.ra2_eq_nil hfields,
    h.ra3_eq_nil hfields, hfields.ra4_eq_nil, hfields.ra5_eq_nil hlabels, hra6, ?_, ?_,
    (rolesAgree_iff.mp hagree).1, hfields.ra10_eq_nil hagree⟩
  · exact List.append_eq_nil_iff.mpr ⟨hra7, hloop7⟩
  · exact List.append_eq_nil_iff.mpr ⟨hra8, hloop8⟩

end RoleAssignment.In

/-! ### The assignment behind an accepted value

The fields are read off section by section; the checks of the later ones rely on the types that
section 3 asked for. -/

theorem exists_field {v : PyValue} (h2 : ra2 v = []) {key : String}
    (hkey : key ∈ localRequiredKeys) : ∃ value, field? v key = some value :=
  Option.isSome_iff_exists.mp (ra2_eq_nil.mp h2 key hkey)

/-- A primary role is `None` or text, and the text is labelled. -/
theorem primary_of_sections {v : PyValue} (h2 : ra2 v = []) (h4 : ra4 v = []) (h5 : ra5 v = []) :
    field? v "primary_role" = some .none ∨
      ∃ s, field? v "primary_role" = some (.str s) ∧ IsExampleLabel s := by
  obtain ⟨value, hvalue⟩ : ∃ value, field? v "primary_role" = some value :=
    exists_field h2 (by simp [localRequiredKeys])
  have hshape := fieldViolations_eq_nil.mp h4 value hvalue
  -- `None` or a text, by section 4
  cases value with
  | none => exact .inl hvalue
  | str s =>
    have hstr : isNonEmptyString (.str s) = true := hshape
    obtain ⟨_, ⟨⟩, hnonBlank⟩ := isNonEmptyString_iff.mp hstr
    have htext : primaryText? v = some s := by
      rw [primaryText?, hvalue, labelText?_str hnonBlank]
    exact .inr ⟨s, hvalue, hnonBlank, (ra5_eq_nil.mp h5).1 s htext⟩
  | _ => cases hshape

/-- Candidates are absent or a list of marked labels. -/
theorem candidates_of_sections {v : PyValue} (h5 : ra5 v = []) (h10 : ra10 v = []) :
    field? v "candidate_roles" = none ∨
      ∃ cs, field? v "candidate_roles" = some (texts cs) ∧ ∀ c ∈ cs, IsExampleLabel c := by
  obtain ⟨_, _, hcandidates⟩ := ra5_eq_nil.mp h5
  cases hvalue : field? v "candidate_roles" with
  | none => exact .inl rfl
  | some value =>
    obtain ⟨xs, rfl⟩ := isList_iff.mp ((ra10_eq_nil.mp h10).1 value hvalue)
    rw [candidateRoles, hvalue, items] at hcandidates
    -- every item is text, so the list is one of texts
    obtain ⟨cs, rfl, _⟩ := forall_isNonEmptyString_iff.mp fun item hitem => by
      obtain ⟨s, rfl, hs⟩ := hcandidates item hitem
      exact isNonEmptyString_iff.mpr ⟨s, rfl, hs.nonBlank⟩
    refine .inr ⟨cs, rfl, fun c hc => ?_⟩
    obtain ⟨s, hs, hmark⟩ := hcandidates (.str c) (List.mem_map_of_mem hc)
    exact PyValue.str.inj hs ▸ hmark

theorem roleFields_of_sections {v : PyValue} (h2 : ra2 v = []) (h3 : ra3 v = []) (h4 : ra4 v = [])
    (h5 : ra5 v = []) (h10 : ra10 v = []) : RoleFields v where
  primary := primary_of_sections h2 h4 h5
  secondary := by
    obtain ⟨_, _, hlists⟩ := ra3_eq_nil.mp h3
    obtain ⟨value, hvalue⟩ : ∃ value, field? v "secondary_roles" = some value :=
      exists_field h2 (by simp [localRequiredKeys])
    obtain ⟨xs, rfl⟩ := isList_iff.mp (hlists _ (by simp [listFields]) value hvalue)
    exact ⟨xs, hvalue⟩
  candidates := candidates_of_sections h5 h10

/-- An accepted value writes down an assignment. -/
theorem exists_of_accepted {v : PyValue} (h : validateRoleAssignmentBoundaries str v = []) :
    ∃ a : RoleAssignment str, a.In v := by
  have hdict : isDict v = true := by
    cases v with
    | dict entries => rfl
    | _ => simp [validateRoleAssignmentBoundaries] at h
  obtain ⟨h2, h3, h4, h5, h6, h7, h8, h9, h10⟩ := (validate_eq_nil hdict).mp h
  obtain ⟨hdicts, htexts, _⟩ := ra3_eq_nil.mp h3
  obtain ⟨h7top, h7loop⟩ := List.append_eq_nil_iff.mp h7
  obtain ⟨h8top, h8loop⟩ := List.append_eq_nil_iff.mp h8
  -- the roles
  have hsecondary : ∀ entry ∈ secondaryRoles v, ∃ role : SecondaryRole str, role.In entry :=
    secondaryRoles_iff.mpr ⟨h6, (ra5_eq_nil.mp h5).2.1, h7loop, h8loop⟩
  obtain ⟨roles, hroles⟩ := (roleFields_of_sections h2 h3 h4 h5 h10).roles
    (rolesAgree_iff.mpr ⟨h9, (ra10_eq_nil.mp h10).2⟩) hsecondary
  -- the uses
  obtain ⟨uses, huses⟩ := (uses_iff str "" "top-level").mpr
    ⟨ra2_eq_nil.mp h2 _ (by simp [localRequiredKeys]),
      ra2_eq_nil.mp h2 _ (by simp [localRequiredKeys]), h7top, h8top⟩
  refine ⟨⟨uses, roles⟩, fun name hname => ?_, fun name hname => ?_, huses, hroles⟩
  · have hkey : name ∈ localRequiredKeys := by
      simp only [dictFields, List.mem_cons, List.not_mem_nil, or_false] at hname
      rcases hname with rfl | rfl | rfl | rfl <;> simp [localRequiredKeys]
    obtain ⟨value, hvalue⟩ := exists_field h2 hkey
    obtain ⟨entries, rfl⟩ := isDict_iff.mp (hdicts name hname value hvalue)
    exact ⟨entries, hvalue⟩
  · have hkey : name ∈ localRequiredKeys := by
      simp only [nonEmptyStrFields, List.mem_cons, List.not_mem_nil, or_false] at hname
      rcases hname with rfl | rfl <;> simp [localRequiredKeys]
    obtain ⟨value, hvalue⟩ := exists_field h2 hkey
    obtain ⟨s, rfl, hs⟩ := isNonEmptyString_iff.mp (htexts name hname value hvalue)
    exact ⟨s, hvalue, hs⟩

/-- **Accepted is being a role assignment.** -/
theorem role_assignment_exact (str : Folding) (v : PyValue) :
    validateRoleAssignmentBoundaries str v = [] ↔ ∃ a : RoleAssignment str, a.In v := by
  constructor
  · exact exists_of_accepted
  · rintro ⟨a, h⟩
    exact h.accepted

end Role

end Ragcore
