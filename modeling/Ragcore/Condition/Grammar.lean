import Ragcore.Condition.Load

/-!
# Ragcore — the grammar of the condition loader

The loader finds out what a node is by a chain of tests on its keys: rejected, mixed, several
combinators, extra, missing. Taken together they let two key sets through, those of a predicate
and a single combinator (`nodeKind_ok_iff`).

* **`Acceptable`** — the grammar.
* **`Mirrors`** — value and tree agree node by node; only the field is stripped.
* **`ConditionTree.toJson`** — a tree written back as an object.
* **`condition_grammar`** — what is accepted, what comes out, what the rest ends in.
-/

namespace Ragcore

/-- The two exceptions a loader of untrusted values documents. -/
def PyErr.TypeOrValue (err : PyErr) : Prop := err.kind = .typeError ∨ err.kind = .valueError

@[simp] theorem PyErr.TypeOrValue.typeError (m : List MsgPart) :
    PyErr.TypeOrValue (.typeError m) := .inl rfl

@[simp] theorem PyErr.TypeOrValue.valueError (m : List MsgPart) :
    PyErr.TypeOrValue (.valueError m) := .inr rfl

namespace Condition

/-! ## The grammar

Which JSON values are conditions, said without the loader: the keys of each node, the types of its
parts, and what they contain. -/

/-- The set of names of a node. -/
def keysOf (fields : Fields) : Finset String := (fields.map Prod.fst).toFinset

/-- Not only white space. -/
def NotBlank (s : String) : Prop := ∃ c ∈ s.toList, isSpace c = false

/-- A predicate of three parts, or a combinator over a list of conditions. -/
inductive Acceptable : Json → Prop
  | predicate {fields : Fields} {field op : String} {value : Json}
      (keys : keysOf fields = predicateKeys) (hasField : fields.lookup "field" = some (.str field))
      (notBlank : NotBlank field) (hasOp : fields.lookup "op" = some (.str op))
      (known : op ∈ validOps) (hasValue : fields.lookup "value" = some value) :
      Acceptable (.dict fields)
  | combinator {fields : Fields} {kind : String} {children : List Json}
      (keys : keysOf fields = {kind}) (known : kind ∈ validCombinators)
      (hasChildren : fields.lookup kind = some (.list children))
      (nodes : ∀ child ∈ children, Acceptable child) : Acceptable (.dict fields)

/-- The tree of a condition: the name of a field is stripped, everything else is as it stands. -/
inductive Mirrors : Json → ConditionTree → Prop
  | predicate {fields : Fields} {field op : String} {value : Json}
      (keys : keysOf fields = predicateKeys) (hasField : fields.lookup "field" = some (.str field))
      (hasOp : fields.lookup "op" = some (.str op))
      (hasValue : fields.lookup "value" = some value) :
      Mirrors (.dict fields) (.predicate (strip field) op value)
  | combinator {fields : Fields} {kind : String} {children : List Json}
      {trees : List ConditionTree} (keys : keysOf fields = {kind})
      (hasChildren : fields.lookup kind = some (.list children))
      (nodes : List.Forall₂ Mirrors children trees) :
      Mirrors (.dict fields) (.combinator kind trees)

end Condition

mutual

/-- The object a tree was loaded from, with its field stripped. -/
def ConditionTree.toJson : ConditionTree → Json
  | .predicate field op value => .dict [("field", .str field), ("op", .str op), ("value", value)]
  | .combinator kind children => .dict [(kind, .list (ConditionTree.toJsonAll children))]

def ConditionTree.toJsonAll : List ConditionTree → List Json
  | [] => []
  | child :: rest => child.toJson :: ConditionTree.toJsonAll rest

end

theorem ConditionTree.toJsonAll_eq (children : List ConditionTree) :
    ConditionTree.toJsonAll children = children.map ConditionTree.toJson := by
  induction children with
  | nil => rfl
  | cons child rest ih => rw [ConditionTree.toJsonAll, ih, List.map_cons]

namespace Condition

/-! ## `str.strip`

White space is what the source's `str.strip` removes. -/

theorem toList_strip (s : String) :
    (strip s).toList = (s.toList.dropWhile isSpace).rdropWhile isSpace := by
  rw [strip, String.toList_ofList]
  rfl

/-- What is left of a text after both ends are cut is empty only if every character was. -/
theorem forall_mem_dropWhile_iff {p : Char → Bool} {l : List Char} :
    (∀ c ∈ l.dropWhile p, p c = true) ↔ ∀ c ∈ l, p c = true := by
  constructor
  · intro hall
    induction l with
    | nil => simp
    | cons c rest ih =>
      -- what is dropped satisfies `p`, and the first element that does not stops the drop
      by_cases hc : p c = true
      · rw [List.dropWhile_cons_of_pos hc] at hall
        exact List.forall_mem_cons.mpr ⟨hc, ih hall⟩
      · rw [List.dropWhile_cons_of_neg hc] at hall
        exact hall
  · intro hall c hc
    exact hall c ((List.dropWhile_sublist p).subset hc)

/-- Nothing is left exactly of blank texts. -/
theorem strip_eq_empty_iff {s : String} : strip s = "" ↔ ¬ NotBlank s := by
  have hempty : strip s = "" ↔ (strip s).toList = [] := by
    rw [← String.toList_inj]
    rfl
  rw [hempty, toList_strip, List.rdropWhile_eq_nil_iff, forall_mem_dropWhile_iff]
  simp [NotBlank]

/-- A stripped text neither starts nor ends with a character to strip. -/
theorem strip_strip (s : String) : strip (strip s) = strip s := by
  rw [← String.toList_inj, toList_strip, toList_strip]
  have hstart : ((s.toList.dropWhile isSpace).rdropWhile isSpace).dropWhile isSpace =
      (s.toList.dropWhile isSpace).rdropWhile isSpace := by
    rw [List.dropWhile_eq_self_iff]
    intro hlength
    have hprefix := List.rdropWhile_prefix isSpace (s.toList.dropWhile isSpace)
    have hhead := hprefix.getElem hlength
    rw [hhead]
    exact List.dropWhile_get_zero_not isSpace _ _
  rw [hstart, List.rdropWhile_idempotent]

/-! ## The keys of a node

The loader decides by the set of keys what a node is. -/

theorem nodeKind_predicateKeys : nodeKind predicateKeys = .ok .predicate := by
  with_unfolding_all rfl

/-- One key, which is a combinator. -/
theorem nodeKind_singleton {kind : String} (known : kind ∈ validCombinators) :
    nodeKind {kind} = .ok (.combinator kind) := by
  simp only [validCombinators, Finset.mem_insert, Finset.mem_singleton] at known
  rcases known with rfl | rfl <;> with_unfolding_all rfl

/-- **The two key sets the tests let through.** -/
theorem nodeKind_ok {keys : Finset String} {found : NodeKind} (h : nodeKind keys = .ok found) :
    (found = .predicate ∧ keys = predicateKeys) ∨
      ∃ kind ∈ validCombinators, found = .combinator kind ∧ keys = {kind} := by
  unfold nodeKind at h
  simp only at h
  -- rejected combinators and mixed nodes are refused before a kind is looked for
  split at h
  · cases h
  split at h
  · cases h
  split at h
  · split at h
    · cases h
    · rename_i hmissing
      split at h
      · cases h
      · rename_i hextras
        cases h
        rw [Finset.not_nonempty_iff_eq_empty, Finset.sdiff_eq_empty_iff_subset] at hmissing hextras
        exact .inl ⟨rfl, hextras.antisymm hmissing⟩
  · rename_i kind hsorted
    split at h
    · cases h
    · rename_i hextras
      cases h
      rw [Finset.not_nonempty_iff_eq_empty, Finset.sdiff_eq_empty_iff_subset] at hextras
      have hmem : kind ∈ keys ∩ validCombinators := by
        rw [← mem_sortSet, hsorted]
        exact List.mem_singleton_self kind
      obtain ⟨hin, known⟩ := Finset.mem_inter.mp hmem
      exact .inr ⟨kind, known, rfl, hextras.antisymm (Finset.singleton_subset_iff.mpr hin)⟩
  · cases h

/-- Every test that fails raises `ValueError`. -/
theorem nodeKind_refuses (keys : Finset String) : RaisesOnly PyErr.TypeOrValue (nodeKind keys) := by
  unfold nodeKind
  simp only
  split
  · exact .error (.valueError _)
  split
  · exact .error (.valueError _)
  split
  · split
    · exact .error (.valueError _)
    · split
      · exact .error (.valueError _)
      · exact .ok _
  · split
    · exact .error (.valueError _)
    · exact .ok _
  · exact .error (.valueError _)

/-! ## Predicates

The three parts in the order in which they are checked. -/

theorem getItem_ok_iff {fields : Fields} {name : String} {v : Json} :
    (Json.dict fields).getItem name = .ok v ↔ fields.lookup name = some v := by
  unfold Json.getItem
  simp only
  cases fields.lookup name <;> simp

/-- A name that is a key has a value. -/
theorem exists_lookup {fields : Fields} {name : String} (h : name ∈ keysOf fields) :
    ∃ v, fields.lookup name = some v := by
  rw [keysOf, List.mem_toFinset] at h
  cases hlookup : fields.lookup name with
  | some v => exact ⟨v, rfl⟩
  | none => exact absurd h (Dict.lookup_eq_none.mp hlookup)

theorem loadPredicate_ok_iff {fields : Fields} {tree : ConditionTree} :
    loadPredicate (.dict fields) = .ok tree ↔
      ∃ field op value, fields.lookup "field" = some (.str field) ∧ NotBlank field ∧
        fields.lookup "op" = some (.str op) ∧ op ∈ validOps ∧
        fields.lookup "value" = some value ∧ tree = .predicate (strip field) op value := by
  -- the parts that passed are the parts of the predicate
  constructor
  · intro h
    obtain ⟨field, hfield, h⟩ := bind_ok_iff.mp h
    obtain ⟨op, hop, h⟩ := bind_ok_iff.mp h
    obtain ⟨value, hvalue, h⟩ := bind_ok_iff.mp h
    rw [getItem_ok_iff] at hfield hop hvalue
    cases field with
    | str text =>
      obtain ⟨_, hblank, h⟩ := bind_ok_iff.mp h
      have hnotBlank : NotBlank text := by
        by_contra hnot
        rw [strip_eq_empty_iff.mpr hnot] at hblank
        simp at hblank
      cases op with
      | str name =>
        obtain ⟨_, known, h⟩ := bind_ok_iff.mp h
        cases h
        exact ⟨text, name, value, hfield, hnotBlank, hop, by simpa using known, hvalue, rfl⟩
      | _ => cases h
    | _ => cases h
  · rintro ⟨field, op, value, hfield, hblank, hop, known, hvalue, rfl⟩
    refine bind_ok_iff.mpr ⟨_, getItem_ok_iff.mpr hfield, ?_⟩
    refine bind_ok_iff.mpr ⟨_, getItem_ok_iff.mpr hop, ?_⟩
    refine bind_ok_iff.mpr ⟨_, getItem_ok_iff.mpr hvalue, ?_⟩
    have hne : (strip field != "") = true := by
      rw [bne_iff_ne, ne_eq, strip_eq_empty_iff, not_not]
      exact hblank
    simp only [hne, known, ensure, decide_true, if_true]
    rfl

/-- With all three keys there no subscript fails. -/
theorem loadPredicate_refuses {fields : Fields} (hkeys : keysOf fields = predicateKeys) :
    RaisesOnly PyErr.TypeOrValue (loadPredicate (.dict fields)) := by
  -- the three parts are there, so no `KeyError` is left
  have hget : ∀ name ∈ predicateKeys,
      RaisesOnly PyErr.TypeOrValue ((Json.dict fields).getItem name) := by
    intro name hname
    obtain ⟨v, hv⟩ := exists_lookup (hkeys ▸ hname)
    rw [getItem_ok_iff.mpr hv]
    exact .ok v
  unfold loadPredicate
  refine (hget "field" (by simp [predicateKeys])).bind fun field _ => ?_
  refine (hget "op" (by simp [predicateKeys])).bind fun op _ => ?_
  refine (hget "value" (by simp [predicateKeys])).bind fun value _ => ?_
  cases field with
  | str text =>
    refine (RaisesOnly.ensure (.valueError _)).bind fun _ _ => ?_
    cases op with
    | str name => exact (RaisesOnly.ensure (.valueError _)).bind fun _ _ => .pure _
    | _ => exact .error (.typeError _)
  | _ => exact .error (.typeError _)

/-! ## Combinators

A list of children, each of which is loaded. -/

/-- The children, as one comprehension. -/
theorem loadChildren_eq (children : List Json) :
    loadChildren children = children.mapM loadConditionTree := by
  induction children with
  | nil => rfl
  | cons child rest ih => rw [loadChildren, List.mapM_cons, ih]

theorem loadCombinator_ok_iff {kind : String} {fields : Fields} {tree : ConditionTree} :
    loadCombinator kind fields = .ok tree ↔
      ∃ children trees, fields.lookup kind = some (.list children) ∧
        children.mapM loadConditionTree = .ok trees ∧ tree = .combinator kind trees := by
  induction fields with
  | nil => simp [loadCombinator]
  | cons entry rest ih =>
    obtain ⟨name, childrenRaw⟩ := entry
    rw [loadCombinator.eq_def]
    simp only
    -- the entry of the kind, or one before it
    by_cases hname : name = kind
    · subst hname
      rw [if_pos rfl, List.lookup_cons_self]
      cases childrenRaw with
      | list children =>
        simp only
        rw [loadChildren_eq, bind_ok_iff]
        constructor
        · rintro ⟨trees, htrees, hsame⟩
          exact ⟨children, trees, rfl, htrees, (Except.ok.inj hsame).symm⟩
        · rintro ⟨_, trees, hlist, htrees, rfl⟩
          cases hlist
          exact ⟨trees, htrees, rfl⟩
      | _ => simp
    · have hbeq : (kind == name) = false := by simpa using Ne.symm hname
      rw [if_neg hname, ih, List.lookup_cons, hbeq]

/-! ## Trees

By induction on the value, with the children as the loader meets them. -/

/-- A child of a node is a smaller value. -/
theorem sizeOf_child_lt {fields : Fields} {kind : String} {children : List Json} {child : Json}
    (hchildren : fields.lookup kind = some (.list children)) (hchild : child ∈ children) :
    sizeOf child < sizeOf (Json.dict fields) := by
  have hentry := List.sizeOf_lt_of_mem (Dict.mem_of_lookup hchildren)
  have hmem := List.sizeOf_lt_of_mem hchild
  simp only [Json.dict.sizeOf_spec, Prod.mk.sizeOf_spec, Json.list.sizeOf_spec] at hentry ⊢
  omega

/-- A dict is loaded as a predicate or as a combinator, as its keys say. -/
theorem loadDict_ok_iff {fields : Fields} {tree : ConditionTree} :
    loadConditionTree (.dict fields) = .ok tree ↔
      (keysOf fields = predicateKeys ∧ loadPredicate (.dict fields) = .ok tree) ∨
        ∃ kind ∈ validCombinators, keysOf fields = {kind} ∧
          loadCombinator kind fields = .ok tree := by
  rw [loadConditionTree, bind_ok_iff]
  constructor
  · rintro ⟨found, hfound, h⟩
    -- the kind of the node decides which loader runs
    rcases nodeKind_ok hfound with ⟨rfl, hkeys⟩ | ⟨kind, known, rfl, hkeys⟩
    · exact .inl ⟨hkeys, h⟩
    · exact .inr ⟨kind, known, hkeys, h⟩
  · rintro (⟨hkeys, h⟩ | ⟨kind, known, hkeys, h⟩)
    · refine ⟨.predicate, ?_, h⟩
      show nodeKind (keysOf fields) = .ok .predicate
      rw [hkeys]
      exact nodeKind_predicateKeys
    · refine ⟨.combinator kind, ?_, h⟩
      show nodeKind (keysOf fields) = .ok (.combinator kind)
      rw [hkeys]
      exact nodeKind_singleton known

/-- What is known of a value the loader accepted, and of the tree it built. -/
structure Accepted (raw : Json) (tree : ConditionTree) : Prop where
  acceptable : Acceptable raw
  mirrors : Mirrors raw tree
  reloads : loadConditionTree tree.toJson = .ok tree

/-- A loaded predicate is in the grammar and mirrored by its tree. -/
theorem accepted_predicate {fields : Fields} {tree : ConditionTree}
    (hkeys : keysOf fields = predicateKeys) (h : loadPredicate (.dict fields) = .ok tree) :
    Accepted (.dict fields) tree := by
  obtain ⟨field, op, value, hfield, hblank, hop, known, hvalue, rfl⟩ := loadPredicate_ok_iff.mp h
  refine ⟨.predicate hkeys hfield hblank hop known hvalue, .predicate hkeys hfield hop hvalue, ?_⟩
  have hstripped : NotBlank (strip field) := by
    by_contra hnot
    rw [← strip_eq_empty_iff, strip_strip, strip_eq_empty_iff] at hnot
    exact hnot hblank
  rw [ConditionTree.toJson, loadDict_ok_iff]
  refine .inl ⟨rfl, loadPredicate_ok_iff.mpr ?_⟩
  exact ⟨strip field, op, value, rfl, hstripped, rfl, known, rfl, by rw [strip_strip]⟩

/-- **What the loader accepts is in the grammar**, and comes out as it went in. -/
theorem accepted_of_load {raw : Json} {tree : ConditionTree}
    (h : loadConditionTree raw = .ok tree) : Accepted raw tree := by
  -- only a dict is loaded
  cases raw with
  | dict fields =>
    rcases loadDict_ok_iff.mp h with ⟨hkeys, hload⟩ | ⟨kind, known, hkeys, hload⟩
    · exact accepted_predicate hkeys hload
    · obtain ⟨children, trees, hchildren, htrees, rfl⟩ := loadCombinator_ok_iff.mp hload
      have hnodes : List.Forall₂ Accepted children trees :=
        forall₂_imp_of_mem (mapM_ok_iff.mp htrees) fun child hchild subtree hsubtree =>
          accepted_of_load hsubtree
      refine ⟨.combinator hkeys known hchildren fun child hchild => ?_,
        .combinator hkeys hchildren (hnodes.imp fun _ _ hnode => hnode.mirrors), ?_⟩
      · obtain ⟨_, _, hnode⟩ := exists_of_forall₂_left hnodes hchild
        exact hnode.acceptable
      · rw [ConditionTree.toJson, ConditionTree.toJsonAll_eq, loadDict_ok_iff]
        refine .inr ⟨kind, known, rfl, loadCombinator_ok_iff.mpr
          ⟨trees.map ConditionTree.toJson, trees, List.lookup_cons_self, ?_, rfl⟩⟩
        rw [mapM_ok_iff, List.forall₂_map_left_iff, List.forall₂_same]
        intro subtree hsubtree
        obtain ⟨_, _, hnode⟩ := exists_of_forall₂_right hnodes hsubtree
        exact hnode.reloads
  | _ => simp [loadConditionTree] at h
termination_by sizeOf raw
decreasing_by
  subst raw
  exact sizeOf_child_lt hchildren hchild

/-- The converse, by induction on the derivation. -/
theorem load_of_acceptable {raw : Json} (h : Acceptable raw) :
    ∃ tree, loadConditionTree raw = .ok tree := by
  induction h with
  | @predicate fields field op value keys hasField notBlank hasOp known hasValue =>
    have hload : loadPredicate (.dict fields) = .ok (.predicate (strip field) op value) :=
      loadPredicate_ok_iff.mpr
        ⟨field, op, value, hasField, notBlank, hasOp, known, hasValue, rfl⟩
    exact ⟨_, loadDict_ok_iff.mpr (.inl ⟨keys, hload⟩)⟩
  | @combinator fields kind children keys known hasChildren nodes ih =>
    obtain ⟨trees, htrees⟩ := mapM_isOk ih
    have hload : loadCombinator kind fields = .ok (.combinator kind trees) :=
      loadCombinator_ok_iff.mpr ⟨children, trees, hasChildren, htrees, rfl⟩
    exact ⟨_, loadDict_ok_iff.mpr (.inr ⟨kind, known, keys, hload⟩)⟩

/-- A combinator is looked up under a key that is there. -/
theorem loadCombinator_refuses {kind : String} {fields : Fields} (hkey : kind ∈ keysOf fields)
    (hchildren : ∀ children, fields.lookup kind = some (.list children) →
      RaisesOnly PyErr.TypeOrValue (children.mapM loadConditionTree)) :
    RaisesOnly PyErr.TypeOrValue (loadCombinator kind fields) := by
  induction fields with
  | nil => simp [keysOf] at hkey
  | cons entry rest ih =>
    obtain ⟨name, childrenRaw⟩ := entry
    rw [loadCombinator.eq_def]
    simp only
    -- the loop stops at the key of the combinator
    by_cases hname : name = kind
    · subst hname
      rw [if_pos rfl]
      cases childrenRaw with
      | list children =>
        simp only
        rw [loadChildren_eq]
        exact (hchildren children List.lookup_cons_self).bind fun _ _ => .pure _
      | _ => exact .error (.typeError _)
    · have hbeq : (kind == name) = false := by simpa using Ne.symm hname
      rw [if_neg hname]
      refine ih ?_ fun children hlookup => hchildren children ?_
      · simpa [keysOf, Ne.symm hname] using hkey
      · rw [List.lookup_cons, hbeq]
        exact hlookup

/-- **The rest is refused** with one of the two documented exceptions. -/
theorem loadConditionTree_refuses (raw : Json) :
    RaisesOnly PyErr.TypeOrValue (loadConditionTree raw) := by
  cases raw with
  | dict fields =>
    rw [loadConditionTree]
    refine (nodeKind_refuses _).bind fun found hfound => ?_
    -- the keys of the node were checked, so its parts are found
    rcases nodeKind_ok hfound with ⟨rfl, hkeys⟩ | ⟨kind, known, rfl, hkeys⟩
    · exact loadPredicate_refuses hkeys
    · have hkey : kind ∈ keysOf fields := by
        rw [show keysOf fields = {kind} from hkeys]
        exact Finset.mem_singleton_self kind
      exact loadCombinator_refuses hkey fun children hchildren =>
        .mapM fun child hchild => loadConditionTree_refuses child
  | _ =>
    rw [loadConditionTree]
    · exact .error (.typeError _)
    · exact fun _ h => by cases h
termination_by sizeOf raw
decreasing_by
  subst raw
  exact sizeOf_child_lt hchildren hchild

/-! ## The law

The loader accepts the grammar and nothing else, and says what it read. -/

/-- **The condition parser accepts exactly its grammar.** -/
theorem condition_grammar (raw : Json) :
    ((∃ tree, loadConditionTree raw = .ok tree) ↔ Acceptable raw) ∧
      (∀ tree, loadConditionTree raw = .ok tree →
        Mirrors raw tree ∧ loadConditionTree tree.toJson = .ok tree) ∧
      ∀ err, loadConditionTree raw = .error err →
        err.kind = .typeError ∨ err.kind = .valueError := by
  refine ⟨⟨fun ⟨tree, h⟩ => (accepted_of_load h).acceptable, load_of_acceptable⟩, ?_, ?_⟩
  · intro tree h
    have haccepted := accepted_of_load h
    exact ⟨haccepted.mirrors, haccepted.reloads⟩
  · exact fun err herr => loadConditionTree_refuses raw err herr

end Condition

end Ragcore
