import Ragcore.Snapshot.OnHeap
import Ragcore.Snapshot.Taxonomy

/-!
# Ragcore — a restore leaves the snapshot as it was

The restore over the heap against the restore as a function: from any heap in which the snapshot
loads to `s`, the one ends as the other does on `s`, and every object there was, the snapshot's
own included, is as it was. A decoder is compared with its function in one lemma, by the rules of
`Lib.Heap`; the writes are to copies made since.

* **`Decodes`** — a program computes a function of the value it is given, and writes to nothing
  that was there.
* **`copyWithScore_mirrors`** — the copy the scored records write to.
* **`migrate_mirrors`** — the migrated snapshot is a new object that loads to the migrated value.
* **`restore_contract`** — a restore ends in an engine or in `TypeError` or `ValueError`, and never
  modifies the snapshot.
-/

namespace Ragcore

namespace Snapshot

namespace OnHeap

open Heap

variable {depth : Nat} {start h : Heap ScoreValue} {α β : Type}

/-! ## Steps that read

Each step on the heap is the step on the value it loads to, and leaves the heap. -/

theorem raise_mirrors (grown : start.Extends h) (x : Except PyErr α) :
    Mirrors start h (fun a b h' => h' = h ∧ a = b) (raise x) x := .read grown (.same x)

theorem reads_mirrors {v : Val} {j : Json} (grown : start.Extends h)
    (loaded : h.Loads (depth + 1) v j) (f : Json → Except PyErr α) :
    Mirrors start h (fun a b h' => h' = h ∧ a = b) (reads depth f v) (f j) := by
  refine .read grown ?_
  show SameOutcome _ (h.load (depth + 1) v >>= f) (f j)
  rw [show h.load (depth + 1) v = .ok j from loaded]
  exact .same (f j)

/-- A check that reads no object, and what follows it. -/
theorem raise_bind (grown : start.Extends h) (x : Except PyErr α) {γ δ : Type}
    {post : γ → δ → Heap ScoreValue → Prop} {next : α → SnapshotM γ} {next' : α → Except PyErr δ}
    (rest : ∀ a, Mirrors start h post (next a) (next' a)) :
    Mirrors start h post (raise x >>= next) (x >>= next') := by
  refine .bind (raise_mirrors grown x) fun a b h' _ found => ?_
  obtain ⟨rfl, rfl⟩ := found
  exact rest a

/-- A function of a whole value, and what follows it. -/
theorem reads_bind {v : Val} {j : Json} (grown : start.Extends h)
    (loaded : h.Loads (depth + 1) v j) (f : Json → Except PyErr α) {γ δ : Type}
    {post : γ → δ → Heap ScoreValue → Prop} {next : α → SnapshotM γ} {next' : α → Except PyErr δ}
    (rest : ∀ a, Mirrors start h post (next a) (next' a)) :
    Mirrors start h post (reads depth f v >>= next) (f j >>= next') := by
  refine .bind (reads_mirrors grown loaded f) fun a b h' _ found => ?_
  obtain ⟨rfl, rfl⟩ := found
  exact rest a

theorem getItem_mirrors {v : Val} {j : Json} (grown : start.Extends h)
    (loaded : h.Loads (depth + 1) v j) (name : String) :
    Mirrors start h (fun item k h' => h' = h ∧ h.Loads (depth + 1) item k) (getItem v name)
      (j.getItem name) := .read grown (getItem_loaded name loaded)

/-- The items of a list or the keys of a dict. -/
theorem iterate_mirrors {v : Val} {j : Json} (grown : start.Extends h)
    (loaded : h.Loads (depth + 1) v j) :
    Mirrors start h (fun items js h' => h' = h ∧ List.Forall₂ (h.Loads (depth + 1)) items js)
      (iterate v) j.iterate := .read grown (iterate_loaded loaded)

/-! ## Decoders

A decoder on the heap agrees with the decoder of values on every value that loads. -/

/-- From any heap in which its argument loads, the program computes the function of that value,
and every object there was is as it was. -/
def Decodes (depth : Nat) (x : Val → SnapshotM α) (f : Json → Except PyErr α) : Prop :=
  ∀ (h : Heap ScoreValue) (v : Val) (j : Json), h.Loads (depth + 1) v j →
    Mirrors h h (fun a b _ => a = b) (x v) (f j)

theorem reads_decodes (f : Json → Except PyErr α) : Decodes depth (reads depth f) f :=
  fun h _ _ loaded => (reads_mirrors (.refl h) loaded f).imp fun _ _ _ same => same.2

/-- A loop that decodes each element. -/
theorem Decodes.list {x : Val → SnapshotM α} {f : Json → Except PyErr α}
    (decodes : Decodes depth x f) :
    Decodes depth (fun v => do
      let items ← iterate v
      items.mapM x) (fun j => do
      let items ← j.iterate
      items.mapM f) := by
  intro h v j loaded
  refine .bind (iterate_mirrors (.refl h) loaded) fun items js h' _ found => ?_
  obtain ⟨rfl, all⟩ := found
  refine (Mirrors.mapM (Q := fun a b => a = b) all fun item k inner h₁ grown => ?_).imp
    fun as bs _ same => ?_
  · exact decodes h₁ item k (load_mono grown (Nat.le_refl _) inner)
  · rwa [List.forall₂_eq_eq_eq] at same

theorem restoreDict_decodes {κ : Type} [DecidableEq κ] {readKey : Json → Option κ}
    {x : Val → SnapshotM α} {f : Json → Except PyErr α} (decodes : Decodes depth x f) :
    Decodes depth (restoreDict depth readKey x) (Snapshot.restoreDict readKey f) := by
  intro h v j loaded
  refine .bind (iterate_mirrors (.refl h) loaded) fun items js h' _ found => ?_
  obtain ⟨rfl, all⟩ := found
  refine .bind (Mirrors.mapM (Q := fun p q => p = q) all fun item entry inner h₁ grown => ?_)
    fun pairs pairs' h₂ grown same => ?_
  · have inner := load_mono grown (Nat.le_refl _) inner
    refine .bind (getItem_mirrors (.refl h₁) inner "key") fun key k h₂ grown₂ found => ?_
    obtain ⟨rfl, loadedKey⟩ := found
    refine reads_bind grown₂ loadedKey _ fun a => ?_
    refine .bind (getItem_mirrors grown₂ inner "value") fun value w h₃ grown₃ found => ?_
    obtain ⟨rfl, loadedValue⟩ := found
    refine .bind (decodes _ value w loadedValue) fun c d h₄ grown₄ same => ?_
    subst same
    exact .pure grown₄ rfl
  · rw [List.forall₂_eq_eq_eq] at same
    subst same
    exact .pure grown rfl

/-! ## Scored records

These decoders copy the dict and write the decoded score over the field, so they do write to the
heap, to an object of their own. -/

/-- An argument that was not written over is the one in the snapshot. -/
theorem argumentValue_loads {v : Val} {j : Json} (loaded : h.Loads (depth + 1) v j) :
    argumentValue depth h v = .ok j := by
  cases v with
  | object x => exact absurd loaded not_loads_object
  | _ => exact loaded

theorem argumentValue_scoreVal (score : Option ScoreValue) :
    argumentValue depth h (scoreVal score) = .ok .null := by
  cases score <;> rfl

/-- The entries of a dict object as keyword arguments. -/
def Arguments (depth : Nat) (h : Heap ScoreValue) (d : Dict HKey Val) (fields : Dict HKey Json) :
    Prop :=
  List.Forall₂ (EntryRel id fun v j => argumentValue depth h v = .ok j) d.entries fields.entries

theorem Arguments.of_loads {d : Dict HKey Val} {fields : Dict HKey Json}
    (same : h.LoadsDict (depth + 1) d fields) : Arguments depth h d fields :=
  same.imp fun _ _ related => ⟨related.1, argumentValue_loads related.2⟩

theorem Arguments.write {d : Dict HKey Val} {fields : Dict HKey Json}
    (same : Arguments depth h d fields) (name : String) (score : Option ScoreValue) :
    Arguments depth h (d.insert (.str name) (scoreVal score)) (fields.insert (.str name) .null) :=
  insertEntry_related Function.injective_id same (.str name) (argumentValue_scoreVal score)

/-- The score that was written is read back. -/
theorem scoreArgument_written (d : Dict HKey Val) (name : String) (score : Option ScoreValue) :
    scoreArgument (d.insert (.str name) (scoreVal score)) name = score := by
  unfold scoreArgument
  rw [Dict.get?_insert_self]
  cases score <;> rfl

/-- The arguments a dict object makes, its values read one by one. -/
theorem argumentsOf_run {loc : Nat} {d : Dict HKey Val} {fields : Dict HKey Json}
    (found : h.objects[loc]? = some (.dict d))
    (same : Arguments depth h d fields) :
    argumentsOf depth loc h = .ok (d, fields) h := by
  have values : (d.entries.mapM fun p => do
      let j ← argumentValue depth h p.2
      return (p.1, j)) = .ok fields.entries := by
    refine mapM_ok_iff.mpr (same.imp fun p q related => ?_)
    rw [related.1, related.2]
    rfl
  have rebuilt : Dict.ofFields fields.entries = fields :=
    Dict.ext (Dict.entries_ofFields fields.nodup)
  have entries : h.entriesOf (.ref loc) = .ok d := by simp only [entriesOf, found]
  exact run_readState_ok (bind_ok_iff.mpr ⟨d, entries, bind_ok_iff.mpr
    ⟨fields.entries, values, by rw [rebuilt]; rfl⟩⟩)

/-- What a decoder reads of a scored record before it calls the class. -/
def scoredDict (name : String) (j : Json) : Except PyErr (Dict HKey Json × Option ScoreValue) := do
  let d ← j.dictOf
  let score ← svFromDict (← dictItem d name)
  return (d, score)

/-- The copy is new, so the snapshot is as it was. -/
theorem copyWithScore_mirrors {v : Val} {j : Json} (loaded : h.Loads (depth + 1) v j)
    (name : String) :
    Mirrors h h (fun p q _ => p.2 = q.1.insert (.str name) .null ∧
        scoreArgument p.1 name = q.2 ∧ q.1.contains (.str name) = true)
      (copyWithScore depth name v) (scoredDict name j) := by
  refine .bind (Mirrors.dictOf (.refl h) loaded) fun loc d' h₁ grown copied => ?_
  obtain ⟨d, rfl, rfl, same⟩ := copied
  have found := objects_push_length h (.dict d)
  have kept := same.mono grown
  refine .bind (.read grown (getItem_dict found kept name)) fun item k h₁ grown₁ got => ?_
  obtain ⟨rfl, loadedItem, there⟩ := got
  refine reads_bind grown₁ loadedItem svFromDict fun score => ?_
  -- the write is to the copy, which `h` does not have
  obtain ⟨h₂, run, grown₂, found₂, -⟩ :=
    setItem_fresh grown (Extends.absent (.refl h)) found name (scoreVal score)
  refine .step run ?_
  have arguments := (Arguments.of_loads (same.mono grown₂)).write name score
  exact .ret (argumentsOf_run found₂ arguments) grown₂
    ⟨rfl, scoreArgument_written d name score, there⟩

/-- A scored record up to the call of its class. -/
theorem copyWithScore_bind {v : Val} {j : Json} (loaded : h.Loads (depth + 1) v j) {name : String}
    {f : Dict HKey Val × Dict HKey Json → SnapshotM α}
    {g : Dict HKey Json → Option ScoreValue → Except PyErr β}
    {post : α → β → Heap ScoreValue → Prop}
    (next : ∀ arguments d h', h.Extends h' → d.contains (.str name) = true →
      Mirrors h h' post (f (arguments, d.insert (.str name) .null))
        (g d (scoreArgument arguments name))) :
    Mirrors h h post (copyWithScore depth name v >>= f) (do
      let d ← j.dictOf
      let score ← svFromDict (← dictItem d name)
      g d score) := by
  have whole : (do
      let d ← j.dictOf
      let score ← svFromDict (← dictItem d name)
      g d score) = scoredDict name j >>= fun p => g p.1 p.2 := by
    simp only [scoredDict, bind_assoc, pure_bind]
  rw [whole]
  refine .bind (copyWithScore_mirrors loaded name) fun p q h' grown written => ?_
  obtain ⟨arguments, fields⟩ := p
  obtain ⟨d, score⟩ := q
  obtain ⟨rfl, read, there⟩ := written
  dsimp only at read there ⊢
  subst read
  exact next arguments d h' grown there

/-- The decoders of scored records, one by one. -/
theorem claimFromDict_decodes :
    Decodes depth (claimFromDict depth) Snapshot.claimFromDict := by
  intro h v j loaded
  refine copyWithScore_bind loaded fun arguments d h₁ grown there => ?_
  simp (disch := decide) only [argument_insert_of_ne]
  rw [bindArguments_insert (by decide) .null "Claim" (.inl there)]
  refine raise_bind grown _ fun _ => ?_
  refine raise_bind grown _ fun id => ?_
  exact .pure grown rfl

theorem evidenceFromDict_decodes :
    Decodes depth (evidenceFromDict depth) Snapshot.evidenceFromDict := by
  intro h v j loaded
  refine copyWithScore_bind loaded fun arguments d h₁ grown there => ?_
  simp (disch := decide) only [argument_insert_of_ne]
  rw [bindArguments_insert (by decide) .null "Evidence" (.inl there)]
  refine raise_bind grown _ fun _ => ?_
  refine raise_bind grown _ fun id => ?_
  refine raise_bind grown _ fun claimId => ?_
  exact .pure grown rfl

theorem gapFromDict_decodes : Decodes depth (gapFromDict depth) Snapshot.gapFromDict := by
  intro h v j loaded
  refine copyWithScore_bind loaded fun arguments d h₁ grown there => ?_
  simp (disch := decide) only [argument_insert_of_ne]
  rw [bindArguments_insert (by decide) .null "Gap" (.inl there)]
  refine raise_bind grown _ fun _ => ?_
  refine raise_bind grown _ fun id => ?_
  exact .pure grown rfl

theorem ruleDefFromDict_decodes :
    Decodes depth (ruleDefFromDict depth) Snapshot.ruleDefFromDict := by
  intro h v j loaded
  refine copyWithScore_bind loaded fun arguments d h₁ grown there => ?_
  simp (disch := decide) only [argument_insert_of_ne]
  rw [bindArguments_insert (by decide) .null "RuleDefinition" (.inl there)]
  refine raise_bind grown _ fun _ => ?_
  exact .pure grown rfl

theorem getArgument_run {loc : Nat} {d : Dict HKey Val} (found : h.objects[loc]? = some (.dict d))
    (name : String) : getArgument loc name h = .ok (d.getD (.str name) .null) h :=
  run_readState_ok (by simp only [entriesOf, found]; rfl)

/-- An argument, or `None` where it is missing. -/
theorem argument_loads {d : Dict HKey Val} {fields : Dict HKey Json}
    (same : h.LoadsDict (depth + 1) d fields) (name : String) :
    h.Loads (depth + 1) (d.getD (.str name) .null) (argument fields name .null) := by
  have related := same.get? (.str name)
  unfold argument Dict.getD
  generalize d.get? (.str name) = item at related ⊢
  generalize fields.get? (.str name) = expected at related ⊢
  cases related with
  | none => exact loads_scalar_iff.mpr rfl
  | some loaded => exact loaded

/-- A second score goes under a name of its own. -/
theorem scoreArgument_insert_of_ne {d : Dict HKey Val} {name other : String}
    (different : name ≠ other) (v : Val) :
    scoreArgument (d.insert (.str name) v) other = scoreArgument d other := by
  unfold scoreArgument
  rw [Dict.get?_insert_of_ne d v (by simpa using different)]

theorem ruleStatsFromDict_decodes :
    Decodes depth (ruleStatsFromDict depth) Snapshot.ruleStatsFromDict := by
  intro h v j loaded
  refine .bind (Mirrors.dictOf (.refl h) loaded) fun loc fields h₁ grown copied => ?_
  obtain ⟨d, rfl, rfl, same⟩ := copied
  have absent := Extends.absent (.refl h)
  have found := objects_push_length h (.dict d)
  -- `d["observed_precision"] = ...`
  refine .step (getArgument_run found _) ?_
  refine reads_bind grown (argument_loads (same.mono grown) _) svFromDict fun precision => ?_
  obtain ⟨h₂, run, grown₂, found₂, -⟩ :=
    setItem_fresh grown absent found "observed_precision" (scoreVal precision)
  refine .step run ?_
  -- `d["false_positive_rate"] = ...`
  refine .step (getArgument_run found₂ _) ?_
  rw [Dict.getD_insert, if_neg (by decide)]
  refine reads_bind grown₂ (argument_loads (same.mono grown₂) _) svFromDict fun rate => ?_
  obtain ⟨h₃, run, grown₃, found₃, -⟩ :=
    setItem_fresh grown₂ absent found₂ "false_positive_rate" (scoreVal rate)
  refine .step run ?_
  -- `RuleStats(**d)`
  have arguments := ((Arguments.of_loads (same.mono grown₃)).write "observed_precision"
    precision).write "false_positive_rate" rate
  refine .step (argumentsOf_run found₃ arguments) ?_
  simp (disch := decide) only [argument_insert_of_ne]
  rw [scoreArgument_written, scoreArgument_insert_of_ne (by decide), scoreArgument_written,
    bindArguments_insert (by decide) .null "RuleStats" (.inr (by decide)),
    bindArguments_insert (by decide) .null "RuleStats" (.inr (by decide))]
  refine raise_bind grown₃ _ fun _ => ?_
  exact .pure grown₃ rfl

/-! ## The restore

The whole restore on the heap against the restore of values. -/

/-- One store of the snapshot: its collection is looked up and decoded. -/
theorem Decodes.field {x : Val → SnapshotM α} {f : Json → Except PyErr α}
    (decodes : Decodes depth x f) {v : Val} {j : Json} {name : String} {γ δ : Type}
    {post : γ → δ → Heap ScoreValue → Prop} {next : α → SnapshotM γ} {next' : α → Except PyErr δ}
    (grown : start.Extends h) (loaded : h.Loads (depth + 1) v j)
    (rest : ∀ a h', start.Extends h' → h'.Loads (depth + 1) v j →
      Mirrors start h' post (next a) (next' a)) :
    Mirrors start h post (do
      let collection ← getItem v name
      let a ← x collection
      next a) (do
      let collection ← j.getItem name
      let a ← f collection
      next' a) := by
  refine .bind (getItem_mirrors grown loaded name) fun item k h₁ grown₁ found => ?_
  obtain ⟨rfl, loadedItem⟩ := found
  refine .bind (Mirrors.call grown₁ (decodes _ item k loadedItem)) fun a b h₂ grown₂ found => ?_
  obtain ⟨kept, rfl⟩ := found
  exact rest a h₂ grown₂ (load_mono kept (Nat.le_refl _) loaded)

theorem decodeStores_decodes : Decodes depth (decodeStores depth) Snapshot.decodeStores := by
  intro h v j loaded
  have grown : h.Extends h := .refl h
  refine reads_bind grown loaded _ fun _ => ?_
  refine reads_bind grown loaded _ fun nextId => ?_
  refine .step (run_readState_ok (bind_ok_iff.mpr ⟨j, loaded, rfl⟩)) ?_
  -- one store a step, in the order of the source
  refine (restoreDict_decodes (reads_decodes _)).field grown loaded fun _ _ grown loaded => ?_
  refine (restoreDict_decodes (reads_decodes _)).field grown loaded fun _ _ grown loaded => ?_
  refine (restoreDict_decodes claimFromDict_decodes).field grown loaded fun _ _ grown loaded => ?_
  refine (restoreDict_decodes evidenceFromDict_decodes).field grown loaded
    fun _ _ grown loaded => ?_
  refine (restoreDict_decodes (reads_decodes _)).field grown loaded fun _ _ grown loaded => ?_
  refine (restoreDict_decodes gapFromDict_decodes).field grown loaded fun _ _ grown loaded => ?_
  refine (restoreDict_decodes ruleDefFromDict_decodes).field grown loaded
    fun _ _ grown loaded => ?_
  refine (restoreDict_decodes ruleStatsFromDict_decodes).field grown loaded
    fun _ _ grown loaded => ?_
  refine (restoreDict_decodes (reads_decodes _)).field grown loaded fun _ _ grown loaded => ?_
  refine (restoreDict_decodes (reads_decodes _)).field grown loaded fun _ _ grown loaded => ?_
  refine (restoreDict_decodes (reads_decodes _)).field grown loaded fun _ _ grown loaded => ?_
  refine (restoreDict_decodes (reads_decodes _)).field grown loaded fun _ _ grown loaded => ?_
  refine (restoreDict_decodes (reads_decodes _)).field grown loaded fun _ _ grown loaded => ?_
  refine (restoreDict_decodes (reads_decodes _).list).field grown loaded
    fun _ _ grown loaded => ?_
  refine (reads_decodes _).field grown loaded fun _ _ grown loaded => ?_
  exact .pure grown rfl

/-- The handler turns the same exceptions into the same. -/
theorem keyErrorAsValueError_mirrors {x : SnapshotM α} {y : Except PyErr α}
    (first : Mirrors start h (fun a b _ => a = b) x y) :
    Mirrors start h (fun a b _ => a = b) (keyErrorAsValueError x)
      (Snapshot.keyErrorAsValueError y) := by
  unfold Mirrors Follows at first ⊢
  unfold keyErrorAsValueError
  -- the same exception on both sides goes through the same handler
  cases run : x h with
  | ok a h' =>
    rw [run] at first
    obtain ⟨grown, b, rfl, rfl⟩ := first
    exact ⟨grown, a, rfl, rfl⟩
  | error err h' =>
    rw [run] at first
    obtain ⟨grown, rfl⟩ := first
    obtain ⟨kind, message⟩ := err
    cases kind <;> exact ⟨grown, rfl⟩

/-- The migration of a version-1 snapshot: a new dict, written to twice. -/
theorem migrateSnapshotV1ToV2_run {loc : Nat} {fields : Fields}
    (placed : h.DictAt depth loc fields) :
    ∃ out h', migrateSnapshotV1ToV2 (.ref loc) h = .ok (.ref out) h' ∧ h.Extends h' ∧
      h'.DictAt (depth + 1) out (Snapshot.migrateSnapshotV1ToV2 fields) := by
  obtain ⟨d, found, all⟩ := placed
  have entries : h.entriesOf (.ref loc) = .ok d := by simp only [entriesOf, found]
  have copied : dictOf (.ref loc) h = .ok h.objects.length (h.push (.dict d)) := by
    unfold dictOf
    rw [run_readState_bind, entries]
    rfl
  have absent := Extends.absent (.refl h)
  obtain ⟨h₂, run₂, grown₂, found₂, -⟩ := setItem_fresh (extends_push h (.dict d)) absent
    (objects_push_length h _) "schema_version" (.int 2)
  have found₃ := extends_push h₂ (.list []) _ _ found₂
  obtain ⟨h₄, run₄, grown₄, found₄, others⟩ :=
    setItem_fresh (grown₂.trans (extends_push h₂ (.list []))) absent found₃ "hint_evidence_types"
      (.ref h₂.objects.length)
  -- the new list is not the new dict, so the last write leaves it empty
  have apart : h.objects.length ≠ h₂.objects.length := by
    intro same
    rw [same] at found₂
    simp at found₂
  have none₄ := (others _ apart).trans (objects_push_length h₂ (.list []))
  refine ⟨h.objects.length, h₄, ?_, grown₄, _, found₄, ?_⟩
  · unfold migrateSnapshotV1ToV2
    rw [run_bind, copied]
    dsimp only
    rw [run_bind, run₂]
    dsimp only
    rw [run_bind, alloc_run]
    dsimp only
    rw [run_bind, run₄]
    rfl
  · have base : List.Forall₂ (EntryRel .str (h₄.Loads (depth + 1))) d.entries fields :=
      all.imp fun _ _ same => ⟨same.1, load_mono grown₄ (Nat.le_succ depth) same.2⟩
    have noHints : h₄.Loads (depth + 1) (.ref h₂.objects.length) (.list []) :=
      load_ref_ok_iff.mpr (.inl ⟨[], [], none₄, rfl, .nil⟩)
    exact insertEntry_related str_injective (insertEntry_related str_injective base
      "schema_version" (loads_scalar_iff.mpr rfl)) "hint_evidence_types" noHints

/-- The end of the migration: the version of what is current, and a copy of it. -/
theorem migrated_mirrors {out : Nat} {fields : Fields} (grown : start.Extends h)
    (placed : h.DictAt depth out fields) (version : Json) :
    Mirrors start h (fun (v : Val) (j : Json) h' => ∃ loc fields, v = .ref loc ∧
        j = .dict fields ∧ h'.DictAt depth loc fields) (do
      let current ← reads depth (fun s => .ok (s.field "schema_version")) (.ref out)
      raise (ensure (current.eq (.int 2))
        (.valueError ["Unsupported snapshot schema_version: ", .value version]))
      let copy ← dictOf (.ref out)
      return HeapVal.ref copy) (do
      ensure (((Json.dict fields).field "schema_version").eq (.int 2))
        (.valueError ["Unsupported snapshot schema_version: ", .value version])
      return Json.dict fields) := by
  refine .step (run_readState_ok (bind_ok_iff.mpr ⟨_, placed.loads, rfl⟩)) ?_
  refine raise_bind grown _ fun _ => ?_
  obtain ⟨h₁, run, grown₁, copy⟩ := placed.copy
  refine .step run ?_
  exact .pure (grown.trans grown₁) ⟨_, fields, rfl, rfl, copy⟩

/-- A snapshot of the first version is copied before its version is written. -/
theorem migrateSnapshotToCurrent_mirrors {loc : Nat} {fields : Fields}
    (loaded : h.Loads depth (.ref loc) (.dict fields)) :
    Mirrors h h (fun v j h' => h'.Loads (depth + 1) v j)
      (migrateSnapshotToCurrent depth (.ref loc)) (Snapshot.migrateSnapshotToCurrent fields) := by
  obtain ⟨inner, rfl, placed⟩ := DictAt.of_loads loaded
  have whole := load_mono (.refl h) (Nat.le_succ (inner + 1)) loaded
  refine .step (run_readState_ok (bind_ok_iff.mpr ⟨_, whole, rfl⟩)) ?_
  have grown : h.Extends h := .refl h
  -- the version's type, its key, and that it is supported
  refine raise_bind grown _ fun _ => ?_
  refine raise_bind grown _ fun key => ?_
  refine raise_bind grown _ fun _ => ?_
  by_cases first : ((Json.dict fields).field "schema_version").eq (.int 1) = true
  · obtain ⟨out, h₂, run, grown₂, migrated⟩ := migrateSnapshotV1ToV2_run placed
    rw [if_pos first, if_pos first]
    refine .step run ((migrated_mirrors grown₂ migrated _).imp fun v j h' current => ?_)
    obtain ⟨copy, fs, rfl, rfl, placed'⟩ := current
    exact placed'.loads
  · rw [if_neg first, if_neg first]
    refine .step rfl ((migrated_mirrors grown (placed.mono grown (Nat.le_succ inner)) _).imp
      fun v j h' current => ?_)
    obtain ⟨copy, fs, rfl, rfl, placed'⟩ := current
    exact placed'.loads

theorem validateAndDecodeSnapshot_mirrors {v : Val} {s : Json} (loaded : h.Loads depth v s) :
    Mirrors h h (fun a b _ => a = b) (validateAndDecodeSnapshot depth v)
      (Snapshot.validateAndDecodeSnapshot s) := by
  have whole := load_mono (.refl h) (Nat.le_succ depth) loaded
  refine .step (run_readState_ok (bind_ok_iff.mpr ⟨s, whole, rfl⟩)) ?_
  -- what is no dict is refused before anything is copied
  cases s with
  | dict fields =>
    rw [if_pos (show (Json.dict fields).isDict = true from rfl)]
    cases v with
    | scalar w plain =>
      obtain rfl := loads_scalar_iff.mp loaded
      cases plain
    | object x => exact absurd loaded not_loads_object
    | ref loc =>
      refine .bind (migrateSnapshotToCurrent_mirrors loaded) fun current j h₁ grown read => ?_
      refine reads_bind grown read _ fun _ => ?_
      exact keyErrorAsValueError_mirrors
        ((Mirrors.call grown (decodeStores_decodes _ _ _ read)).imp fun _ _ _ same => same.2)
  | _ =>
    rw [if_neg (by simp [Json.isDict])]
    exact (reads_mirrors (.refl h) whole _).imp fun _ _ _ same => same.2

theorem fromSnapshot_mirrors {v : Val} {s : Json} (loaded : h.Loads depth v s) (uuid : UuidHex) :
    Mirrors h h (fun a b _ => a = b) (fromSnapshot depth uuid v) (Engine.fromSnapshot uuid s) := by
  refine .bind (validateAndDecodeSnapshot_mirrors loaded) fun decoded _ h₁ grown same => ?_
  subst same
  refine raise_bind grown _ fun _ => ?_
  exact .pure grown rfl

end OnHeap

/-- **The contract of a restore**, for every JSON value. It ends in an engine or in `TypeError`
or `ValueError`; and run on any object that holds the value, it ends that way with every object
there was, and with them the snapshot, as it was. There is such an object for every value whose
dicts have no name twice. -/
theorem restore_contract (uuid : UuidHex) (s : Json) :
    RaisesOnly Declared (Engine.fromSnapshot uuid s) ∧
      (s.distinctNames → ∃ (depth : Nat) (h : Heap ScoreValue) (v : OnHeap.Val),
        h.load depth v = .ok s) ∧
      ∀ (depth : Nat) (h : Heap ScoreValue) (v : OnHeap.Val), h.load depth v = .ok s →
        ∃ h', h.Extends h' ∧ h'.load depth v = .ok s ∧
          ((∃ e, OnHeap.fromSnapshot depth uuid v h = .ok e h' ∧
              Engine.fromSnapshot uuid s = .ok e) ∨
            ∃ err, OnHeap.fromSnapshot depth uuid v h = .error err h' ∧
              Engine.fromSnapshot uuid s = .error err ∧ Declared err) := by
  have declared := fromSnapshot_declared uuid s
  refine ⟨declared, fun distinct => ?_, fun depth h v loaded => ?_⟩
  · obtain ⟨depth, h, v, -, loaded⟩ := Heap.exists_load ⟨[]⟩ s distinct
    exact ⟨depth, h, v, loaded⟩
  · have mirrors := OnHeap.fromSnapshot_mirrors loaded uuid
    unfold Mirrors Follows at mirrors
    -- the heap of either outcome extends the one at the start
    cases run : OnHeap.fromSnapshot depth uuid v h with
    | ok e h' =>
      rw [run] at mirrors
      obtain ⟨grown, _, returned, rfl⟩ := mirrors
      exact ⟨h', grown, Heap.load_mono grown (Nat.le_refl depth) loaded, .inl ⟨e, rfl, returned⟩⟩
    | error err h' =>
      rw [run] at mirrors
      obtain ⟨grown, raised⟩ := mirrors
      exact ⟨h', grown, Heap.load_mono grown (Nat.le_refl depth) loaded,
        .inr ⟨err, rfl, raised, declared err raised⟩⟩

/-- The version-1 snapshot of an empty engine. -/
def emptyVersion1 : Json :=
  .dict [("schema_version", .int 1), ("next_id", .dict []), ("lifecycle_seq", .int 0),
    ("entities", .list []), ("observations", .list []), ("claims", .list []),
    ("evidences", .list []), ("relations", .list []), ("gaps", .list []),
    ("rule_definitions", .list []), ("rule_stats", .list []), ("gap_dedup_index", .list []),
    ("claim_gap_refs", .list []), ("gap_resolutions", .list []), ("contradictions", .list []),
    ("resolved_contradictions", .list []), ("claim_lifecycle_events", .list [])]

/-- It held with one empty list for all its collections. -/
def heapOfEmptyVersion1 : Heap ScoreValue :=
  ⟨[.list [], .dict ∅, .dict ⟨[(.str "schema_version", .int 1), (.str "next_id", .ref 1),
    (.str "lifecycle_seq", .int 0), (.str "entities", .ref 0), (.str "observations", .ref 0),
    (.str "claims", .ref 0), (.str "evidences", .ref 0), (.str "relations", .ref 0),
    (.str "gaps", .ref 0), (.str "rule_definitions", .ref 0), (.str "rule_stats", .ref 0),
    (.str "gap_dedup_index", .ref 0), (.str "claim_gap_refs", .ref 0),
    (.str "gap_resolutions", .ref 0), (.str "contradictions", .ref 0),
    (.str "resolved_contradictions", .ref 0), (.str "claim_lifecycle_events", .ref 0)],
    by decide⟩]⟩

/-- Its restore migrates a copy, returns an engine, and the snapshot is still of version 1. -/
theorem restore_contract_emptyVersion1 :
    ∃ e h', OnHeap.fromSnapshot 2 default (.ref 2) heapOfEmptyVersion1 = .ok e h' ∧
      h'.load 2 (.ref 2) = .ok emptyVersion1 := by
  obtain ⟨h', -, kept, ended⟩ := (restore_contract default emptyVersion1).2.2 2
    heapOfEmptyVersion1 (.ref 2) (by with_unfolding_all rfl)
  rcases ended with ⟨e, run, -⟩ | ⟨err, -, raised, -⟩
  · exact ⟨e, h', run, kept⟩
  · have returned : (Engine.fromSnapshot default emptyVersion1).isOk = true := by
      with_unfolding_all rfl
    rw [raised] at returned
    cases returned

end Snapshot

end Ragcore
