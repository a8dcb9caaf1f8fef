import Ragcore.Rule.OnHeap
import Ragcore.Rule.Runtime

/-!
# Ragcore — the failures of rule compilation

`load_rule_spec` and the four compile functions document `TypeError` and `ValueError`. That is all
they raise, with one exception: a score given as an int without a double ends in `OverflowError`
if every check before its conversion passes.

What compiles is to fire on every engine that has the definition. It does on every engine that
began empty. A restored one may have a definition without statistics, or with counts that are no
numbers, and there `fire_rule` raises.

* **`FailsAsDeclared`** — what is documented, with the rest of the contract: the data is never
  modified, and what compiles fires on the engine.
* **`registerRuleSpec_cases`** — how a definition comes to be registered.
* **`RuleInOrder`** — the files for which all five functions return (`compiles_iff`).
* **`OversizePrior` / `OversizeBase`** — the two conversions that overflow.
* **`StatsReady`** — the statistics a firing needs are there; always so for a run from `Engine()`
  (`statsReady_of_reachable`).
* **`fails_as_declared_iff`** — the contract holds exactly for data that reaches neither conversion
  and engines that have the statistics.
-/

namespace Ragcore

namespace Rule

open Condition (strip)

/-! ## The other compile functions

They refuse with the declared exceptions and nothing else. -/

theorem compileRuleDefinition_valueError (spec : RuleSpec) :
    RaisesOnly (fun err => err.kind = .valueError) (compileRuleDefinition spec) := by
  unfold compileRuleDefinition
  refine .bind (.require rfl) fun _ _ => ?_
  exact .bind (.require rfl) fun _ _ => .pure _

/-- Both names of a definition are in their tables. -/
theorem compileRuleDefinition_ok_iff {spec : RuleSpec} {definition : CompiledDefinition} :
    compileRuleDefinition spec = .ok definition ↔
      ∃ id maturity, ruleIdMap.lookup spec.id = some id ∧
        ruleMaturityMap.lookup spec.maturity = some maturity ∧
        definition = ⟨id, spec.version, maturity, spec.priorConfidence⟩ := by
  unfold compileRuleDefinition
  constructor
  · intro h
    obtain ⟨id, hid, h⟩ := bind_ok_iff.mp h
    obtain ⟨maturity, hmaturity, h⟩ := bind_ok_iff.mp h
    exact ⟨id, maturity, require_ok_iff.mp hid, require_ok_iff.mp hmaturity,
      (Except.ok.inj h).symm⟩
  · rintro ⟨id, maturity, hid, hmaturity, rfl⟩
    refine bind_ok_iff.mpr ⟨id, require_ok_iff.mpr hid, ?_⟩
    exact bind_ok_iff.mpr ⟨maturity, require_ok_iff.mpr hmaturity, rfl⟩

theorem compileRuleDefinition_refuses (spec : RuleSpec) :
    RaisesOnly PyErr.TypeOrValue (compileRuleDefinition spec) :=
  (compileRuleDefinition_valueError spec).mono fun _ => Or.inr

/-- `register_rule_spec` raises `ValueError` with nothing written, for an unknown name or a pair
that is taken, or it leaves the definition where a firing looks for it. -/
theorem registerRuleSpec_cases (spec : RuleSpec) (e : Engine) :
    (∃ err, err.kind = .valueError ∧ registerRuleSpec spec e = .error err e) ∨
      ∃ definition e', compileRuleDefinition spec = .ok definition ∧
        registerRuleSpec spec e = .ok definition e' ∧
        e'.ruleDefinitions.contains (definition.id, definition.version) = true := by
  unfold registerRuleSpec
  rw [run_readState_bind]
  cases hdefinition : compileRuleDefinition spec with
  | error err => exact .inl ⟨err, compileRuleDefinition_valueError spec err hdefinition, rfl⟩
  | ok definition =>
    simp only
    rw [run_bind, Engine.registerRule, run_get_bind]
    -- a pair that is registered is refused
    cases hknown : e.ruleDefinitions.contains (definition.id, definition.version) with
    | true => exact .inl ⟨_, rfl, rfl⟩
    | false =>
      refine .inr ⟨definition, _, rfl, rfl, ?_⟩
      exact Dict.contains_of_get? (Dict.get?_insert_self _ _ _)

theorem compileRuleCondition_refuses (spec : RuleSpec) :
    RaisesOnly PyErr.TypeOrValue (compileRuleCondition spec) :=
  (requiredField_refuses _ _ _).bind fun condition _ => loadConditionTree_refuses condition

theorem compileRuleCondition_ok_iff {spec : RuleSpec} {condition : ConditionTree} :
    compileRuleCondition spec = .ok condition ↔
      ∃ raw, spec.raw.lookup (.str "condition") = some raw ∧
        loadConditionTree raw = .ok condition := by
  unfold compileRuleCondition
  simp only [bind_ok_iff, requiredField_ok_iff]

theorem compileRuleCondition_loaded {spec : RuleSpec} {condition : ConditionTree}
    (h : compileRuleCondition spec = .ok condition) : condition.Loaded := by
  obtain ⟨raw, -, hload⟩ := compileRuleCondition_ok_iff.mp h
  exact loadConditionTree_loaded hload

theorem compileRequiredEvidence_refuses (spec : RuleSpec) :
    RaisesOnly PyErr.TypeOrValue (compileRequiredEvidence spec) := by
  unfold compileRequiredEvidence
  split
  · exact .pure _
  · split
    · exact .pure _
    · exact .pure _
    · refine (RaisesOnly.mapM fun item _ => ?_).bind fun _ _ => .pure _
      unfold evidenceTypeOf
      split
      · exact .require (.valueError _)
      · exact .error (.typeError _)
    · exact .error (.typeError _)

/-- The list of required evidence is left out, is null, or holds names of evidence types only. -/
def EvidenceInOrder (claimBlock : YamlEntries) : Prop :=
  ∀ v, claimBlock.lookup (.str "required_evidence") = some v →
    v = .scalar .null ∨ ∃ items, v = .list items ∧ ∀ item ∈ items, ∃ name evidenceType,
      item = .scalar (.str name) ∧ requiredEvidenceMap.lookup name = some evidenceType

theorem evidenceTypeOf_ok_iff {item : Yaml} {evidenceType : Int} :
    evidenceTypeOf item = .ok evidenceType ↔
      ∃ name, item = .scalar (.str name) ∧
        requiredEvidenceMap.lookup name = some evidenceType := by
  unfold evidenceTypeOf
  constructor
  · intro h
    split at h
    · exact ⟨_, rfl, require_ok_iff.mp h⟩
    · cases h
  · rintro ⟨name, rfl, hname⟩
    exact require_ok_iff.mpr hname

/-- With the claim block found, its list alone decides. -/
theorem compileRequiredEvidence_isOk_iff {spec : RuleSpec} {outputBlock claimBlock : YamlEntries}
    (houtput : spec.raw.lookup (.str "output") = some (.dict outputBlock))
    (hclaim : outputBlock.lookup (.str "claim") = some (.dict claimBlock)) :
    (∃ evidence, compileRequiredEvidence spec = .ok evidence) ↔ EvidenceInOrder claimBlock := by
  have hblock : (subBlock? spec.raw "output").bind (fun block => subBlock? block "claim") =
      some claimBlock := by
    simp only [subBlock?, houtput, Option.bind_some, hclaim]
  unfold compileRequiredEvidence EvidenceInOrder
  rw [hblock]
  simp only
  -- no list, a null, a list, or some other value that is refused
  split
  · rename_i hnone
    exact ⟨fun _ v hv => absurd (hnone.symm.trans hv) (by simp), fun _ => ⟨_, rfl⟩⟩
  · rename_i hnull
    exact ⟨fun _ v hv => .inl (Option.some.inj (hv.symm.trans hnull)), fun _ => ⟨_, rfl⟩⟩
  · rename_i items hitems
    constructor
    · rintro ⟨evidence, h⟩ v hv
      obtain ⟨types, htypes, -⟩ := bind_ok_iff.mp h
      refine .inr ⟨items, Option.some.inj (hv.symm.trans hitems), fun item hitem => ?_⟩
      obtain ⟨evidenceType, -, hread⟩ :=
        exists_of_forall₂_left (mapM_ok_iff.mp htypes) hitem
      obtain ⟨name, hname, hlookup⟩ := evidenceTypeOf_ok_iff.mp hread
      exact ⟨name, evidenceType, hname, hlookup⟩
    · intro h
      rcases h _ hitems with hnull | ⟨_, hsame, hnames⟩
      · cases hnull
      · cases hsame
        obtain ⟨types, htypes⟩ := mapM_isOk (f := evidenceTypeOf) fun item hitem => by
          obtain ⟨name, evidenceType, hname, hlookup⟩ := hnames item hitem
          exact ⟨evidenceType, evidenceTypeOf_ok_iff.mpr ⟨name, hname, hlookup⟩⟩
        exact ⟨⟨types⟩, bind_ok_iff.mpr ⟨types, htypes, rfl⟩⟩
  · rename_i v hnotNull hnotList hv
    constructor
    · rintro ⟨evidence, h⟩
      cases h
    · intro h
      rcases h _ hv with rfl | ⟨items, rfl, -⟩
      · exact (hnotNull rfl).elim
      · exact (hnotList items rfl).elim

/-- The output compiles when its base confidence is a score. -/
theorem compileRuleOutput_isOk_iff {spec : RuleSpec} :
    (∃ output, compileRuleOutput spec = .ok output) ↔
      ∃ claimBlock claimType status reasonCode bc,
        OutputTo spec.raw claimBlock claimType status reasonCode bc ∧ IsScore bc := by
  rw [compileRuleOutput_eq]
  constructor
  · rintro ⟨output, h⟩
    obtain ⟨⟨claimType, status, reasonCode, bc⟩, hfields, h⟩ := bind_ok_iff.mp h
    obtain ⟨baseConfidence, hscore, -⟩ := bind_ok_iff.mp h
    obtain ⟨claimBlock, found⟩ := outputFields_ok_iff.mp hfields
    exact ⟨claimBlock, claimType, status, reasonCode, bc, found,
      (scoreOf_isOk_iff _ bc).mp ⟨baseConfidence, hscore⟩⟩
  · rintro ⟨claimBlock, claimType, status, reasonCode, bc, found, hscore⟩
    obtain ⟨baseConfidence, hscore⟩ :=
      (scoreOf_isOk_iff "output.claim.base_confidence" bc).mpr hscore
    have hfields : outputFields spec.raw = .ok (claimType, status, reasonCode, bc) :=
      outputFields_ok_iff.mpr ⟨claimBlock, found⟩
    exact ⟨_, bind_ok_iff.mpr ⟨_, hfields, bind_ok_iff.mpr ⟨baseConfidence, hscore, rfl⟩⟩⟩

/-- Every status in the map is one `add_claim` admits. -/
theorem compileRuleOutput_status {spec : RuleSpec} {output : RuleOutputTemplate}
    (h : compileRuleOutput spec = .ok output) : ValidStatus (.int output.status) := by
  rw [compileRuleOutput_eq] at h
  obtain ⟨⟨claimType, status, reasonCode, bc⟩, hfields, h⟩ := bind_ok_iff.mp h
  obtain ⟨baseConfidence, -, hsame⟩ := bind_ok_iff.mp h
  cases hsame
  obtain ⟨claimBlock, found⟩ := outputFields_ok_iff.mp hfields
  obtain ⟨name, -, hlookup⟩ := found.hasStatus
  have hmem : status ∈ allowedClaimStatuses :=
    (maps_valid.2.2.2.2.1 (name, status) (Dict.mem_of_lookup hlookup)).2
  simp only [allowedClaimStatuses, List.mem_cons, List.not_mem_nil, or_false] at hmem
  -- the statuses that an output may name
  rcases hmem with rfl | rfl | rfl
  · exact .inl rfl
  · exact .inr (.inl rfl)
  · exact .inr (.inr (.inl rfl))

/-! ## The contract

All that is promised of a rule file, from loading to firing. -/

/-- All five functions return. -/
def Compiles (data : Yaml) (definition : CompiledDefinition) (condition : ConditionTree)
    (output : RuleOutputTemplate) (evidence : RequiredEvidenceTemplate) : Prop :=
  ∃ spec, loadRuleSpec data = .ok spec ∧ compileRuleDefinition spec = .ok definition ∧
    compileRuleCondition spec = .ok condition ∧ compileRuleOutput spec = .ok output ∧
    compileRequiredEvidence spec = .ok evidence

/-- The entries of a rule file in order: the rule `id` in that version, with that condition. -/
structure RuleInOrder (entries : YamlEntries) (id version : Int) (condition : ConditionTree) :
    Prop where
  header : ∃ name maturity prior, HeaderTo entries name version maturity prior ∧ IsScore prior ∧
    ruleIdMap.lookup (strip name) = some id ∧
    ∃ level, ruleMaturityMap.lookup (strip maturity) = some level
  loads : ∃ raw, entries.lookup (.str "condition") = some raw ∧
    loadConditionTree raw = .ok condition
  output : ∃ claimBlock claimType status reasonCode bc,
    OutputTo entries claimBlock claimType status reasonCode bc ∧ IsScore bc ∧
    EvidenceInOrder claimBlock

/-- **What compiles** is a rule file in order. -/
theorem compiles_iff {data : Yaml} {id version : Int} {condition : ConditionTree} :
    (∃ definition output evidence, Compiles data definition condition output evidence ∧
      definition.id = id ∧ definition.version = version) ↔
      ∃ entries, data = .dict entries ∧ RuleInOrder entries id version condition := by
  constructor
  · rintro ⟨definition, output, evidence,
      ⟨spec, hload, hdefinition, hcondition, houtput, hevidence⟩, rfl, rfl⟩
    obtain ⟨hheader, hdata⟩ := loadRuleSpec_ok_iff.mp hload
    obtain ⟨entries, name, version, maturity, prior, score, hsame, header, hscore, hspec⟩ :=
      validateHeader_ok_iff.mp hheader
    cases hdata.symm.trans hsame
    obtain ⟨id, level, hid, hlevel, rfl⟩ := compileRuleDefinition_ok_iff.mp hdefinition
    rw [hspec] at hid hlevel
    obtain ⟨claimBlock, claimType, status, reasonCode, bc, found, hbc⟩ :=
      compileRuleOutput_isOk_iff.mp ⟨output, houtput⟩
    obtain ⟨outputBlock, hblock, hclaim⟩ := found.hasClaim
    refine ⟨spec.raw, hdata, ?_, compileRuleCondition_ok_iff.mp hcondition,
      claimBlock, claimType, status, reasonCode, bc, found, hbc,
      (compileRequiredEvidence_isOk_iff hblock hclaim).mp ⟨evidence, hevidence⟩⟩
    rw [hspec]
    exact ⟨name, maturity, prior, header, (scoreOf_isOk_iff _ prior).mp ⟨score, hscore⟩, hid,
      level, hlevel⟩
  · rintro ⟨entries, rfl, inOrder⟩
    obtain ⟨name, maturity, prior, header, hprior, hid, level, hlevel⟩ := inOrder.header
    obtain ⟨score, hscore⟩ := (scoreOf_isOk_iff "reliability.prior_confidence" prior).mpr hprior
    obtain ⟨claimBlock, claimType, status, reasonCode, bc, found, hbc, hlist⟩ := inOrder.output
    obtain ⟨outputBlock, hblock, hclaim⟩ := found.hasClaim
    let spec : RuleSpec := ⟨⟨strip name, version, strip maturity, score⟩, entries⟩
    have hload : loadRuleSpec (.dict entries) = .ok spec :=
      loadRuleSpec_ok_iff.mpr ⟨validateHeader_ok_iff.mpr
        ⟨entries, name, version, maturity, prior, score, rfl, header, hscore, rfl⟩, rfl⟩
    have hdefinition : compileRuleDefinition spec = .ok ⟨id, version, level, score⟩ :=
      compileRuleDefinition_ok_iff.mpr ⟨id, level, hid, hlevel, rfl⟩
    obtain ⟨output, houtput⟩ := (@compileRuleOutput_isOk_iff spec).mpr
      ⟨claimBlock, claimType, status, reasonCode, bc, found, hbc⟩
    obtain ⟨evidence, hevidence⟩ :=
      (@compileRequiredEvidence_isOk_iff spec _ _ hblock hclaim).mpr hlist
    exact ⟨_, output, evidence, ⟨spec, hload, hdefinition,
      compileRuleCondition_ok_iff.mpr inOrder.loads, houtput, hevidence⟩, rfl, rfl⟩

/-- The contract of loading and compiling `data`, and of firing what compiles on the engine. -/
structure FailsAsDeclared (data : Yaml) (e : Engine) : Prop where
  load : RaisesOnly PyErr.TypeOrValue (loadRuleSpec data)
  definition : ∀ spec, loadRuleSpec data = .ok spec →
    RaisesOnly PyErr.TypeOrValue (compileRuleDefinition spec)
  condition : ∀ spec, loadRuleSpec data = .ok spec →
    RaisesOnly PyErr.TypeOrValue (compileRuleCondition spec)
  output : ∀ spec, loadRuleSpec data = .ok spec →
    RaisesOnly PyErr.TypeOrValue (compileRuleOutput spec)
  evidence : ∀ spec, loadRuleSpec data = .ok spec →
    RaisesOnly PyErr.TypeOrValue (compileRequiredEvidence spec)
  untouched : Untouched data
  /-- What compiles fires where it is registered, for every subject and in every context. -/
  fires : ∀ definition condition output evidence,
    Compiles data definition condition output evidence →
    e.ruleDefinitions.contains (definition.id, definition.version) = true →
    ∀ subjectId, e.entities.contains subjectId = true → ∀ context : Fields,
      ∃ claimId e', fireRule definition condition output subjectId context (some evidence) e =
        .ok claimId e'

/-- If the file is in order, its rule is registered and there is a subject, then the statistics of
the rule are there, and if the condition holds in some context, one firing can be counted. -/
def StatsReady (data : Yaml) (e : Engine) : Prop :=
  ∀ entries id version condition, data = .dict entries →
    RuleInOrder entries id version condition →
    e.ruleDefinitions.contains (id, version) = true →
    (∃ subjectId, e.entities.contains subjectId = true) →
    ∃ stats, e.ruleStats.get? (id, version) = some stats ∧
      ∀ context trace, evaluateWithTrace context condition = .ok trace → trace.result = true →
        Countable stats

/-- The whole header is in order, and the output up to a base confidence that does not convert. -/
def OversizeBase (data : Yaml) : Prop :=
  ∃ entries id version maturity prior, data = .dict entries ∧
    HeaderTo entries id version maturity prior ∧ IsScore prior ∧ OversizeOutput entries

theorem oversizeBase_iff (data : Yaml) :
    OversizeBase data ↔ ∃ spec, loadRuleSpec data = .ok spec ∧ OversizeOutput spec.raw := by
  constructor
  · rintro ⟨entries, id, version, maturity, prior, rfl, header, hscore, houtput⟩
    obtain ⟨score, hscore⟩ := (scoreOf_isOk_iff "reliability.prior_confidence" prior).mpr hscore
    have hheader := validateHeader_ok_iff.mpr
      ⟨entries, id, version, maturity, prior, score, rfl, header, hscore, rfl⟩
    exact ⟨⟨⟨strip id, version, strip maturity, score⟩, entries⟩,
      loadRuleSpec_ok_iff.mpr ⟨hheader, rfl⟩, houtput⟩
  · rintro ⟨spec, hload, houtput⟩
    obtain ⟨hheader, hdata⟩ := loadRuleSpec_ok_iff.mp hload
    obtain ⟨entries, id, version, maturity, prior, score, hsame, header, hscore, -⟩ :=
      validateHeader_ok_iff.mp hheader
    rw [hdata] at hsame
    cases hsame
    exact ⟨spec.raw, id, version, maturity, prior, hdata, header,
      (scoreOf_isOk_iff _ prior).mp ⟨score, hscore⟩, houtput⟩

/-- A run from `Engine()` pairs definitions and statistics, and counts in ints. -/
theorem statsReady_of_reachable (data : Yaml) {s : Session} (reachable : s.Reachable) :
    StatsReady data s.engine := by
  intro entries id version condition _ _ registered _
  have ready := reachable.firingReady
  rw [← ready.rules] at registered
  obtain ⟨stats, found⟩ := Dict.contains_iff.mp registered
  refine ⟨stats, found, fun _ _ _ _ => ?_⟩
  have typed := ready.sound.typed.ruleStats found
  obtain ⟨firing, hfiring⟩ := typed.firingCount
  obtain ⟨confirmedTrue, htrue⟩ := typed.confirmedTrueCount
  obtain ⟨confirmedFalse, hfalse⟩ := typed.confirmedFalseCount
  exact ⟨by rw [hfiring]; trivial, by rw [htrue]; trivial, by rw [hfalse]; trivial⟩

/-- What compiles fires, on an engine with the statistics and on no other. -/
theorem compiled_fires_iff {data : Yaml} {e : Engine} (counters : CountersCover e) :
    (∀ definition condition output evidence,
      Compiles data definition condition output evidence →
      e.ruleDefinitions.contains (definition.id, definition.version) = true →
      ∀ subjectId, e.entities.contains subjectId = true → ∀ context : Fields,
        Returns (fireRule definition condition output subjectId context (some evidence)) e) ↔
      StatsReady data e := by
  have fires : ∀ {definition condition output evidence},
      Compiles data definition condition output evidence →
      ∀ {subjectId}, e.entities.contains subjectId = true → ∀ context : Fields,
      ∃ trace, evaluateWithTrace context condition = .ok trace ∧
        (Returns (fireRule definition condition output subjectId context (some evidence)) e ↔
          ∃ stats, e.ruleStats.get? (definition.id, definition.version) = some stats ∧
            (trace.result = true → Countable stats)) := by
    rintro definition condition output evidence ⟨spec, -, -, hcondition, houtput, -⟩ subjectId
      subject context
    obtain ⟨trace, hevaluated⟩ :=
      evaluateWithTrace_isOk (compileRuleCondition_loaded hcondition) context
    exact ⟨trace, hevaluated,
      fireRule_returns_iff counters subject (compileRuleOutput_status houtput) hevaluated⟩
  constructor
  · intro h entries id version condition hdata inOrder registered ⟨subjectId, subject⟩
    obtain ⟨definition, output, evidence, compiles, rfl, rfl⟩ :=
      compiles_iff.mpr ⟨entries, hdata, inOrder⟩
    -- the empty context shows that the statistics are there
    obtain ⟨_, -, returns⟩ := fires compiles subject []
    obtain ⟨stats, found, -⟩ := returns.mp (h _ _ _ _ compiles registered subjectId subject [])
    refine ⟨stats, found, fun context trace hevaluated holds => ?_⟩
    obtain ⟨trace', hevaluated', returns⟩ := fires compiles subject context
    obtain ⟨stats', found', countable⟩ :=
      returns.mp (h _ _ _ _ compiles registered subjectId subject context)
    cases hevaluated.symm.trans hevaluated'
    cases found.symm.trans found'
    exact countable holds
  · intro h definition condition output evidence compiles registered subjectId subject context
    obtain ⟨entries, hdata, inOrder⟩ :=
      compiles_iff.mp ⟨definition, output, evidence, compiles, rfl, rfl⟩
    obtain ⟨stats, found, countable⟩ :=
      h entries _ _ condition hdata inOrder registered ⟨subjectId, subject⟩
    obtain ⟨trace, hevaluated, returns⟩ := fires compiles subject context
    exact returns.mpr ⟨stats, found, countable context trace hevaluated⟩

/-- **Rule compilation fails as declared** exactly for data whose scores, as far as they are
reached, all convert, and engines that have the statistics of what compiles. The engine is any in
use, restored from any accepted snapshot or not. -/
theorem fails_as_declared_iff {e : Engine} (running : Running e) (data : Yaml) :
    FailsAsDeclared data e ↔
      ¬OversizePrior data ∧ ¬OversizeBase data ∧ StatsReady data e := by
  -- each direction goes through the three parts of the contract
  constructor
  · intro h
    refine ⟨(loadRuleSpec_refuses_iff data).mp h.load, fun hbase => ?_,
      (compiled_fires_iff running.countersCover).mp h.fires⟩
    obtain ⟨spec, hload, houtput⟩ := (oversizeBase_iff data).mp hbase
    exact (compileRuleOutput_refuses_iff spec).mp (h.output spec hload) houtput
  · rintro ⟨hprior, hbase, hstats⟩
    exact {
      load := (loadRuleSpec_refuses_iff data).mpr hprior
      definition := fun spec _ => compileRuleDefinition_refuses spec
      condition := fun spec _ => compileRuleCondition_refuses spec
      output := fun spec hload => (compileRuleOutput_refuses_iff spec).mpr fun houtput =>
        hbase ((oversizeBase_iff data).mpr ⟨spec, hload, houtput⟩)
      evidence := fun spec _ => compileRequiredEvidence_refuses spec
      untouched := untouched data
      fires := (compiled_fires_iff running.countersCover).mpr hstats }

/-- A rule with that prior confidence and that base confidence. -/
def sshRule (prior bc : Yaml) : YamlEntries :=
  [(.str "id", .str "RULE_DOMAIN_SSH_001"), (.str "version", .int 1),
    (.str "maturity", .str "stable"),
    (.str "reliability", .dict [(.str "prior_confidence", prior)]),
    (.str "condition", .dict [(.str "all", .list [])]),
    (.str "output", .dict [(.str "claim", .dict [(.str "type", .str "outdated_ssh_candidate"),
      (.str "status", .str "candidate"), (.str "base_confidence", bc),
      (.str "reason_code", .str "SSH_PORT_OPEN"), (.str "required_evidence", .scalar .null)])])]

theorem sshRule_header (prior bc : Yaml) :
    HeaderTo (sshRule prior bc) "RULE_DOMAIN_SSH_001" 1 "stable" prior where
  hasId := rfl
  idNotBlank := ⟨'R', by decide, by decide⟩
  hasVersion := rfl
  versionInRange := ⟨by decide, by decide⟩
  hasMaturity := rfl
  maturityNotBlank := ⟨'s', by decide, by decide⟩
  hasPrior := ⟨_, rfl, rfl⟩

/-- The rule with scores that convert. -/
def plainSshRule : YamlEntries := sshRule (.float (.fin (1 / 2))) (.float (.fin 1))

theorem plainSshRule_not_oversize :
    ¬OversizePrior (.dict plainSshRule) ∧ ¬OversizeBase (.dict plainSshRule) := by
  constructor
  · rintro ⟨_, _, _, _, prior, hsame, header, hoversize⟩
    cases hsame
    obtain ⟨block, hblock, hprior⟩ := header.hasPrior
    cases hblock
    cases hprior
    exact hoversize
  · rintro ⟨_, _, _, _, _, hsame, -, -, block, _, _, _, bc, output, hoversize⟩
    cases hsame
    obtain ⟨outputBlock, houtput, hclaim⟩ := output.hasClaim
    cases houtput
    cases hclaim
    have hbase := output.hasBaseConfidence
    cases hbase
    exact hoversize

theorem evenOdds_nonneg : (0 : ℚ) ≤ 1 / 2 := by norm_num

theorem evenOdds_le_one : (1 / 2 : ℚ) ≤ 1 := by norm_num

/-- The prior confidence of that rule. -/
def evenOdds : ScoreValue := ⟨1 / 2, evenOdds_nonneg, evenOdds_le_one⟩

/-- The session of an engine with an entity and that rule. -/
def sshSession : Session :=
  (Session.start default).run [.call (.op (.addEntity 1 0)),
    .call (.op (.registerRule 1 1 1 evenOdds))]

theorem fails_as_declared_iff_sshSession :
    FailsAsDeclared (.dict plainSshRule) sshSession.engine :=
  (fails_as_declared_iff ⟨_, _, .fresh default, rfl⟩ _).mpr
    ⟨plainSshRule_not_oversize.1, plainSshRule_not_oversize.2,
      statsReady_of_reachable _ ⟨default, _, rfl⟩⟩

/-- A snapshot of an entity and the definition of that rule, without statistics. -/
def definitionOnly : Json :=
  .dict [
    ("schema_version", .int 2),
    ("next_id", .dict [("entity", .int 1)]),
    ("lifecycle_seq", .int 0),
    ("entities", .list [Snapshot.entry (.int 1)
      (.dict [("id", .int 1), ("type", .int 1), ("flags", .int 0)])]),
    ("observations", .list []), ("claims", .list []), ("evidences", .list []),
    ("relations", .list []), ("gaps", .list []),
    ("rule_definitions", .list [Snapshot.entry (.list [.int 1, .int 1])
      (.dict [("id", .int 1), ("version", .int 1), ("maturity", .int 1),
        ("prior_confidence", .dict [("value", .float (.fin (1 / 2)))])])]),
    ("rule_stats", .list []), ("gap_dedup_index", .list []),
    ("claim_gap_refs", .list []), ("gap_resolutions", .list []),
    ("contradictions", .list []), ("resolved_contradictions", .list []),
    ("claim_lifecycle_events", .list []), ("hint_evidence_types", .list [])]

/-- The stores it restores to. -/
def definitionOnlyEngine : Engine :=
  { Engine.new default with
    nextId := .ofFields [("entity", .int 1)]
    entities := Dict.insert ∅ 1 { id := .int 1, type := .int 1, flags := .int 0 }
    ruleDefinitions := Dict.insert ∅ (1, 1)
      { id := .int 1, version := .int 1, maturity := .int 1
        priorConfidence := some evenOdds } }

theorem plainSshRule_compiles :
    Compiles (.dict plainSshRule) ⟨1, 1, 1, evenOdds⟩
      (.combinator "all" []) ⟨1, 0, ⟨1, by norm_num, by norm_num⟩, 2⟩ ⟨[]⟩ := by
  refine ⟨⟨⟨"RULE_DOMAIN_SSH_001", 1, "stable", evenOdds⟩,
    plainSshRule⟩, ?_, ?_, ?_, ?_, ?_⟩ <;> with_unfolding_all rfl

/-- A prior confidence of `10 ^ 400` ends in `OverflowError`. On an engine that was restored with
the definition alone, the firing of the plain rule ends in `KeyError`. -/
theorem not_fails_as_declared_sshRule :
    ¬FailsAsDeclared (.dict (sshRule (.int (10 ^ 400)) (.float (.fin 0)))) (Engine.new default) ∧
      Engine.fromSnapshot default definitionOnly = .ok definitionOnlyEngine ∧
      ¬FailsAsDeclared (.dict plainSshRule) definitionOnlyEngine := by
  refine ⟨fun h => ?_, by with_unfolding_all rfl, fun h => ?_⟩
  · have hoversize : Oversize (.int (10 ^ 400)) := by
      show (2 : ℤ) ^ 1024 - 2 ^ 970 ≤ |10 ^ 400|
      decide +kernel
    exact (loadRuleSpec_refuses_iff _).mp h.load
      ⟨_, _, _, _, _, rfl, sshRule_header _ _, hoversize⟩
  · obtain ⟨claimId, e', hfired⟩ := h.fires _ _ _ _ plainSshRule_compiles rfl 1 rfl []
    have hmissing : ∃ err, fireRule ⟨1, 1, 1, evenOdds⟩
        (.combinator "all" []) ⟨1, 0, ⟨1, by norm_num, by norm_num⟩, 2⟩ 1 [] (some ⟨[]⟩)
        definitionOnlyEngine = .error err definitionOnlyEngine := ⟨_, rfl⟩
    obtain ⟨err, hmissing⟩ := hmissing
    rw [hfired] at hmissing
    cases hmissing

end Rule

end Ragcore
