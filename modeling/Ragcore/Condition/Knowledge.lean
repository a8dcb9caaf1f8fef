import Ragcore.Condition.Agreement
import Ragcore.Engine.Session

/-!
# Ragcore — conditions under more knowledge

A context is what a consumer knows about a subject. The language has no negation and a missing
field makes every predicate false, `ne` included, so learning more never makes a true condition
false; and a field the condition does not name makes no difference at all.

* **`ConditionTree.Reads`** — the fields a tree names.
* **`evaluateWithTrace_local`** — evaluation, trace included, sees these fields only.
* **`result_mono`** — a result that is true stays true when fields are added.
* **`firing_keeps_firing`** — so a rule that fires goes on firing, with the same effect.
-/

namespace Ragcore

inductive ConditionTree.Reads : ConditionTree → String → Prop
  | predicate {field op : String} {value : Json} : Reads (.predicate field op value) field
  | child {kind field : String} {children : List ConditionTree} {child : ConditionTree}
      (mem : child ∈ children) (reads : child.Reads field) :
      Reads (.combinator kind children) field

namespace Condition

/-! ## Fields that are not read

A condition only reads the fields that its predicates name. -/

mutual

theorem evaluateWithTrace_local {context context' : Fields} {tree : ConditionTree}
    (agree : ∀ field, tree.Reads field → context'.lookup field = context.lookup field) :
    evaluateWithTrace context' tree = evaluateWithTrace context tree := by
  match tree with
  | .predicate field op value =>
    rw [evaluateWithTrace, evaluateWithTrace, tracePredicate, tracePredicate,
      agree field .predicate]
  | .combinator kind children =>
    rw [evaluateWithTrace, evaluateWithTrace,
      evaluateAll_local fun child hchild field reads => agree field (.child hchild reads)]

theorem evaluateAll_local {context context' : Fields} {children : List ConditionTree}
    (agree : ∀ child ∈ children, ∀ field, child.Reads field →
      context'.lookup field = context.lookup field) :
    evaluateAll context' children = evaluateAll context children := by
  match children with
  | [] => rfl
  | child :: rest =>
    rw [evaluateAll, evaluateAll, evaluateWithTrace_local (agree child List.mem_cons_self),
      evaluateAll_local fun c hc => agree c (List.mem_cons_of_mem _ hc)]

end

/-! ## Fields that are added

A field that was missing made its predicate false. With a value it may become true, and no
combinator turns that into a false verdict. -/

/-- `context'` knows what `context` knows about the fields of the tree. -/
def Extends (tree : ConditionTree) (context context' : Fields) : Prop :=
  ∀ field, tree.Reads field → ∀ value, context.lookup field = some value →
    context'.lookup field = some value

/-- A field is learnt that the context lacked, whether the tree reads it or not. -/
theorem Extends.learn {tree : ConditionTree} {context : Fields} {name : String}
    (unknown : context.lookup name = none) (value : Json) :
    Extends tree context ((name, value) :: context) := by
  intro field _ v hv
  rw [List.lookup_cons]
  cases heq : field == name with
  | true =>
    rw [eq_of_beq heq, unknown] at hv
    cases hv
  | false => exact hv

/-- A predicate that holds saw its field. -/
theorem evaluatePredicate_mono {field op : String} {value : Json} {context context' : Fields}
    (extended : ∀ v, context.lookup field = some v → context'.lookup field = some v)
    (h : evaluatePredicate field op value context = .ok true) :
    evaluatePredicate field op value context' = .ok true := by
  cases hactual : context.lookup field with
  | none =>
    rw [evaluatePredicate, hactual] at h
    cases h
  | some actual =>
    rw [evaluatePredicate, extended actual hactual]
    rw [evaluatePredicate, hactual] at h
    exact h

/-- Induction on the tree, by the traces that explain its two results: a combinator is monotone
in the results of its children. -/
theorem result_mono {context context' : Fields} {tree : ConditionTree} (loaded : tree.Loaded)
    (extended : Extends tree context context') {trace trace' : Trace}
    (before : Explains context tree trace) (after : Explains context' tree trace')
    (h : trace.result = true) : trace'.result = true := by
  induction loaded generalizing trace trace' with
  | @predicate field op value known =>
    have hbefore := before.evaluated
    have hafter := after.evaluated
    rw [evaluate, h] at hbefore
    rw [evaluate, evaluatePredicate_mono (extended field .predicate) hbefore] at hafter
    exact (Except.ok.inj hafter).symm
  | @combinator kind children known loaded ih =>
    cases before with
    | @combinator _ _ traces result evaluated explained =>
      cases after with
      | @combinator _ _ traces' result' evaluated' explained' =>
        -- child by child, true stays true
        have hchild : ∀ child ∈ children, ∀ {t t' : Trace}, Explains context child t →
            Explains context' child t' → t.result = true → t'.result = true :=
          fun child hmem t t' ht ht' =>
            ih child hmem (fun field reads => extended field (.child hmem reads)) ht ht'
        simp only [validCombinators, Finset.mem_insert, Finset.mem_singleton] at known
        rcases known with rfl | rfl
        · -- `all`: every child was true
          have hall : traces.all Trace.result = true := by
            rw [evaluate, allHold_of_explains explained] at evaluated
            exact (Except.ok.inj evaluated).trans h
          rw [evaluate, allHold_of_explains explained'] at evaluated'
          rw [show (Trace.combinator "all" traces' result').result = result' from rfl,
            ← Except.ok.inj evaluated', List.all_eq_true]
          intro t' ht'
          obtain ⟨child, hmem, hexplains'⟩ := exists_of_forall₂_right explained' ht'
          obtain ⟨t, ht, hexplains⟩ := exists_of_forall₂_left explained hmem
          exact hchild child hmem hexplains hexplains' (List.all_eq_true.mp hall t ht)
        · -- `any`: the child that was true still is
          have hany : traces.any Trace.result = true := by
            rw [evaluate, anyHolds_of_explains explained] at evaluated
            exact (Except.ok.inj evaluated).trans h
          rw [evaluate, anyHolds_of_explains explained'] at evaluated'
          rw [show (Trace.combinator "any" traces' result').result = result' from rfl,
            ← Except.ok.inj evaluated', List.any_eq_true]
          obtain ⟨t, ht, htrue⟩ := List.any_eq_true.mp hany
          obtain ⟨child, hmem, hexplains⟩ := exists_of_forall₂_right explained ht
          obtain ⟨t', ht', hexplains'⟩ := exists_of_forall₂_left explained' hmem
          exact ⟨t', ht', hchild child hmem hexplains hexplains' htrue⟩

/-- What a condition makes of its context. -/
structure KnowledgeMonotone (tree : ConditionTree) : Prop where
  unread : ∀ context context' : Fields,
    (∀ field, tree.Reads field → context'.lookup field = context.lookup field) →
    evaluateWithTrace context' tree = evaluateWithTrace context tree ∧
      evaluate context' tree = evaluate context tree
  added : ∀ context context' : Fields, Extends tree context context' →
    evaluate context tree = .ok true → evaluate context' tree = .ok true

/-- **Conditions are local and monotone**, for every tree the loader builds. -/
theorem knowledge_monotone {raw : Json} {tree : ConditionTree}
    (h : loadConditionTree raw = .ok tree) : KnowledgeMonotone tree where
  unread context context' agree := by
    have hsame := evaluateWithTrace_local agree
    obtain ⟨trace, htrace, hexplains⟩ :=
      evaluateWithTrace_explains context (loadConditionTree_loaded h)
    obtain ⟨trace', htrace', hexplains'⟩ :=
      evaluateWithTrace_explains context' (loadConditionTree_loaded h)
    refine ⟨hsame, ?_⟩
    rw [htrace, htrace'] at hsame
    rw [hexplains.evaluated, hexplains'.evaluated, Except.ok.inj hsame]
  added context context' extended htrue := by
    obtain ⟨trace, -, hexplains⟩ := evaluateWithTrace_explains context (loadConditionTree_loaded h)
    obtain ⟨trace', -, hexplains'⟩ :=
      evaluateWithTrace_explains context' (loadConditionTree_loaded h)
    rw [hexplains.evaluated] at htrue
    rw [hexplains'.evaluated, result_mono (loadConditionTree_loaded h) extended hexplains
      hexplains' (Except.ok.inj htrue)]

/-- The condition that a person is of age or has a guardian, as a rule file writes it. -/
def adultOrGuarded : Json :=
  .dict [("any", .list [
    .dict [("field", .str "age"), ("op", .str "ge"), ("value", .int 18)],
    .dict [("field", .str "guardian"), ("op", .str "eq"), ("value", .str "present")]])]

def adultOrGuardedTree : ConditionTree :=
  .combinator "any" [.predicate "age" "ge" (.int 18),
    .predicate "guardian" "eq" (.str "present")]

/-- An adult goes on meeting the condition when it is learnt that there is no guardian. -/
theorem knowledge_monotone_adultOrGuarded :
    evaluate [("guardian", .str "absent"), ("age", .int 20)] adultOrGuardedTree = .ok true := by
  have hload : loadConditionTree adultOrGuarded = .ok adultOrGuardedTree := by
    with_unfolding_all rfl
  exact (knowledge_monotone hload).added [("age", .int 20)] _ (Extends.learn rfl _)
    (by with_unfolding_all rfl)

end Condition

/-! ## Firings

The engine gets the verdict of the condition and nothing else of the context. -/

/-- The engine meets the context in the result of the condition only. -/
theorem Engine.fireRuleCore_context {ruleId ruleVersion subjectId : Int}
    {condition : ConditionTree} {output : RuleOutputTemplate} {context context' : Fields}
    {requiredEvidence : Option RequiredEvidenceTemplate} {trace trace' : Trace} (e : Engine)
    (before : Condition.evaluateWithTrace context condition = .ok trace)
    (after : Condition.evaluateWithTrace context' condition = .ok trace')
    (hsame : trace'.result = trace.result) :
    fireRuleCore ruleId ruleVersion condition output subjectId context' requiredEvidence e =
      ((fun firing => { firing with conditionTrace := trace' }) <$>
        fireRuleCore ruleId ruleVersion condition output subjectId context requiredEvidence) e := by
  unfold fireRuleCore
  simp only [map_bind, run_readState_bind, before, after]
  cases e.getRuleStats ruleId ruleVersion with
  | error err => rfl
  | ok stats =>
    -- the context is read for the verdict only, in either case
    cases hresult : trace.result with
    | false =>
      simp only [hsame, hresult, Bool.not_false, if_true]
      rfl
    | true =>
      simp only [hsame, hresult, Bool.not_true, Bool.false_eq_true, if_false, map_bind, map_pure]

theorem Firing.core_context (f : Firing) {context' : Fields} {trace trace' : Trace} (e : Engine)
    (before : Condition.evaluateWithTrace f.context f.condition = .ok trace)
    (after : Condition.evaluateWithTrace context' f.condition = .ok trace')
    (hsame : trace'.result = trace.result) :
    Firing.core { f with context := context' } e =
      ((fun firing => { firing with conditionTrace := trace' }) <$> f.core) e :=
  Engine.fireRuleCore_context e before after hsame

theorem Firing.result_of_fired {f : Firing} {e e' : Engine} {firing : FiringTrace} {trace : Trace}
    (hevaluated : Condition.evaluateWithTrace f.context f.condition = .ok trace)
    (hrun : f.core e = .ok firing e') (hfired : firing.fired = true) : trace.result = true := by
  rw [Firing.core, Engine.fireRuleCore.eq_def, run_readState_bind] at hrun
  cases hstats : e.getRuleStats f.ruleId f.ruleVersion with
  | error err =>
    rw [hstats] at hrun
    cases hrun
  | ok stats =>
    rw [hstats] at hrun
    simp only at hrun
    rw [run_readState_bind, hevaluated] at hrun
    -- a false verdict ends the firing before it makes a claim
    cases hresult : trace.result with
    | true => rfl
    | false =>
      simp only [hresult, Bool.not_false, if_true] at hrun
      cases hrun
      cases hfired

/-- **A rule that fires goes on firing when more is known**, and to the same effect: the same
engine, the same claim and the same gaps. -/
theorem firing_keeps_firing {raw : Json} {f : Firing}
    (hload : Condition.loadConditionTree raw = .ok f.condition) {context' : Fields}
    (extended : Condition.Extends f.condition f.context context') {e e' : Engine}
    {firing : FiringTrace} (hrun : f.core e = .ok firing e') (hfired : firing.fired = true) :
    ∃ trace', trace'.result = true ∧
      Firing.core { f with context := context' } e =
        .ok { firing with conditionTrace := trace' } e' := by
  have loaded := Condition.loadConditionTree_loaded hload
  obtain ⟨trace, htrace, hexplains⟩ := Condition.evaluateWithTrace_explains f.context loaded
  obtain ⟨trace', htrace', hexplains'⟩ := Condition.evaluateWithTrace_explains context' loaded
  have hresult := Firing.result_of_fired htrace hrun hfired
  have hresult' := Condition.result_mono loaded extended hexplains hexplains' hresult
  refine ⟨trace', hresult', ?_⟩
  rw [f.core_context e htrace htrace' (hresult'.trans hresult.symm), run_map, hrun]

/-- The rule of an adult, registered, about entity `1`. -/
def Engine.ageRule : Engine :=
  (Engine.new default).runCalls [.op (.addEntity 1 0),
    .op (.registerRule 1 1 0 ⟨2 / 3, by norm_num, by norm_num⟩)]

def Firing.ofAge : Firing where
  ruleId := 1
  ruleVersion := 1
  condition := Condition.adultOrGuardedTree
  output := ⟨1, 0, ⟨4 / 5, by norm_num, by norm_num⟩, 1⟩
  subjectId := 1
  context := [("age", .int 20)]
  requiredEvidence := none

/-- The rule reads the guardian as well, and fires to the same effect once it is known. -/
theorem firing_keeps_firing_ofAge :
    ∃ firing e', Firing.core
        { Firing.ofAge with context := [("guardian", .str "absent"), ("age", .int 20)] }
        Engine.ageRule = .ok firing e' ∧ firing.claimId = some 1 := by
  have hload : Condition.loadConditionTree Condition.adultOrGuarded =
      .ok Firing.ofAge.condition := by with_unfolding_all rfl
  have houtcome : (outcome (Firing.ofAge.core Engine.ageRule)).toOption.map
      (fun firing => (firing.fired, firing.claimId)) = some (true, some 1) := by
    with_unfolding_all rfl
  cases hrun : Firing.ofAge.core Engine.ageRule with
  | error err e' =>
    rw [hrun] at houtcome
    cases houtcome
  | ok firing e' =>
    rw [hrun, outcome_ok] at houtcome
    obtain ⟨hfired, hclaim⟩ := Prod.ext_iff.mp (Option.some.inj houtcome)
    have extended : Condition.Extends Firing.ofAge.condition Firing.ofAge.context
        [("guardian", .str "absent"), ("age", .int 20)] := Condition.Extends.learn rfl _
    obtain ⟨trace', -, hcore⟩ := firing_keeps_firing hload extended hrun hfired
    exact ⟨_, e', hcore, hclaim⟩

end Ragcore
