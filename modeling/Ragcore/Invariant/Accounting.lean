import Ragcore.Invariant.Firing
import Ragcore.Invariant.Frame

/-!
# Ragcore — rule firing accounting

A firing writes its claim and its count by separate calls, and both stores are open to direct
calls as well. Along a run the two stay accounted for by the public calls that succeeded.

* **`Session.history`** — the public calls of a run with what each returned.
* **`Posted`** — one call adds to both totals of a pair what its record says.
* **`firing_accounting`** — the totals at the end of every run from `Engine()`.
-/

namespace Ragcore

/-! ## What the caller saw

The calls of a session with what they returned: nothing that a caller does not have. -/

/-- A public call with what it returned. -/
abbrev PublicRecord := CallRecord Call PyErr CallRet

namespace PublicRecord

/-- A firing of that rule that fired. -/
def fired (pair : Int × Int) (r : PublicRecord) : Bool :=
  match r.op, r.result with
  | .fireRule f, .ok (.claimId (some _)) => decide (f.pair = pair)
  | .fireRuleWithTrace f, .ok (.trace trace) => trace.fired && decide (f.pair = pair)
  | _, _ => false

/-- The `firing_delta` of a successful `update_rule_stats` on that rule. -/
def firingDelta (pair : Int × Int) (r : PublicRecord) : Int :=
  match r.op, r.result with
  | .op (.updateRuleStats ruleId ruleVersion firingDelta ..), .ok _ =>
    if (ruleId, ruleVersion) = pair then firingDelta else 0
  | _, _ => 0

/-- A successful direct `add_claim` that names that rule. -/
def addedClaim (pair : Int × Int) (r : PublicRecord) : Bool :=
  match r.op, r.result with
  | .op (.addClaim _ _ ruleId ruleVersion ..), .ok _ => decide ((ruleId, ruleVersion) = pair)
  | _, _ => false

end PublicRecord

namespace Session

/-- A round trip is no call. -/
def publicRecords (s : Session) : Action → List PublicRecord
  | .call c => [⟨c, outcome (c.run s.engine)⟩]
  | .roundTrip _ => []

/-- The public calls the actions make, in order. -/
def history (s : Session) : List Action → List PublicRecord
  | [] => []
  | action :: rest => s.publicRecords action ++ (s.act action).history rest

end Session

/-! ## The two totals

What the engine counted, and what the caller can count. -/

/-- A claim names the rule version that created it. -/
def Claim.createdBy (pair : Int × Int) (claim : Claim) : Bool :=
  claim.createdByRule.eq (.int pair.1) && claim.createdByRuleVersion.eq (.int pair.2)

namespace Engine

/-- The number of claims under the rule. -/
def claimsBy (e : Engine) (pair : Int × Int) : Nat := e.claims.values.countP (Claim.createdBy pair)

/-- The `firing_count` of the rule, `0` where it has no statistics. -/
def firingTotal (e : Engine) (pair : Int × Int) : Int :=
  match e.ruleStats.get? pair with
  | some stats => stats.firingCount.exactInt?.getD 0
  | none => 0

/-- The total reads one entry of the statistics. -/
theorem firingTotal_congr {e e' : Engine} {pair : Int × Int}
    (h : e'.ruleStats.get? pair = e.ruleStats.get? pair) :
    e'.firingTotal pair = e.firingTotal pair := by
  unfold firingTotal
  rw [h]

/-- It is the firing count of a registered pair. -/
theorem firingTotal_of_get? {e : Engine} {pair : Int × Int} {stats : RuleStats} {n : Int}
    (h : e.ruleStats.get? pair = some stats) (hn : stats.firingCount = .int n) :
    e.firingTotal pair = n := by
  unfold firingTotal
  rw [h]
  simp [hn]

end Engine

/-- From `e` to `e'` both totals of the pair grow by what the record says. -/
structure Posted (pair : Int × Int) (r : PublicRecord) (e e' : Engine) : Prop where
  firing : e'.firingTotal pair =
    e.firingTotal pair + (if r.fired pair then 1 else 0) + r.firingDelta pair
  claims : e'.claimsBy pair =
    e.claimsBy pair + (if r.fired pair then 1 else 0) + (if r.addedClaim pair then 1 else 0)

/-! ## Mutators

How each call moves the totals: by what its record says it does. -/

section Mutators

variable {pair : Int × Int} {e : Engine}

/-- The comparison of the ids, as ints. -/
theorem Claim.createdBy_int {ruleId ruleVersion : Int} {claim : Claim}
    (hrule : claim.createdByRule = .int ruleId)
    (hversion : claim.createdByRuleVersion = .int ruleVersion) :
    claim.createdBy pair = decide ((ruleId, ruleVersion) = pair) := by
  obtain ⟨r, v⟩ := pair
  simp [Claim.createdBy, hrule, hversion]

/-- Of all writes only `add_claim` changes how many claims a rule has. -/
theorem Writes.claimsBy {e' : Engine} {o : Op} {r : Ret} (h : CountersCover e)
    (hw : Writes e o r e') :
    e'.claimsBy pair = e.claimsBy pair +
      if PublicRecord.addedClaim pair ⟨.op o, .ok (.ret r)⟩ then 1 else 0 := by
  -- only `add_claim` adds a claim, and it names its rule
  cases hw with
  | @addClaim subjectId claimType ruleId ruleVersion reasonCode status flags n _ score subject
      valid fresh =>
    refine (Dict.countP_values_insert_new _ (Engine.fresh_of_covers h.claim fresh)).trans ?_
    rw [Claim.createdBy_int rfl rfl]
    rfl
  | transition found => exact Dict.countP_values_insert_same found rfl
  | setHints onHints =>
    cases o with
    | registerHintEvidenceTypes | unregisterHintEvidenceTypes | clearHintEvidenceTypes => rfl
    | _ => cases onHints
  | _ => rfl

/-- An update that returned adds its delta. -/
theorem updateRuleStats_firingTotal (h : Sound e)
    (ruleId ruleVersion firingDelta trueDelta falseDelta : Int)
    (observedPrecision falsePositiveRate : Option ScoreValue) :
    (finalState (Engine.updateRuleStats ruleId ruleVersion firingDelta trueDelta falseDelta
        observedPrecision falsePositiveRate e)).firingTotal pair =
      e.firingTotal pair +
        match Engine.updateRuleStats ruleId ruleVersion firingDelta trueDelta falseDelta
          observedPrecision falsePositiveRate e with
        | .ok _ _ => if (ruleId, ruleVersion) = pair then firingDelta else 0
        | .error _ _ => 0 := by
  rcases Engine.updateRuleStats_cases ruleId ruleVersion firingDelta trueDelta falseDelta
    observedPrecision falsePositiveRate e with
    ⟨err, hrun⟩ | ⟨current, stats, hcurrent, hstats, hrun⟩
  · rw [hrun]
    exact (add_zero _).symm
  · obtain ⟨n, hn⟩ := (h.typed.ruleStats hcurrent).firingCount
    have hcount : stats.firingCount = .int (n + firingDelta) := by
      obtain ⟨count, hfiring, hrest⟩ := bind_ok_iff.mp hstats
      obtain ⟨_, -, hrest⟩ := bind_ok_iff.mp hrest
      obtain ⟨_, -, hrest⟩ := bind_ok_iff.mp hrest
      cases hrest
      rw [hn, Json.addInt_int] at hfiring
      exact (Except.ok.inj hfiring).symm
    -- both ways of the update write the same record
    have hget : ∃ e', Engine.updateRuleStats ruleId ruleVersion firingDelta trueDelta falseDelta
        observedPrecision falsePositiveRate e = .ok () e' ∧
        e'.ruleStats = e.ruleStats.insert (ruleId, ruleVersion) stats := by
      rcases hrun with ⟨-, hrun⟩ | ⟨-, hrun⟩
      · exact ⟨_, hrun, rfl⟩
      · exact ⟨_, hrun, rfl⟩
    obtain ⟨e', hrun', hinsert⟩ := hget
    rw [hrun']
    change e'.firingTotal pair = e.firingTotal pair + if (ruleId, ruleVersion) = pair then _ else 0
    by_cases hpair : (ruleId, ruleVersion) = pair
    · rw [if_pos hpair, ← hpair, Engine.firingTotal_of_get? hcurrent hn]
      refine Engine.firingTotal_of_get? ?_ hcount
      rw [hinsert, Dict.get?_insert_self]
    · rw [if_neg hpair, add_zero]
      refine Engine.firingTotal_congr ?_
      rw [hinsert, Dict.get?_insert_of_ne _ _ hpair]

/-- A registration starts at zero and refuses a second one. -/
theorem registerRule_firingTotal (h : RulesPaired e) (id version maturity : Int)
    (priorConfidence : ScoreValue) :
    (finalState (Engine.registerRule id version maturity priorConfidence e)).firingTotal pair =
      e.firingTotal pair := by
  rcases Engine.registerRule_cases id version maturity priorConfidence e with
    ⟨err, hrun⟩ | ⟨habsent, hrun⟩
  · rw [hrun]
    rfl
  · rw [hrun]
    by_cases hpair : (id, version) = pair
    · -- the pair had no statistics, the new ones start at zero
      have hnone : e.ruleStats.get? pair = none := by
        rw [Dict.get?_eq_none, h pair, ← hpair, habsent]
        exact Bool.false_ne_true
      have hzero : e.firingTotal pair = 0 := by
        unfold Engine.firingTotal
        rw [hnone]
      rw [hzero, ← hpair]
      exact Engine.firingTotal_of_get? (Dict.get?_insert_self _ _ _) rfl
    · exact Engine.firingTotal_congr (Dict.get?_insert_of_ne _ _ hpair)

/-- The claims after a call, whatever it ends in. -/
theorem Op.claimsBy (h : Sound e) (o : Op) :
    (finalState (o.run e)).claimsBy pair = e.claimsBy pair +
      if PublicRecord.addedClaim pair ⟨.op o, CallRet.ret <$> outcome (o.run e)⟩ then 1 else 0 := by
  cases hrun : o.run e with
  | error err e' =>
    have hkept := h.typed.outcome_cases (o.outcome_cases e)
    rw [hrun] at hkept
    rcases hkept with ⟨_, hraised⟩ | ⟨_, hidle⟩ | ⟨_, _, hwrote, -⟩
    · cases hraised
      cases o <;> rfl
    · cases hidle
    · cases hwrote
  | ok r e' =>
    have hkept := o.outcome_cases e
    rw [hrun] at hkept
    cases hkept with
    | wrote hw => exact hw.claimsBy h.counters
    | idle _ noId =>
      cases o with
      | addClaim subjectId claimType ruleId ruleVersion reasonCode baseConfidence status flags =>
        -- a successful `add_claim` returns an id
        rw [Op.run, run_map] at hrun
        split at hrun
        · cases hrun
          cases noId
        · cases hrun
      | _ => rfl
    | knownGap => rfl
    | restated => rfl

/-- So every other call leaves the total. -/
theorem Op.firingTotal (h : FiringReady e) (o : Op) :
    (finalState (o.run e)).firingTotal pair = e.firingTotal pair +
      PublicRecord.firingDelta pair ⟨.op o, CallRet.ret <$> outcome (o.run e)⟩ := by
  have hframe := Op.frame h.sound o
  -- only two calls touch the statistics
  cases o with
  | updateRuleStats ruleId ruleVersion firingDelta trueDelta falseDelta observedPrecision
      falsePositiveRate =>
    rw [Op.run, finalState_map, outcome_map,
      updateRuleStats_firingTotal h.sound ruleId ruleVersion firingDelta trueDelta falseDelta]
    cases Engine.updateRuleStats ruleId ruleVersion firingDelta trueDelta falseDelta
      observedPrecision falsePositiveRate e <;> rfl
  | registerRule id version maturity priorConfidence =>
    rw [Op.run, finalState_map, registerRule_firingTotal h.rules]
    exact (add_zero _).symm
  | _ =>
    -- no other call has a rule in its footprint
    refine (Engine.firingTotal_congr (hframe.stats ?_)).trans (add_zero _).symm
    simp [Op.footprint]

/-- A call posts what its record says. -/
theorem Op.posted (h : FiringReady e) (o : Op) :
    Posted pair ⟨.op o, CallRet.ret <$> outcome (o.run e)⟩ e (finalState (o.run e)) where
  firing := by
    rw [o.firingTotal h]
    simp [PublicRecord.fired]
  claims := by
    rw [o.claimsBy h.sound]
    simp [PublicRecord.fired]

end Mutators

/-! ## Firings

A firing that fired adds one firing and one claim to its own pair; one that did not adds nothing.
-/

namespace FiringEffect

variable {f : Firing} {e e' : Engine} {claimId : Int} {gapIds : List Int} {pair : Int × Int}

theorem firingTotal (h : FiringEffect f e claimId gapIds e') :
    e'.firingTotal pair = e.firingTotal pair + if f.pair = pair then 1 else 0 := by
  obtain ⟨stats, n, hget, hn, hinsert⟩ := h.stats
  by_cases hpair : f.pair = pair
  · have hget' : e'.ruleStats.get? f.pair = some { stats with firingCount := .int (n + 1) } := by
      rw [hinsert, Dict.get?_insert_self]
    rw [if_pos hpair, ← hpair, Engine.firingTotal_of_get? hget hn]
    exact Engine.firingTotal_of_get? hget' rfl
  · rw [if_neg hpair, add_zero]
    refine Engine.firingTotal_congr ?_
    rw [hinsert, Dict.get?_insert_of_ne _ _ hpair]

theorem claimsBy (h : FiringEffect f e claimId gapIds e') :
    e'.claimsBy pair = e.claimsBy pair + if f.pair = pair then 1 else 0 := by
  unfold Engine.claimsBy
  rw [h.claims, Dict.countP_values_insert_new _ h.fresh, Claim.createdBy_int rfl rfl]
  simp only [decide_eq_true_eq]
  rfl

/-- Both are what the record of the firing says. -/
theorem posted (h : FiringEffect f e claimId gapIds e') {r : PublicRecord}
    (hfired : r.fired pair = decide (f.pair = pair)) (hdelta : r.firingDelta pair = 0)
    (hadded : r.addedClaim pair = false) : Posted pair r e e' where
  firing := by
    rw [h.firingTotal, hfired, hdelta]
    simp
  claims := by
    rw [h.claimsBy, hfired, hadded]
    simp

end FiringEffect

/-- A condition that raises ends the firing before it writes. -/
theorem Firing.core_of_raises {f : Firing} {e : Engine} {err : PyErr}
    (h : Condition.evaluateWithTrace f.context f.condition = .error err) :
    ∃ err', f.core e = .error err' e := by
  rw [core_eq, run_readState_bind]
  cases e.getRuleStats f.ruleId f.ruleVersion with
  | error err' => exact ⟨err', rfl⟩
  | ok _ =>
    simp only
    rw [run_readState_bind, h]
    exact ⟨err, rfl⟩

/-- `view` is what a firing method returns of its trace. -/
theorem Firing.posted {pair : Int × Int} {e : Engine} (h : FiringReady e) (f : Firing) {c : Call}
    {view : FiringTrace → CallRet}
    (hdelta : ∀ result, PublicRecord.firingDelta pair ⟨c, result⟩ = 0)
    (hadded : ∀ result, PublicRecord.addedClaim pair ⟨c, result⟩ = false)
    (hraised : ∀ err, PublicRecord.fired pair ⟨c, .error err⟩ = false)
    (hfired : ∀ trace, trace.fired = trace.claimId.isSome →
      PublicRecord.fired pair ⟨c, .ok (view trace)⟩ = (trace.fired && decide (f.pair = pair))) :
    Posted pair ⟨c, view <$> outcome (f.core e)⟩ e (finalState (f.core e)) := by
  -- a call that leaves the engine as it was and did not fire
  have hkept : ∀ {result}, PublicRecord.fired pair ⟨c, result⟩ = false →
      Posted pair ⟨c, result⟩ e e := by
    intro result hnot
    constructor
    · simp [hnot, hdelta]
    · simp [hnot, hadded]
  cases hevaluated : Condition.evaluateWithTrace f.context f.condition with
  | error err =>
    obtain ⟨err', hrun⟩ := Firing.core_of_raises (e := e) hevaluated
    rw [hrun]
    exact hkept (hraised err')
  | ok trace =>
    have houtcome := f.outcome_cases h hevaluated
    cases hrun : f.core e with
    | error err e' =>
      rw [hrun] at houtcome
      cases houtcome with
      | unregistered => exact hkept (hraised err)
      | rejected => exact hkept (hraised err)
    | ok result e' =>
      rw [hrun] at houtcome
      cases houtcome with
      | notFired => exact hkept (hfired _ rfl)
      | @fired seen claimId gapIds _ registered evaluated holds subject status effect =>
        have htrue := hfired
          ⟨f.ruleId, f.ruleVersion, f.subjectId, true, seen, some claimId, gapIds⟩ rfl
        exact effect.posted (htrue.trans (Bool.true_and _)) (hdelta _) (hadded _)

/-! ## Runs

The records of a session add up. -/

/-- Any public call, whether it returned or raised. -/
theorem Call.posted {pair : Int × Int} {e : Engine} (h : FiringReady e) (c : Call) :
    Posted pair ⟨c, outcome (c.run e)⟩ e (finalState (c.run e)) := by
  cases c with
  | op o =>
    rw [Call.run, outcome_map, finalState_map]
    exact o.posted h
  | fireRule f =>
    rw [f.run_fireRule, Call.run, outcome_map, Engine.fireRule, bind_pure_comp, outcome_map,
      ← LawfulFunctor.comp_map]
    refine f.posted h (fun _ => rfl) (fun _ => rfl) (fun _ => rfl) fun trace hsome => ?_
    -- a firing that did not fire posts nothing
    cases hid : trace.claimId with
    | none => simp [PublicRecord.fired, hid, hsome]
    | some _ => simp [PublicRecord.fired, hid, hsome]
  | fireRuleWithTrace f =>
    rw [Call.run, outcome_map, finalState_map]
    exact f.posted h (fun _ => rfl) (fun _ => rfl) (fun _ => rfl) fun _ _ => rfl

namespace FiringReady

theorem new (uuid : UuidHex) : FiringReady (Engine.new uuid) := ⟨.new uuid, .new uuid, .new uuid⟩

/-- What a firing needs is kept by every call. -/
theorem op {e : Engine} (h : FiringReady e) (o : Op) : FiringReady (finalState (o.run e)) :=
  have ho := o.outcome_cases e
  ⟨h.sound.op o, h.dedup.outcome h.sound ho, h.rules.outcome ho⟩

theorem congr {e e' : Engine} (h : FiringReady e) (heq : e.Equiv e') : FiringReady e' :=
  ⟨h.sound.congr heq, h.dedup.keep (.of_equiv heq) (.of_equiv heq) heq.gapDedupIndex heq.gaps
    heq.claimGapRefs, h.rules.congr heq⟩

end FiringReady

/-- The totals after one action. -/
structure Totals (pair : Int × Int) (records : List PublicRecord) (e e' : Engine) : Prop where
  firing : e'.firingTotal pair = e.firingTotal pair + records.countP (PublicRecord.fired pair) +
    (records.map (PublicRecord.firingDelta pair)).sum
  claims : e'.claimsBy pair = e.claimsBy pair + records.countP (PublicRecord.fired pair) +
    records.countP (PublicRecord.addedClaim pair)

namespace Totals

variable {pair : Int × Int} {a b c : Engine} {records records' : List PublicRecord}

theorem single {r : PublicRecord} (h : Posted pair r a b) : Totals pair [r] a b where
  firing := by
    rw [h.firing]
    simp [List.countP_cons]
  claims := by
    rw [h.claims]
    simp [List.countP_cons]

theorem of_equiv (h : a.Equiv b) : Totals pair [] a b where
  firing := by
    rw [Engine.firingTotal_congr (h.ruleStats pair).symm]
    simp
  claims := h.claims.countP_values.symm

/-- Accounts of consecutive runs add up. -/
theorem append (h : Totals pair records a b) (h' : Totals pair records' b c) :
    Totals pair (records ++ records') a c where
  firing := by
    rw [h'.firing, h.firing, List.countP_append, List.map_append, List.sum_append]
    push_cast
    ring
  claims := by
    rw [h'.claims, h.claims, List.countP_append, List.countP_append]
    omega

end Totals

/-- One action posts its records and keeps the invariants. -/
theorem Session.act_totals {s : Session} (h : FiringReady s.engine) (action : Action)
    (pair : Int × Int) :
    FiringReady (s.act action).engine ∧
      Totals pair (s.publicRecords action) s.engine (s.act action).engine := by
  cases action with
  | call c =>
    exact ⟨(c.steps s.engine).preserves_state (fun _ o he => he.op o) h, .single (c.posted h)⟩
  | roundTrip uuid =>
    simp only [act, publicRecords]
    -- a round trip is no record and moves no total
    cases hrun : s.engine.roundTrip uuid with
    | error err => exact ⟨h, .of_equiv (.refl _)⟩
    | ok engine =>
      have heq := s.engine.equiv_reloaded uuid
      rw [h.sound.trip hrun]
      exact ⟨h.congr heq, .of_equiv heq⟩

/-- The run lemma, by induction on the actions. -/
theorem Session.run_totals {s : Session} (h : FiringReady s.engine) (actions : List Action)
    (pair : Int × Int) :
    FiringReady (s.run actions).engine ∧
      Totals pair (s.history actions) s.engine (s.run actions).engine := by
  induction actions generalizing s with
  | nil => exact ⟨h, .of_equiv (.refl _)⟩
  | cons action rest ih =>
    obtain ⟨hready, hact⟩ := s.act_totals h action pair
    obtain ⟨hend, hrest⟩ := ih hready
    exact ⟨hend, hact.append hrest⟩

/-! ## The law

The statistics of a pair, and the claims that name it, are what its records add up to. -/

/-- The two totals of a rule, by what its callers saw. -/
structure Accounted (pair : Int × Int) (history : List PublicRecord) (e : Engine) : Prop where
  firingCount : ∃ stats, e.ruleStats.get? pair = some stats ∧
    stats.firingCount = .int (history.countP (PublicRecord.fired pair) +
      (history.map (PublicRecord.firingDelta pair)).sum)
  claims : e.claims.values.countP (Claim.createdBy pair) =
    history.countP (PublicRecord.fired pair) + history.countP (PublicRecord.addedClaim pair)

/-- **Rule firing accounting.** At the end of every run from `Engine()`, whichever of its calls
failed, the firing count of a registered rule is the number of its firings that fired plus the
deltas of its successful updates, and its claims are those of its firings and of the direct
`add_claim` calls that named it. -/
theorem firing_accounting (uuid : UuidHex) (actions : List Action) {pair : Int × Int}
    (registered : ((Session.start uuid).run actions).engine.ruleDefinitions.contains pair = true) :
    Accounted pair ((Session.start uuid).history actions)
      ((Session.start uuid).run actions).engine := by
  obtain ⟨hready, htotals⟩ := (Session.start uuid).run_totals (.new uuid) actions pair
  rw [← hready.rules pair] at registered
  obtain ⟨stats, hstats⟩ := Dict.contains_iff.mp registered
  obtain ⟨n, hn⟩ := (hready.sound.typed.ruleStats hstats).firingCount
  -- the totals start at zero, so they are the sums over the records
  constructor
  · refine ⟨stats, hstats, ?_⟩
    have hfiring := htotals.firing
    rw [Engine.firingTotal_of_get? hstats hn] at hfiring
    rw [hn, hfiring]
    congr 1
    exact (congrArg (· + _) (zero_add _))
  · exact htotals.claims.trans (congrArg (· + _) (zero_add _))

/-- One firing, one that is refused, and an update, after a direct claim under the same rule. -/
def adultActions : List Action :=
  Session.disputedRun.map .call ++ [
    .call (.op (.registerRule 0 1 0 Firing.defaultGapScore)),
    .call (.fireRule Firing.adult),
    .call (.fireRuleWithTrace { Firing.adult with subjectId := 9 }),
    .call (.op (.updateRuleStats 0 1 5 0 0 none none))]

set_option maxRecDepth 4000 in
theorem firing_accounting_adult :
    ∃ stats, ((Session.start default).run adultActions).engine.ruleStats.get? (0, 1) = some stats ∧
      stats.firingCount = .int 6 := by
  have hregistered :
      ((Session.start default).run adultActions).engine.ruleDefinitions.contains (0, 1) = true := by
    with_unfolding_all rfl
  obtain ⟨stats, hget, hcount⟩ :=
    (firing_accounting default adultActions hregistered).firingCount
  refine ⟨stats, hget, hcount.trans ?_⟩
  with_unfolding_all rfl

end Ragcore
