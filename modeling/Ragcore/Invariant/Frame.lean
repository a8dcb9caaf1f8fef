import Ragcore.Invariant.Allocation
import Ragcore.Invariant.Justification

/-!
# Ragcore — the store is append-only

Every mutator writes in its own slot. What it may change besides adding entries is its
`Footprint`: the status of one claim, the statistics of one rule, the hint set.

* **`AppendOnly`** — what no call takes back or alters.
* **`Frame`** — `AppendOnly`, and nothing outside a footprint changed.
* **`Op.frame`** / **`Call.frame`** — each public call stays within its footprint.
* **`store_append_only`** — the law for reachable states and for the runs after them.
-/

namespace Ragcore

/-! ## Append-only stores

Records stay and only the fields that transitions, updates and links write may differ. -/

/-- Both values are ints and the second is not smaller. -/
def Increases (v v' : Json) : Prop := ∃ m n : Int, v = .int m ∧ v' = .int n ∧ m ≤ n

theorem IsInt.increases {v : Json} (h : IsInt v) : Increases v v := by
  obtain ⟨n, rfl⟩ := h
  exact ⟨n, n, rfl, rfl, le_rfl⟩

theorem Increases.trans {a b c : Json} (h : Increases a b) (h' : Increases b c) :
    Increases a c := by
  obtain ⟨l, m, rfl, rfl, hlm⟩ := h
  obtain ⟨m', n, hm, rfl, hmn⟩ := h'
  cases hm
  exact ⟨l, n, rfl, rfl, hlm.trans hmn⟩

/-- The stores of `e'` hold what those of `e` held; a claim may have another status. -/
structure AppendOnly (e e' : Engine) : Prop extends Grows e e' where
  entities : ∀ {k r}, e.entities.get? k = some r → e'.entities.get? k = some r
  observations : ∀ {k r}, e.observations.get? k = some r → e'.observations.get? k = some r
  relations : ∀ {k r}, e.relations.get? k = some r → e'.relations.get? k = some r
  ruleDefinitions : ∀ {k r}, e.ruleDefinitions.get? k = some r →
    e'.ruleDefinitions.get? k = some r
  claims : ∀ {k r}, e.claims.get? k = some r →
    ∃ status, e'.claims.get? k = some { r with status }
  dedup : ∀ {key g}, e.gapDedupIndex.get? key = some g → e'.gapDedupIndex.get? key = some g
  events : ∀ c, e.eventsOf c <+: e'.eventsOf c
  counters : ∀ kind : RecordKind,
    Increases (e.nextId.getD kind.counter (.int 0)) (e'.nextId.getD kind.counter (.int 0))
  otherCounters : ∀ {name}, (∀ kind : RecordKind, kind.counter ≠ name) →
    e'.nextId.get? name = e.nextId.get? name
  lifecycleSeq : Increases e.lifecycleSeq e'.lifecycleSeq

theorem CountersCover.counter_isInt {e : Engine} (h : CountersCover e) (kind : RecordKind) :
    IsInt (e.nextId.getD kind.counter (.int 0)) := by
  have hint : ∀ {α : Type} {store : Dict Int α}, Covers e.nextId kind.counter store →
      IsInt (e.nextId.getD kind.counter (.int 0)) := by
    rintro α store ⟨n, hn, -⟩
    exact ⟨n, hn⟩
  cases kind with
  | entity => exact hint h.entity
  | observation => exact hint h.observation
  | claim => exact hint h.claim
  | evidence => exact hint h.evidence
  | relation => exact hint h.relation
  | gap => exact hint h.gap

/-- Each kind has a counter of its own. -/
theorem RecordKind.counter_injective : Function.Injective RecordKind.counter := by
  intro a b h
  cases a <;> cases b <;> first | rfl | exact absurd h (by decide)

namespace AppendOnly

theorem refl {e : Engine} (h : Sound e) : AppendOnly e e where
  toGrows := .refl e
  entities := id
  observations := id
  relations := id
  ruleDefinitions := id
  claims := fun {_ r} hr => ⟨r.status, hr⟩
  dedup := id
  events := fun _ => List.prefix_rfl
  counters := fun kind => (h.counters.counter_isInt kind).increases
  otherCounters := fun _ => rfl
  lifecycleSeq := h.typed.lifecycleSeq.increases

theorem trans {a b c : Engine} (h : AppendOnly a b) (h' : AppendOnly b c) : AppendOnly a c where
  toGrows := h.toGrows.trans h'.toGrows
  entities hr := h'.entities (h.entities hr)
  observations hr := h'.observations (h.observations hr)
  relations hr := h'.relations (h.relations hr)
  ruleDefinitions hr := h'.ruleDefinitions (h.ruleDefinitions hr)
  claims := by
    intro k r hr
    obtain ⟨status, hstatus⟩ := h.claims hr
    obtain ⟨status', hstatus'⟩ := h'.claims hstatus
    exact ⟨status', hstatus'⟩
  dedup hg := h'.dedup (h.dedup hg)
  events k := (h.events k).trans (h'.events k)
  counters kind := (h.counters kind).trans (h'.counters kind)
  otherCounters hname := (h'.otherCounters hname).trans (h.otherCounters hname)
  lifecycleSeq := h.lifecycleSeq.trans h'.lifecycleSeq

/-- A round trip changes no store. -/
theorem of_equiv {e e' : Engine} (h : Sound e) (heq : e.Equiv e') : AppendOnly e e' where
  toGrows := .of_equiv heq
  entities hr := (heq.entities _).symm.trans hr
  observations hr := (heq.observations _).symm.trans hr
  relations hr := (heq.relations _).symm.trans hr
  ruleDefinitions hr := (heq.ruleDefinitions _).symm.trans hr
  claims := fun {_ r} hr => ⟨r.status, (heq.claims _).symm.trans hr⟩
  dedup hg := (heq.gapDedupIndex _).symm.trans hg
  events := fun c => by
    have hsame : e'.eventsOf c = e.eventsOf c := (heq.claimLifecycleEvents.getD c []).symm
    rw [hsame]
  counters := fun kind => by
    rw [← heq.nextId.getD]
    exact (h.counters.counter_isInt kind).increases
  otherCounters := fun _ => (heq.nextId _).symm
  lifecycleSeq := by
    rw [← heq.lifecycleSeq]
    exact h.typed.lifecycleSeq.increases

/-- The counters of an allocation: its own moves up by one, the others stay. -/
theorem allocated {e : Engine} (kind : RecordKind) (h : CountersCover e) {n : Int}
    (hn : e.nextCounter kind.counter = .ok n) :
    (∀ other : RecordKind, Increases (e.nextId.getD other.counter (.int 0))
      ((e.nextId.insert kind.counter (.int n)).getD other.counter (.int 0))) ∧
    ∀ {name}, (∀ other : RecordKind, other.counter ≠ name) →
      (e.nextId.insert kind.counter (.int n)).get? name = e.nextId.get? name := by
  refine ⟨fun other => ?_, fun hname => Dict.get?_insert_of_ne _ _ (hname kind)⟩
  rw [Dict.getD_insert]
  -- the counter of the kind moved, the others did not
  split
  · rename_i heq
    obtain rfl := RecordKind.counter_injective heq
    obtain ⟨m, hm⟩ := h.counter_isInt kind
    rw [Engine.nextCounter, hm] at hn
    cases hn
    exact ⟨m, m + 1, hm, rfl, by omega⟩
  · exact (h.counter_isInt other).increases

/-- Each write adds records or links. -/
theorem writes {e e' : Engine} {o : Op} {r : Ret} (h : Sound e) (hw : Writes e o r e') :
    AppendOnly e e' := by
  have hgrows := Grows.writes h.counters hw
  cases hw with
  | addEntity fresh =>
    have hcount := allocated .entity h.counters fresh
    exact { refl h with
      entities := Grows.get?_insert_fresh (Engine.fresh_of_covers h.counters.entity fresh) _
      counters := hcount.1
      otherCounters := hcount.2 }
  | addObservation entity fresh =>
    have hcount := allocated .observation h.counters fresh
    exact { refl h with
      observations := Grows.get?_insert_fresh
        (Engine.fresh_of_covers h.counters.observation fresh) _
      counters := hcount.1
      otherCounters := hcount.2 }
  | addClaim subject valid fresh =>
    have hcount := allocated .claim h.counters fresh
    exact { refl h with
      claims := fun {_ r} hr => ⟨r.status,
        Grows.get?_insert_fresh (Engine.fresh_of_covers h.counters.claim fresh) _ hr⟩
      counters := hcount.1
      otherCounters := hcount.2 }
  | addEvidence claim fresh =>
    have hcount := allocated .evidence h.counters fresh
    exact { refl h with
      toGrows := hgrows
      counters := hcount.1
      otherCounters := hcount.2 }
  | addRelation source target fresh =>
    have hcount := allocated .relation h.counters fresh
    exact { refl h with
      relations := Grows.get?_insert_fresh (Engine.fresh_of_covers h.counters.relation fresh) _
      counters := hcount.1
      otherCounters := hcount.2 }
  | addGap found hashed unknown admitted fresh =>
    have hcount := allocated .gap h.counters fresh
    exact { refl h with
      toGrows := hgrows
      dedup := fun {key g} hg => (Dict.get?_insert_of_ne _ _ fun hkey => by
        rw [← hkey, unknown] at hg
        cases hg).trans hg
      counters := hcount.1
      otherCounters := hcount.2 }
  | @transition t claimId claim seq found source guard counted =>
    exact { refl h with
      -- the record is replaced, by one that differs in the status only
      claims := by
        intro k r hr
        by_cases hk : claimId = k
        · subst hk
          rw [found] at hr
          cases hr
          exact ⟨t.target, Dict.get?_insert_self _ _ _⟩
        · exact ⟨r.status, (Dict.get?_insert_of_ne _ _ hk).trans hr⟩
      -- the history of the claim gets one more event at its end
      events := fun c => by
        rw [Engine.eventsOf_putTransition]
        split
        · rename_i heq
          rw [heq]
          exact List.prefix_append _ _
        · exact List.prefix_rfl
      lifecycleSeq := by
        obtain ⟨n, hn⟩ := h.typed.lifecycleSeq
        rw [hn] at counted
        cases counted
        exact ⟨n, n + 1, hn, rfl, by omega⟩ }
  | registerRule absent =>
    exact { refl h with
      ruleDefinitions := fun {k _} hr => (Dict.get?_insert_of_ne _ _ fun hk => by
        rw [hk] at absent
        rw [Dict.contains_of_get? hr] at absent
        cases absent).trans hr }
  | _ => exact { refl h with toGrows := hgrows }

end AppendOnly

/-! ## Footprints

The claim, the statistics and the hints that a call may write over; all else is as it was. -/

/-- What a call may change besides adding entries. -/
structure Footprint where
  claim : Option Int
  stats : Option (Int × Int)
  hints : Bool

structure Frame (fp : Footprint) (e e' : Engine) : Prop extends AppendOnly e e' where
  status : ∀ {k r}, fp.claim ≠ some k → e.claims.get? k = some r → e'.claims.get? k = some r
  stats : ∀ {key}, fp.stats ≠ some key → e'.ruleStats.get? key = e.ruleStats.get? key
  hintSet : fp.hints = false → e'.hintEvidenceTypes = e.hintEvidenceTypes

/-- What the call may write over: every other call only appends. -/
def Op.footprint : Op → Footprint
  | transition _ claimId => ⟨some claimId, none, false⟩
  | registerRule id version .. => ⟨none, some (id, version), false⟩
  | updateRuleStats ruleId ruleVersion .. => ⟨none, some (ruleId, ruleVersion), false⟩
  | registerHintEvidenceTypes _ => ⟨none, none, true⟩
  | unregisterHintEvidenceTypes _ => ⟨none, none, true⟩
  | clearHintEvidenceTypes => ⟨none, none, true⟩
  | _ => ⟨none, none, false⟩

theorem Frame.refl {e : Engine} (h : Sound e) (fp : Footprint) : Frame fp e e :=
  ⟨.refl h, fun _ hr => hr, fun _ => rfl, fun _ => rfl⟩

/-- Two calls inside one footprint. -/
theorem Frame.trans {fp : Footprint} {a b c : Engine} (h : Frame fp a b) (h' : Frame fp b c) :
    Frame fp a c :=
  ⟨h.toAppendOnly.trans h'.toAppendOnly, fun hk hr => h'.status hk (h.status hk hr),
    fun hkey => (h'.stats hkey).trans (h.stats hkey),
    fun hhints => (h'.hintSet hhints).trans (h.hintSet hhints)⟩

theorem Op.onHints_footprint {o : Op} (h : o.onHints = true) :
    o.footprint = ⟨none, none, true⟩ := by
  cases o with
  | registerHintEvidenceTypes | unregisterHintEvidenceTypes | clearHintEvidenceTypes => rfl
  | _ => cases h

/-- A write stays inside the footprint of its call. -/
theorem Writes.frame {e e' : Engine} {o : Op} {r : Ret} (h : Sound e) (hw : Writes e o r e') :
    Frame o.footprint e e' := by
  have happend := AppendOnly.writes h hw
  -- each write is inside the footprint of its call
  cases hw with
  | addClaim subject valid fresh =>
    exact { Frame.refl h _ with
      toAppendOnly := happend
      status := fun _ hr =>
        Grows.get?_insert_fresh (Engine.fresh_of_covers h.counters.claim fresh) _ hr }
  | transition =>
    exact { Frame.refl h _ with
      toAppendOnly := happend
      status := fun hk hr =>
        (Dict.get?_insert_of_ne _ _ fun heq => hk (congrArg some heq)).trans hr }
  | registerRule =>
    exact { Frame.refl h _ with
      toAppendOnly := happend
      stats := fun hkey => Dict.get?_insert_of_ne _ _ fun heq => hkey (congrArg some heq) }
  | updateRuleStats =>
    exact { Frame.refl h _ with
      toAppendOnly := happend
      stats := fun hkey => Dict.get?_insert_of_ne _ _ fun heq => hkey (congrArg some heq) }
  | setHints onHints =>
    exact { Frame.refl h _ with
      toAppendOnly := happend
      hintSet := fun hhints => by
        rw [Op.onHints_footprint onHints] at hhints
        cases hhints }
  | _ => exact { Frame.refl h _ with toAppendOnly := happend }

/-- **Every mutator stays within its footprint.** -/
theorem Op.frame {e : Engine} (h : Sound e) (o : Op) :
    Frame o.footprint e (finalState (o.run e)) := by
  rcases h.typed.outcome_cases (o.outcome_cases e) with ⟨err, hrun⟩ | ⟨r, hrun⟩ | ⟨r, e', hrun, hw⟩
  · rw [hrun]
    exact .refl h _
  · rw [hrun]
    exact .refl h _
  · rw [hrun]
    exact hw.frame h

/-! ## Public calls

A firing is several mutators, so its footprint covers theirs. -/

/-- A firing adds records and counts itself in the statistics of its rule. -/
def Call.footprint : Call → Footprint
  | op o => o.footprint
  | fireRule f => ⟨none, some (f.ruleId, f.ruleVersion), false⟩
  | fireRuleWithTrace f => ⟨none, some (f.ruleId, f.ruleVersion), false⟩

theorem Frame.widen {fp fp' : Footprint} {e e' : Engine} (h : Frame fp e e')
    (hclaim : fp.claim = fp'.claim) (hstats : fp.stats = none ∨ fp.stats = fp'.stats)
    (hhints : fp.hints = fp'.hints) : Frame fp' e e' where
  toAppendOnly := h.toAppendOnly
  status hk hr := h.status (hclaim ▸ hk) hr
  stats := fun {key} hkey => h.stats (by
    rcases hstats with hnone | hsame
    · rw [hnone]
      exact nofun
    · rw [hsame]
      exact hkey)
  hintSet hfalse := h.hintSet (hhints ▸ hfalse)

/-- The calls a firing is made of. -/
theorem Firing.op_of_mem {f : Firing} {e : Engine} {r : CallRecord Op PyErr Ret}
    (h : r ∈ f.records e) :
    r.op = f.claimOp ∨ (∃ claimId evidenceType, r.op = f.gapOp claimId evidenceType) ∨
      r.op = f.statsOp := by
  rw [Firing.records] at h
  split at h
  · split at h
    · split at h
      · rename_i claimId e' _
        -- the claim, a gap, or the statistics
        rcases List.mem_cons.mp h with rfl | hrest
        · exact .inl rfl
        · rcases List.mem_append.mp (mem_of_mem_script hrest) with hgap | hstats
          · obtain ⟨evidenceType, -, hop⟩ := List.mem_map.mp hgap
            exact .inr (.inl ⟨claimId, evidenceType, hop.symm⟩)
          · exact .inr (.inr (List.mem_singleton.mp hstats))
      · rw [List.mem_singleton.mp h]
        exact .inl rfl
    · cases h
  · cases h

/-- A firing writes over the statistics of its rule, and adds all else. -/
theorem Firing.frame {e : Engine} (h : Sound e) (f : Firing) :
    Frame ⟨none, some (f.ruleId, f.ruleVersion), false⟩ e (finalState (f.core e)) := by
  have hrun := (f.steps e).preserves_of_mem
    (P := fun e' => Sound e' ∧ Frame ⟨none, some (f.ruleId, f.ruleVersion), false⟩ e e')
    (fun e' r hr he' => by
      refine ⟨he'.1.op r.op, he'.2.trans ?_⟩
      have hframe := Op.frame he'.1 r.op
      -- each recorded call has a footprint that the firing's covers
      rcases Firing.op_of_mem hr with hop | ⟨claimId, evidenceType, hop⟩ | hop
      · rw [hop] at hframe ⊢
        exact hframe.widen rfl (.inl rfl) rfl
      · rw [hop] at hframe ⊢
        exact hframe.widen rfl (.inl rfl) rfl
      · rw [hop] at hframe ⊢
        exact hframe.widen rfl (.inr rfl) rfl)
    ⟨h, .refl h _⟩
  exact hrun.2

theorem Call.frame {e : Engine} (h : Sound e) (c : Call) :
    Frame c.footprint e (finalState (c.run e)) := by
  cases c with
  | op o =>
    rw [Call.run, finalState_map]
    exact Op.frame h o
  | fireRule f =>
    rw [f.run_fireRule]
    exact f.frame h
  | fireRuleWithTrace f =>
    rw [Call.run, finalState_map]
    exact f.frame h

/-! ## The law

No run takes anything back. -/

theorem Session.Reachable.appendOnly {s : Session} (h : s.Reachable) (later : List Action) :
    AppendOnly s.engine (s.run later).engine :=
  (Session.preserves (P := fun _ e => Sound e ∧ AppendOnly s.engine e)
    (fun _ e o he => ⟨he.1.op o, he.2.trans (Op.frame he.1 o).toAppendOnly⟩)
    (fun _ e uuid _ he hrun => by
      rw [he.1.trip hrun]
      have heq := e.equiv_reloaded uuid
      exact ⟨he.1.congr heq, he.2.trans (.of_equiv he.1 heq)⟩)
    ⟨h.sound, .refl h.sound⟩ later).2

/-- **The store is append-only except where declared.** In a reachable state every call stays
within its footprint, and no run takes back what the stores hold: a resolved gap keeps its
first resolver, a contradiction stays registered or resolved. -/
theorem store_append_only {s : Session} (h : s.Reachable) :
    (∀ c : Call, Frame c.footprint s.engine (finalState (c.run s.engine))) ∧
      ∀ later, AppendOnly s.engine (s.run later).engine :=
  ⟨fun c => c.frame h.sound, fun later => h.appendOnly later⟩

/-- The gap of the disputed claim keeps its resolver when another evidence is added and the
engine is reloaded. -/
theorem store_append_only_disputed :
    (Session.disputed.run [.call (.op (.addEvidence 1 1 7 (.fin (9 / 10)))),
      .roundTrip default]).engine.gapResolutions.get? 1 = some 1 :=
  ((store_append_only Session.disputed_reachable).2 _).resolutions (by with_unfolding_all rfl)

end Ragcore
