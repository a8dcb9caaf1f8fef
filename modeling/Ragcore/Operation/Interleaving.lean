import Ragcore.Operation.Cycle

/-!
# Ragcore — cycles of many consumers on one engine

Cycles on one engine interleave at their reviews, where each of them waits for an answer while
others call the engine, open cycles of their own and close them. A run is any sequence of such
moves.

* **`Floor`** — the desk, the cycles under review and the cycles closed.
* **`Floor.Kept`** — what every move keeps, by a lemma for each kind of move.
* **`interleaved_cycles`** — every call of a cycle ran on the state its candidate was built on;
  the calls form one order; of the cycles decided on one identity at most the last to close
  changed the engine; a cycle that a gate stopped changed nothing.
-/

namespace Ragcore

namespace Operation

/-! ## The floor

Any number of cycles, each between its decision and its call, over one engine. -/

/-- A cycle under review. `seen` is the engine it opened on, which nobody holds on to: it is kept
for the statements. -/
structure Waiting where
  opened : Opened
  seen : Engine

/-- A cycle that was closed, with the engine before and after. -/
structure Closed extends Waiting where
  disposition : String
  before : Engine
  after : Engine
  result : Except PyErr (CycleRecord × CycleOutcome Ret)

structure Floor where
  desk : Desk
  waiting : List Waiting
  closed : List Closed

inductive Move where
  /-- A call of the engine from outside any cycle. -/
  | call (c : Call)
  | propose (p : Proposed)
  /-- The operator answers the review of the `n`-th cycle that waits. -/
  | answer (n : Nat) (disposition : String)

/-- The entry for what a call returned. -/
def returnedAs : Ret → String × Ret := returning "returned" id

namespace Floor

/-- Nobody has opened a cycle on the engine. -/
def start (e : Engine) : Floor := ⟨⟨e, 0⟩, [], []⟩

/-- The cycle `w`, closed with that answer. -/
def closing (f : Floor) (w : Waiting) (disposition : String) : Closed :=
  let r := closeCycle w.opened disposition Op.run returnedAs f.desk
  ⟨w, disposition, f.desk.engine, (finalState r).engine, outcome r⟩

def close (f : Floor) (n : Nat) (w : Waiting) (disposition : String) : Floor where
  desk := finalState (closeCycle w.opened disposition Op.run returnedAs f.desk)
  waiting := f.waiting.eraseIdx n
  closed := f.closed ++ [f.closing w disposition]

def move (f : Floor) : Move → Floor
  | .call c => { f with desk := { f.desk with engine := finalState (c.run f.desk.engine) } }
  | .propose p =>
    match openCycle p f.desk with
    | .ok opened desk => { f with desk, waiting := f.waiting ++ [⟨opened, f.desk.engine⟩] }
    | .error _ desk => { f with desk }
  | .answer n disposition =>
    match f.waiting[n]? with
    | some w => f.close n w disposition
    | none => f

def run (f : Floor) (moves : List Move) : Floor := moves.foldl move f

end Floor

/-! ## What a closed cycle did

The call of a cycle, with the identities before and after it. -/

namespace Closed

/-- Whether the call of the cycle was made: no gate stopped it. -/
def called (c : Closed) : Bool :=
  match c.result with
  | .ok (_, .terminated _) => false
  | _ => true

/-- The answer approved the candidate, and the engine is the one it was built on. -/
structure Current (c : Closed) : Prop where
  approved : c.disposition = "approved"
  same : c.before = c.seen

/-- The call of the cycle, made, with what came of it. -/
inductive Made (c : Closed) : Prop where
  | returned {record : CycleRecord} {ret : Ret} (result : c.result = .ok (record, .ok ret))
      (run : c.opened.candidate.arguments.run c.before = .ok ret c.after)
      (receipted : Receipted c.opened c.before c.after (returnedAs ret) record)
  | raised {err : PyErr} (result : c.result = .error err)
      (run : c.opened.candidate.arguments.run c.before = .error err c.after)

/-- A gate stopped the cycle, which changed nothing. -/
structure Turned (c : Closed) : Prop where
  unchanged : c.after = c.before
  result : ∃ record termination, c.result = .ok (record, .terminated termination) ∧
    Stopped c.opened c.disposition record

/-- What a closed cycle did, by its answer and by what happened to the engine meanwhile. -/
structure Exact (c : Closed) : Prop where
  made : c.Current → c.Made
  turned : ¬ c.Current → c.Turned

theorem Made.called {c : Closed} (h : c.Made) : c.called = true := by
  cases h with
  | returned result => simp only [Closed.called, result]
  | raised result => simp only [Closed.called, result]

theorem Turned.not_called {c : Closed} (h : c.Turned) : c.called = false := by
  obtain ⟨record, termination, result, _⟩ := h.result
  simp only [Closed.called, result]

theorem Exact.called_iff {c : Closed} (h : c.Exact) : c.called = true ↔ c.Current := by
  constructor
  · intro hcalled
    by_contra hnot
    rw [(h.turned hnot).not_called] at hcalled
    cases hcalled
  · intro hcurrent
    exact (h.made hcurrent).called

/-- A call that was made is a call of the engine, so what it leaves comes later. -/
theorem Made.later {c : Closed} (h : c.Made) (htyped : WellTyped c.before) :
    Engine.Later c.before c.after := by
  have hop := (Engine.Later.refl htyped).op c.opened.candidate.arguments
  cases h with
  | returned _ run => rwa [run] at hop
  | raised _ run => rwa [run] at hop

/-- The act of a closed cycle. -/
def commit (c : Closed) : Commit Engine := ⟨c.seen, c.before, c.after⟩

end Closed

namespace Floor

theorem closing_turned {f : Floor} {w : Waiting} {disposition : String} {record : CycleRecord}
    {termination : Termination} {ids : Nat}
    (hclose : closeCycle w.opened disposition Op.run returnedAs f.desk =
      .ok (record, .terminated termination) ⟨f.desk.engine, ids⟩)
    (hstopped : Stopped w.opened disposition record) : (f.closing w disposition).Turned where
  unchanged := by simp only [closing, hclose, finalState_ok]
  result := ⟨record, termination, by simp only [closing, hclose, outcome_ok], hstopped⟩

/-- **The closing of a cycle is exact**, whatever happened since it opened. -/
theorem closing_exact {f : Floor} {w : Waiting} (disposition : String)
    (hopened : w.opened.decisionIdentity = identityOf w.seen)
    (hlater : Engine.Later w.seen f.desk.engine) : (f.closing w disposition).Exact := by
  obtain ⟨⟨e, ids⟩, waiting, closed⟩ := f
  by_cases happroved : disposition = "approved"
  · by_cases hcurrent : w.opened.decisionIdentity = identityOf e
    · -- the identity is back, so the engine is the one the candidate was built on
      have hsame : e = w.seen := versioned.exact hlater (hcurrent.symm.trans hopened)
      refine ⟨fun _ => ?_, fun hnot => absurd ⟨happroved, hsame⟩ hnot⟩
      cases hrun : w.opened.candidate.arguments.run e with
      | ok ret e' =>
        obtain ⟨record, hclose, hreceipted⟩ :=
          closeCycle_invoked w.opened disposition Op.run returnedAs e ids happroved hcurrent hrun
        have hresult : (closing ⟨⟨e, ids⟩, waiting, closed⟩ w disposition).result =
            .ok (record, .ok ret) := by
          simp only [closing, hclose, outcome_ok]
        refine .returned hresult ?_ ?_
        · simpa only [closing, hclose, finalState_ok] using hrun
        · simpa only [closing, hclose, finalState_ok, id] using hreceipted
      | error err e' =>
        have hclose :=
          closeCycle_raised w.opened disposition Op.run returnedAs e ids happroved hcurrent hrun
        have hresult : (closing ⟨⟨e, ids⟩, waiting, closed⟩ w disposition).result =
            .error err := by
          simp only [closing, hclose, outcome_error]
        refine .raised hresult ?_
        simpa only [closing, hclose, finalState_error] using hrun
    · -- approved too late
      refine ⟨fun hcur => ?_, fun _ => ?_⟩
      · have hsame : e = w.seen := hcur.same
        exact absurd (hsame ▸ hopened) hcurrent
      · obtain ⟨record, hclose, hstopped⟩ :=
          closeCycle_stale w.opened disposition Op.run returnedAs e ids happroved hcurrent
        exact closing_turned hclose hstopped
  · -- turned down, whatever the engine is now
    refine ⟨fun hcur => absurd hcur.approved happroved, fun _ => ?_⟩
    obtain ⟨record, hclose, hstopped⟩ :=
      closeCycle_rejected w.opened disposition Op.run returnedAs e ids happroved
    exact closing_turned hclose hstopped

/-! ## Runs

What every move keeps, and so every run. -/

/-- The calls that cycles have made so far. -/
def log (f : Floor) : List (Commit Engine) := (f.closed.filter Closed.called).map Closed.commit

/-- What every move keeps. -/
structure Kept (f : Floor) : Prop where
  typed : WellTyped f.desk.engine
  opened : ∀ w ∈ f.waiting, ∃ p ids, w.opened = openedOn p w.seen ids
  waiting : ∀ w ∈ f.waiting, Engine.Later w.seen f.desk.engine
  closedOpened : ∀ c ∈ f.closed, ∃ p ids, c.opened = openedOn p c.seen ids
  exact : ∀ c ∈ f.closed, c.Exact
  serial : Serial versioned f.log f.desk.engine

theorem Kept.start {e : Engine} (h : WellTyped e) : Kept (start e) where
  typed := h
  opened := by simp [Floor.start]
  waiting := by simp [Floor.start]
  closedOpened := by simp [Floor.start]
  exact := by simp [Floor.start]
  serial := .nil e

/-- A move that changes only the engine. -/
theorem Kept.later {f : Floor} (h : f.Kept) {desk : Desk}
    (hlater : Engine.Later f.desk.engine desk.engine) : Kept { f with desk } where
  typed := hlater.typed
  opened := h.opened
  waiting w hw := (h.waiting w hw).trans hlater
  closedOpened := h.closedOpened
  exact := h.exact
  serial := h.serial.later hlater

theorem Kept.propose {f : Floor} (h : f.Kept) (p : Proposed) : (f.move (.propose p)).Kept := by
  obtain ⟨⟨e, ids⟩, waiting, closed⟩ := f
  simp only [move, openCycle_eq]
  refine ⟨h.typed, fun w hw => ?_, fun w hw => ?_, h.closedOpened, h.exact, h.serial⟩
  · rcases List.mem_append.mp hw with hold | hnew
    · exact h.opened w hold
    · rw [List.mem_singleton.mp hnew]
      exact ⟨p, ids, rfl⟩
  · rcases List.mem_append.mp hw with hold | hnew
    · exact h.waiting w hold
    · rw [List.mem_singleton.mp hnew]
      exact .refl h.typed

theorem Kept.close {f : Floor} (h : f.Kept) {n : Nat} {w : Waiting} (hw : w ∈ f.waiting)
    (disposition : String) : (f.close n w disposition).Kept := by
  obtain ⟨p, ids, hopened⟩ := h.opened w hw
  have hwaited := h.waiting w hw
  have hexact : (f.closing w disposition).Exact :=
    closing_exact disposition (by rw [hopened]; rfl) hwaited
  have hlog : (f.close n w disposition).log = f.log ++
      (([f.closing w disposition].filter Closed.called).map Closed.commit) := by
    simp only [log, Floor.close, List.filter_append, List.map_append]
  have hlater : Engine.Later f.desk.engine (f.close n w disposition).desk.engine := by
    by_cases hcurrent : (f.closing w disposition).Current
    · exact (hexact.made hcurrent).later h.typed
    · have hunchanged : (f.close n w disposition).desk.engine = f.desk.engine :=
        (hexact.turned hcurrent).unchanged
      rw [hunchanged]
      exact .refl h.typed
  refine ⟨hlater.typed, fun v hv => h.opened v (List.mem_of_mem_eraseIdx hv),
    fun v hv => (h.waiting v (List.mem_of_mem_eraseIdx hv)).trans hlater, fun c hc => ?_,
    fun c hc => ?_, ?_⟩
  · rcases List.mem_append.mp hc with hold | hnew
    · exact h.closedOpened c hold
    · rw [List.mem_singleton.mp hnew]
      exact ⟨p, ids, hopened⟩
  · rcases List.mem_append.mp hc with hold | hnew
    · exact h.exact c hold
    · rw [List.mem_singleton.mp hnew]
      exact hexact
  · rw [hlog]
    by_cases hcurrent : (f.closing w disposition).Current
    · -- the call was made, behind a check of the identity
      rw [List.filter_cons_of_pos (hexact.called_iff.mpr hcurrent), List.filter_nil]
      exact h.serial.act hwaited (congrArg identityOf hcurrent.same) hlater
    · -- no call, so the order of the calls is as it was
      rw [List.filter_cons_of_neg (fun hcalled => hcurrent (hexact.called_iff.mp hcalled)),
        List.filter_nil, List.map_nil, List.append_nil]
      exact h.serial.later hlater

theorem Kept.move {f : Floor} (h : f.Kept) (m : Move) : (f.move m).Kept := by
  cases m with
  | call c => exact h.later (Engine.later_runCalls h.typed [c])
  | propose p => exact h.propose p
  | answer n disposition =>
    simp only [Floor.move]
    cases hw : f.waiting[n]? with
    | some w => exact h.close (List.mem_of_getElem? hw) disposition
    | none => exact h

theorem Kept.run {f : Floor} (h : f.Kept) (moves : List Move) : (f.run moves).Kept := by
  induction moves generalizing f with
  | nil => exact h
  | cons m rest ih => exact ih (h.move m)

end Floor

/-! ## The code's cycle among the runs

A cycle that is opened and closed without a pause is one of the runs. -/

theorem Floor.run_calls (f : Floor) (calls : List Call) :
    f.run (calls.map .call) =
      { f with desk := { f.desk with engine := f.desk.engine.runCalls calls } } := by
  induction calls generalizing f with
  | nil => rfl
  | cons c rest ih => exact ih (f.move (.call c))

/-- The moves of one cycle and its review. -/
def cycleMoves (review : Review) (p : Proposed) : List Move :=
  .propose p :: (review.calls.map .call ++ [.answer 0 review.disposition])

/-- **`_run_cycle` is a run of the floor**: it opens, its review makes its calls, and its answer
closes it. -/
theorem runCycle_eq_moves (review : Review) (p : Proposed) (e : Engine) :
    ((Floor.start e).run (cycleMoves review p)).desk =
        finalState (runCycle review p Op.run returnedAs ⟨e, 0⟩) ∧
      ((Floor.start e).run (cycleMoves review p)).closed.map Closed.result =
        [outcome (runCycle review p Op.run returnedAs ⟨e, 0⟩)] := by
  -- propose, let the review call, close
  have hopen : (Floor.start e).move (.propose p) = ⟨⟨e, 1⟩, [⟨openedOn p e 0, e⟩], []⟩ := by
    simp only [Floor.start, Floor.move, openCycle_eq]
    rfl
  have hrun : (Floor.start e).run (cycleMoves review p) =
      Floor.close ⟨⟨e.runCalls review.calls, 1⟩, [⟨openedOn p e 0, e⟩], []⟩ 0
        ⟨openedOn p e 0, e⟩ review.disposition := by
    rw [cycleMoves, Floor.run, List.foldl_cons, hopen, List.foldl_append]
    exact congrArg (Floor.move · (.answer 0 review.disposition)) (Floor.run_calls _ review.calls)
  rw [hrun, runCycle_eq]
  exact ⟨rfl, rfl⟩

/-! ## The law

Over every interleaving. -/

/-- What holds of the cycles that were closed, however they interleaved. -/
structure Floor.Safe (f : Floor) : Prop where
  /-- A cycle made its call exactly if the answer approved it and the engine was as the candidate
  had found it; otherwise it changed nothing. -/
  exact : ∀ c ∈ f.closed, c.Exact
  /-- A decision carries the identity of the state its candidate was built on. -/
  decided : ∀ c ∈ f.closed, c.opened.decisionIdentity = identityOf c.seen
  /-- The calls form one order, each behind the ones before it. -/
  ordered : f.log.Pairwise fun c d => Engine.Later c.after d.before
  /-- A call that changed the engine is the last of the calls decided on its identity. -/
  distinct : f.log.Pairwise fun c d => c.Effective → identityOf d.decided ≠ identityOf c.decided

theorem Floor.Kept.safe {f : Floor} (h : f.Kept) : f.Safe where
  exact := h.exact
  decided c hc := by
    obtain ⟨p, ids, hopened⟩ := h.closedOpened c hc
    rw [hopened]
    rfl
  ordered := h.serial.ordered
  distinct := h.serial.distinct

/-- **Cycles do not lose each other's changes.** Whatever calls, proposals and answers come in
whatever order, every cycle that acts does so on the state it was decided on. -/
theorem interleaved_cycles {s : Session} (h : s.Reachable) (moves : List Move) :
    ((Floor.start s.engine).run moves).Safe :=
  ((Floor.Kept.start h.sound.typed).run moves).safe

/-- Two proposals to refute the same claim, both approved. -/
theorem interleaved_cycles_disputed :
    ((Floor.start Session.disputed.engine).run
      [.propose proposeRefute, .propose proposeRefute, .answer 0 "approved",
        .answer 0 "approved"]).Safe :=
  interleaved_cycles Session.disputed_reachable _

end Operation

end Ragcore
