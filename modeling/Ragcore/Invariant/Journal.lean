import Ragcore.Invariant.Observation

/-!
# Ragcore — a journal of the calls rebuilds the engine

A consumer that keeps a journal of the calls that returned can do without the snapshots. Replayed
on a new engine, every call returns what it returned the first time, new ids included, and the
engine that results is not told from the lost one. Calls that raised need no entry, a firing is
journaled as the calls it made, and a restore in between leaves no trace.

* **`Session.Reachable.replays`** — the invariant: the journal is a run to a matching engine.
* **`journal_rebuilds`** — what the replayed engine has in common with the original.
-/

namespace Ragcore

theorem Matches.trans {a b c : Engine} (h : Matches a b) (h' : Matches b c) : Matches a c :=
  ⟨h.stores.trans h'.stores, h.evidences.trans h'.evidences⟩

theorem Matches.symm {a b : Engine} (h : Matches a b) : Matches b a :=
  ⟨h.stores.symm, h.evidences.symm⟩

/-- In a typed state a call that raises leaves the engine as it was. -/
theorem WellTyped.eq_of_error {e e' : Engine} (h : WellTyped e) {o : Op} {err : PyErr}
    (hrun : o.run e = .error err e') : e' = e := by
  rcases h.outcome_cases (o.outcome_cases e) with ⟨err', herr⟩ | ⟨r, hok⟩ | ⟨r, e'', hok, -⟩
  · rw [hrun] at herr
    cases herr
    rfl
  · rw [hrun] at hok
    cases hok
  · rw [hrun] at hok
    cases hok

/-- The invariant of a run, with what it takes to keep it. -/
theorem Session.Reachable.replays {s : Session} (h : s.Reachable) (uuid : UuidHex) :
    Replays Op.run Matches (Engine.new uuid) s.log s.engine :=
  (h.preserves
    (P := fun log e =>
      (Sound e ∧ EvidencesAscending e) ∧ Replays Op.run Matches (Engine.new uuid) log e)
    (fun uuid' => ⟨⟨.new uuid', List.Pairwise.nil⟩, _, .nil _, .refl _, rfl⟩)
    (fun log e o he => ⟨⟨he.1.1.op o, he.1.2.outcome he.1.1.counters (o.outcome_cases e)⟩,
      he.2.op (fun t ht => ht.op o) fun err e' hrun => he.1.1.typed.eq_of_error hrun⟩)
    fun log e uuid' e' he hrun => by
      rw [he.1.1.trip hrun]
      -- the restored engine matches the one it was taken from
      have hmatch := he.1.2.matches_reloaded uuid'
      exact ⟨⟨he.1.1.congr (e.equiv_reloaded uuid'), .reloaded uuid' e⟩,
        he.2.of_related fun t ht => hmatch.symm.trans ht⟩).2

/-- `replayed` is what the journal of the session makes of a new engine. -/
structure JournalRebuilds (s : Session) (uuid : UuidHex) (replayed : Engine) : Prop where
  /-- Every call returns what the journal says. -/
  run : Steps Op.run (Engine.new uuid) (journal s.log) replayed
  snapshot : replayed.toSnapshot = s.engine.toSnapshot
  /-- No later call or read tells the engines apart, state identities aside. -/
  requests : ∀ requests : List Request,
    (responses Request.run requests s.engine).map (Response.unstamped <$> ·) =
      (responses Request.run requests replayed).map (Response.unstamped <$> ·)

/-- **The journal rebuilds the engine.** -/
theorem journal_rebuilds {s : Session} (h : s.Reachable) (uuid : UuidHex) :
    ∃ replayed, JournalRebuilds s uuid replayed := by
  obtain ⟨replayed, hsteps, hmatch⟩ := h.replays uuid
  exact ⟨replayed, hsteps, hmatch.toSnapshot.symm, fun requests =>
    responses_eq (fun r _ _ hrelated => hrelated.request r) requests hmatch⟩

/-- Two entities, with a claim on a third that does not exist and a restore between them. -/
def interruptedRun : List Action := [
  .call (.op (.addEntity 1 0)),
  .call (.op (.addClaim 3 1 0 1 1 (.fin (1 / 2)) 0 0)),
  .roundTrip default,
  .call (.op (.addEntity 2 0))]

theorem journal_rebuilds_interrupted :
    (journal ((Session.start default).run interruptedRun).log).map CallRecord.op =
        [.addEntity 1 0, .addEntity 2 0] ∧
      ∃ replayed, JournalRebuilds ((Session.start default).run interruptedRun) default replayed :=
  ⟨by with_unfolding_all rfl, journal_rebuilds ⟨default, interruptedRun, rfl⟩ default⟩

end Ragcore
