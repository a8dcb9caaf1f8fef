import Ragcore.Lib.Fallible
import Ragcore.Lib.PyValue

/-!
# Ragcore — the validator of packet interpretations

`validate_consumer_packet_interpretation` of `packet_validator.py` looks through what a consumer
built from a claim's packet for readings the packet forbids. Two of them, F5 and F7, are a
refutation drawn from contradictions or open gaps: a string value such as `refuted`.

The walk yields the entries of dicts. A string that is an item of a list or tuple is the value of
no entry, and neither F5 nor F7 sees it.

* **`walkKeysAndValues`** — the walk; **`exists_mem_walk_iff`** says what it yields.
* **`carries_refutation_iff`** — what F5 and F7 look for.
* **`refutation_reported_iff`** — they miss a refutation word exactly when it is an item and no
  entry has one for its value.
-/

namespace Ragcore

namespace Inspector

/-! ## Vocabularies

The words that each code looks for. -/

/-- The names of a probability. -/
def probabilityKeyExact : List String := ["probability", "prob", "p_true"]

/-- And how such a name may begin. -/
def probabilityKeyPrefixes : List String := ["probability_of_", "prob_of_", "p_true_"]

def verdictKeys : List String := ["verdict", "label", "judgment", "decision", "ruling"]

def autoVerifiedKeys : List String :=
  ["verified", "is_true", "auto_true", "is_confirmed", "auto_confirmed"]

/-- Values that read like a refutation. -/
def autoRefutationValues : List String := ["refuted", "false", "rejected", "denied", "invalid"]

/-- Names that ask for a call on the engine. -/
def mutationIntentKeys : List String :=
  ["engine_mutation", "engine_call_args", "mutation_payload", "add_evidence_args",
    "add_claim_args", "add_gap_args", "add_observation_args", "engine_write",
    "engine_writeback"]

/-- `CLAIM_STATUS_REFUTED`. -/
def claimStatusRefuted : Int := 2

/-! ## The walk

Every entry of a dict at any depth, through lists and tuples as well. A list item that is no
container is not yielded: it has no key. -/

mutual

/-- `_walk_keys_and_values`. -/
def walkKeysAndValues : PyValue → Entries
  | .dict entries => walkEntries entries
  | .list xs => walkItems xs
  | .tuple xs => walkItems xs
  | _ => []

/-- An entry comes before the entries of its value. -/
def walkEntries : Entries → Entries
  | [] => []
  | (key, value) :: rest => (key, value) :: (walkKeysAndValues value ++ walkEntries rest)

/-- The items of a list carry no key of their own. -/
def walkItems : List PyValue → Entries
  | [] => []
  | item :: rest => walkKeysAndValues item ++ walkItems rest

end

variable (str : Lowering)

/-- `_all_keys`. -/
def allKeys (obj : PyValue) : List String :=
  (walkKeysAndValues obj).filterMap fun entry =>
    match entry.1 with
    | .str key => some (str.lower key)
    | .other _ _ => none

/-- `_all_string_values`. -/
def allStringValues (obj : PyValue) : List String :=
  (walkKeysAndValues obj).filterMap fun entry =>
    match entry.2 with
    | .str value => some (str.lower value)
    | _ => none

/-! ## Detectors

One for each code. They differ in the words they look for and in whether they look at keys, at
values or at the packet too. -/

/-- A key that is a probability by name or by prefix. -/
def detectF3ProbabilityLabelForStrength (consumerOutput : PyValue) : Bool :=
  (allKeys str consumerOutput).any fun key =>
    decide (key ∈ probabilityKeyExact) || probabilityKeyPrefixes.any (startsWith key)

/-- A packet without a claim has no status. -/
def claimStatusIsAlreadyRefuted (sourcePacket : PyValue) : Except PyErr Bool := do
  match ← sourcePacket.getOr "claim" .none with
  | .none => return false
  | claim => return (claim.getattr "status").eqInt claimStatusRefuted

/-- A text among the walked values, compared in lower case. -/
def consumerOutputCarriesRefutationValue (consumerOutput : PyValue) : Bool :=
  (allStringValues str consumerOutput).any fun value => decide (value ∈ autoRefutationValues)

/-- The check F5 and F7 share: a refutation value though the claim is not refuted, and the entry
of that name is not empty. -/
def detectRefutation (name : String) (consumerOutput sourcePacket : PyValue) :
    Except PyErr Bool := do
  if ← claimStatusIsAlreadyRefuted sourcePacket then
    return false
  else
    let entry ← sourcePacket.getOr name (.tuple [])
    if (← entry.len) = 0 then
      return false
    else
      return consumerOutputCarriesRefutationValue str consumerOutput

def detectF5ContradictionsAutoRefutation (consumerOutput sourcePacket : PyValue) :
    Except PyErr Bool :=
  detectRefutation str "contradictions" consumerOutput sourcePacket

def detectF7UnresolvedGapsRefutation (consumerOutput sourcePacket : PyValue) :
    Except PyErr Bool :=
  detectRefutation str "unresolved_gaps" consumerOutput sourcePacket

/-- A key that relabels the status as a verdict. -/
def detectF10StatusVerdictRelabel (consumerOutput : PyValue) : Bool :=
  (allKeys str consumerOutput).any fun key => decide (key ∈ verdictKeys)

/-- A key that says verified, with a bool under it. -/
def detectF12ThresholdAutoVerified (consumerOutput : PyValue) : Bool :=
  (walkKeysAndValues consumerOutput).any fun entry =>
    match entry with
    | (.str key, .bool _) => decide (str.lower key ∈ autoVerifiedKeys)
    | _ => false

/-- A key that asks for a mutation. -/
def detectF13EngineMutationIntent (consumerOutput : PyValue) : Bool :=
  (allKeys str consumerOutput).any fun key => decide (key ∈ mutationIntentKeys)

/-! ## The validator

The codes in the order of the source, each with its own message. -/

/-- The codes that can be detected in an output. -/
inductive FId where
  | f3 | f5 | f7 | f10 | f12 | f13
  deriving DecidableEq, Repr

/-- The message of a forbidden reading. -/
def FId.message : FId → String
  | .f3 => "evidence strength must not be exposed as probability (PR52 §5 F3 / PR44-D AP-X-1)"
  | .f5 => "contradictions non-empty must not auto-imply refutation (PR52 §5 F5 / PR44-D AP-CT-1)"
  | .f7 => "unresolved gaps must not be treated as refutation (PR52 §5 F7 / PR44-D AP-G-1)"
  | .f10 => "claim status must not be relabeled as consumer verdict (PR52 §5 F10 / PR43-C §4.3)"
  | .f12 => "threshold must not produce an auto-verified boolean (PR52 §5 F12 / PR44-D AP-CF-2)"
  | .f13 =>
    "raw_ref_id must not be used as engine mutation payload (PR52 §5 F13 / PR44-D AP-E-1)"

/-- The violation, where it was detected. -/
def report (fid : FId) (detected : Bool) : List (FId × String) :=
  if detected then [(fid, fid.message)] else []

/-- F5 and F7 read the packet and may raise on it. -/
def validateConsumerPacketInterpretation (consumerOutput sourcePacket : PyValue) :
    Except PyErr (List (FId × String)) := do
  let f3 := detectF3ProbabilityLabelForStrength str consumerOutput
  let f5 ← detectF5ContradictionsAutoRefutation str consumerOutput sourcePacket
  let f7 ← detectF7UnresolvedGapsRefutation str consumerOutput sourcePacket
  let f10 := detectF10StatusVerdictRelabel str consumerOutput
  let f12 := detectF12ThresholdAutoVerified str consumerOutput
  let f13 := detectF13EngineMutationIntent str consumerOutput
  return report .f3 f3 ++ report .f5 f5 ++ report .f7 f7 ++ report .f10 f10 ++ report .f12 f12 ++
    report .f13 f13

/-- The validator returns, with that violation. -/
def Reported (fid : FId) (consumerOutput sourcePacket : PyValue) : Prop :=
  ∃ violations, validateConsumerPacketInterpretation str consumerOutput sourcePacket =
    .ok violations ∧ fid ∈ violations.map Prod.fst

/-! ## What the walk yields

The entries at any depth. A value of the source is walked exactly when it stands under a key as the
value of an entry. -/

/-- The entries of a dict and those inside their values. -/
theorem mem_walkEntries {entries : Entries} {e : PyKey × PyValue} :
    e ∈ walkEntries entries ↔
      ∃ key value, (key, value) ∈ entries ∧
        (e = (key, value) ∨ e ∈ walkKeysAndValues value) := by
  induction entries with
  | nil => simp [walkEntries]
  | cons entry rest ih =>
    obtain ⟨key, value⟩ := entry
    rw [walkEntries, List.mem_cons, List.mem_append, ih]
    constructor
    · rintro (here | inner | ⟨key', value', mem, found⟩)
      · exact ⟨key, value, List.mem_cons_self, .inl here⟩
      · exact ⟨key, value, List.mem_cons_self, .inr inner⟩
      · exact ⟨key', value', List.mem_cons_of_mem _ mem, found⟩
    · rintro ⟨key', value', mem, found⟩
      -- the first entry, or one of the others
      rcases List.mem_cons.mp mem with hhead | hrest
      · cases hhead
        exact found.imp_right .inl
      · exact .inr (.inr ⟨key', value', hrest, found⟩)

/-- Those inside the items of a list. -/
theorem mem_walkItems {xs : List PyValue} {e : PyKey × PyValue} :
    e ∈ walkItems xs ↔ ∃ item ∈ xs, e ∈ walkKeysAndValues item := by
  induction xs with
  | nil => simp [walkItems]
  | cons item rest ih => simp [walkItems, ih]

/-- What is yielded stands under a key. -/
theorem inside_of_mem_walk {P : PyValue → Prop} {v : PyValue} {key : PyKey} {value : PyValue}
    (mem : (key, value) ∈ walkKeysAndValues v) (holds : P value) : v.UnderKeyAsEntry P := by
  -- a walked entry is an entry of some dict inside the value
  induction v using PyValue.nestedInduction with
  | dict entries ih =>
    rw [walkKeysAndValues] at mem
    obtain ⟨k, w, entry, here | inner⟩ := mem_walkEntries.mp mem
    · cases here
      have hentry : PyValue.EntryIs P (.dict entries) := ⟨key, value, entry, holds⟩
      exact .self hentry
    · exact .entry entry (ih k w entry inner)
  | list xs ih =>
    rw [walkKeysAndValues] at mem
    obtain ⟨item, hitem, inner⟩ := mem_walkItems.mp mem
    exact .listItem hitem (ih item hitem inner)
  | tuple xs ih =>
    rw [walkKeysAndValues] at mem
    obtain ⟨item, hitem, inner⟩ := mem_walkItems.mp mem
    exact .tupleItem hitem (ih item hitem inner)
  | _ => simp [walkKeysAndValues] at mem

/-- What stands under a key as a value is yielded. -/
theorem exists_mem_walk {P : PyValue → Prop} {v : PyValue} (found : v.UnderKeyAsEntry P) :
    ∃ e ∈ walkKeysAndValues v, P e.2 := by
  unfold PyValue.UnderKeyAsEntry at found
  -- the walk goes into every container on the way
  induction found with
  | @self u hentry =>
    cases u with
    | dict entries =>
      obtain ⟨key, value, mem, holds⟩ := hentry
      rw [walkKeysAndValues]
      exact ⟨(key, value), mem_walkEntries.mpr ⟨key, value, mem, .inl rfl⟩, holds⟩
    | _ => exact hentry.elim
  | @entry entries key value mem _ ih =>
    obtain ⟨e, inner, holds⟩ := ih
    rw [walkKeysAndValues]
    exact ⟨e, mem_walkEntries.mpr ⟨key, value, mem, .inr inner⟩, holds⟩
  | listItem mem _ ih =>
    obtain ⟨e, inner, holds⟩ := ih
    rw [walkKeysAndValues]
    exact ⟨e, mem_walkItems.mpr ⟨_, mem, inner⟩, holds⟩
  | tupleItem mem _ ih =>
    obtain ⟨e, inner, holds⟩ := ih
    rw [walkKeysAndValues]
    exact ⟨e, mem_walkItems.mpr ⟨_, mem, inner⟩, holds⟩

/-- **The walk is exact.** It yields the values of entries, those of every dict inside. -/
theorem exists_mem_walk_iff {P : PyValue → Prop} {v : PyValue} :
    (∃ e ∈ walkKeysAndValues v, P e.2) ↔ v.UnderKeyAsEntry P := by
  constructor
  · rintro ⟨⟨key, value⟩, mem, holds⟩
    exact inside_of_mem_walk mem holds
  · exact exists_mem_walk

/-! ## F5 and F7

A refutation of a claim that is not refuted is reported exactly when it is the value of an entry.
One that is an item of a list is missed. -/

/-- A string that lower-cases to a refutation word. -/
def Refuting : PyValue → Prop
  | .str value => str.lower value ∈ autoRefutationValues
  | _ => False

/-- **What F5 and F7 look for**: a refutation word that is the value of an entry. -/
theorem carries_refutation_iff (consumerOutput : PyValue) :
    consumerOutputCarriesRefutationValue str consumerOutput = true ↔
      consumerOutput.UnderKeyAsEntry (Refuting str) := by
  rw [← exists_mem_walk_iff]
  unfold consumerOutputCarriesRefutationValue allStringValues
  simp only [List.any_eq_true, List.mem_filterMap, decide_eq_true_eq]
  constructor
  · rintro ⟨text, ⟨⟨key, value⟩, mem, hvalue⟩, hword⟩
    -- only texts are compared
    cases value with
    | str value =>
      cases hvalue
      exact ⟨(key, .str value), mem, hword⟩
    | _ => cases hvalue
  · rintro ⟨⟨key, value⟩, mem, hword⟩
    cases value with
    | str value => exact ⟨str.lower value, ⟨(key, .str value), mem, rfl⟩, hword⟩
    | _ => exact hword.elim

/-- The packet is a dict whose entry of that name has `n` members. An entry that is not there
counts as empty. -/
def HasMembers (sourcePacket : PyValue) (name : String) (n : Nat) : Prop :=
  ∃ entry, sourcePacket.getOr name (.tuple []) = .ok entry ∧ entry.len = .ok n

/-- What the validator needs of a packet to return. -/
structure SourcePacket (sourcePacket : PyValue) : Prop where
  contradictions : ∃ n, HasMembers sourcePacket "contradictions" n
  unresolvedGaps : ∃ n, HasMembers sourcePacket "unresolved_gaps" n

variable {consumerOutput sourcePacket : PyValue}

/-- With something to refute, the words decide. -/
theorem detectRefutation_ok (consumerOutput : PyValue) {name : String} {n : Nat}
    (hclaim : claimStatusIsAlreadyRefuted sourcePacket = .ok false)
    (hmembers : HasMembers sourcePacket name n) :
    detectRefutation str name consumerOutput sourcePacket =
      .ok (decide (n ≠ 0) && consumerOutputCarriesRefutationValue str consumerOutput) := by
  obtain ⟨entry, hentry, hlen⟩ := hmembers
  unfold detectRefutation
  rw [hclaim, hentry]
  simp only [bind, Except.bind, hlen, Bool.false_eq_true, if_false]
  by_cases hempty : n = 0
  · simp [hempty, pure, Except.pure]
  · simp [hempty, pure, Except.pure]

/-- A code is reported when it was detected. -/
theorem mem_report {fid found : FId} {detected : Bool} :
    fid ∈ (report found detected).map Prod.fst ↔ fid = found ∧ detected = true := by
  cases detected <;> simp [report]

theorem reported_of_detected {f5 f7 : Bool} (fid : FId)
    (hf5 : detectF5ContradictionsAutoRefutation str consumerOutput sourcePacket = .ok f5)
    (hf7 : detectF7UnresolvedGapsRefutation str consumerOutput sourcePacket = .ok f7) :
    Reported str fid consumerOutput sourcePacket ↔
      fid = .f3 ∧ detectF3ProbabilityLabelForStrength str consumerOutput = true ∨
        fid = .f5 ∧ f5 = true ∨ fid = .f7 ∧ f7 = true ∨
        fid = .f10 ∧ detectF10StatusVerdictRelabel str consumerOutput = true ∨
        fid = .f12 ∧ detectF12ThresholdAutoVerified str consumerOutput = true ∨
        fid = .f13 ∧ detectF13EngineMutationIntent str consumerOutput = true := by
  unfold Reported validateConsumerPacketInterpretation
  rw [hf5, hf7]
  simp only [bind, Except.bind, pure, Except.pure, Except.ok.injEq, exists_eq_left',
    List.map_append, List.mem_append, mem_report, or_assoc]

/-- An entry that is not empty, and so is there. -/
def NonemptyEntry (sourcePacket : PyValue) (name : String) : Prop :=
  ∃ n, HasMembers sourcePacket name (n + 1)

/-- With a claim that is not refuted, F5 and F7 each come down to its own entry and to the
refutation words that entries of the output have for values. -/
theorem reported_refutation_iff (consumerOutput : PyValue) (hpacket : SourcePacket sourcePacket)
    (hclaim : claimStatusIsAlreadyRefuted sourcePacket = .ok false) :
    (NonemptyEntry sourcePacket "contradictions" →
      (Reported str .f5 consumerOutput sourcePacket ↔
        consumerOutput.UnderKeyAsEntry (Refuting str))) ∧
    (NonemptyEntry sourcePacket "unresolved_gaps" →
      (Reported str .f7 consumerOutput sourcePacket ↔
        consumerOutput.UnderKeyAsEntry (Refuting str))) := by
  obtain ⟨contradictions, hcontradictions⟩ := hpacket.contradictions
  obtain ⟨gaps, hgaps⟩ := hpacket.unresolvedGaps
  rw [← carries_refutation_iff]
  -- the other detector returns as well, so its answer has no part in this one
  constructor
  · rintro ⟨n, hmembers⟩
    have hf5 := detectRefutation_ok str consumerOutput hclaim hmembers
    have hf7 := detectRefutation_ok str consumerOutput hclaim hgaps
    rw [reported_of_detected str .f5 hf5 hf7]
    simp
  · rintro ⟨n, hmembers⟩
    have hf5 := detectRefutation_ok str consumerOutput hclaim hcontradictions
    have hf7 := detectRefutation_ok str consumerOutput hclaim hmembers
    rw [reported_of_detected str .f7 hf5 hf7]
    simp

/-- What is found as an entry is all that is found, as far as the items are covered. -/
theorem entry_iff_underKey_iff {P : PyValue → Prop} {v : PyValue} :
    (v.UnderKeyAsEntry P ↔ v.UnderKey P) ↔ (v.UnderKeyAsItem P → v.UnderKeyAsEntry P) := by
  rw [PyValue.underKey_iff]
  constructor
  · intro hagree hitem
    exact hagree.mpr (.inr hitem)
  · intro hcovered
    constructor
    · exact .inl
    · rintro (hentry | hitem)
      · exact hentry
      · exact hcovered hitem

/-- **No refutation wording is missed, items apart.** For a packet whose claim is not refuted and
whose contradictions (open gaps) are not empty, F5 (F7) is reported exactly when a refutation
word stands under a key of the output, if and only if the words that are items come with one that
is the value of an entry. -/
theorem refutation_reported_iff (str : Lowering) {consumerOutput sourcePacket : PyValue}
    (hpacket : SourcePacket sourcePacket)
    (hclaim : claimStatusIsAlreadyRefuted sourcePacket = .ok false) :
    (NonemptyEntry sourcePacket "contradictions" →
      ((Reported str .f5 consumerOutput sourcePacket ↔
          consumerOutput.UnderKey (Refuting str)) ↔
        (consumerOutput.UnderKeyAsItem (Refuting str) →
          consumerOutput.UnderKeyAsEntry (Refuting str)))) ∧
    (NonemptyEntry sourcePacket "unresolved_gaps" →
      ((Reported str .f7 consumerOutput sourcePacket ↔
          consumerOutput.UnderKey (Refuting str)) ↔
        (consumerOutput.UnderKeyAsItem (Refuting str) →
          consumerOutput.UnderKeyAsEntry (Refuting str)))) := by
  obtain ⟨hf5, hf7⟩ := reported_refutation_iff str consumerOutput hpacket hclaim
  constructor
  · intro hcontradictions
    rw [hf5 hcontradictions]
    exact entry_iff_underKey_iff
  · intro hgaps
    rw [hf7 hgaps]
    exact entry_iff_underKey_iff

/-- A list of outcomes. -/
def refutedOutcomes : PyValue := .dict [(.str "outcomes", .list [.str "Refuted"])]

/-- The packet of a candidate claim with a contradiction and an open gap. -/
def contradictedPacket : PyValue :=
  .dict [(.str "claim", .object "Claim" [("id", .int 1), ("status", .int 0)]),
    (.str "contradictions", .tuple [.int 1]),
    (.str "unresolved_gaps", .tuple [.object "Gap" [("id", .int 1)]])]

/-- The packet has one contradiction and one gap. -/
theorem contradictedPacket_hasMembers {name : String}
    (hname : name = "contradictions" ∨ name = "unresolved_gaps") :
    HasMembers contradictedPacket name 1 := by
  rcases hname with rfl | rfl
  · exact ⟨_, rfl, rfl⟩
  · exact ⟨_, rfl, rfl⟩

theorem contradictedPacket_sourcePacket : SourcePacket contradictedPacket :=
  ⟨⟨1, contradictedPacket_hasMembers (.inl rfl)⟩, ⟨1, contradictedPacket_hasMembers (.inr rfl)⟩⟩

theorem refutation_reported_iff_outcomes :
    (Reported .ascii .f5 refutedOutcomes contradictedPacket ↔
        refutedOutcomes.UnderKey (Refuting .ascii)) ↔
      (refutedOutcomes.UnderKeyAsItem (Refuting .ascii) →
        refutedOutcomes.UnderKeyAsEntry (Refuting .ascii)) :=
  (refutation_reported_iff .ascii contradictedPacket_sourcePacket rfl).1
    ⟨0, contradictedPacket_hasMembers (.inl rfl)⟩

/-- The word in the list is not reported. -/
theorem refutedOutcomes_not_reported :
    ¬(Reported .ascii .f5 refutedOutcomes contradictedPacket ↔
      refutedOutcomes.UnderKey (Refuting .ascii)) := by
  intro hagree
  have hword : Refuting .ascii (.str "Refuted") := by
    show asciiLower "Refuted" ∈ autoRefutationValues
    decide +kernel
  have hitem : (PyValue.list [.str "Refuted"]).Inside (Refuting .ascii) :=
    .listItem List.mem_cons_self (.self hword)
  -- the word stands under a key, but as an item
  have hunder : refutedOutcomes.UnderKey (Refuting .ascii) :=
    .self ⟨.str "outcomes", .list [.str "Refuted"], List.mem_cons_self, hitem⟩
  obtain ⟨violations, hreturned, hmem⟩ := hagree.mpr hunder
  have hnone : validateConsumerPacketInterpretation .ascii refutedOutcomes contradictedPacket =
      .ok [] := by
    with_unfolding_all rfl
  rw [hnone] at hreturned
  cases hreturned
  cases hmem

end Inspector

end Ragcore
