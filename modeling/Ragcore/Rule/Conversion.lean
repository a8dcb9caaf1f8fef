import Ragcore.Lib.Double
import Ragcore.Rule.Compile

/-!
# Ragcore — what the compile functions raise

Every check of `load_rule_spec` and `compile_rule_output` raises `TypeError` or `ValueError`. What
stands between the last check of a score and `ScoreValue` is `float(n)`: an int from
`2 ^ 1024 - 2 ^ 970` on has no double.

* **`HeaderTo` / `OutputTo`** — all checks pass up to the conversion of that value.
* **`Oversize`** — an int that does not convert (`scoreOf_refuses_iff`).
* **`loadRuleSpec_refuses_iff`** / **`compileRuleOutput_refuses_iff`** — the exceptions are the
  declared ones unless an oversize int is converted.
-/

namespace Ragcore

namespace Rule

open Condition (strip NotBlank)

/-! ## Scores

`ScoreValue(float(v))`. The conversion of an int that no float can hold raises `OverflowError`, and
that is the only exception that is not declared. -/

/-- An int that `float` does not convert. -/
def Oversize : Yaml → Prop
  | .scalar (.int n) => 2 ^ 1024 - 2 ^ 970 ≤ |n|
  | _ => False

/-- A number `ScoreValue` admits. -/
def IsScore : Yaml → Prop
  | .scalar (.int n) => n = 0 ∨ n = 1
  | .scalar (.float (.fin q)) => 0 ≤ q ∧ q ≤ 1
  | _ => False

/-- An int converts to the nearest float, if there is one. -/
theorem floatOfInt_ok_iff {n : Int} {x : PyFloat} :
    floatOfInt n = .ok x ↔ ∃ q, x = .fin q ∧ PyFloat.toDouble n = .fin q := by
  unfold floatOfInt
  cases h : PyFloat.toDouble n with
  | fin q => simp [eq_comm]
  | _ => simp

/-- Beyond the largest float there is none. -/
theorem floatOfInt_overflow {n : Int} (h : 2 ^ 1024 - 2 ^ 970 ≤ |n|) :
    floatOfInt n = .error (.overflowError ["int too large to convert to float"]) := by
  have hnone : ¬∃ q, PyFloat.toDouble n = .fin q := by
    rw [PyFloat.toDouble_int_isFin_iff, not_lt]
    exact h
  unfold floatOfInt
  split
  · rename_i q hq
    exact absurd ⟨q, hq⟩ hnone
  · rfl

theorem floatOfInt_isOk {n : Int} (h : ¬2 ^ 1024 - 2 ^ 970 ≤ |n|) :
    ∃ q, floatOfInt n = .ok (.fin q) := by
  obtain ⟨q, hq⟩ := PyFloat.toDouble_int_isFin_iff.mpr (not_le.mp h)
  exact ⟨q, floatOfInt_ok_iff.mpr ⟨q, rfl, hq⟩⟩

theorem scoreValue_refuses (v : Json) : RaisesOnly PyErr.TypeOrValue (ScoreValue.new v) := by
  unfold ScoreValue.new
  split
  · exact .error (.typeError _)
  · split
    · exact .ok _
    · exact .error (.valueError _)
  · exact .error (.valueError _)

/-- An `OverflowError` is not declared. -/
theorem not_typeOrValue_overflow (message : List MsgPart) :
    ¬PyErr.TypeOrValue (.overflowError message) := by
  rintro (h | h) <;> cases h

/-- So an oversize number breaks the contract. -/
theorem scoreOf_overflow (field : String) {v : Yaml} (h : Oversize v) :
    scoreOf field v = .error (.overflowError ["int too large to convert to float"]) := by
  cases v with
  | scalar v =>
    cases v with
    | int n =>
      rw [scoreOf, floatOfInt_overflow h]
      rfl
    | _ => exact h.elim
  | _ => exact h.elim

theorem scoreOf_refuses (field : String) {v : Yaml} (h : ¬Oversize v) :
    RaisesOnly PyErr.TypeOrValue (scoreOf field v) := by
  cases v with
  | scalar v =>
    cases v with
    | int n =>
      obtain ⟨q, hq⟩ := floatOfInt_isOk h
      rw [scoreOf, hq]
      show RaisesOnly PyErr.TypeOrValue (ScoreValue.new (.float (.fin q)))
      exact scoreValue_refuses _
    | float x => exact scoreValue_refuses _
    | _ => exact .error (.typeError _)
  | _ => exact .error (.typeError _)

/-- **A score fails otherwise** exactly for an oversize int. -/
theorem scoreOf_refuses_iff (field : String) (v : Yaml) :
    RaisesOnly PyErr.TypeOrValue (scoreOf field v) ↔ ¬Oversize v := by
  constructor
  · intro h hoversize
    exact not_typeOrValue_overflow _ (h _ (scoreOf_overflow field hoversize))
  · exact scoreOf_refuses field

/-- A float of the unit interval is a score. -/
theorem scoreValue_float_isOk {q : ℚ} (h : 0 ≤ q ∧ q ≤ 1) :
    ∃ s, ScoreValue.new (.float (.fin q)) = .ok s :=
  ⟨⟨q, h.1, h.2⟩, ScoreValue.new_value ⟨q, h.1, h.2⟩⟩

theorem scoreValue_float_ok {x : PyFloat} {s : ScoreValue}
    (h : ScoreValue.new (.float x) = .ok s) : ∃ q, x = .fin q ∧ 0 ≤ q ∧ q ≤ 1 := by
  have hvalue := ScoreValue.new_ok_iff.mp h
  exact ⟨s.value, Option.some.inj hvalue, s.nonneg, s.le_one⟩

/-- A score is read from a number of the unit interval. -/
theorem scoreOf_isOk_iff (field : String) (v : Yaml) :
    (∃ s, scoreOf field v = .ok s) ↔ IsScore v := by
  constructor
  · rintro ⟨s, hs⟩
    cases v with
    | scalar v =>
      cases v with
      | int n =>
        -- the double of an int is in the unit interval only for `0` and `1`
        obtain ⟨x, hx, hs⟩ := bind_ok_iff.mp hs
        obtain ⟨q, rfl, hq⟩ := floatOfInt_ok_iff.mp hx
        obtain ⟨_, hsame, hlow, hhigh⟩ := scoreValue_float_ok hs
        cases hsame
        exact PyFloat.toDouble_int_unit hq hlow hhigh
      | float x =>
        obtain ⟨q, rfl, hunit⟩ := scoreValue_float_ok hs
        exact hunit
      | _ => cases hs
    | _ => cases hs
  · intro h
    cases v with
    | scalar v =>
      cases v with
      | int n =>
        rcases h with rfl | rfl
        · have hzero : floatOfInt 0 = .ok (.fin 0) :=
            floatOfInt_ok_iff.mpr ⟨0, rfl, by simp [PyFloat.toDouble]⟩
          exact bind_isOk hzero (scoreValue_float_isOk ⟨le_rfl, zero_le_one⟩)
        · have hone : floatOfInt 1 = .ok (.fin 1) :=
            floatOfInt_ok_iff.mpr ⟨1, rfl, by rw [Int.cast_one]; exact PyFloat.toDouble_one⟩
          exact bind_isOk hone (scoreValue_float_isOk ⟨zero_le_one, le_rfl⟩)
      | float x =>
        cases x with
        | fin q => exact scoreValue_float_isOk h
        | _ => exact h.elim
      | _ => exact h.elim
    | _ => exact h.elim

/-! ## Single checks

Each check of the loader, with what it refuses and when it passes. -/

theorem requireField_refuses (data : Yaml) (name : String) :
    RaisesOnly PyErr.TypeOrValue (requireField data name) := by
  have hcontains : RaisesOnly PyErr.TypeOrValue (data.contains name) := by
    unfold Yaml.contains
    split <;> first | exact .ok _ | exact .error (.typeError _)
  exact hcontains.bind fun _ _ => .ensure (.valueError _)

/-- Of a value that has the name, the subscript raises no `KeyError`. -/
theorem getItem_refuses {data : Yaml} {name : String} (h : requireField data name = .ok ()) :
    RaisesOnly PyErr.TypeOrValue (data.getItem name) := by
  obtain ⟨present, hpresent, hensure⟩ := bind_ok_iff.mp h
  rw [ensure_ok_iff.mp hensure] at hpresent
  cases data with
  | dict entries => exact getField_refuses (Yaml.hasField_iff.mp (Except.ok.inj hpresent))
  | scalar v =>
    cases v with
    | native cls place repr => cases cls <;> exact .error (.typeError _)
    | _ => exact .error (.typeError _)
  | _ => exact .error (.typeError _)

/-- The test of the source for a name that is not blank. -/
theorem strip_bne_iff {text : String} : (strip text != "") = true ↔ NotBlank text := by
  rw [bne_iff_ne, ne_eq, Condition.strip_eq_empty_iff, not_not]

theorem strippedName_refuses (field : String) (v : Yaml) :
    RaisesOnly PyErr.TypeOrValue (strippedName field v) := by
  unfold strippedName
  split
  · exact (RaisesOnly.ensure (.valueError _)).bind fun _ _ => .pure _
  · exact .error (.typeError _)

/-- A name is a text that is not blank, without the blanks around it. -/
theorem strippedName_ok_iff {field name : String} {v : Yaml} :
    strippedName field v = .ok name ↔
      ∃ text, v = .scalar (.str text) ∧ NotBlank text ∧ name = strip text := by
  constructor
  · intro h
    unfold strippedName at h
    -- a value that is no text is refused first
    split at h
    · rename_i text
      obtain ⟨_, hensure, hname⟩ := bind_ok_iff.mp h
      exact ⟨text, rfl, strip_bne_iff.mp (ensure_ok_iff.mp hensure),
        (Except.ok.inj hname).symm⟩
    · cases h
  · rintro ⟨text, rfl, hblank, rfl⟩
    exact bind_ok_iff.mpr ⟨(), ensure_ok_iff.mpr (strip_bne_iff.mpr hblank), rfl⟩

theorem versionOf_refuses (v : Yaml) : RaisesOnly PyErr.TypeOrValue (versionOf v) := by
  unfold versionOf
  split
  · exact (RaisesOnly.ensure (.valueError _)).bind fun _ _ => .pure _
  · exact .error (.typeError _)

/-- A version is an int in its range, and no bool. -/
theorem versionOf_ok_iff {v : Yaml} {version : Int} :
    versionOf v = .ok version ↔
      v = .scalar (.int version) ∧ versionMin ≤ version ∧ version ≤ versionMax := by
  constructor
  · intro h
    unfold versionOf at h
    split at h
    · obtain ⟨_, hensure, hversion⟩ := bind_ok_iff.mp h
      cases hversion
      exact ⟨rfl, of_decide_eq_true (ensure_ok_iff.mp hensure)⟩
    · cases h
  · rintro ⟨rfl, hrange⟩
    exact bind_ok_iff.mpr ⟨(), ensure_ok_iff.mpr (decide_eq_true hrange), rfl⟩

theorem mappingOf_refuses (field : String) (v : Yaml) :
    RaisesOnly PyErr.TypeOrValue (mappingOf field v) := by
  unfold mappingOf
  split
  · exact .ok _
  · exact .error (.typeError _)

theorem mappingOf_ok_iff {field : String} {v : Yaml} {entries : YamlEntries} :
    mappingOf field v = .ok entries ↔ v = .dict entries := by
  cases v <;> simp [mappingOf]

theorem requiredField_refuses (path : String) (block : YamlEntries) (name : String) :
    RaisesOnly PyErr.TypeOrValue (requiredField path block name) := by
  refine (RaisesOnly.ensure (.valueError _)).bind fun _ hensure => ?_
  exact getField_refuses (Yaml.hasField_iff.mp (ensure_ok_iff.mp hensure))

theorem requiredField_ok_iff {path name : String} {block : YamlEntries} {v : Yaml} :
    requiredField path block name = .ok v ↔ block.lookup (.str name) = some v := by
  unfold requiredField
  rw [bind_ok_iff]
  constructor
  · rintro ⟨_, -, hv⟩
    exact Yaml.getField_ok_iff.mp hv
  · intro hv
    have hfield : Yaml.hasField block name = true := Yaml.hasField_iff.mpr ⟨v, hv⟩
    exact ⟨(), ensure_ok_iff.mpr hfield, Yaml.getField_ok_iff.mpr hv⟩

/-! ## The header

The header is all that the loader reads of the data. Its score comes last, so the rest is a part of
its own that only raises what is declared. -/

/-- Every check of the header passes up to the conversion of `prior`. -/
structure HeaderTo (entries : YamlEntries) (id : String) (version : Int) (maturity : String)
    (prior : Yaml) : Prop where
  hasId : entries.lookup (.str "id") = some (.scalar (.str id))
  idNotBlank : NotBlank id
  hasVersion : entries.lookup (.str "version") = some (.scalar (.int version))
  versionInRange : versionMin ≤ version ∧ version ≤ versionMax
  hasMaturity : entries.lookup (.str "maturity") = some (.scalar (.str maturity))
  maturityNotBlank : NotBlank maturity
  hasPrior : ∃ block, entries.lookup (.str "reliability") = some (.dict block) ∧
    block.lookup (.str "prior_confidence") = some prior

/-- The checks before the conversion. -/
def headerFields (data : Yaml) : Except PyErr (String × Int × String × Yaml) := do
  requireField data "id"
  requireField data "version"
  requireField data "maturity"
  requireField data "reliability"
  let idVal ← data.getItem "id"
  let id ← strippedName "id" idVal
  let versionVal ← data.getItem "version"
  let version ← versionOf versionVal
  let maturityVal ← data.getItem "maturity"
  let maturity ← strippedName "maturity" maturityVal
  let reliabilityVal ← data.getItem "reliability"
  let reliability ← mappingOf "reliability" reliabilityVal
  let prior ← requiredField "reliability." reliability "prior_confidence"
  return (id, version, maturity, prior)

/-- The fields first, then the score. -/
theorem validateHeader_eq (data : Yaml) : validateHeader data = (do
    let (id, version, maturity, prior) ← headerFields data
    let priorConfidence ← scoreOf "reliability.prior_confidence" prior
    return { id, version, maturity, priorConfidence }) := by
  unfold validateHeader headerFields
  simp only [bind_assoc, pure_bind]

/-- Before the score nothing overflows. -/
theorem headerFields_refuses (data : Yaml) :
    RaisesOnly PyErr.TypeOrValue (headerFields data) := by
  unfold headerFields
  refine (requireField_refuses data "id").bind fun _ hid => ?_
  refine (requireField_refuses data "version").bind fun _ hversion => ?_
  refine (requireField_refuses data "maturity").bind fun _ hmaturity => ?_
  refine (requireField_refuses data "reliability").bind fun _ hreliability => ?_
  refine (getItem_refuses hid).bind fun _ _ => ?_
  refine (strippedName_refuses _ _).bind fun _ _ => ?_
  refine (getItem_refuses hversion).bind fun _ _ => ?_
  refine (versionOf_refuses _).bind fun _ _ => ?_
  refine (getItem_refuses hmaturity).bind fun _ _ => ?_
  refine (strippedName_refuses _ _).bind fun _ _ => ?_
  refine (getItem_refuses hreliability).bind fun _ _ => ?_
  refine (mappingOf_refuses _ _).bind fun _ _ => ?_
  exact (requiredField_refuses _ _ _).bind fun _ _ => .pure _

/-- A field that is found is not missing. -/
theorem requireField_of_lookup {entries : YamlEntries} {name : String} {v : Yaml}
    (h : entries.lookup (.str name) = some v) : requireField (.dict entries) name = .ok () := by
  have hfield : Yaml.hasField entries name = true := Yaml.hasField_iff.mpr ⟨v, h⟩
  exact bind_ok_iff.mpr ⟨true, congrArg Except.ok hfield, rfl⟩

theorem getItem_dict_ok_iff {entries : YamlEntries} {name : String} {v : Yaml} :
    (Yaml.dict entries).getItem name = .ok v ↔ entries.lookup (.str name) = some v :=
  Yaml.getField_ok_iff

/-- The fields of a written header. -/
theorem headerFields_ok_iff {data : Yaml} {fields : String × Int × String × Yaml} :
    headerFields data = .ok fields ↔
      ∃ entries id version maturity prior, data = .dict entries ∧
        HeaderTo entries id version maturity prior ∧
        fields = (strip id, version, strip maturity, prior) := by
  constructor
  · intro h
    -- the four presence checks; the subscripts below say as much
    obtain ⟨_, -, h⟩ := bind_ok_iff.mp h
    obtain ⟨_, -, h⟩ := bind_ok_iff.mp h
    obtain ⟨_, -, h⟩ := bind_ok_iff.mp h
    obtain ⟨_, -, h⟩ := bind_ok_iff.mp h
    obtain ⟨idVal, hgetId, h⟩ := bind_ok_iff.mp h
    obtain ⟨idName, hidName, h⟩ := bind_ok_iff.mp h
    obtain ⟨versionVal, hgetVersion, h⟩ := bind_ok_iff.mp h
    obtain ⟨version, hversion, h⟩ := bind_ok_iff.mp h
    obtain ⟨maturityVal, hgetMaturity, h⟩ := bind_ok_iff.mp h
    obtain ⟨maturityName, hmaturityName, h⟩ := bind_ok_iff.mp h
    obtain ⟨reliabilityVal, hgetReliability, h⟩ := bind_ok_iff.mp h
    obtain ⟨block, hblock, h⟩ := bind_ok_iff.mp h
    obtain ⟨prior, hprior, h⟩ := bind_ok_iff.mp h
    cases h
    -- what is subscripted is a dict, and the checks say what its entries are
    obtain ⟨entries, rfl, hid⟩ := Yaml.getItem_ok_iff.mp hgetId
    have hlookupVersion := getItem_dict_ok_iff.mp hgetVersion
    have hlookupMaturity := getItem_dict_ok_iff.mp hgetMaturity
    have hlookupReliability := getItem_dict_ok_iff.mp hgetReliability
    obtain ⟨id, rfl, hidBlank, rfl⟩ := strippedName_ok_iff.mp hidName
    obtain ⟨rfl, hrange⟩ := versionOf_ok_iff.mp hversion
    obtain ⟨maturity, rfl, hmaturityBlank, rfl⟩ := strippedName_ok_iff.mp hmaturityName
    obtain rfl := mappingOf_ok_iff.mp hblock
    have hlookupPrior := requiredField_ok_iff.mp hprior
    exact ⟨entries, id, version, maturity, prior, rfl,
      ⟨hid, hidBlank, hlookupVersion, hrange, hlookupMaturity, hmaturityBlank,
        ⟨block, hlookupReliability, hlookupPrior⟩⟩, rfl⟩
  · rintro ⟨entries, id, version, maturity, prior, rfl, header, rfl⟩
    obtain ⟨block, hreliability, hprior⟩ := header.hasPrior
    refine bind_ok_iff.mpr ⟨(), requireField_of_lookup header.hasId, ?_⟩
    refine bind_ok_iff.mpr ⟨(), requireField_of_lookup header.hasVersion, ?_⟩
    refine bind_ok_iff.mpr ⟨(), requireField_of_lookup header.hasMaturity, ?_⟩
    refine bind_ok_iff.mpr ⟨(), requireField_of_lookup hreliability, ?_⟩
    refine bind_ok_iff.mpr ⟨_, getItem_dict_ok_iff.mpr header.hasId, ?_⟩
    refine bind_ok_iff.mpr ⟨_, strippedName_ok_iff.mpr ⟨id, rfl, header.idNotBlank, rfl⟩, ?_⟩
    refine bind_ok_iff.mpr ⟨_, getItem_dict_ok_iff.mpr header.hasVersion, ?_⟩
    refine bind_ok_iff.mpr ⟨_, versionOf_ok_iff.mpr ⟨rfl, header.versionInRange⟩, ?_⟩
    refine bind_ok_iff.mpr ⟨_, getItem_dict_ok_iff.mpr header.hasMaturity, ?_⟩
    refine bind_ok_iff.mpr
      ⟨_, strippedName_ok_iff.mpr ⟨maturity, rfl, header.maturityNotBlank, rfl⟩, ?_⟩
    refine bind_ok_iff.mpr ⟨_, getItem_dict_ok_iff.mpr hreliability, ?_⟩
    refine bind_ok_iff.mpr ⟨_, mappingOf_ok_iff.mpr rfl, ?_⟩
    exact bind_ok_iff.mpr ⟨_, requiredField_ok_iff.mpr hprior, rfl⟩

/-- The header is in order up to a prior confidence that does not convert. -/
def OversizePrior (data : Yaml) : Prop :=
  ∃ entries id version maturity prior, data = .dict entries ∧
    HeaderTo entries id version maturity prior ∧ Oversize prior

/-- **The header check fails otherwise** exactly for an oversize prior confidence. -/
theorem validateHeader_refuses_iff (data : Yaml) :
    RaisesOnly PyErr.TypeOrValue (validateHeader data) ↔ ¬OversizePrior data := by
  rw [validateHeader_eq, (headerFields_refuses data).bind_iff]
  constructor
  · rintro h ⟨entries, id, version, maturity, prior, hdata, header, hoversize⟩
    have hfields := headerFields_ok_iff.mpr
      ⟨entries, id, version, maturity, prior, hdata, header, rfl⟩
    -- only the score is left, so its conversion decides
    have hscore := RaisesOnly.bind_pure_iff.mp (h _ hfields)
    exact (scoreOf_refuses_iff _ prior).mp hscore hoversize
  · intro h fields hfields
    obtain ⟨entries, id, version, maturity, prior, hdata, header, rfl⟩ :=
      headerFields_ok_iff.mp hfields
    refine RaisesOnly.bind_pure_iff.mpr (scoreOf_refuses _ fun hoversize => ?_)
    exact h ⟨entries, id, version, maturity, prior, hdata, header, hoversize⟩

/-- A header is accepted when its fields are written and its prior confidence is a score. -/
theorem validateHeader_ok_iff {data : Yaml} {found : RuleHeader} :
    validateHeader data = .ok found ↔
      ∃ entries id version maturity prior score, data = .dict entries ∧
        HeaderTo entries id version maturity prior ∧
        scoreOf "reliability.prior_confidence" prior = .ok score ∧
        found = ⟨strip id, version, strip maturity, score⟩ := by
  rw [validateHeader_eq, bind_ok_iff]
  constructor
  · rintro ⟨fields, hfields, hrest⟩
    obtain ⟨entries, id, version, maturity, prior, hdata, header, rfl⟩ :=
      headerFields_ok_iff.mp hfields
    obtain ⟨score, hscore, hfound⟩ := bind_ok_iff.mp hrest
    exact ⟨entries, id, version, maturity, prior, score, hdata, header, hscore,
      (Except.ok.inj hfound).symm⟩
  · rintro ⟨entries, id, version, maturity, prior, score, hdata, header, hscore, rfl⟩
    exact ⟨_, headerFields_ok_iff.mpr ⟨entries, id, version, maturity, prior, hdata, header, rfl⟩,
      bind_ok_iff.mpr ⟨score, hscore, rfl⟩⟩

/-- The spec keeps its header and a copy of the data. -/
theorem loadRuleSpec_ok_iff {data : Yaml} {spec : RuleSpec} :
    loadRuleSpec data = .ok spec ↔
      validateHeader data = .ok spec.toRuleHeader ∧ data = .dict spec.raw := by
  unfold loadRuleSpec
  rw [bind_ok_iff]
  constructor
  · rintro ⟨header, hheader, hrest⟩
    obtain ⟨raw, hraw, hspec⟩ := bind_ok_iff.mp hrest
    cases hspec
    cases data with
    | dict entries =>
      cases hraw
      exact ⟨hheader, rfl⟩
    | _ => cases hraw
  · rintro ⟨hheader, rfl⟩
    exact ⟨spec.toRuleHeader, hheader, rfl⟩

/-- With a header in order the data is a dict, and copying it does not fail. -/
theorem loadRuleSpec_refuses_iff (data : Yaml) :
    RaisesOnly PyErr.TypeOrValue (loadRuleSpec data) ↔ ¬OversizePrior data := by
  rw [← validateHeader_refuses_iff]
  constructor
  · intro h err herr
    refine h err ?_
    unfold loadRuleSpec
    rw [herr]
    rfl
  · intro h
    refine h.bind fun header hheader => ?_
    obtain ⟨entries, _, _, _, _, _, rfl, -⟩ := validateHeader_ok_iff.mp hheader
    exact .pure _

/-! ## The output

The output block has the same form: fields first, then a score. -/

/-- A name outside the table is a `ValueError`. -/
theorem lookupStr_refuses {block : YamlEntries} {field : String} (mapping : List (String × Int))
    (label : String) (h : Yaml.hasField block field = true) :
    RaisesOnly PyErr.TypeOrValue (lookupStr block field mapping label) := by
  unfold lookupStr
  refine (getField_refuses (Yaml.hasField_iff.mp h)).bind fun v _ => ?_
  split
  · exact .require (.valueError _)
  · exact .error (.typeError _)

/-- A name of the table, with its number. -/
theorem lookupStr_ok_iff {block : YamlEntries} {field label : String}
    {mapping : List (String × Int)} {n : Int} :
    lookupStr block field mapping label = .ok n ↔
      ∃ name, block.lookup (.str field) = some (.scalar (.str name)) ∧
        mapping.lookup name = some n := by
  unfold lookupStr
  rw [bind_ok_iff]
  constructor
  · rintro ⟨v, hv, hfound⟩
    -- a name of the table is a text
    split at hfound
    · exact ⟨_, Yaml.getField_ok_iff.mp hv, require_ok_iff.mp hfound⟩
    · cases hfound
  · rintro ⟨name, hv, hfound⟩
    exact ⟨_, Yaml.getField_ok_iff.mpr hv, require_ok_iff.mpr hfound⟩

theorem claimBlockOf_refuses (raw : YamlEntries) :
    RaisesOnly PyErr.TypeOrValue (claimBlockOf raw) := by
  unfold claimBlockOf
  refine (requiredField_refuses _ _ _).bind fun _ _ => ?_
  refine (mappingOf_refuses _ _).bind fun _ _ => ?_
  refine (requiredField_refuses _ _ _).bind fun _ _ => ?_
  refine (mappingOf_refuses _ _).bind fun _ _ => ?_
  exact (RaisesOnly.forM fun _ _ => .ensure (.valueError _)).bind fun _ _ => .pure _

theorem claimBlockOf_ok_iff {raw claimBlock : YamlEntries} :
    claimBlockOf raw = .ok claimBlock ↔
      (∃ outputBlock, raw.lookup (.str "output") = some (.dict outputBlock) ∧
        outputBlock.lookup (.str "claim") = some (.dict claimBlock)) ∧
      ∀ name ∈ ["type", "status", "base_confidence", "reason_code"],
        Yaml.hasField claimBlock name = true := by
  -- the two blocks are opened one inside the other
  constructor
  · intro h
    obtain ⟨output, houtput, h⟩ := bind_ok_iff.mp h
    obtain ⟨outputBlock, hblock, h⟩ := bind_ok_iff.mp h
    obtain ⟨claim, hclaim, h⟩ := bind_ok_iff.mp h
    obtain ⟨block, hclaimBlock, h⟩ := bind_ok_iff.mp h
    obtain ⟨_, hfields, h⟩ := bind_ok_iff.mp h
    cases h
    obtain rfl := mappingOf_ok_iff.mp hblock
    obtain rfl := mappingOf_ok_iff.mp hclaimBlock
    refine ⟨⟨outputBlock, requiredField_ok_iff.mp houtput, requiredField_ok_iff.mp hclaim⟩, ?_⟩
    intro name hname
    exact ensure_ok_iff.mp (forM_ok_iff.mp hfields name hname)
  · rintro ⟨⟨outputBlock, houtput, hclaim⟩, hfields⟩
    refine bind_ok_iff.mpr ⟨_, requiredField_ok_iff.mpr houtput, ?_⟩
    refine bind_ok_iff.mpr ⟨_, mappingOf_ok_iff.mpr rfl, ?_⟩
    refine bind_ok_iff.mpr ⟨_, requiredField_ok_iff.mpr hclaim, ?_⟩
    refine bind_ok_iff.mpr ⟨_, mappingOf_ok_iff.mpr rfl, ?_⟩
    refine bind_ok_iff.mpr ⟨(), forM_ok_iff.mpr fun name hname => ?_, rfl⟩
    exact ensure_ok_iff.mpr (hfields name hname)

/-- Every check of the output passes up to the conversion of `bc`. -/
structure OutputTo (raw claimBlock : YamlEntries) (claimType status reasonCode : Int)
    (bc : Yaml) : Prop where
  hasClaim : ∃ outputBlock, raw.lookup (.str "output") = some (.dict outputBlock) ∧
    outputBlock.lookup (.str "claim") = some (.dict claimBlock)
  hasType : ∃ name, claimBlock.lookup (.str "type") = some (.scalar (.str name)) ∧
    claimTypeMap.lookup name = some claimType
  hasStatus : ∃ name, claimBlock.lookup (.str "status") = some (.scalar (.str name)) ∧
    claimStatusMap.lookup name = some status
  hasReasonCode : ∃ name, claimBlock.lookup (.str "reason_code") = some (.scalar (.str name)) ∧
    reasonCodeMap.lookup name = some reasonCode
  hasBaseConfidence : claimBlock.lookup (.str "base_confidence") = some bc

/-- The checks before the conversion. -/
def outputFields (raw : YamlEntries) : Except PyErr (Int × Int × Int × Yaml) := do
  let claimBlock ← claimBlockOf raw
  let claimType ← lookupStr claimBlock "type" claimTypeMap "claim type"
  let status ← lookupStr claimBlock "status" claimStatusMap "claim status"
  let reasonCode ← lookupStr claimBlock "reason_code" reasonCodeMap "reason code"
  let bc ← Yaml.getField claimBlock "base_confidence"
  return (claimType, status, reasonCode, bc)

/-- The fields first, then the score. -/
theorem compileRuleOutput_eq (spec : RuleSpec) : compileRuleOutput spec = (do
    let (claimType, status, reasonCode, bc) ← outputFields spec.raw
    let baseConfidence ← scoreOf "output.claim.base_confidence" bc
    return { claimType, status, baseConfidence, reasonCode }) := by
  unfold compileRuleOutput outputFields
  simp only [bind_assoc, pure_bind]

/-- Before the score nothing overflows. -/
theorem outputFields_refuses (raw : YamlEntries) :
    RaisesOnly PyErr.TypeOrValue (outputFields raw) := by
  unfold outputFields
  refine (claimBlockOf_refuses raw).bind fun claimBlock hblock => ?_
  have hfields := (claimBlockOf_ok_iff.mp hblock).2
  refine (lookupStr_refuses _ _ (hfields "type" (by simp))).bind fun _ _ => ?_
  refine (lookupStr_refuses _ _ (hfields "status" (by simp))).bind fun _ _ => ?_
  refine (lookupStr_refuses _ _ (hfields "reason_code" (by simp))).bind fun _ _ => ?_
  have hbase := Yaml.hasField_iff.mp (hfields "base_confidence" (by simp))
  exact (getField_refuses hbase).bind fun _ _ => .pure _

theorem outputFields_ok_iff {raw : YamlEntries} {fields : Int × Int × Int × Yaml} :
    outputFields raw = .ok fields ↔
      ∃ claimBlock, OutputTo raw claimBlock fields.1 fields.2.1 fields.2.2.1 fields.2.2.2 := by
  -- the checks that passed, in their order, are the fields of a written output
  constructor
  · intro h
    obtain ⟨claimBlock, hblock, h⟩ := bind_ok_iff.mp h
    obtain ⟨claimType, htype, h⟩ := bind_ok_iff.mp h
    obtain ⟨status, hstatus, h⟩ := bind_ok_iff.mp h
    obtain ⟨reasonCode, hreason, h⟩ := bind_ok_iff.mp h
    obtain ⟨bc, hbc, h⟩ := bind_ok_iff.mp h
    cases h
    exact ⟨claimBlock, (claimBlockOf_ok_iff.mp hblock).1, lookupStr_ok_iff.mp htype,
      lookupStr_ok_iff.mp hstatus, lookupStr_ok_iff.mp hreason, Yaml.getField_ok_iff.mp hbc⟩
  · rintro ⟨claimBlock, found⟩
    have hfields : ∀ name ∈ ["type", "status", "base_confidence", "reason_code"],
        Yaml.hasField claimBlock name = true := by
      obtain ⟨_, htype, -⟩ := found.hasType
      obtain ⟨_, hstatus, -⟩ := found.hasStatus
      obtain ⟨_, hreason, -⟩ := found.hasReasonCode
      intro name hname
      simp only [List.mem_cons, List.not_mem_nil, or_false] at hname
      rw [Yaml.hasField_iff]
      rcases hname with rfl | rfl | rfl | rfl
      · exact ⟨_, htype⟩
      · exact ⟨_, hstatus⟩
      · exact ⟨_, found.hasBaseConfidence⟩
      · exact ⟨_, hreason⟩
    refine bind_ok_iff.mpr ⟨claimBlock, claimBlockOf_ok_iff.mpr ⟨found.hasClaim, hfields⟩, ?_⟩
    refine bind_ok_iff.mpr ⟨_, lookupStr_ok_iff.mpr found.hasType, ?_⟩
    refine bind_ok_iff.mpr ⟨_, lookupStr_ok_iff.mpr found.hasStatus, ?_⟩
    refine bind_ok_iff.mpr ⟨_, lookupStr_ok_iff.mpr found.hasReasonCode, ?_⟩
    exact bind_ok_iff.mpr ⟨_, Yaml.getField_ok_iff.mpr found.hasBaseConfidence, rfl⟩

/-- The output is in order up to a base confidence that does not convert. -/
def OversizeOutput (raw : YamlEntries) : Prop :=
  ∃ claimBlock claimType status reasonCode bc,
    OutputTo raw claimBlock claimType status reasonCode bc ∧ Oversize bc

/-- **The output fails otherwise** exactly for an oversize base confidence. -/
theorem compileRuleOutput_refuses_iff (spec : RuleSpec) :
    RaisesOnly PyErr.TypeOrValue (compileRuleOutput spec) ↔ ¬OversizeOutput spec.raw := by
  rw [compileRuleOutput_eq, (outputFields_refuses spec.raw).bind_iff]
  constructor
  · rintro h ⟨claimBlock, claimType, status, reasonCode, bc, found, hoversize⟩
    have hfields : outputFields spec.raw = .ok (claimType, status, reasonCode, bc) :=
      outputFields_ok_iff.mpr ⟨claimBlock, found⟩
    have hscore := RaisesOnly.bind_pure_iff.mp (h _ hfields)
    exact (scoreOf_refuses_iff _ bc).mp hscore hoversize
  · rintro h ⟨claimType, status, reasonCode, bc⟩ hfields
    obtain ⟨claimBlock, found⟩ := outputFields_ok_iff.mp hfields
    refine RaisesOnly.bind_pure_iff.mpr (scoreOf_refuses _ fun hoversize => ?_)
    exact h ⟨claimBlock, claimType, status, reasonCode, bc, found, hoversize⟩

end Rule

end Ragcore
