import Ragcore.Lib.Rounding
import Ragcore.Types

/-!
# Ragcore — the packed form of a score

`ScoreValue.to_uint16_scale` and `from_uint16_scale` of `ragcore/types.py`: a score between `0.0`
and `1.0` is packed as an int from `0` to `10000`. Both ways go through doubles, so a quotient and
a product are rounded before `round` sees them.

* **`score_packing_exact`** — unpacking inverts packing on every packed score, packing moves a
  score by half a step, and both keep the order.
-/

namespace Ragcore

open PyFloat

/-- `round(x)`: the int nearest to a float. -/
def PyFloat.round : PyFloat → Except PyErr ℤ
  | .fin q => .ok (roundHalfEven q)
  | .nan _ => .error (.valueError ["cannot convert float NaN to integer"])
  | _ => .error (.overflowError ["cannot convert float infinity to integer"])

/-- `round(self.value * 10000)`, the product rounded to a double first. -/
def ScoreValue.toUint16Scale (self : ScoreValue) : Except PyErr ℤ :=
  (toDouble (self.value * 10000)).round

/-- `ScoreValue(raw / 10000)`, the quotient rounded to a double. -/
def ScoreValue.fromUint16Scale (raw : ℤ) : Except PyErr ScoreValue :=
  if 0 ≤ raw ∧ raw ≤ 10000 then ScoreValue.new (.float (toDouble (raw / 10000)))
  else .error (.valueError ["packed score must be in [0, 10000], got ", .value (.int raw)])

namespace ScoreValue

/-! ## Both ways in rationals

The two conversions without their floats. -/

theorem lt_overflowBound_of_lt {q : ℚ} (h : |q| < 2 ^ (14 : ℤ)) : |q| < overflowBound := by
  have hpow : (2 : ℚ) ^ (14 : ℤ) ≤ 2 ^ (1023 : ℤ) := zpow_le_zpow_right₀ one_le_two (by omega)
  exact h.trans_le (hpow.trans lt_overflowBound.le)

theorem abs_scaled_lt (s : ScoreValue) : |s.value * 10000| < 2 ^ (14 : ℤ) := by
  have hnonneg := s.nonneg
  have hle := s.le_one
  rw [abs_of_nonneg (by linarith)]
  norm_num
  linarith

/-- Packing never raises. -/
theorem toUint16Scale_eq (s : ScoreValue) :
    s.toUint16Scale = .ok (roundHalfEven (nearest (s.value * 10000))) := by
  rw [toUint16Scale, toDouble_eq_nearest (lt_overflowBound_of_lt s.abs_scaled_lt)]
  rfl

/-- An int in range unpacks to the double nearest to its quotient. -/
theorem fromUint16Scale_eq {raw : ℤ} (hlow : 0 ≤ raw) (hhigh : raw ≤ 10000) :
    ∃ s, fromUint16Scale raw = .ok s ∧ s.value = nearest (raw / 10000) := by
  have hlow' : (0 : ℚ) ≤ raw := by exact_mod_cast hlow
  have hhigh' : (raw : ℚ) ≤ 10000 := by exact_mod_cast hhigh
  have hquot : (0 : ℚ) ≤ raw / 10000 := by positivity
  have hone : (raw : ℚ) / 10000 ≤ 1 := by linarith
  have hbound : |(raw : ℚ) / 10000| < overflowBound := by
    apply lt_overflowBound_of_lt
    rw [abs_of_nonneg hquot]
    norm_num
    linarith
  -- rounding keeps the order, so the quotient stays between `0` and `1`
  have hnonneg := nearest_nonneg hquot
  have hle := nearest_mono hquot hone
  rw [nearest_one] at hle
  refine ⟨⟨nearest (raw / 10000), hnonneg, hle⟩, ?_, rfl⟩
  rw [fromUint16Scale, if_pos ⟨hlow, hhigh⟩, toDouble_eq_nearest hbound]
  exact ScoreValue.new_value ⟨nearest (raw / 10000), hnonneg, hle⟩

/-- Only the ints in range unpack. -/
theorem fromUint16Scale_isOk_iff {raw : ℤ} :
    (∃ s, fromUint16Scale raw = .ok s) ↔ 0 ≤ raw ∧ raw ≤ 10000 := by
  constructor
  · rintro ⟨s, hs⟩
    by_contra hout
    rw [fromUint16Scale, if_neg hout] at hs
    cases hs
  · intro hrange
    obtain ⟨s, hs, -⟩ := fromUint16Scale_eq hrange.1 hrange.2
    exact ⟨s, hs⟩

/-! ## The rounding errors

What a product and a quotient round away. -/

/-- Unpacking moves the quotient by `2 ^ (-53)` at most. -/
theorem abs_unpacked_sub_le {raw : ℤ} {s : ScoreValue} (h : fromUint16Scale raw = .ok s) :
    |s.value - raw / 10000| ≤ 2 ^ (-53 : ℤ) := by
  obtain ⟨hlow, hhigh⟩ := fromUint16Scale_isOk_iff.mp ⟨s, h⟩
  obtain ⟨s', hs', hvalue⟩ := fromUint16Scale_eq hlow hhigh
  rw [h] at hs'
  cases hs'
  have hlow' : (0 : ℚ) ≤ raw := by exact_mod_cast hlow
  have hhigh' : (raw : ℚ) ≤ 10000 := by exact_mod_cast hhigh
  have hlt : |(raw : ℚ) / 10000| < 2 ^ (1 : ℤ) := by
    rw [abs_of_nonneg (by positivity)]
    norm_num
    linarith
  -- only the quotient is rounded; both ints are doubles
  have herr := abs_nearest_sub_le_of_lt hlt (by omega)
  rw [hvalue]
  refine herr.trans (le_of_eq ?_)
  norm_num

/-- The product before `round` moves by `2 ^ (-40)` at most. -/
theorem abs_scaled_sub_le (s : ScoreValue) :
    |nearest (s.value * 10000) - s.value * 10000| ≤ 2 ^ (-40 : ℤ) := by
  have herr := abs_nearest_sub_le_of_lt s.abs_scaled_lt (by omega)
  refine herr.trans (le_of_eq ?_)
  norm_num

/-- **Packing moves a score by half a step**, and the product's rounding error. -/
theorem abs_packed_sub_le {s : ScoreValue} {n : ℤ} (h : s.toUint16Scale = .ok n) :
    |(n : ℚ) - s.value * 10000| ≤ 1 / 2 + 2 ^ (-40 : ℤ) := by
  rw [toUint16Scale_eq] at h
  rw [← Except.ok.inj h]
  have hround := abs_roundHalfEven_sub_le (nearest (s.value * 10000))
  have hscaled := s.abs_scaled_sub_le
  calc |(roundHalfEven (nearest (s.value * 10000)) : ℚ) - s.value * 10000|
      ≤ |(roundHalfEven (nearest (s.value * 10000)) : ℚ) - nearest (s.value * 10000)| +
          |nearest (s.value * 10000) - s.value * 10000| := abs_sub_le _ _ _
    _ ≤ 1 / 2 + 2 ^ (-40 : ℤ) := add_le_add hround hscaled

theorem packed_range {s : ScoreValue} {n : ℤ} (h : s.toUint16Scale = .ok n) :
    0 ≤ n ∧ n ≤ 10000 := by
  rw [toUint16Scale_eq] at h
  rw [← Except.ok.inj h]
  obtain ⟨hbelow, habove⟩ := abs_le.mp s.abs_scaled_sub_le
  have hsmall : (2 : ℚ) ^ (-40 : ℤ) < 1 / 2 := by norm_num
  have hnonneg := s.nonneg
  have hle := s.le_one
  -- from here on the bounds are linear
  generalize nearest (s.value * 10000) = scaled at hbelow habove
  generalize (2 : ℚ) ^ (-40 : ℤ) = err at hbelow habove hsmall
  constructor
  · apply le_roundHalfEven_of_lt
    push_cast
    linarith
  · apply roundHalfEven_le_of_lt
    push_cast
    linarith

/-! ## The round trips

The error is too small to reach the neighbouring int. -/

/-- The errors of a quotient and a product together are under half a step. -/
theorem repacked {raw : ℤ} {s : ScoreValue} (h : fromUint16Scale raw = .ok s) :
    s.toUint16Scale = .ok raw := by
  obtain ⟨hquotLow, hquotHigh⟩ := abs_le.mp (abs_unpacked_sub_le h)
  obtain ⟨hprodLow, hprodHigh⟩ := abs_le.mp s.abs_scaled_sub_le
  have hsmall : (10000 : ℚ) * 2 ^ (-53 : ℤ) + 2 ^ (-40 : ℤ) < 1 / 2 := by norm_num
  rw [toUint16Scale_eq]
  congr 1
  -- the two errors together stay below one half
  generalize nearest (s.value * 10000) = scaled at hprodLow hprodHigh
  generalize (2 : ℚ) ^ (-40 : ℤ) = err at hprodLow hprodHigh hsmall
  generalize (2 : ℚ) ^ (-53 : ℤ) = err' at hquotLow hquotHigh hsmall
  apply le_antisymm
  · apply roundHalfEven_le_of_lt
    linarith
  · apply le_roundHalfEven_of_lt
    linarith

/-- Packing and unpacking again gives a score half a step away. -/
theorem unpacked {s : ScoreValue} {n : ℤ} (h : s.toUint16Scale = .ok n) :
    ∃ t, fromUint16Scale n = .ok t ∧ |t.value - s.value| ≤ 1 / 20000 + 2 ^ (-52 : ℤ) := by
  obtain ⟨hlow, hhigh⟩ := packed_range h
  obtain ⟨t, ht, -⟩ := fromUint16Scale_eq hlow hhigh
  refine ⟨t, ht, ?_⟩
  obtain ⟨hpackLow, hpackHigh⟩ := abs_le.mp (abs_packed_sub_le h)
  obtain ⟨hunpackLow, hunpackHigh⟩ := abs_le.mp (abs_unpacked_sub_le ht)
  have hsmall : (1 / 2 + 2 ^ (-40 : ℤ)) / 10000 + 2 ^ (-53 : ℤ) ≤
      (1 : ℚ) / 20000 + 2 ^ (-52 : ℤ) := by norm_num
  rw [abs_le]
  constructor <;> linarith

theorem packed_mono {s t : ScoreValue} {n m : ℤ} (hs : s.toUint16Scale = .ok n)
    (ht : t.toUint16Scale = .ok m) (h : s.value ≤ t.value) : n ≤ m := by
  rw [toUint16Scale_eq] at hs ht
  rw [← Except.ok.inj hs, ← Except.ok.inj ht]
  apply roundHalfEven_mono
  apply nearest_mono
  · have := s.nonneg
    positivity
  · linarith

/-- Two packed scores compare as the scores they unpack to. -/
theorem unpacked_lt_iff {n m : ℤ} {s t : ScoreValue} (hs : fromUint16Scale n = .ok s)
    (ht : fromUint16Scale m = .ok t) : s.value < t.value ↔ n < m := by
  constructor
  · intro hlt
    have hle := packed_mono (repacked hs) (repacked ht) hlt.le
    refine lt_of_le_of_ne hle ?_
    rintro rfl
    rw [hs] at ht
    cases ht
    exact lt_irrefl _ hlt
  · intro hlt
    by_contra hge
    have hle := packed_mono (repacked ht) (repacked hs) (not_lt.mp hge)
    omega

end ScoreValue

open ScoreValue in
/-- What the packed form promises of the scores `s` and `t` and the packed `n`. -/
structure PackingExact (s t : ScoreValue) (n m : ℤ) : Prop where
  /-- The packed scores are the ints from `0` to `10000`. -/
  unpacks : (∃ u, fromUint16Scale n = .ok u) ↔ 0 ≤ n ∧ n ≤ 10000
  /-- Packing what was unpacked gives it back. -/
  repacks : ∀ u, fromUint16Scale n = .ok u → u.toUint16Scale = .ok n
  /-- Every score packs, into one that unpacks half a step away. -/
  packs : ∃ k u, s.toUint16Scale = .ok k ∧ fromUint16Scale k = .ok u ∧
    |u.value - s.value| ≤ 1 / 20000 + 2 ^ (-52 : ℤ)
  /-- Packing keeps the order. -/
  ordered : s.value ≤ t.value → ∀ k l, s.toUint16Scale = .ok k → t.toUint16Scale = .ok l → k ≤ l
  /-- Unpacking keeps it strictly. -/
  compares : ∀ u v, fromUint16Scale n = .ok u → fromUint16Scale m = .ok v →
    (u.value < v.value ↔ n < m)

/-- **The packed form of a score.** -/
theorem score_packing_exact (s t : ScoreValue) (n m : ℤ) : PackingExact s t n m where
  unpacks := ScoreValue.fromUint16Scale_isOk_iff
  repacks u hu := ScoreValue.repacked hu
  packs := by
    obtain ⟨u, hu, herr⟩ := ScoreValue.unpacked s.toUint16Scale_eq
    exact ⟨_, u, s.toUint16Scale_eq, hu, herr⟩
  ordered hle k l hk hl := ScoreValue.packed_mono hk hl hle
  compares u v hu hv := ScoreValue.unpacked_lt_iff hu hv

end Ragcore
