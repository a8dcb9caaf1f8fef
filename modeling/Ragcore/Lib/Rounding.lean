import Ragcore.Lib.Double

/-!
# Ragcore — how far rounding to a double moves a number

A number with a double is moved by half a unit in the last place at most, and two numbers keep
their order. The unit is the same within a binade and doubles from one to the next, so the order
is kept inside a binade by the order of the integers and across two by the power of two between.

* **`abs_nearest_sub_le`** — half a unit of error.
* **`nearest_mono`** — the order of the rounded numbers.
* **`nearest_nearest`** — a rounded number is a double, and stays where it is.
* **`nearest_le_zpow_of_le`** — a power of two is not passed by half a unit.
-/

namespace Ragcore.PyFloat

/-! ## Rounding to an int

Ties go to the even neighbour. -/

theorem roundHalfEven_eq_or (q : ℚ) : roundHalfEven q = ⌊q⌋ ∨ roundHalfEven q = ⌊q⌋ + 1 := by
  unfold roundHalfEven
  simp only
  split
  · exact .inl rfl
  · split
    · exact .inr rfl
    · split
      · exact .inl rfl
      · exact .inr rfl

theorem abs_roundHalfEven_sub_le (q : ℚ) : |(roundHalfEven q : ℚ) - q| ≤ 1 / 2 := by
  have hlow := Int.floor_le q
  have hhigh := Int.lt_floor_add_one q
  rw [abs_le]
  unfold roundHalfEven
  simp only
  split
  · constructor <;> linarith
  · split
    · push_cast
      constructor <;> linarith
    · -- a tie: both neighbours are half a unit away
      split <;> push_cast <;> constructor <;> linarith

theorem roundHalfEven_mono {p q : ℚ} (h : p ≤ q) : roundHalfEven p ≤ roundHalfEven q := by
  have hfloor : ⌊p⌋ ≤ ⌊q⌋ := Int.floor_le_floor h
  rcases hfloor.lt_or_eq with hlt | heq
  · -- an integer lies between the two
    have hp := roundHalfEven_eq_or p
    have hq := roundHalfEven_eq_or q
    omega
  · -- the same floor, and a rest of a half or more in `p` is one in `q`
    unfold roundHalfEven
    simp only [heq]
    split_ifs <;> first | omega | linarith

/-! ## Rounding to a double

The nearest multiple of the unit of the last place. -/

/-- The multiple of the unit in the last place nearest to `q`. -/
def nearest (q : ℚ) : ℚ := roundHalfEven (q / ulp q) * ulp q

theorem nearest_zero : nearest 0 = 0 := by
  have hround : roundHalfEven (0 / ulp 0) = ((0 : ℤ)) := by
    rw [zero_div]
    exact_mod_cast roundHalfEven_int 0
  rw [nearest, hround, Int.cast_zero, zero_mul]

theorem toDouble_eq_nearest {q : ℚ} (h : |q| < overflowBound) : toDouble q = .fin (nearest q) := by
  by_cases hq : q = 0
  · subst hq
    rw [nearest_zero]
    rfl
  · have hlt := round_lt_of_abs_lt hq h
    rw [abs_lt] at hlt
    rw [toDouble_of_ne_zero hq, if_neg (not_le.mpr hlt.2), if_neg (not_le.mpr hlt.1)]
    rfl

/-- **The error of rounding** is half a unit in the last place at most. -/
theorem abs_nearest_sub_le (q : ℚ) : |nearest q - q| ≤ ulp q / 2 := by
  have hpos := ulp_pos q
  have hscale : nearest q - q = (roundHalfEven (q / ulp q) - q / ulp q) * ulp q := by
    rw [nearest, sub_mul, div_mul_cancel₀ q hpos.ne']
  rw [hscale, abs_mul, abs_of_pos hpos]
  calc |(roundHalfEven (q / ulp q) : ℚ) - q / ulp q| * ulp q
      ≤ 1 / 2 * ulp q := mul_le_mul_of_nonneg_right (abs_roundHalfEven_sub_le _) hpos.le
    _ = ulp q / 2 := by ring

/-- Below a power of two the unit is that power over `2 ^ 53`. -/
theorem ulp_le {q : ℚ} {n : ℤ} (hq : q ≠ 0) (h : |q| < 2 ^ n) (hn : -1021 ≤ n) :
    ulp q ≤ 2 ^ (n - 53) := by
  have hlog : Int.log 2 |q| < n := by
    apply (Int.lt_zpow_iff_log_lt one_lt_two (abs_pos.mpr hq)).mp
    rwa [Nat.cast_ofNat]
  apply zpow_le_zpow_right₀ one_le_two
  omega

/-- So below it a number moves by at most that power over `2 ^ 54`. -/
theorem abs_nearest_sub_le_of_lt {q : ℚ} {n : ℤ} (h : |q| < 2 ^ n) (hn : -1021 ≤ n) :
    |nearest q - q| ≤ 2 ^ (n - 53) / 2 := by
  by_cases hq : q = 0
  · subst hq
    rw [nearest_zero, sub_zero, abs_zero]
    positivity
  · have hulp := ulp_le hq h hn
    have herr := abs_nearest_sub_le q
    linarith

theorem nearest_nonneg {q : ℚ} (h : 0 ≤ q) : 0 ≤ nearest q := by
  have hround : (0 : ℤ) ≤ roundHalfEven (q / ulp q) := by
    have hmono := roundHalfEven_mono (div_nonneg h (ulp_pos q).le)
    rwa [← Int.cast_zero, roundHalfEven_int] at hmono
  exact mul_nonneg (Int.cast_nonneg hround) (ulp_pos q).le

/-- A number below a power of two rounds to that power at most. -/
theorem nearest_le_zpow {q : ℚ} {n : ℤ} (hq : 0 < q) (h : q < 2 ^ n) (hn : -1074 ≤ n) :
    nearest q ≤ 2 ^ n := by
  have hpos := ulp_pos q
  have hlog : Int.log 2 |q| < n := by
    rw [abs_of_pos hq]
    apply (Int.lt_zpow_iff_log_lt one_lt_two hq).mp
    rwa [Nat.cast_ofNat]
  -- the power is a whole number of units
  obtain ⟨k, hk⟩ : ∃ k : ℕ, (2 : ℚ) ^ n = (2 ^ k : ℤ) * ulp q := by
    refine ⟨(n - max (Int.log 2 |q| - 52) (-1074)).toNat, ?_⟩
    rw [ulp, Int.cast_pow, Int.cast_ofNat, ← zpow_natCast, ← zpow_add₀ two_ne_zero]
    congr 1
    omega
  have hquot : q / ulp q ≤ (2 ^ k : ℤ) := by
    rw [div_le_iff₀ hpos, ← hk]
    exact h.le
  have hround := roundHalfEven_mono hquot
  rw [roundHalfEven_int] at hround
  rw [nearest, hk]
  exact mul_le_mul_of_nonneg_right (Int.cast_le.mpr hround) hpos.le

/-- A number from that power on rounds to it at least. -/
theorem zpow_le_nearest {q : ℚ} {n : ℤ} (h : 2 ^ n ≤ q) (hn : -1022 ≤ n) : 2 ^ n ≤ nearest q := by
  have hq : 0 < q := (zpow_pos two_pos n).trans_le h
  have hpos := ulp_pos q
  have hlog : n ≤ Int.log 2 |q| := by
    rw [abs_of_pos hq]
    apply (Int.zpow_le_iff_le_log one_lt_two hq).mp
    rwa [Nat.cast_ofNat]
  have hulp := two_pow_mul_ulp (q := q) (by omega)
  -- the quotient is at least `2 ^ 52`, and so is its rounding
  have hquot : ((2 ^ 52 : ℤ) : ℚ) ≤ q / ulp q := by
    have hlow := two_pow_le_quot (abs_pos.mpr hq.ne') (by omega)
    rw [abs_of_pos hq] at hlow
    exact_mod_cast hlow
  have hround := roundHalfEven_mono hquot
  rw [roundHalfEven_int] at hround
  calc (2 : ℚ) ^ n ≤ 2 ^ Int.log 2 |q| := zpow_le_zpow_right₀ one_le_two hlog
    _ = (2 ^ 52 : ℤ) * ulp q := by
      rw [← hulp]
      norm_num
    _ ≤ nearest q := mul_le_mul_of_nonneg_right (Int.cast_le.mpr hround) hpos.le

/-- **Rounding keeps the order** of the numbers from zero on. -/
theorem nearest_mono {p q : ℚ} (hp : 0 ≤ p) (h : p ≤ q) : nearest p ≤ nearest q := by
  rcases hp.eq_or_lt with rfl | hpos
  · rw [nearest_zero]
    exact nearest_nonneg h
  have hq : 0 < q := hpos.trans_le h
  have hlog : Int.log 2 |p| ≤ Int.log 2 |q| := by
    rw [abs_of_pos hpos, abs_of_pos hq]
    exact Int.log_mono_right hpos h
  by_cases hsame : ulp p = ulp q
  · -- in units of one size the integers compare
    have hround := roundHalfEven_mono (div_le_div_of_nonneg_right h (ulp_pos p).le)
    rw [nearest, nearest, ← hsame]
    exact mul_le_mul_of_nonneg_right (Int.cast_le.mpr hround) (ulp_pos p).le
  · -- another unit, so `q` is in a later binade, above the subnormal ones
    have hlater : Int.log 2 |p| < Int.log 2 |q| ∧ -1022 ≤ Int.log 2 |q| := by
      unfold ulp at hsame
      by_contra hother
      apply hsame
      congr 1
      omega
    have hpow : (2 : ℚ) ^ Int.log 2 |q| ≤ q := by
      rw [abs_of_pos hq]
      exact_mod_cast Int.zpow_log_le_self one_lt_two hq
    have hbelow : p < 2 ^ Int.log 2 |q| := by
      calc p = |p| := (abs_of_pos hpos).symm
        _ < 2 ^ (Int.log 2 |p| + 1) := abs_lt_zpow
        _ ≤ 2 ^ Int.log 2 |q| := zpow_le_zpow_right₀ one_le_two (by omega)
    calc nearest p ≤ 2 ^ Int.log 2 |q| := nearest_le_zpow hpos hbelow (by omega)
      _ ≤ nearest q := zpow_le_nearest hpow hlater.2

/-! ## The numbers that are doubles

A rounding returns a double, and a double is not rounded. -/

/-- A whole number of units is not moved. -/
theorem nearest_of_units {q : ℚ} {k : ℤ} (h : q = k * ulp q) : nearest q = q := by
  have hquot : q / ulp q = k := by
    rw [div_eq_iff (ulp_pos q).ne']
    exact h
  rw [nearest, hquot, roundHalfEven_int]
  exact h.symm

/-- A significand of 53 bits and an exponent from `-1074` on make a double. -/
theorem nearest_of_grid {q : ℚ} {m j : ℤ} (h : q = m * 2 ^ j) (hm : |m| ≤ 2 ^ 53)
    (hj : -1074 ≤ j) : nearest q = q := by
  by_cases hq : q = 0
  · subst hq
    exact nearest_zero
  have hpow : (0 : ℚ) < 2 ^ j := zpow_pos two_pos j
  have habs : |q| = |(m : ℚ)| * 2 ^ j := by
    rw [h, abs_mul, abs_of_pos hpow]
  have hcast : |(m : ℚ)| ≤ 2 ^ (53 : ℤ) := by
    rw [← Int.cast_abs]
    exact (Int.cast_le.mpr hm).trans_eq (by norm_num)
  have htop : |q| ≤ 2 ^ (53 + j) := by
    rw [habs, zpow_add₀ two_ne_zero]
    exact mul_le_mul_of_nonneg_right hcast hpow.le
  have hself : (2 : ℚ) ^ Int.log 2 |q| ≤ |q| := by
    exact_mod_cast Int.zpow_log_le_self one_lt_two (abs_pos.mpr hq)
  have hlog : Int.log 2 |q| ≤ 53 + j :=
    (zpow_le_zpow_iff_right₀ one_lt_two).mp (hself.trans htop)
  by_cases hunit : max (Int.log 2 |q| - 52) (-1074) ≤ j
  · -- the exponent is one of whole units
    obtain ⟨n, hn⟩ := Int.le.dest hunit
    apply nearest_of_units (k := m * 2 ^ n)
    rw [ulp, Int.cast_mul, Int.cast_pow, Int.cast_ofNat, mul_assoc, ← zpow_natCast,
      ← zpow_add₀ two_ne_zero, add_comm, hn]
    exact h
  · -- else the significand is `2 ^ 53` itself and the number a power of two
    have hlog' : Int.log 2 |q| = 53 + j := by omega
    have hpower : |q| = 2 ^ (53 + j) := le_antisymm htop (hlog' ▸ hself)
    have hulp : ulp q = 2 ^ (j + 1) := by
      rw [ulp]
      congr 1
      omega
    have hunits : (2 : ℚ) ^ (53 + j) = (2 ^ 52 : ℤ) * ulp q := by
      rw [hulp, Int.cast_pow, Int.cast_ofNat, ← zpow_natCast, ← zpow_add₀ two_ne_zero]
      congr 1
      omega
    rcases abs_choice q with hsign | hsign
    · apply nearest_of_units (k := 2 ^ 52)
      rw [← hunits, ← hpower, hsign]
    · apply nearest_of_units (k := -2 ^ 52)
      rw [Int.cast_neg, neg_mul, ← hunits, ← hpower, hsign, neg_neg]

theorem nearest_int {n : ℤ} (h : |n| ≤ 2 ^ 53) : nearest n = n :=
  nearest_of_grid (j := 0) (by rw [zpow_zero, mul_one]) h (by omega)

theorem nearest_one : nearest 1 = 1 := by
  have h := nearest_int (n := 1) (by norm_num)
  rwa [Int.cast_one] at h

/-- The quotient that is rounded has 53 bits before the point at most. -/
theorem abs_quot_lt (q : ℚ) : |q / ulp q| < 2 ^ 53 := by
  have hpos := ulp_pos q
  rw [abs_div, abs_of_pos hpos, div_lt_iff₀ hpos]
  calc |q| < 2 ^ (Int.log 2 |q| + 1) := abs_lt_zpow
    _ ≤ 2 ^ ((53 : ℤ) + max (Int.log 2 |q| - 52) (-1074)) :=
      zpow_le_zpow_right₀ one_le_two (by omega)
    _ = 2 ^ 53 * ulp q := by
      rw [zpow_add₀ two_ne_zero, ulp]
      rfl

/-- **Rounding twice is rounding once.** -/
theorem nearest_nearest (q : ℚ) : nearest (nearest q) = nearest q := by
  have hround : |roundHalfEven (q / ulp q)| ≤ 2 ^ 53 := by
    apply abs_roundHalfEven_le
    have hquot := abs_quot_lt q
    push_cast
    linarith
  exact nearest_of_grid rfl hround (le_max_right _ _)

/-! ## Bounds on what is rounded

A power of two is a double, so no rounding crosses it. -/

/-- Up to half a unit above a power of two a number rounds to that power at most. -/
theorem nearest_le_zpow_of_le {q : ℚ} {n : ℤ} (hq : 0 ≤ q) (h : q ≤ 2 ^ n + 2 ^ (n - 53))
    (hn : -1022 ≤ n) : nearest q ≤ 2 ^ n := by
  refine (nearest_mono hq h).trans ?_
  have hpow : (0 : ℚ) < 2 ^ n := zpow_pos two_pos n
  have hhalf : (2 : ℚ) ^ (n - 53) < 2 ^ n := zpow_lt_zpow_right₀ one_lt_two (by omega)
  have hpos : (0 : ℚ) < 2 ^ n + 2 ^ (n - 53) := by positivity
  have hlog : Int.log 2 |(2 : ℚ) ^ n + 2 ^ (n - 53)| = n := by
    rw [abs_of_pos hpos]
    apply le_antisymm
    · apply Int.lt_add_one_iff.mp
      apply (Int.lt_zpow_iff_log_lt one_lt_two hpos).mp
      rw [Nat.cast_ofNat, zpow_add₀ two_ne_zero, zpow_one]
      linarith
    · apply (Int.zpow_le_iff_le_log one_lt_two hpos).mp
      rw [Nat.cast_ofNat]
      linarith [zpow_pos (two_pos : (0 : ℚ) < 2) (n - 53)]
  have hulp : ulp (2 ^ n + 2 ^ (n - 53)) = 2 ^ (n - 52) := by
    rw [ulp, hlog]
    congr 1
    omega
  -- a tie, and the power is the even neighbour
  have hquot : (2 ^ n + 2 ^ (n - 53) : ℚ) / ulp (2 ^ n + 2 ^ (n - 53)) ≤
      ((2 ^ 52 : ℤ) : ℚ) + 1 / 2 := by
    rw [hulp, div_le_iff₀ (zpow_pos two_pos _), add_mul, Int.cast_pow, Int.cast_ofNat,
      ← zpow_natCast, ← zpow_add₀ two_ne_zero]
    have hexp : (n - 52 : ℤ) = 1 + (n - 53) := by omega
    rw [hexp, zpow_add₀ two_ne_zero 1, zpow_one, show ((52 : ℕ) : ℤ) + (1 + (n - 53)) = n by omega]
    linarith
  have hround := roundHalfEven_le_of_even hquot (by norm_num)
  rw [nearest, hulp]
  calc (roundHalfEven ((2 ^ n + 2 ^ (n - 53) : ℚ) / 2 ^ (n - 52)) : ℚ) * 2 ^ (n - 52)
      ≤ (2 ^ 52 : ℤ) * 2 ^ (n - 52) := by
        rw [hulp] at hround
        exact mul_le_mul_of_nonneg_right (Int.cast_le.mpr hround) (zpow_pos two_pos _).le
    _ = 2 ^ n := by
      rw [Int.cast_pow, Int.cast_ofNat, ← zpow_natCast, ← zpow_add₀ two_ne_zero]
      congr 1
      omega

/-- The error of a number up to `B`, as a share of `B`. -/
theorem abs_nearest_sub_le_mul {q B : ℚ} (h : |q| ≤ B) (hB : 2 ^ (-1021 : ℤ) ≤ B) :
    |nearest q - q| ≤ B * 2 ^ (-53 : ℤ) := by
  have hpos : (0 : ℚ) < 2 ^ (-53 : ℤ) := by positivity
  by_cases hq : q = 0
  · subst hq
    rw [nearest_zero, sub_zero, abs_zero]
    have hB' : (0 : ℚ) ≤ B := (zpow_pos two_pos _).le.trans hB
    positivity
  refine (abs_nearest_sub_le q).trans ?_
  have hself : (2 : ℚ) ^ Int.log 2 |q| ≤ |q| := by
    exact_mod_cast Int.zpow_log_le_self one_lt_two (abs_pos.mpr hq)
  have hunit : ulp q ≤ B * 2 ^ (-52 : ℤ) := by
    unfold ulp
    rcases le_total (Int.log 2 |q| - 52) (-1074) with hsmall | hlarge
    · -- the smallest unit is covered by the floor of `B`
      rw [max_eq_right hsmall]
      calc (2 : ℚ) ^ (-1074 : ℤ) ≤ 2 ^ ((-1021 : ℤ) + -52) :=
            zpow_le_zpow_right₀ one_le_two (by omega)
        _ = 2 ^ (-1021 : ℤ) * 2 ^ (-52 : ℤ) := zpow_add₀ two_ne_zero _ _
        _ ≤ B * 2 ^ (-52 : ℤ) := mul_le_mul_of_nonneg_right hB (by positivity)
    · -- a larger one by the number itself
      rw [max_eq_left hlarge, sub_eq_add_neg, zpow_add₀ two_ne_zero]
      exact mul_le_mul_of_nonneg_right (hself.trans h) (by positivity)
  calc ulp q / 2 ≤ B * 2 ^ (-52 : ℤ) / 2 := div_le_div_of_nonneg_right hunit two_pos.le
    _ = B * 2 ^ (-53 : ℤ) := by
      rw [mul_div_assoc]
      norm_num

end Ragcore.PyFloat
