import Ragcore.Lib.Json

/-!
# Ragcore — the range of doubles

Every finite double is a multiple of `2 ^ (-1074)` below `2 ^ 1024`, so a float counter that adds
one with rounding stops growing. A number that rounds to `2 ^ 1024` or more has no double, and an
int of that size does not convert.

* **`toDouble_eq_fin`** — the grid and the bound of the finite doubles.
* **`not_forall_lt_addInt`** — no float counter increases at every step.
* **`toDouble_isFin_iff`** — the numbers that have a double, by `roundHalfEven` at the bound.
-/

namespace Ragcore.PyFloat

theorem roundHalfEven_int (n : ℤ) : roundHalfEven n = n := by
  simp [roundHalfEven]

theorem toDouble_one : toDouble 1 = .fin 1 := by
  have hlog : Int.log 2 |(1 : ℚ)| = 0 := by rw [abs_one, Int.log_one_right]
  have hulp : (2 : ℚ) ^ max (Int.log 2 |(1 : ℚ)| - 52) (-1074) = (2 ^ 52)⁻¹ := by
    rw [hlog, max_eq_left (by omega), zero_sub, zpow_neg]
    rfl
  have hround : (roundHalfEven (1 / (2 ^ 52)⁻¹) : ℚ) * (2 ^ 52)⁻¹ = 1 := by
    have hint : (1 : ℚ) / (2 ^ 52)⁻¹ = ((2 ^ 52 : ℤ) : ℚ) := by norm_num
    rw [hint, roundHalfEven_int]
    norm_num
  have hbig : (1 : ℚ) < 2 ^ 1024 := one_lt_pow₀ one_lt_two (by omega)
  unfold toDouble
  rw [if_neg one_ne_zero]
  simp only [hulp, hround]
  rw [if_neg (not_le.mpr hbig), if_neg]
  intro hneg
  exact absurd (hneg.trans (neg_nonpos.mpr (pow_pos two_pos _).le)) (not_le.mpr one_pos)

/-- A finite double in units of the least positive one. -/
theorem toDouble_eq_fin {q r : ℚ} (h : toDouble q = .fin r) :
    ∃ k : ℤ, r = k * (2 : ℚ) ^ (-1074 : ℤ) ∧ r < 2 ^ 1024 := by
  unfold toDouble at h
  split at h
  · cases h
    exact ⟨0, by rw [Int.cast_zero, zero_mul], pow_pos two_pos _⟩
  · simp only at h
    split at h
    · cases h
    · rename_i hbound
      split at h
      · cases h
      · cases h
        -- a double is an int times its unit
        refine ⟨roundHalfEven (q / 2 ^ max (Int.log 2 |q| - 52) (-1074)) *
          2 ^ (max (Int.log 2 |q| - 52) (-1074) + 1074).toNat, ?_, not_le.mp hbound⟩
        have hexp : ((max (Int.log 2 |q| - 52) (-1074) + 1074).toNat : ℤ) =
            max (Int.log 2 |q| - 52) (-1074) + 1074 := Int.toNat_of_nonneg (by omega)
        rw [Int.cast_mul, Int.cast_pow, Int.cast_ofNat, mul_assoc, ← zpow_natCast (2 : ℚ), hexp,
          ← zpow_add₀ (two_ne_zero)]
        congr 2
        omega

/-- The grid is finite below the bound, so rounded additions come to a stop. -/
theorem not_forall_lt_addOne (x : ℕ → ℚ) (hstep : ∀ n, toDouble (x n + 1) = .fin (x (n + 1))) :
    ¬ ∀ n, x n < x (n + 1) := by
  intro hlt
  have hunit : (0 : ℚ) < 2 ^ (-1074 : ℤ) := by positivity
  have hgrid : ∀ n, ∃ k : ℤ, x (n + 1) = k * (2 : ℚ) ^ (-1074 : ℤ) ∧ x (n + 1) < 2 ^ 1024 :=
    fun n => toDouble_eq_fin (hstep n)
  choose k hk hbound using hgrid
  have hinc : ∀ n, k n + 1 ≤ k (n + 1) := by
    intro n
    have hlt' := hlt (n + 1)
    rw [hk n, hk (n + 1)] at hlt'
    have := lt_of_mul_lt_mul_right hlt' hunit.le
    exact_mod_cast this
  have hfar : ∀ n : ℕ, k 0 + n ≤ k n := by
    intro n
    induction n with
    | zero => simp
    | succ n ih =>
      have := hinc n
      push_cast
      omega
  -- the multiples are ints below `2 ^ 2098`, and they pass any bound
  have hle : ∀ n, k n < 2 ^ 2098 := by
    intro n
    have hn := hbound n
    rw [hk n] at hn
    have hpow : (2 : ℚ) ^ 1024 = 2 ^ 2098 * 2 ^ (-1074 : ℤ) := by
      have hexp : ((1024 : ℕ) : ℤ) = ((2098 : ℕ) : ℤ) + -1074 := by omega
      rw [← zpow_natCast, ← zpow_natCast, ← zpow_add₀ two_ne_zero, ← hexp]
    rw [hpow] at hn
    have hlt' := lt_of_mul_lt_mul_right hn hunit.le
    rw [← Int.cast_ofNat, ← Int.cast_pow] at hlt'
    exact Int.cast_lt.mp hlt'
  generalize (2 : ℤ) ^ 2098 = bound at hle
  have hn := hfar (bound - k 0).toNat
  have hb := hle (bound - k 0).toNat
  have h0 := hle 0
  omega

/-- One can be added to every float. -/
theorem addInt_one_isOk (x : PyFloat) : ∃ z, x.addInt 1 = .ok z := by
  unfold addInt
  rw [Int.cast_one, toDouble_one]
  cases x <;> exact ⟨_, rfl⟩

/-- Adding one to an infinity gives it back, and a NaN is not below anything. -/
theorem exists_fin_of_lt_addInt {x z : PyFloat} (hadd : x.addInt 1 = .ok z)
    (hlt : x.lt z = true) : ∃ q, x = .fin q := by
  unfold addInt at hadd
  rw [Int.cast_one, toDouble_one] at hadd
  cases x with
  | fin q => exact ⟨q, rfl⟩
  | nan obj => cases hlt
  | inf =>
    rw [← Except.ok.inj hadd] at hlt
    cases hlt
  | negInf =>
    rw [← Except.ok.inj hadd] at hlt
    cases hlt

/-- **No float counter increases at every step.** -/
theorem not_forall_lt_addInt (x : ℕ → PyFloat) (hstep : ∀ n, (x n).addInt 1 = .ok (x (n + 1))) :
    ¬ ∀ n, (x n).lt (x (n + 1)) = true := by
  intro hlt
  have hfin : ∀ n, ∃ q : ℚ, x n = .fin q := fun n => exists_fin_of_lt_addInt (hstep n) (hlt n)
  choose q hq using hfin
  refine not_forall_lt_addOne q (fun n => ?_) fun n => ?_
  · have hn := hstep n
    rw [hq n, hq (n + 1), addInt, Int.cast_one, toDouble_one] at hn
    exact Except.ok.inj hn
  · have hn := hlt n
    rw [hq n, hq (n + 1), fin_lt_fin, decide_eq_true_iff] at hn
    exact hn

/-! ## Which numbers have a double

The overflow threshold of a rounding to the nearest double: half a unit beyond the greatest one. -/

/-- Below the half the rounding goes down at most. -/
theorem roundHalfEven_le_of_lt {q : ℚ} {m : ℤ} (h : q < m + 1 / 2) : roundHalfEven q ≤ m := by
  have hfloor := Int.floor_le q
  have hbelow : ⌊q⌋ ≤ m := by
    have hlt : (⌊q⌋ : ℚ) < (m + 1 : ℤ) := by
      push_cast
      linarith
    have := Int.cast_lt.mp hlt
    omega
  unfold roundHalfEven
  simp only
  split
  · exact hbelow
  · rename_i hrest
    -- the floor is below `m`, or the rest would be under a half
    have hne : ⌊q⌋ ≠ m := by
      intro heq
      rw [heq] at hrest
      exact hrest (by linarith)
    split
    · omega
    · split <;> omega

theorem le_roundHalfEven_of_lt {q : ℚ} {m : ℤ} (h : m - 1 / 2 < q) : m ≤ roundHalfEven q := by
  have hfloor := Int.lt_floor_add_one q
  have hbelow : m - 1 ≤ ⌊q⌋ := by
    have hlt : ((m - 1 : ℤ) : ℚ) < (⌊q⌋ + 1 : ℤ) := by
      push_cast
      linarith
    have := Int.cast_lt.mp hlt
    omega
  unfold roundHalfEven
  simp only
  by_cases heq : ⌊q⌋ = m - 1
  · -- more than half a unit above `m - 1`, so it rounds up
    have hrest : 1 / 2 < q - ⌊q⌋ := by
      rw [heq]
      push_cast
      linarith
    rw [if_neg (by linarith), if_pos hrest]
    omega
  · split
    · omega
    · split
      · omega
      · split <;> omega

/-- On both sides of zero the rounding stays within the bound. -/
theorem abs_roundHalfEven_le {q : ℚ} {m : ℤ} (h : |q| < m + 1 / 2) : |roundHalfEven q| ≤ m := by
  rw [abs_lt] at h
  refine abs_le.mpr ⟨le_roundHalfEven_of_lt ?_, roundHalfEven_le_of_lt h.2⟩
  push_cast
  linarith [h.1]

/-- A tie goes to the even neighbour. -/
theorem roundHalfEven_tie {q : ℚ} {m : ℤ} (h : q = m + 1 / 2) :
    roundHalfEven q = if m % 2 = 0 then m else m + 1 := by
  have hfloor : ⌊q⌋ = m := by
    rw [Int.floor_eq_iff, h]
    constructor <;> linarith
  have hrest : q - (m : ℚ) = 1 / 2 := by
    rw [h]
    ring
  unfold roundHalfEven
  simp only [hfloor, hrest, lt_irrefl, if_false]

/-- A tie goes up to an even neighbour. -/
theorem le_roundHalfEven_of_even {q : ℚ} {m : ℤ} (h : m - 1 / 2 ≤ q) (heven : m % 2 = 0) :
    m ≤ roundHalfEven q := by
  rcases h.lt_or_eq with hlt | heq
  · exact le_roundHalfEven_of_lt hlt
  · have htie : q = ((m - 1 : ℤ) : ℚ) + 1 / 2 := by
      rw [← heq]
      push_cast
      ring
    rw [roundHalfEven_tie htie, if_neg (by omega)]
    omega

theorem roundHalfEven_le_of_even {q : ℚ} {m : ℤ} (h : q ≤ m + 1 / 2) (heven : m % 2 = 0) :
    roundHalfEven q ≤ m := by
  rcases h.lt_or_eq with hlt | heq
  · exact roundHalfEven_le_of_lt hlt
  · rw [roundHalfEven_tie heq, if_pos heven]

/-- The unit in the last place of the doubles near `q`. -/
def ulp (q : ℚ) : ℚ := 2 ^ max (Int.log 2 |q| - 52) (-1074)

theorem ulp_pos (q : ℚ) : 0 < ulp q := zpow_pos two_pos _

/-- The rounding of a number that is not zero, in units of its last place. -/
theorem toDouble_of_ne_zero {q : ℚ} (hq : q ≠ 0) :
    toDouble q =
      if (2 : ℚ) ^ 1024 ≤ roundHalfEven (q / ulp q) * ulp q then .inf
      else if (roundHalfEven (q / ulp q) : ℚ) * ulp q ≤ -(2 : ℚ) ^ 1024 then .negInf
      else .fin (roundHalfEven (q / ulp q) * ulp q) := by
  unfold toDouble
  rw [if_neg hq]
  rfl

/-- Half a unit beyond the largest finite double, where rounding leaves the finite ones. -/
def overflowBound : ℚ := 2 ^ 1024 - 2 ^ 970

theorem pow_add_971 (n : ℕ) (m : ℤ) (h : (n : ℤ) = m + 971) :
    (2 : ℚ) ^ n = 2 ^ m * 2 ^ (971 : ℤ) := by
  rw [← zpow_natCast, h, zpow_add₀ two_ne_zero]

theorem pow_1024_eq : (2 : ℚ) ^ 1024 = 2 ^ 53 * 2 ^ (971 : ℤ) := pow_add_971 1024 53 rfl

/-- Half a unit beyond the greatest double. -/
theorem overflowBound_eq : overflowBound = (2 ^ 53 - 1 / 2) * 2 ^ (971 : ℤ) := by
  have hhalf : (2 : ℚ) ^ 970 = 2 ^ (-1 : ℤ) * 2 ^ (971 : ℤ) := pow_add_971 970 (-1) rfl
  rw [overflowBound, pow_1024_eq, hhalf, ← sub_mul, zpow_neg_one, one_div]

theorem overflowBound_pos : 0 < overflowBound := by
  rw [overflowBound_eq]
  exact mul_pos (by norm_num) (zpow_pos two_pos _)

theorem overflowBound_lt : overflowBound < 2 ^ (1024 : ℤ) := by
  have hpow : (2 : ℚ) ^ (1024 : ℤ) = 2 ^ 53 * 2 ^ (971 : ℤ) := pow_1024_eq
  rw [overflowBound_eq, hpow]
  exact mul_lt_mul_of_pos_right (by norm_num) (zpow_pos two_pos _)

theorem lt_overflowBound : (2 : ℚ) ^ (1023 : ℤ) < overflowBound := by
  have hpow : (2 : ℚ) ^ (1023 : ℤ) = 2 ^ (52 : ℤ) * 2 ^ (971 : ℤ) := pow_add_971 1023 52 rfl
  rw [overflowBound_eq, hpow]
  exact mul_lt_mul_of_pos_right (by norm_num) (zpow_pos two_pos _)

/-- Within the bound the unit is at most the largest one, `2 ^ 971`. -/
theorem log_le_of_abs_lt {q : ℚ} (hq : q ≠ 0) (h : |q| < overflowBound) :
    Int.log 2 |q| ≤ 1023 := by
  have hpos : 0 < |q| := abs_pos.mpr hq
  have hlow : ((2 : ℕ) : ℚ) ^ Int.log 2 |q| ≤ |q| := Int.zpow_log_le_self one_lt_two hpos
  have hlt := lt_of_le_of_lt hlow (h.trans overflowBound_lt)
  rw [Nat.cast_ofNat] at hlt
  have := (zpow_lt_zpow_iff_right₀ (one_lt_two : (1 : ℚ) < 2)).mp hlt
  omega

/-- The next power of two is above. -/
theorem abs_lt_zpow {q : ℚ} : |q| < 2 ^ (Int.log 2 |q| + 1) := by
  have h := Int.lt_zpow_succ_log_self (b := 2) one_lt_two |q|
  rwa [Nat.cast_ofNat] at h

/-- The quotient that is rounded, within the bound, and its rounding. -/
theorem round_lt_of_abs_lt {q : ℚ} (hq : q ≠ 0) (h : |q| < overflowBound) :
    |(roundHalfEven (q / ulp q) : ℚ) * ulp q| < 2 ^ 1024 := by
  have hlog := log_le_of_abs_lt hq h
  have hpos := ulp_pos q
  rw [abs_mul, abs_of_pos hpos]
  by_cases hmax : Int.log 2 |q| = 1023
  · -- the top binade: the quotient stays half a unit below `2 ^ 53`
    have hulp : ulp q = 2 ^ (971 : ℤ) := by
      rw [ulp, hmax]
      rfl
    have hquot : |q / ulp q| < 2 ^ 53 - 1 / 2 := by
      rw [abs_div, abs_of_pos hpos, div_lt_iff₀ hpos, hulp, ← overflowBound_eq]
      exact h
    have habs : |roundHalfEven (q / ulp q)| ≤ 2 ^ 53 - 1 := by
      apply abs_roundHalfEven_le
      push_cast
      linarith
    have hcast : |(roundHalfEven (q / ulp q) : ℚ)| < 2 ^ 53 := by
      have hle : (|roundHalfEven (q / ulp q)| : ℚ) ≤ 2 ^ 53 - 1 := by exact_mod_cast habs
      linarith
    rw [pow_1024_eq, ← hulp]
    exact mul_lt_mul_of_pos_right hcast hpos
  · -- below it the quotient may round up to `2 ^ 53`, and the unit is smaller
    have hexp : Int.log 2 |q| + 1 ≤ max (Int.log 2 |q| - 52) (-1074) + 53 := by omega
    have hquot : |q / ulp q| < 2 ^ 53 := by
      rw [abs_div, abs_of_pos hpos, div_lt_iff₀ hpos]
      have hle : (2 : ℚ) ^ (Int.log 2 |q| + 1) ≤ 2 ^ (max (Int.log 2 |q| - 52) (-1074) + 53) :=
        zpow_le_zpow_right₀ one_le_two hexp
      refine lt_of_lt_of_le abs_lt_zpow (hle.trans (le_of_eq ?_))
      rw [zpow_add₀ two_ne_zero, ulp, mul_comm]
      norm_num
    have habs : |roundHalfEven (q / ulp q)| ≤ 2 ^ 53 := by
      apply abs_roundHalfEven_le
      push_cast
      linarith
    have hcast : |(roundHalfEven (q / ulp q) : ℚ)| ≤ 2 ^ 53 := by exact_mod_cast habs
    have hsmall : ulp q < 2 ^ (971 : ℤ) := by
      rw [ulp]
      refine zpow_lt_zpow_right₀ one_lt_two ?_
      omega
    rw [pow_1024_eq]
    exact mul_lt_mul' hcast hsmall hpos.le (by positivity)

/-- From `2 ^ (-1022)` on the quotient that is rounded has 53 bits. -/
theorem two_pow_mul_ulp {q : ℚ} (h : -1022 ≤ Int.log 2 |q|) :
    (2 : ℚ) ^ 52 * ulp q = 2 ^ Int.log 2 |q| := by
  have hmax : max (Int.log 2 |q| - 52) (-1074) = Int.log 2 |q| - 52 := by omega
  rw [ulp, hmax, ← zpow_natCast, ← zpow_add₀ two_ne_zero]
  congr 1
  omega

/-- A normal number has at least `2 ^ 52` units. -/
theorem two_pow_le_quot {q : ℚ} (hq : 0 < |q|) (h : -1022 ≤ Int.log 2 |q|) :
    (2 : ℚ) ^ 52 ≤ |q| / ulp q := by
  have hself : ((2 : ℕ) : ℚ) ^ Int.log 2 |q| ≤ |q| := Int.zpow_log_le_self one_lt_two hq
  rw [Nat.cast_ofNat, ← two_pow_mul_ulp h] at hself
  exact (le_div_iff₀ (ulp_pos q)).mpr hself

/-- Beyond the bound the exponent is the greatest or more. -/
theorem le_log_of_le_abs {q : ℚ} (h : overflowBound ≤ |q|) : 1023 ≤ Int.log 2 |q| := by
  have hlow : (2 : ℚ) ^ (1023 : ℤ) < 2 ^ (Int.log 2 |q| + 1) :=
    lt_overflowBound.trans_le (h.trans abs_lt_zpow.le)
  have := (zpow_lt_zpow_iff_right₀ (one_lt_two : (1 : ℚ) < 2)).mp hlow
  omega

/-- Beyond the bound the quotient reaches the even `k` with `k` units at `2 ^ 1024` or more. -/
theorem exists_even_le {q : ℚ} (h : overflowBound ≤ |q|) :
    ∃ k : ℤ, k % 2 = 0 ∧ (k : ℚ) - 1 / 2 ≤ |q| / ulp q ∧ (2 : ℚ) ^ 1024 ≤ k * ulp q := by
  have hlog := le_log_of_le_abs h
  have hpos := ulp_pos q
  have habs : 0 < |q| := overflowBound_pos.trans_le h
  -- the greatest exponent, where the bound is a tie, or one beyond it
  by_cases hmin : Int.log 2 |q| = 1023
  · have hulp : ulp q = 2 ^ (971 : ℤ) := by
      rw [ulp, hmin]
      rfl
    have hcast : ((2 ^ 53 : ℤ) : ℚ) = 2 ^ 53 := Int.cast_pow 2 53
    refine ⟨2 ^ 53, by norm_num, ?_, ?_⟩
    · rw [hcast, le_div_iff₀ hpos, hulp, ← overflowBound_eq]
      exact h
    · rw [hcast, hulp, pow_1024_eq]
  · have hulp := two_pow_mul_ulp (q := q) (by omega)
    have hcast : ((2 ^ 52 : ℤ) : ℚ) = 2 ^ 52 := Int.cast_pow 2 52
    refine ⟨2 ^ 52, by norm_num, ?_, ?_⟩
    · have hquot := two_pow_le_quot habs (by omega)
      rw [hcast]
      linarith
    · rw [hcast, hulp, ← zpow_natCast]
      refine zpow_le_zpow_right₀ one_le_two ?_
      have : ((1024 : ℕ) : ℤ) = 1024 := rfl
      omega

/-- **The numbers that have a double** are those below the bound. -/
theorem toDouble_isFin_iff {q : ℚ} : (∃ r, toDouble q = .fin r) ↔ |q| < overflowBound := by
  by_cases hq : q = 0
  · subst hq
    rw [abs_zero]
    exact ⟨fun _ => overflowBound_pos, fun _ => ⟨0, rfl⟩⟩
  rw [toDouble_of_ne_zero hq]
  constructor
  · rintro ⟨r, hr⟩
    by_contra hbound
    obtain ⟨k, heven, hquot, hbig⟩ := exists_even_le (not_lt.mp hbound)
    have hpos := ulp_pos q
    -- the quotient rounds to `k` or further out, and `k` units reach `2 ^ 1024`
    rcases le_or_gt 0 q with hsign | hsign
    · rw [abs_of_nonneg hsign] at hquot
      have hround := le_roundHalfEven_of_even hquot heven
      have hcast : (k : ℚ) ≤ roundHalfEven (q / ulp q) := by exact_mod_cast hround
      have hreach := hbig.trans (mul_le_mul_of_nonneg_right hcast hpos.le)
      rw [if_pos hreach] at hr
      cases hr
    · rw [abs_of_neg hsign, neg_div] at hquot
      have hquot' : q / ulp q ≤ ((-k : ℤ) : ℚ) + 1 / 2 := by
        push_cast
        linarith
      have hround := roundHalfEven_le_of_even hquot' (by omega)
      have hcast : (roundHalfEven (q / ulp q) : ℚ) ≤ -k := by exact_mod_cast hround
      have hreach : (roundHalfEven (q / ulp q) : ℚ) * ulp q ≤ -2 ^ 1024 := by
        refine (mul_le_mul_of_nonneg_right hcast hpos.le).trans ?_
        rw [neg_mul]
        exact neg_le_neg hbig
      by_cases hup : (2 : ℚ) ^ 1024 ≤ roundHalfEven (q / ulp q) * ulp q
      · rw [if_pos hup] at hr
        cases hr
      · rw [if_neg hup, if_pos hreach] at hr
        cases hr
  · intro hbound
    have hlt := round_lt_of_abs_lt hq hbound
    rw [abs_lt] at hlt
    rw [if_neg (not_le.mpr hlt.2), if_neg (not_le.mpr hlt.1)]
    exact ⟨_, rfl⟩

theorem toDouble_int_isFin_iff {n : ℤ} :
    (∃ r, toDouble n = .fin r) ↔ |n| < 2 ^ 1024 - 2 ^ 970 := by
  have hcast : ((2 ^ 1024 - 2 ^ 970 : ℤ) : ℚ) = overflowBound := by
    rw [Int.cast_sub, Int.cast_pow, Int.cast_pow]
    rfl
  rw [toDouble_isFin_iff, ← hcast, ← Int.cast_abs, Int.cast_lt]

/-- Of the ints only `0` and `1` convert to a double between `0` and `1`. -/
theorem toDouble_int_unit {n : ℤ} {r : ℚ} (h : toDouble n = .fin r) (hlow : 0 ≤ r)
    (hhigh : r ≤ 1) : n = 0 ∨ n = 1 := by
  by_contra hother
  rw [not_or] at hother
  have hne : (n : ℚ) ≠ 0 := Int.cast_ne_zero.mpr hother.1
  have habs : 0 < |(n : ℚ)| := abs_pos.mpr hne
  have hone : (1 : ℚ) ≤ |(n : ℚ)| := by
    rw [← Int.cast_abs]
    exact_mod_cast Int.one_le_abs hother.1
  have hlog : 0 ≤ Int.log 2 |(n : ℚ)| := by
    rw [← Int.log_one_right (R := ℚ) 2]
    exact Int.log_mono_right one_pos hone
  have hulp := two_pow_mul_ulp (q := n) (by omega)
  have hquot := two_pow_le_quot habs (by omega)
  have hpos := ulp_pos (n : ℚ)
  -- half of `|n|` is below the `2 ^ 52` units the rounding is at least
  have hhalf : |(n : ℚ)| < 2 * (2 ^ 52 * ulp n) := by
    have hlt := abs_lt_zpow (q := n)
    rw [zpow_add_one₀ two_ne_zero, ← hulp] at hlt
    linarith
  have hr : r = roundHalfEven ((n : ℚ) / ulp n) * ulp n := by
    rw [toDouble_of_ne_zero hne] at h
    split at h
    · cases h
    · split at h
      · cases h
      · exact (PyFloat.fin.inj h).symm
  have hcast : ((2 ^ 52 : ℤ) : ℚ) = 2 ^ 52 := Int.cast_pow 2 52
  rcases lt_or_gt_of_ne hother.1 with hneg | hpositive
  · have hsign : (n : ℚ) < 0 := Int.cast_lt_zero.mpr hneg
    rw [abs_of_neg hsign, neg_div] at hquot
    have hround : roundHalfEven ((n : ℚ) / ulp n) ≤ -2 ^ 52 := by
      refine roundHalfEven_le_of_lt ?_
      rw [Int.cast_neg, hcast]
      linarith
    have hle : (roundHalfEven ((n : ℚ) / ulp n) : ℚ) ≤ -2 ^ 52 := by exact_mod_cast hround
    have hmul := mul_le_mul_of_nonneg_right hle hpos.le
    rw [← hr] at hmul
    linarith
  · have hsign : (0 : ℚ) < n := Int.cast_pos.mpr hpositive
    have htwo : (2 : ℚ) ≤ n := by
      have hle : 2 ≤ n := by omega
      exact_mod_cast hle
    rw [abs_of_pos hsign] at hquot hhalf
    have hround : 2 ^ 52 ≤ roundHalfEven ((n : ℚ) / ulp n) := by
      refine le_roundHalfEven_of_lt ?_
      rw [hcast]
      linarith
    have hle : (2 : ℚ) ^ 52 ≤ roundHalfEven ((n : ℚ) / ulp n) := by exact_mod_cast hround
    have hmul := mul_le_mul_of_nonneg_right hle hpos.le
    rw [← hr] at hmul
    linarith

end Ragcore.PyFloat
