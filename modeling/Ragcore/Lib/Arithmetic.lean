import Ragcore.Lib.Rounding

/-!
# Ragcore — arithmetic between zero and one, exact and in doubles

A formula is written once over an `Arithmetic`, which says where a result is rounded and how a
list is summed: over `exact` it is a formula of rationals, over `double` what a program computes.
Errors are counted in roundoffs of `2 ^ (-53)`.

* **`Approx`** — a float between `0` and `1` near an exact number; one rule for each operation.
* **`Below`** — a product of doubles between `0` and `1` stays below its first factor.
* **`Above`** — and loses two binades at most to a factor of a half or more.
* **`Summation.leftToRight`** — plain summation is a summation.
-/

namespace Ragcore

open PyFloat

/-! ## Where results are rounded

The kernel is written over an arithmetic: a rounding after each operation and a way to sum. With the
identity and the exact sum it is the kernel over the rationals. -/

/-- A rounding and a summation. -/
structure Arithmetic where
  round : PyFloat → PyFloat
  sum : List ℚ → ℚ

namespace Arithmetic

/-- Nothing is rounded. -/
def exact : Arithmetic := ⟨id, List.sum⟩

variable (a : Arithmetic)

/-- A decimal literal of the program. -/
def literal (q : ℚ) : PyFloat := a.round (.fin q)

def mul (x y : PyFloat) : PyFloat := a.round (x * y)

def add (x y : PyFloat) : PyFloat := a.round (x + y)

def sub (x y : PyFloat) : PyFloat := a.round (x - y)

/-- `total / n` for an int `n`, which is converted to a float first. -/
def divLength (total : ℚ) (n : ℕ) : Except PyErr PyFloat :=
  match a.round (.fin n) with
  | .fin m => .ok (a.round (.fin (total / m)))
  | _ => .error (.overflowError ["int too large to convert to float"])

end Arithmetic

/-- A finite result is rounded to a double. -/
def PyFloat.rounded : PyFloat → PyFloat
  | .fin q => toDouble q
  | x => x

/-- The relative error of a rounding, half the distance from `1.0` to the next double. -/
def roundoff : ℚ := 2 ^ (-53 : ℤ)

theorem roundoff_pos : 0 < roundoff := zpow_pos two_pos _

/-- A rough bound, for the comparisons with decimal floors. -/
theorem roundoff_lt : roundoff < 1 / 1000 := by
  unfold roundoff
  norm_num

/-- `sum` of floats between `0.0` and `1.0`. Interpreters add from the left, older ones rounding
each sum and newer ones carrying the lost digits along; this is what both promise. -/
structure Summation where
  sum : List ℚ → ℚ
  nonneg : ∀ xs : List ℚ, (∀ x ∈ xs, 0 ≤ x ∧ x ≤ 1) → 0 ≤ sum xs
  le_length : ∀ xs : List ℚ, (∀ x ∈ xs, 0 ≤ x ∧ x ≤ 1) → sum xs ≤ nearest xs.length
  error : ∀ xs : List ℚ, (∀ x ∈ xs, 0 ≤ x ∧ x ≤ 1) →
    |sum xs - xs.sum| ≤ 2 * xs.length ^ 2 * roundoff

/-- Every result is rounded. -/
def Arithmetic.double (s : Summation) : Arithmetic := ⟨PyFloat.rounded, s.sum⟩

/-! ## One rounding

In the unit interval a rounding stays there and moves a number by half a unit of the last place. -/

/-- Below the overflow threshold a rounding gives a finite float. -/
theorem rounded_fin {q : ℚ} (h : |q| < 2 ^ (1023 : ℤ)) :
    PyFloat.rounded (.fin q) = .fin (nearest q) :=
  toDouble_eq_nearest (h.trans lt_overflowBound)

theorem rounded_fin_of_le_two {q : ℚ} (hlow : 0 ≤ q) (hhigh : q ≤ 2) :
    PyFloat.rounded (.fin q) = .fin (nearest q) := by
  apply rounded_fin
  rw [abs_of_nonneg hlow]
  calc q ≤ 2 ^ (1 : ℤ) := by rwa [zpow_one]
    _ < 2 ^ (1023 : ℤ) := zpow_lt_zpow_right₀ one_lt_two (by omega)

/-- Rounding keeps the numbers between `0` and `1` there. -/
theorem nearest_unit {q : ℚ} (hlow : 0 ≤ q) (hhigh : q ≤ 1) : 0 ≤ nearest q ∧ nearest q ≤ 1 :=
  ⟨nearest_nonneg hlow, (nearest_mono hlow hhigh).trans_eq nearest_one⟩

/-- Below a power of two up to `1` a rounding costs half that power in roundoffs. -/
theorem abs_nearest_sub_le_half {q : ℚ} {n : ℤ} (hlow : 0 ≤ q) (h : q < 2 ^ n)
    (hn : -1021 ≤ n) : |nearest q - q| ≤ 2 ^ n / 2 * roundoff := by
  have herr := abs_nearest_sub_le_of_lt (by rwa [abs_of_nonneg hlow]) hn
  refine herr.trans (le_of_eq ?_)
  rw [sub_eq_add_neg, zpow_add₀ two_ne_zero, roundoff]
  ring

theorem abs_nearest_sub_le_unit {q : ℚ} (hlow : 0 ≤ q) (hhigh : q ≤ 1) :
    |nearest q - q| ≤ 1 / 2 * roundoff := by
  rcases hhigh.lt_or_eq with hlt | rfl
  · have herr := abs_nearest_sub_le_half (n := 0) hlow (by rwa [zpow_zero]) (by omega)
    rwa [zpow_zero] at herr
  · rw [nearest_one, sub_self, abs_zero]
    have hpos := roundoff_pos
    positivity

/-! ## Near an exact number

`Approx k x q`: the float `x` is in the unit interval and within `k` units of `q`. Each operation
adds what it rounds away. -/

/-- A float between `0` and `1`, at most `k` roundoffs away from an exact number there. -/
structure Approx (k : ℚ) (x : PyFloat) (q : ℚ) : Prop where
  float : ∃ d : ℚ, x = .fin d ∧ (0 ≤ d ∧ d ≤ 1) ∧ |d - q| ≤ k * roundoff
  exact : 0 ≤ q ∧ q ≤ 1

namespace Approx

variable {k l : ℚ} {x y : PyFloat} {p q : ℚ} (s : Summation)

theorem mono (h : Approx k x q) (hkl : k ≤ l) : Approx l x q where
  float := by
    obtain ⟨d, hd, hunit, herr⟩ := h.float
    exact ⟨d, hd, hunit, herr.trans (mul_le_mul_of_nonneg_right hkl roundoff_pos.le)⟩
  exact := h.exact

/-- A float that is rounded once more, at a cost of `r`. -/
theorem round_of {d r : ℚ} (hunit : 0 ≤ d ∧ d ≤ 1) (hq : 0 ≤ q ∧ q ≤ 1)
    (h : |d - q| ≤ k * roundoff) (hround : |nearest d - d| ≤ r * roundoff) :
    Approx (k + r) (PyFloat.rounded (.fin d)) q where
  float := by
    refine ⟨nearest d, rounded_fin_of_le_two hunit.1 (hunit.2.trans one_le_two),
      nearest_unit hunit.1 hunit.2, ?_⟩
    have htriangle := abs_sub_le (nearest d) d q
    linarith
  exact := hq

theorem round {d : ℚ} (hunit : 0 ≤ d ∧ d ≤ 1) (hq : 0 ≤ q ∧ q ≤ 1)
    (h : |d - q| ≤ k * roundoff) : Approx (k + 1 / 2) (PyFloat.rounded (.fin d)) q :=
  round_of hunit hq h (abs_nearest_sub_le_unit hunit.1 hunit.2)

theorem abs_self_sub_le : |q - q| ≤ 0 * roundoff := by rw [sub_self, abs_zero, zero_mul]

theorem self (h : 0 ≤ q ∧ q ≤ 1) : Approx 0 (.fin q) q := ⟨⟨q, rfl, h, abs_self_sub_le⟩, h⟩

theorem literal (h : 0 ≤ q ∧ q ≤ 1) : Approx (1 / 2) ((Arithmetic.double s).literal q) q :=
  (round h h abs_self_sub_le).mono (by norm_num)

theorem literal_of_lt {n : ℤ} (h : 0 ≤ q ∧ q ≤ 1) (hlt : q < 2 ^ n) (hn : -1021 ≤ n) :
    Approx (2 ^ n / 2) ((Arithmetic.double s).literal q) q :=
  (round_of h h abs_self_sub_le (abs_nearest_sub_le_half h.1 hlt hn)).mono (by rw [zero_add])

/-- The error of a product of numbers between `0` and `1`. -/
theorem abs_mul_sub_mul_le {d e : ℚ} (he : 0 ≤ e ∧ e ≤ 1) (hp : 0 ≤ p ∧ p ≤ 1)
    (hd : |d - p| ≤ k * roundoff) (hdiff : |e - q| ≤ l * roundoff) :
    |d * e - p * q| ≤ (k + l) * roundoff := by
  have hsplit : d * e - p * q = (d - p) * e + p * (e - q) := by ring
  have hleft : |(d - p) * e| ≤ k * roundoff := by
    rw [abs_mul, abs_of_nonneg he.1]
    exact (mul_le_of_le_one_right (abs_nonneg _) he.2).trans hd
  have hright : |p * (e - q)| ≤ l * roundoff := by
    rw [abs_mul, abs_of_nonneg hp.1]
    exact (mul_le_of_le_one_left (abs_nonneg _) hp.2).trans hdiff
  have htriangle := abs_add_le ((d - p) * e) (p * (e - q))
  rw [hsplit]
  linarith

/-- The errors of the factors add up, as both are at most one. -/
theorem mul (hx : Approx k x p) (hy : Approx l y q) :
    Approx (k + l + 1 / 2) ((Arithmetic.double s).mul x y) (p * q) := by
  obtain ⟨d, rfl, hd, hdp⟩ := hx.float
  obtain ⟨e, rfl, he, heq⟩ := hy.float
  exact round ⟨mul_nonneg hd.1 he.1, mul_le_one₀ hd.2 he.1 he.2⟩
    ⟨mul_nonneg hx.exact.1 hy.exact.1, mul_le_one₀ hx.exact.2 hy.exact.1 hy.exact.2⟩
    (abs_mul_sub_mul_le he hx.exact hdp heq)

/-- A small product costs less to round. -/
theorem mul_of_lt {n : ℤ} (hx : Approx k x p) (hy : Approx l y q)
    (hlt : p * q + (k + l) * roundoff < 2 ^ n) (hn : -1021 ≤ n) :
    Approx (k + l + 2 ^ n / 2) ((Arithmetic.double s).mul x y) (p * q) := by
  obtain ⟨d, rfl, hd, hdp⟩ := hx.float
  obtain ⟨e, rfl, he, heq⟩ := hy.float
  have hdiff := abs_mul_sub_mul_le he hx.exact hdp heq
  have hbelow : d * e < 2 ^ n := by
    have hle := (abs_le.mp hdiff).2
    linarith
  exact round_of ⟨mul_nonneg hd.1 he.1, mul_le_one₀ hd.2 he.1 he.2⟩
    ⟨mul_nonneg hx.exact.1 hy.exact.1, mul_le_one₀ hx.exact.2 hy.exact.1 hy.exact.2⟩ hdiff
    (abs_nearest_sub_le_half (mul_nonneg hd.1 he.1) hbelow hn)

/-- `1 - x`. -/
theorem complement (hx : Approx k x q) :
    Approx (k + 1 / 2) ((Arithmetic.double s).sub (.fin 1) x) (1 - q) := by
  obtain ⟨d, rfl, hd, hdq⟩ := hx.float
  rw [Arithmetic.sub, fin_sub_fin]
  refine round ⟨by linarith, by linarith⟩ ⟨by linarith [hx.exact], by linarith [hx.exact]⟩ ?_
  have hdiff : 1 - d - (1 - q) = -(d - q) := by ring
  rwa [hdiff, abs_neg]

/-- A sum up to `1` does not pass it where the errors stay within one roundoff. -/
theorem add (hx : Approx k x p) (hy : Approx l y q) (hkl : k + l ≤ 1) (hpq : p + q ≤ 1) :
    Approx (k + l + 1) ((Arithmetic.double s).add x y) (p + q) := by
  obtain ⟨d, rfl, hd, hdp⟩ := hx.float
  obtain ⟨e, rfl, he, heq⟩ := hy.float
  have hpos := roundoff_pos
  have hnonneg : 0 ≤ d + e := add_nonneg hd.1 he.1
  have hsum : |d + e - (p + q)| ≤ (k + l) * roundoff := by
    have hsplit : d + e - (p + q) = (d - p) + (e - q) := by ring
    rw [hsplit, add_mul]
    exact (abs_add_le _ _).trans (add_le_add hdp heq)
  have hhigh : d + e ≤ 1 + roundoff := by
    have hle := (abs_le.mp hsum).2
    have hscale : (k + l) * roundoff ≤ roundoff := mul_le_of_le_one_left hpos.le hkl
    linarith
  -- a sum just above `1` is nearer to `1` than to the next double
  refine ⟨⟨nearest (d + e), ?_, ⟨nearest_nonneg hnonneg, ?_⟩, ?_⟩,
    add_nonneg hx.exact.1 hy.exact.1, hpq⟩
  · exact rounded_fin_of_le_two hnonneg (by linarith [roundoff_lt])
  · have hpow := nearest_le_zpow_of_le (n := 0) hnonneg (by rwa [zpow_zero, zero_sub]) (by omega)
    rwa [zpow_zero] at hpow
  · have hround := abs_nearest_sub_le_half (n := 1) hnonneg
      (by rw [zpow_one]; linarith [roundoff_lt]) (by omega)
    rw [zpow_one] at hround
    have htriangle := abs_sub_le (nearest (d + e)) (d + e) (p + q)
    linarith

/-- The average of a list: the sum of both errors over the length, and one rounding. -/
theorem divLength {xs : List ℚ} (h : ∀ x ∈ xs, 0 ≤ x ∧ x ≤ 1) (hne : xs ≠ [])
    (hlen : xs.length < 2 ^ 63) (hexact : 0 ≤ xs.sum / xs.length ∧ xs.sum / xs.length ≤ 1) :
    ∃ x, (Arithmetic.double s).divLength (s.sum xs) xs.length = .ok x ∧
      Approx (2 * xs.length + 1 / 2) x (xs.sum / xs.length) := by
  have hone : (1 : ℚ) ≤ xs.length := by
    exact_mod_cast List.length_pos_iff.mpr hne
  have hlength : |(xs.length : ℚ)| < 2 ^ (1023 : ℤ) := by
    rw [abs_of_nonneg (by linarith)]
    calc (xs.length : ℚ) < 2 ^ (63 : ℤ) := by exact_mod_cast hlen
      _ < 2 ^ (1023 : ℤ) := zpow_lt_zpow_right₀ one_lt_two (by omega)
  have hfloat : 1 ≤ nearest xs.length := nearest_one.symm.trans_le (nearest_mono zero_le_one hone)
  have hpos : 0 < nearest (xs.length : ℚ) := zero_lt_one.trans_le hfloat
  have hquot : 0 ≤ s.sum xs / nearest xs.length ∧ s.sum xs / nearest xs.length ≤ 1 :=
    ⟨div_nonneg (s.nonneg xs h) hpos.le, div_le_one_of_le₀ (s.le_length xs h) hpos.le⟩
  have herr : |s.sum xs / nearest xs.length - xs.sum / xs.length| ≤
      2 * xs.length * roundoff := by
    by_cases hsmall : xs.length ≤ 2 ^ 53
    · -- the length is a double, so only the sum carries an error
      have hconvert : nearest (xs.length : ℚ) = xs.length := by
        have hint := nearest_int (n := xs.length) (by rw [Nat.abs_cast]; exact_mod_cast hsmall)
        rwa [Int.cast_natCast] at hint
      have hlenpos : (0 : ℚ) < xs.length := by linarith
      rw [hconvert, ← sub_div, abs_div, abs_of_pos hlenpos, div_le_iff₀ hlenpos]
      refine (s.error xs h).trans (le_of_eq ?_)
      ring
    · -- a longer list allows for an error of `1`
      have hlarge : (1 : ℚ) ≤ xs.length * roundoff := by
        have hcast : (2 : ℚ) ^ 53 ≤ xs.length := by exact_mod_cast (not_le.mp hsmall).le
        calc (1 : ℚ) = 2 ^ 53 * roundoff := by
              unfold roundoff
              norm_num
          _ ≤ xs.length * roundoff := mul_le_mul_of_nonneg_right hcast roundoff_pos.le
      rw [abs_le]
      constructor <;> linarith [hquot.1, hquot.2, hexact.1, hexact.2]
  refine ⟨_, ?_, round hquot hexact herr⟩
  have hround : PyFloat.rounded (.fin xs.length) = .fin (nearest xs.length) := rounded_fin hlength
  simp only [Arithmetic.divLength, Arithmetic.double, hround]

end Approx

/-! ## Products of doubles

A product of floats at most one stays below its factors, and above a power of two it cannot
underflow. -/

/-- A double from `0` up to `b`. -/
def Below (b : ℚ) (x : PyFloat) : Prop := ∃ d : ℚ, x = .fin d ∧ nearest d = d ∧ 0 ≤ d ∧ d ≤ b

/-- A further factor does not raise a product. -/
theorem Below.mul (s : Summation) {b k q : ℚ} {x y : PyFloat} (hx : Below b x) (hb : b ≤ 1)
    (hy : Approx k y q) : Below b ((Arithmetic.double s).mul x y) := by
  obtain ⟨d, rfl, hdouble, hnonneg, hle⟩ := hx
  obtain ⟨e, rfl, he, -⟩ := hy.float
  have hprod : 0 ≤ d * e := mul_nonneg hnonneg he.1
  have hshrink : d * e ≤ d := mul_le_of_le_one_right hnonneg he.2
  refine ⟨nearest (d * e), rounded_fin_of_le_two hprod (by linarith), nearest_nearest _,
    nearest_nonneg hprod, ?_⟩
  -- `d` is a double, so the rounded product does not pass it
  calc nearest (d * e) ≤ nearest d := nearest_mono hprod hshrink
    _ = d := hdouble
    _ ≤ b := hle

/-- A float from `2 ^ n` up to `1`. -/
def Above (n : ℤ) (x : PyFloat) : Prop := ∃ d : ℚ, x = .fin d ∧ 2 ^ n ≤ d ∧ d ≤ 1

namespace Above

variable {n m : ℤ} {x y : PyFloat} (s : Summation)

theorem mono (hx : Above n x) (hmn : m ≤ n) : Above m x := by
  obtain ⟨d, hd, hlow, hhigh⟩ := hx
  exact ⟨d, hd, (zpow_le_zpow_right₀ one_le_two hmn).trans hlow, hhigh⟩

theorem one : Above 0 (.fin 1) := ⟨1, rfl, by rw [zpow_zero], le_rfl⟩

/-- Rounding keeps a float above a power of two that is a double. -/
theorem round {d : ℚ} (hlow : 2 ^ n ≤ d) (hhigh : d ≤ 1) (hn : -1022 ≤ n) :
    Above n (PyFloat.rounded (.fin d)) := by
  have hpos : 0 ≤ d := (zpow_pos two_pos n).le.trans hlow
  exact ⟨nearest d, rounded_fin_of_le_two hpos (by linarith), zpow_le_nearest hlow hn,
    (nearest_unit hpos hhigh).2⟩

theorem mul (hx : Above n x) (hy : Above m y) (hnm : -1022 ≤ n + m) :
    Above (n + m) ((Arithmetic.double s).mul x y) := by
  obtain ⟨d, rfl, hd, hd1⟩ := hx
  obtain ⟨e, rfl, he, he1⟩ := hy
  have hepos : 0 ≤ e := (zpow_pos two_pos m).le.trans he
  refine round ?_ (mul_le_one₀ hd1 hepos he1) hnm
  rw [zpow_add₀ two_ne_zero]
  exact mul_le_mul hd he (zpow_pos two_pos m).le ((zpow_pos two_pos n).le.trans hd)

theorem literal {q : ℚ} (hlow : 2 ^ n ≤ q) (hhigh : q ≤ 1) (hn : -1022 ≤ n) :
    Above n ((Arithmetic.double s).literal q) := round hlow hhigh hn

/-- What is near a number is not far below it. -/
theorem of_approx {k q : ℚ} (h : Approx k x q) (hlow : 2 ^ n ≤ q - k * roundoff) : Above n x := by
  obtain ⟨d, rfl, hd, herr⟩ := h.float
  exact ⟨d, rfl, by linarith [(abs_le.mp herr).1], hd.2⟩

/-- The complement of a product with a half or less. -/
theorem complement_mul {k q c : ℚ} (hx : Approx k x q) (hc : 0 ≤ c ∧ c ≤ 1 / 2) :
    Above (-1) ((Arithmetic.double s).sub (.fin 1) ((Arithmetic.double s).mul x (.fin c))) := by
  obtain ⟨d, rfl, hd, -⟩ := hx.float
  have hprod : 0 ≤ d * c := mul_nonneg hd.1 hc.1
  have hhalf : d * c ≤ 1 / 2 := (mul_le_of_le_one_left hc.1 hd.2).trans hc.2
  have hfixed : nearest (1 / 2) = 1 / 2 := nearest_of_grid (m := 1) (j := -1) (by norm_num)
    (by norm_num) (by omega)
  have hle : nearest (d * c) ≤ 1 / 2 := (nearest_mono hprod hhalf).trans_eq hfixed
  have hproduct : (Arithmetic.double s).mul (.fin d) (.fin c) = .fin (nearest (d * c)) :=
    rounded_fin_of_le_two hprod (by linarith)
  rw [hproduct, Arithmetic.sub, fin_sub_fin]
  refine round ?_ (by linarith [nearest_nonneg hprod]) (by omega)
  rw [zpow_neg_one]
  linarith

end Above

/-! ## Summation from the left

`sum()` of a list of floats. A partial sum of `k` numbers of the unit interval is at most `k`, and
at most `2 ^ 53`, where one more no longer changes it. -/

/-- A sum of `k` numbers up to `1` does not pass `2 ^ 53`, where adding one is lost. -/
theorem nearest_add_le {t x : ℚ} {k : ℕ} (ht : 0 ≤ t) (htk : t ≤ ((min k (2 ^ 53) : ℕ) : ℚ))
    (hx : 0 ≤ x ∧ x ≤ 1) : nearest (t + x) ≤ ((min (k + 1) (2 ^ 53) : ℕ) : ℚ) := by
  have hnonneg : 0 ≤ t + x := add_nonneg ht hx.1
  rcases Nat.lt_or_ge k (2 ^ 53) with hlt | hge
  · -- `k + 1` is a double and bounds the sum
    have hsum : t + x ≤ ((k + 1 : ℕ) : ℤ) := by
      have htk' : t ≤ k := htk.trans (Nat.cast_le.mpr (min_le_left _ _))
      push_cast
      linarith [hx.2]
    have hint : nearest ((k + 1 : ℕ) : ℤ) = ((k + 1 : ℕ) : ℤ) := by
      apply nearest_int
      rw [Nat.abs_cast]
      exact_mod_cast hlt
    rw [min_eq_left (by omega)]
    calc nearest (t + x) ≤ nearest ((k + 1 : ℕ) : ℤ) := nearest_mono hnonneg hsum
      _ = ((k + 1 : ℕ) : ℚ) := by rw [hint, Int.cast_natCast]
  · -- at the top a tie goes to the even `2 ^ 53`
    have hsum : t + x ≤ 2 ^ (53 : ℤ) + 2 ^ ((53 : ℤ) - 53) := by
      have htop : t ≤ (2 ^ 53 : ℕ) := htk.trans (Nat.cast_le.mpr (min_le_right _ _))
      push_cast at htop
      rw [sub_self, zpow_zero]
      have hpow : (2 : ℚ) ^ (53 : ℤ) = 2 ^ 53 := by norm_cast
      linarith [hx.2]
    have hle := nearest_le_zpow_of_le hnonneg hsum (by omega)
    rw [min_eq_right (by omega)]
    exact_mod_cast hle

/-- `t` is what rounding makes of the sum `total` of `k` numbers up to `1`. -/
structure PartialSum (t total : ℚ) (k : ℕ) : Prop where
  nonneg : 0 ≤ t
  le : t ≤ ((min k (2 ^ 53) : ℕ) : ℚ)
  error : |t - total| ≤ k ^ 2 * roundoff

theorem PartialSum.add {t total x : ℚ} {k : ℕ} (h : PartialSum t total k) (hx : 0 ≤ x ∧ x ≤ 1) :
    PartialSum (nearest (t + x)) (total + x) (k + 1) where
  nonneg := nearest_nonneg (add_nonneg h.nonneg hx.1)
  le := nearest_add_le h.nonneg h.le hx
  error := by
    have htk : t ≤ k := h.le.trans (Nat.cast_le.mpr (min_le_left _ _))
    have hsum : |t + x| ≤ k + 1 := by
      rw [abs_of_nonneg (add_nonneg h.nonneg hx.1)]
      linarith [hx.2]
    have hone : (2 : ℚ) ^ (-1021 : ℤ) ≤ k + 1 := by
      have hpow : (2 : ℚ) ^ (-1021 : ℤ) ≤ 1 := zpow_le_one_of_nonpos₀ one_le_two (by omega)
      have hk : (0 : ℚ) ≤ k := Nat.cast_nonneg k
      linarith
    -- rounding this sum costs `k + 1` roundoffs, and `k ^ 2` were lost before
    have hround : |nearest (t + x) - (t + x)| ≤ (k + 1) * roundoff :=
      abs_nearest_sub_le_mul hsum hone
    have htriangle := abs_sub_le (nearest (t + x)) (t + x) (total + x)
    rw [add_sub_add_right_eq_sub] at htriangle
    have herror := h.error
    have hk : 0 ≤ (k : ℚ) * roundoff := mul_nonneg (Nat.cast_nonneg k) roundoff_pos.le
    push_cast
    calc |nearest (t + x) - (total + x)| ≤ (k + 1) * roundoff + k ^ 2 * roundoff := by linarith
      _ ≤ (k + 1) ^ 2 * roundoff := by linarith

/-- The loop, from any partial sum. -/
theorem PartialSum.foldl {xs : List ℚ} (hxs : ∀ x ∈ xs, 0 ≤ x ∧ x ≤ 1) {t total : ℚ} {k : ℕ}
    (h : PartialSum t total k) :
    PartialSum (xs.foldl (fun acc x => nearest (acc + x)) t) (total + xs.sum) (k + xs.length) := by
  induction xs generalizing t total k with
  | nil => simpa using h
  | cons x rest ih =>
    have hrest := ih (fun y hy => hxs y (List.mem_cons_of_mem x hy))
      (h.add (hxs x List.mem_cons_self))
    rw [List.foldl_cons, List.sum_cons, List.length_cons, ← add_assoc, add_comm rest.length,
      ← add_assoc]
    exact hrest

/-- Summation from the left, every sum rounded as it is formed. -/
def sumFromLeft (xs : List ℚ) : ℚ := xs.foldl (fun acc x => nearest (acc + x)) 0

theorem sumFromLeft_rounds {xs : List ℚ} (hxs : ∀ x ∈ xs, 0 ≤ x ∧ x ≤ 1) :
    PartialSum (sumFromLeft xs) xs.sum xs.length := by
  have hzero : PartialSum 0 0 0 := ⟨le_rfl, by simp, by simp⟩
  have hsum := hzero.foldl hxs
  rwa [zero_add, zero_add] at hsum

/-- The summation of the interpreter. -/
def Summation.leftToRight : Summation where
  sum := sumFromLeft
  nonneg _ hxs := (sumFromLeft_rounds hxs).nonneg
  le_length xs hxs := by
    refine (sumFromLeft_rounds hxs).le.trans ?_
    have hint : nearest ((min xs.length (2 ^ 53) : ℕ) : ℤ) = ((min xs.length (2 ^ 53) : ℕ) : ℤ) := by
      apply nearest_int
      rw [Nat.abs_cast]
      exact_mod_cast min_le_right _ _
    rw [Int.cast_natCast] at hint
    rw [← hint]
    exact nearest_mono (Nat.cast_nonneg _) (Nat.cast_le.mpr (min_le_left _ _))
  error xs hxs := by
    refine (sumFromLeft_rounds hxs).error.trans ?_
    have hpos : 0 ≤ (xs.length : ℚ) ^ 2 * roundoff := mul_nonneg (by positivity) roundoff_pos.le
    linarith

end Ragcore
