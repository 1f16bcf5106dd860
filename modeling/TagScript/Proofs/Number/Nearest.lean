import Mathlib.Algebra.Order.Field.Basic
import Mathlib.Data.Rat.Cast.Order
import Mathlib.Tactic.FieldSimp
import Mathlib.Tactic.Linarith
import Mathlib.Tactic.Positivity
import Mathlib.Tactic.Ring
import TagScript.Number.Numeral

/-!
# Rounding to the nearest double

A positive quotient is rounded to the double whose interval it lies in. Just below a power of two
the rounding starts from the smaller exponent and carries into the next.
-/

namespace TagScript.Binary64

lemma twoTo_eq (n : Nat) : twoTo n = 2 ^ n := rfl

lemma tenTo_eq (n : Nat) : tenTo n = 10 ^ n := rfl

/-- Mantissa and exponent as a finite double has them. -/
structure Parts.Canonical (p : Parts) : Prop where
  mantissa : p.mantissa < 2 ^ 53
  least : -1074 ≤ p.exponent
  greatest : p.exponent ≤ 971
  full : 2 ^ 52 ≤ p.mantissa ∨ p.exponent = -1074

def Parts.size (p : Parts) : ℚ := p.mantissa * 2 ^ p.exponent

def Parts.quarter (p : Parts) : ℚ := 2 ^ (p.exponent - 2)

def Parts.Attracts (p : Parts) (q : ℚ) : Prop :=
  (interval p).low * p.quarter ≤ q ∧ q ≤ (interval p).high * p.quarter ∧
    ((interval p).closed = false → (interval p).low * p.quarter < q ∧ q < (interval p).high * p.quarter)

/-! ## Quotients -/

variable {num den : Nat}

lemma scaled_pos (positive : 0 < den) (exponent : Int) : 0 < (scaled num den exponent).2 := by
  unfold scaled
  split
  · exact Nat.mul_pos positive (Nat.pow_pos (by decide))
  · exact positive

lemma scaled_div (positive : 0 < den) (exponent : Int) :
    ((scaled num den exponent).1 : ℚ) / (scaled num den exponent).2 = num / den / 2 ^ exponent := by
  have nonzero : (den : ℚ) ≠ 0 := by exact_mod_cast ne_of_gt positive
  unfold scaled
  split
  · rename_i up
    obtain ⟨n, rfl⟩ := Int.eq_ofNat_of_zero_le up
    simp only [Int.toNat_natCast, twoTo_eq, zpow_natCast]
    push_cast
    rw [div_div]
  · rename_i down
    obtain ⟨n, rfl⟩ := Int.eq_negSucc_of_lt_zero (Int.not_le.mp down)
    simp only [Int.natAbs_negSucc, twoTo_eq, zpow_negSucc]
    push_cast
    field_simp

lemma divideNearest_eq {n d k : Nat} (positive : 0 < d) (low : 2 * (k * d) ≤ 2 * n + d)
    (high : 2 * n ≤ 2 * (k * d) + d) (even : 2 * (k * d) = 2 * n + d ∨ 2 * n = 2 * (k * d) + d → k % 2 = 0) :
    divideNearest n d = k := by
  have division := Nat.div_add_mod n d
  have rest := Nat.mod_lt n positive
  have notAbove : n / d ≤ k := by
    by_contra above
    have := Nat.mul_le_mul_right d (Nat.lt_of_not_le above)
    rw [Nat.succ_mul, mul_comm (n / d)] at this
    omega
  have notBelow : k ≤ n / d + 1 := by
    by_contra below
    have := Nat.mul_le_mul_right d (Nat.lt_of_not_le below)
    rw [Nat.succ_mul, Nat.succ_mul, mul_comm (n / d)] at this
    omega
  unfold divideNearest
  rcases lt_or_ge k (n / d + 1) with here | next
  · obtain rfl : k = n / d := by omega
    rw [mul_comm (n / d) d] at low high even
    have round : ¬ ((decide (2 * (n % d) > d) || (decide (2 * (n % d) = d) && decide (n / d % 2 = 1))) = true) := by
      simp only [Bool.or_eq_true, Bool.and_eq_true, decide_eq_true_eq]
      omega
    rw [if_neg round]
  · obtain rfl : k = n / d + 1 := by omega
    rw [show (n / d + 1) * d = d * (n / d) + d by rw [Nat.succ_mul, mul_comm]] at low high even
    have round : (decide (2 * (n % d) > d) || (decide (2 * (n % d) = d) && decide (n / d % 2 = 1))) = true := by
      simp only [Bool.or_eq_true, Bool.and_eq_true, decide_eq_true_eq]
      omega
    rw [if_pos round]

/-! ## The exponent -/

/-- The exponent at which a positive number has a full mantissa, or the least one of all. -/
structure Fits (q : ℚ) (e : Int) : Prop where
  least : -1074 ≤ e
  below : q < 2 ^ 53 * 2 ^ e
  full : 2 ^ 52 * 2 ^ e ≤ q ∨ e = -1074

lemma two_zpow_pos (e : Int) : (0 : ℚ) < 2 ^ e := zpow_pos (by norm_num) e

lemma two_zpow_shift (n : Nat) (e : Int) : (2 : ℚ) ^ n * 2 ^ e = 2 ^ (e + n) := by
  rw [zpow_add₀ (by norm_num), zpow_natCast, mul_comm]

lemma Fits.unique {q : ℚ} {e f : Int} (one : Fits q e) (other : Fits q f) : e = f := by
  have noneAbove : ∀ {e f : Int}, Fits q e → Fits q f → ¬ e < f := by
    intro e f one other above
    rcases other.full with full | least
    · have steps : (2 : ℚ) ^ 53 * 2 ^ e ≤ 2 ^ 52 * 2 ^ f := by
        rw [two_zpow_shift, two_zpow_shift]
        exact zpow_le_zpow_right₀ (by norm_num) (by push_cast; omega)
      exact absurd (steps.trans full) (not_le.mpr one.below)
    · have := one.least
      omega
  rcases lt_trichotomy e f with below | same | above
  · exact absurd below (noneAbove one other)
  · exact same
  · exact absurd above (noneAbove other one)

lemma quotient_between (positive : 0 < num) (proper : 0 < den) :
    (2 : ℚ) ^ ((num.log2 : Int) - den.log2 - 1) < num / den ∧
      (num : ℚ) / den < 2 ^ ((num.log2 : Int) - den.log2 + 1) := by
  have numLow : (2 : ℚ) ^ num.log2 ≤ num := by exact_mod_cast Nat.log2_self_le (ne_of_gt positive)
  have numHigh : (num : ℚ) < 2 ^ (num.log2 + 1) := by exact_mod_cast Nat.lt_log2_self
  have denLow : (2 : ℚ) ^ den.log2 ≤ den := by exact_mod_cast Nat.log2_self_le (ne_of_gt proper)
  have denHigh : (den : ℚ) < 2 ^ (den.log2 + 1) := by exact_mod_cast Nat.lt_log2_self
  have denPos : (0 : ℚ) < den := by exact_mod_cast proper
  constructor
  · rw [lt_div_iff₀ denPos]
    calc (2 : ℚ) ^ ((num.log2 : Int) - den.log2 - 1) * den
        < 2 ^ ((num.log2 : Int) - den.log2 - 1) * 2 ^ (den.log2 + 1) :=
          mul_lt_mul_of_pos_left denHigh (two_zpow_pos _)
      _ = 2 ^ num.log2 := by
          rw [← zpow_natCast, ← zpow_natCast, ← zpow_add₀ (by norm_num)]
          congr 1
          push_cast
          ring
      _ ≤ num := numLow
  · rw [div_lt_iff₀ denPos]
    calc (num : ℚ) < 2 ^ (num.log2 + 1) := numHigh
      _ = 2 ^ ((num.log2 : Int) - den.log2 + 1) * 2 ^ den.log2 := by
          rw [← zpow_natCast, ← zpow_natCast, ← zpow_add₀ (by norm_num)]
          congr 1
          push_cast
          ring
      _ ≤ 2 ^ ((num.log2 : Int) - den.log2 + 1) * den :=
          mul_le_mul_of_nonneg_left denLow (two_zpow_pos _).le

lemma scaled_lt_twoTo (proper : 0 < den) (e : Int) (n : Nat) :
    (scaled num den e).1 / (scaled num den e).2 < twoTo n ↔ (num : ℚ) / den < 2 ^ n * 2 ^ e := by
  have positive := @scaled_pos num _ proper e
  have exact := @scaled_div num _ proper e
  rw [twoTo_eq, Nat.div_lt_iff_lt_mul positive, ← div_lt_iff₀ (two_zpow_pos e), ← exact,
    div_lt_iff₀ (by exact_mod_cast positive)]
  exact_mod_cast Iff.rfl

lemma exponentFor_fits (positive : 0 < num) (proper : 0 < den) : Fits (num / den) (exponentFor num den) := by
  obtain ⟨low, high⟩ := quotient_between positive proper
  have compared := @scaled_lt_twoTo num _ proper (max ((num.log2 : Int) - den.log2 - 52) (-1074)) 52
  unfold exponentFor
  simp only []
  generalize guessed : max ((num.log2 : Int) - den.log2 - 52) (-1074) = guess at compared
  have enough : (num : ℚ) / den < 2 ^ 53 * 2 ^ guess := by
    refine high.trans_le ?_
    rw [two_zpow_shift]
    exact zpow_le_zpow_right₀ (by norm_num) (by push_cast; omega)
  by_cases small : (scaled num den guess).1 / (scaled num den guess).2 < twoTo 52
  · by_cases above : guess > -1074
    · rw [if_pos (by simp [small, above])]
      refine ⟨by omega, ?_, Or.inl ?_⟩
      · refine (compared.mp small).trans_eq ?_
        rw [two_zpow_shift, two_zpow_shift]
        congr 1
        ring
      · refine le_trans ?_ low.le
        rw [two_zpow_shift]
        exact zpow_le_zpow_right₀ (by norm_num) (by push_cast; omega)
    · rw [if_neg (by simp [above])]
      exact ⟨by omega, enough, Or.inr (by omega)⟩
  · rw [if_neg (by simp [small])]
    exact ⟨by omega, enough, Or.inl (not_lt.mp fun below => small (compared.mpr below))⟩

/-! ## The nearest double -/

lemma Parts.quarter_eq (p : Parts) : 4 * p.quarter = 2 ^ p.exponent := by
  unfold Parts.quarter
  rw [show (4 : ℚ) = 2 ^ (2 : Int) by norm_num, ← zpow_add₀ (by norm_num)]
  congr 1
  ring

lemma divideNearest_scaled {num den k : Nat} (proper : 0 < den) {e : Int}
    (low : (2 * k - 1 : ℚ) * 2 ^ e ≤ 2 * (num / den)) (high : 2 * ((num : ℚ) / den) ≤ (2 * k + 1) * 2 ^ e)
    (even : (2 * k - 1 : ℚ) * 2 ^ e = 2 * (num / den) ∨ 2 * ((num : ℚ) / den) = (2 * k + 1) * 2 ^ e → k % 2 = 0) :
    divideNearest (scaled num den e).1 (scaled num den e).2 = k := by
  have positive := @scaled_pos num _ proper e
  have exact := @scaled_div num _ proper e
  generalize (scaled num den e).1 = n at exact ⊢
  generalize (scaled num den e).2 = d at exact positive ⊢
  have dPos : (0 : ℚ) < d := by exact_mod_cast positive
  have unit := two_zpow_pos e
  have quotient : (num : ℚ) / den = n / d * 2 ^ e := by rw [exact]; field_simp
  rw [quotient] at low high even
  have scale : 2 * ((n : ℚ) / d * 2 ^ e) = (2 * n) / d * 2 ^ e := by ring
  rw [scale] at low high even
  have low' : (2 * k - 1 : ℚ) * d ≤ 2 * n := by
    rw [← le_div_iff₀ dPos]
    exact le_of_mul_le_mul_right low unit
  have high' : (2 * n : ℚ) ≤ (2 * k + 1) * d := by
    rw [← div_le_iff₀ dPos]
    exact le_of_mul_le_mul_right high unit
  refine divideNearest_eq positive ?_ ?_ fun tie => even ?_
  · have : (2 * (k * d) : ℚ) ≤ 2 * n + d := by linarith
    exact_mod_cast this
  · have : (2 * n : ℚ) ≤ 2 * (k * d) + d := by linarith
    exact_mod_cast this
  · rcases tie with tie | tie
    · left
      have : (2 * (k * d) : ℚ) = 2 * n + d := by exact_mod_cast tie
      have : (2 * k - 1 : ℚ) = 2 * n / d := by
        rw [eq_div_iff dPos.ne']
        linarith
      rw [this]
    · right
      have : (2 * n : ℚ) = 2 * (k * d) + d := by exact_mod_cast tie
      have : (2 * n / d : ℚ) = 2 * k + 1 := by
        rw [div_eq_iff dPos.ne']
        linarith
      rw [this]

lemma interval_low (p : Parts) :
    (p.mantissa = 2 ^ 52 ∧ -1074 < p.exponent ∧ (interval p).low = 4 * p.mantissa - 1) ∨
      (¬ (p.mantissa = 2 ^ 52 ∧ -1074 < p.exponent) ∧ (interval p).low = 4 * p.mantissa - 2) := by
  by_cases narrow : p.mantissa = 2 ^ 52 ∧ -1074 < p.exponent
  · exact Or.inl ⟨narrow.1, narrow.2, by simp [interval, twoTo_eq, narrow.1, narrow.2]⟩
  · refine Or.inr ⟨narrow, ?_⟩
    have wide : ¬ ((decide (p.mantissa = twoTo 52) && decide (p.exponent > -1074)) = true) := by
      simp only [Bool.and_eq_true, decide_eq_true_eq]
      exact narrow
    simp only [interval, if_neg wide]

lemma interval_closed (p : Parts) : (interval p).closed = decide (p.mantissa % 2 = 0) := rfl

lemma interval_high (p : Parts) : (interval p).high = 4 * p.mantissa + 2 := rfl

lemma Parts.quarter_pos (p : Parts) : 0 < p.quarter := two_zpow_pos _

section

variable {p : Parts} {q : ℚ} {num den : Nat}

lemma Parts.Attracts.half (attracts : p.Attracts q) (positive : 0 < p.mantissa) :
    (2 * p.mantissa - 1 : ℚ) * 2 ^ p.exponent ≤ 2 * q ∧ 2 * q ≤ (2 * p.mantissa + 1) * 2 ^ p.exponent ∧
      ((2 * p.mantissa - 1 : ℚ) * 2 ^ p.exponent = 2 * q ∨ 2 * q = (2 * p.mantissa + 1) * 2 ^ p.exponent →
        p.mantissa % 2 = 0) := by
  obtain ⟨low, high, odd⟩ := attracts
  have unit := p.quarter_pos
  rw [← p.quarter_eq]
  rw [interval_high] at high odd
  have least : (4 * p.mantissa - 2 : ℚ) ≤ (interval p).low := by
    have : 4 * p.mantissa ≤ (interval p).low + 2 := by
      rcases interval_low p with ⟨_, _, same⟩ | ⟨_, same⟩ <;> omega
    have : (4 * p.mantissa : ℚ) ≤ (interval p).low + 2 := by exact_mod_cast this
    linarith
  have least' := mul_le_mul_of_nonneg_right least unit.le
  push_cast at high odd
  refine ⟨by linarith, by linarith, fun tie => ?_⟩
  by_contra notEven
  obtain ⟨above, below⟩ := odd (by rw [interval_closed]; simp [notEven])
  rcases tie with tie | tie
  · linarith
  · linarith

lemma nearestBits_eq (canonical : p.Canonical) (positive : 0 < p.mantissa) (num_pos : 0 < num)
    (den_pos : 0 < den) (attracts : p.Attracts (num / den)) :
    nearestBits num den = (p.exponent + 1074).toNat * 2 ^ 52 + p.mantissa := by
  have fits := exponentFor_fits num_pos den_pos
  obtain ⟨halfLow, halfHigh, halfEven⟩ := attracts.half positive
  obtain ⟨low, high, _⟩ := attracts
  have unit := p.quarter_pos
  have quarter := p.quarter_eq
  have mantissa := canonical.mantissa
  have least := canonical.least
  have greatest := canonical.greatest
  have mantissa' : (p.mantissa : ℚ) + 1 ≤ 2 ^ 53 := by exact_mod_cast mantissa
  unfold nearestBits
  simp only []
  by_cases here : 2 ^ 52 * 2 ^ p.exponent ≤ (num : ℚ) / den ∨ p.exponent = -1074
  · have own : Fits ((num : ℚ) / den) p.exponent := by
      refine ⟨least, ?_, here⟩
      nlinarith
    rw [fits.unique own, divideNearest_scaled den_pos halfLow halfHigh halfEven, twoTo_eq]
    refine min_eq_left ?_
    omega
  · -- Just below a power of two: the exponent is one less, and the mantissa is rounded up to the full power.
    obtain ⟨below, inner⟩ := not_or.mp here
    have below := not_le.mp below
    have full := canonical.full.resolve_right inner
    have lowest : (interval p).low < 4 * 2 ^ 52 := by
      have : ((interval p).low : ℚ) * p.quarter < 4 * 2 ^ 52 * p.quarter := by linarith
      exact_mod_cast lt_of_mul_lt_mul_right this unit.le
    obtain ⟨power, _, exact⟩ : p.mantissa = 2 ^ 52 ∧ -1074 < p.exponent ∧
        (interval p).low = 4 * p.mantissa - 1 := by
      rcases interval_low p with narrow | ⟨wide, same⟩
      · exact narrow
      · omega
    have half : (2 : ℚ) ^ (p.exponent - 1) = 2 * p.quarter := by
      rw [Parts.quarter, show p.exponent - 1 = (p.exponent - 2) + 1 by ring, zpow_add₀ (by norm_num)]
      ring
    rw [exact, power] at low
    have own : Fits ((num : ℚ) / den) (p.exponent - 1) := by
      refine ⟨by omega, ?_, Or.inl ?_⟩
      · linarith
      · linarith
    have rounded : divideNearest (scaled num den (p.exponent - 1)).1 (scaled num den (p.exponent - 1)).2 =
        2 ^ 53 := by
      refine divideNearest_scaled den_pos ?_ ?_ fun _ => by decide
      · linarith
      · linarith
    rw [fits.unique own, rounded, twoTo_eq, power]
    refine (min_eq_left ?_).trans ?_
    · omega
    · omega

end

end TagScript.Binary64
