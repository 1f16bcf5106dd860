import TagScript.Proofs.Number.Nearest

/-!
# The shortest decimal of a double

The decimal that is found lies in the interval of the double. The search ends at seventeen digits,
where the steps of the grid are less than the interval is wide to either side.
-/

namespace TagScript.Binary64

open Int

def Decimal.value (d : Decimal) : ℚ := d.digits * 10 ^ d.exponent

lemma ten_zpow_pos (e : Int) : (0 : ℚ) < 10 ^ e := zpow_pos (by norm_num) e

/-! ## The power of ten -/

lemma ten_zpow_le_two_zpow {a b : Int} (high : 0 ≤ a → 196 * a ≤ 59 * b) (low : a < 0 → 93 * a ≤ 28 * b) :
    (10 : ℚ) ^ a ≤ 2 ^ b := by
  rcases lt_or_ge a 0 with down | up
  · have steps : (10 : ℚ) ^ (28 * a) ≤ 2 ^ (28 * b) := by
      calc (10 : ℚ) ^ (28 * a) = ((10 ^ (28 : Int)) ^ (-a))⁻¹ := by rw [zpow_mul, zpow_neg, inv_inv]
        _ ≤ ((2 ^ (93 : Int)) ^ (-a))⁻¹ :=
          inv_anti₀ (zpow_pos (by norm_num) _) (zpow_le_zpow_left₀ (by omega) (by norm_num) (by norm_num))
        _ = 2 ^ (93 * a) := by rw [zpow_neg, inv_inv, zpow_mul]
        _ ≤ 2 ^ (28 * b) := zpow_le_zpow_right₀ (by norm_num) (low down)
    rw [mul_comm, zpow_mul, mul_comm, zpow_mul] at steps
    exact (pow_le_pow_iff_left₀ (ten_zpow_pos a).le (two_zpow_pos b).le (by decide : 28 ≠ 0)).mp
      (by exact_mod_cast steps)
  · have steps : (10 : ℚ) ^ (59 * a) ≤ 2 ^ (59 * b) := by
      calc (10 : ℚ) ^ (59 * a) = (10 ^ (59 : Int)) ^ a := zpow_mul _ _ _
        _ ≤ (2 ^ (196 : Int)) ^ a := zpow_le_zpow_left₀ up (by positivity) (by norm_num)
        _ = 2 ^ (196 * a) := (zpow_mul _ _ _).symm
        _ ≤ 2 ^ (59 * b) := zpow_le_zpow_right₀ (by norm_num) (high up)
    rw [mul_comm, zpow_mul, mul_comm, zpow_mul] at steps
    exact (pow_le_pow_iff_left₀ (ten_zpow_pos a).le (two_zpow_pos b).le (by decide : 59 ≠ 0)).mp
      (by exact_mod_cast steps)

lemma two_zpow_le_ten_zpow {a b : Int} (low : a ≤ 0 → 59 * b ≤ 196 * a) (high : 0 < a → 28 * b ≤ 93 * a) :
    (2 : ℚ) ^ b ≤ 10 ^ a := by
  have turned : (10 : ℚ) ^ (-a) ≤ 2 ^ (-b) := ten_zpow_le_two_zpow (fun _ => by omega) (fun _ => by omega)
  rw [zpow_neg, zpow_neg] at turned
  exact (inv_le_inv₀ (ten_zpow_pos a) (two_zpow_pos b)).mp turned

lemma powerAtMost_iff {num den : Nat} (proper : 0 < den) (power : Int) :
    powerAtMost power num den = true ↔ (10 : ℚ) ^ power ≤ num / den := by
  have denPos : (0 : ℚ) < den := by exact_mod_cast proper
  unfold powerAtMost
  rw [le_div_iff₀ denPos]
  split <;> rw [decide_eq_true_eq]
  · rename_i up
    obtain ⟨n, rfl⟩ := eq_ofNat_of_zero_le up
    exact_mod_cast Iff.rfl
  · rename_i down
    obtain ⟨n, rfl⟩ := eq_negSucc_of_lt_zero (Int.not_le.mp down)
    simp only [natAbs_negSucc, tenTo_eq, zpow_negSucc]
    rw [inv_mul_le_iff₀ (by positivity), mul_comm]
    exact_mod_cast Iff.rfl

/-- The power of ten that is found is the greatest one at most the quotient, for quotients of the
size of doubles. -/
lemma decimalExponent_spec {num den : Nat} (positive : 0 < num) (proper : 0 < den)
    (small : (num : ℚ) / den < 2 ^ (1024 : Int)) (large : (2 : ℚ) ^ (-1074 : Int) ≤ num / den) :
    (10 : ℚ) ^ decimalExponent num den ≤ num / den ∧ (num : ℚ) / den < 10 ^ (decimalExponent num den + 1) := by
  obtain ⟨low, high⟩ := quotient_between positive proper
  have most := (zpow_lt_zpow_iff_right₀ (by norm_num : (1 : ℚ) < 2)).mp (low.trans small)
  have least := (zpow_lt_zpow_iff_right₀ (by norm_num : (1 : ℚ) < 2)).mp (large.trans_lt high)
  have next := @powerAtMost_iff num _ proper (((num.log2 : Int) - den.log2) * 30103 / 100000 + 1)
  have here := @powerAtMost_iff num _ proper (((num.log2 : Int) - den.log2) * 30103 / 100000)
  unfold decimalExponent
  simp only []
  generalize (num.log2 : Int) - den.log2 = k at low high most least next here ⊢
  have above : (num : ℚ) / den < 10 ^ (k * 30103 / 100000 + 2) :=
    high.trans_le (two_zpow_le_ten_zpow (fun _ => by omega) (fun _ => by omega))
  have below : (10 : ℚ) ^ (k * 30103 / 100000 - 1) ≤ num / den :=
    (ten_zpow_le_two_zpow (fun _ => by omega) (fun _ => by omega)).trans low.le
  generalize k * 30103 / 100000 = guess at next here above below ⊢
  split_ifs with first second
  · exact ⟨next.mp first, by rw [show guess + 1 + 1 = guess + 2 by ring]; exact above⟩
  · exact ⟨here.mp second, not_le.mp fun holds => first (next.mpr holds)⟩
  · exact ⟨below, by rw [sub_add_cancel]; exact not_le.mp fun holds => second (here.mpr holds)⟩

/-! ## One grid -/

lemma quarterIn_pos (exponent grid : Int) : 0 < (quarterIn exponent grid).1 ∧ 0 < (quarterIn exponent grid).2 := by
  have base : 0 < (scaled 1 1 (2 - exponent)).1 := by
    unfold scaled
    split
    · exact Nat.one_pos
    · exact Nat.mul_pos Nat.one_pos (Nat.pow_pos (by decide))
  have unit := @scaled_pos 1 _ Nat.one_pos (2 - exponent)
  unfold quarterIn
  dsimp only
  split
  · exact ⟨base, Nat.mul_pos unit (Nat.pow_pos (by decide))⟩
  · exact ⟨Nat.mul_pos base (Nat.pow_pos (by decide)), unit⟩

lemma quarterIn_div (p : Parts) (grid : Int) :
    ((quarterIn p.exponent grid).1 : ℚ) / (quarterIn p.exponent grid).2 = p.quarter / 10 ^ grid := by
  have base := @scaled_div 1 _ Nat.one_pos (2 - p.exponent)
  have unit : ((scaled 1 1 (2 - p.exponent)).2 : ℚ) ≠ 0 := by
    exact_mod_cast ne_of_gt (@scaled_pos 1 _ Nat.one_pos (2 - p.exponent))
  have quarter : p.quarter = ((1 : Nat) : ℚ) / (1 : Nat) / 2 ^ (2 - p.exponent) := by
    unfold Parts.quarter
    rw [show p.exponent - 2 = -(2 - p.exponent) by ring, zpow_neg]
    norm_num
  rw [quarter, ← base]
  unfold quarterIn
  dsimp only
  split
  · rename_i up
    obtain ⟨n, rfl⟩ := eq_ofNat_of_zero_le up
    simp only [toNat_natCast, tenTo_eq, zpow_natCast]
    push_cast
    rw [div_div]
  · rename_i down
    obtain ⟨n, rfl⟩ := eq_negSucc_of_lt_zero (Int.not_le.mp down)
    simp only [natAbs_negSucc, tenTo_eq, zpow_negSucc]
    push_cast
    field_simp

section

variable {i : Interval} {n d u : Nat}

lemma Interval.holds_iff (proper : 0 < d) :
    i.holds n d u = true ↔
      (i.low * ((n : ℚ) / d) ≤ u ∧ u ≤ i.high * ((n : ℚ) / d)) ∧
        (i.closed = false → i.low * ((n : ℚ) / d) < u ∧ u < i.high * ((n : ℚ) / d)) := by
  have dPos : (0 : ℚ) < d := by exact_mod_cast proper
  rw [← mul_div_assoc, ← mul_div_assoc, div_le_iff₀ dPos, le_div_iff₀ dPos, div_lt_iff₀ dPos, lt_div_iff₀ dPos]
  unfold Interval.holds
  cases i.closed with
  | true =>
    simp only [if_true, Bool.and_eq_true, decide_eq_true_eq, Bool.true_eq_false, false_implies, and_true]
    exact_mod_cast Iff.rfl
  | false =>
    simp only [Bool.false_eq_true, if_false, Bool.and_eq_true, decide_eq_true_eq, true_implies]
    constructor
    · rintro ⟨low, high⟩
      have low : (i.low * n : ℚ) < u * d := by exact_mod_cast low
      have high : (u * d : ℚ) < i.high * n := by exact_mod_cast high
      exact ⟨⟨low.le, high.le⟩, low, high⟩
    · rintro ⟨_, low, high⟩
      exact ⟨by exact_mod_cast low, by exact_mod_cast high⟩

lemma onGrid_some {k : Nat} (found : onGrid i n d = some k) : 0 < k ∧ i.middle * n / d ≤ k ∧ i.holds n d k = true := by
  unfold onGrid at found
  simp only [] at found
  split_ifs at found with both nearer lower upper <;> cases found <;>
    simp only [Bool.and_eq_true, decide_eq_true_eq] at *
  · exact ⟨both.1.1, le_rfl, both.1.2⟩
  · exact ⟨Nat.succ_pos _, Nat.le_succ _, both.2⟩
  · exact ⟨lower.1, le_rfl, lower.2⟩
  · exact ⟨Nat.succ_pos _, Nat.le_succ _, upper⟩

/-- On a grid whose steps are less than twice the way to either end, something is found. -/
lemma onGrid_isSome (proper : 0 < d) (down : 1 < 2 * ((i.middle - i.low) * ((n : ℚ) / d)))
    (up : 1 < 2 * ((i.high - i.middle) * ((n : ℚ) / d))) (large : 1 ≤ i.middle * ((n : ℚ) / d)) :
    (onGrid i n d).isSome = true := by
  have dPos : (0 : ℚ) < d := by exact_mod_cast proper
  have floorLow : ((i.middle * n / d : Nat) : ℚ) ≤ i.middle * ((n : ℚ) / d) := by
    rw [← mul_div_assoc, le_div_iff₀ dPos]
    exact_mod_cast Nat.div_mul_le_self _ _
  have floorHigh : i.middle * ((n : ℚ) / d) < (i.middle * n / d : Nat) + 1 := by
    rw [← mul_div_assoc, div_lt_iff₀ dPos]
    exact_mod_cast (Nat.div_lt_iff_lt_mul proper).mp (Nat.lt_succ_self (i.middle * n / d))
  have belowPos : 0 < i.middle * n / d := by
    have : (0 : ℚ) < (i.middle * n / d : Nat) := by linarith
    exact_mod_cast this
  have hit : i.holds n d (i.middle * n / d) = true ∨ i.holds n d (i.middle * n / d + 1) = true := by
    rw [Interval.holds_iff proper, Interval.holds_iff proper]
    rcases le_total (2 * (i.middle * ((n : ℚ) / d))) (2 * (i.middle * n / d : Nat) + 1) with near | far
    · left
      have low : i.low * ((n : ℚ) / d) < (i.middle * n / d : Nat) := by linarith
      have high : ((i.middle * n / d : Nat) : ℚ) < i.high * ((n : ℚ) / d) := by linarith
      exact ⟨⟨low.le, high.le⟩, fun _ => ⟨low, high⟩⟩
    · right
      push_cast
      have low : i.low * ((n : ℚ) / d) < (i.middle * n / d : Nat) + 1 := by linarith
      have high : ((i.middle * n / d : Nat) : ℚ) + 1 < i.high * ((n : ℚ) / d) := by linarith
      exact ⟨⟨low.le, high.le⟩, fun _ => ⟨low, high⟩⟩
  unfold onGrid
  simp only [belowPos, decide_true, Bool.true_and]
  rcases hit with lower | upper
  · split_ifs <;> rfl
  · split_ifs <;> rfl

end

/-! ## The search -/

lemma Parts.size_eq (p : Parts) : p.size = (interval p).middle * p.quarter := by
  have quarter := p.quarter_eq
  show _ = ((4 * p.mantissa : Nat) : ℚ) * _
  unfold Parts.size
  push_cast
  rw [← quarter]
  ring

variable {p : Parts}

lemma Parts.attracts_size (positive : 0 < p.mantissa) : p.Attracts p.size := by
  have unit := p.quarter_pos
  have low : ((interval p).low : ℚ) < (interval p).middle := by
    have : (interval p).low < 4 * p.mantissa := by
      rcases interval_low p with ⟨_, _, same⟩ | ⟨_, same⟩ <;> omega
    exact_mod_cast this
  have high : ((interval p).middle : ℚ) < (interval p).high := by
    have : 4 * p.mantissa < (interval p).high := by rw [interval_high]; omega
    exact_mod_cast this
  have below := mul_lt_mul_of_pos_right low unit
  have above := mul_lt_mul_of_pos_right high unit
  rw [p.size_eq]
  exact ⟨below.le, above.le, fun _ => ⟨below, above⟩⟩

lemma onGrid_isSome_of_le (bound : p.mantissa < 2 ^ 53) {grid : Int} (large : (10 : ℚ) ^ (grid + 16) ≤ p.size) :
    (onGrid (interval p) (quarterIn p.exponent grid).1 (quarterIn p.exponent grid).2).isSome = true := by
  have steps := quarterIn_div p grid
  have reach : (10 : ℚ) ^ 16 ≤ (interval p).middle * (p.quarter / 10 ^ grid) := by
    rw [← mul_div_assoc, ← p.size_eq, le_div_iff₀ (ten_zpow_pos grid), ← zpow_natCast,
      ← zpow_add₀ (by norm_num), add_comm]
    exact_mod_cast large
  have unit : 0 < p.quarter / 10 ^ grid := div_pos p.quarter_pos (ten_zpow_pos grid)
  rw [← steps] at reach unit
  have middle : ((interval p).middle : ℚ) = 4 * p.mantissa := by
    exact_mod_cast (rfl : (interval p).middle = 4 * p.mantissa)
  have high : ((interval p).high : ℚ) = 4 * p.mantissa + 2 := by exact_mod_cast interval_high p
  have mantissa : (p.mantissa : ℚ) + 1 ≤ 2 ^ 53 := by exact_mod_cast bound
  refine onGrid_isSome (quarterIn_pos p.exponent grid).2 ?_ ?_ ?_
  · rcases interval_low p with ⟨power, _, low⟩ | ⟨_, low⟩
    · have low : ((interval p).low : ℚ) = 4 * 2 ^ 52 - 1 := by rw [low, power]; norm_num
      rw [middle, power] at reach ⊢
      rw [low]
      linarith
    · have low : ((interval p).low : ℚ) ≤ 4 * p.mantissa - 2 := by
        rcases Nat.eq_zero_or_pos p.mantissa with zero | positive
        · rw [middle, zero] at reach
          norm_num at reach
        · have : (interval p).low + 2 ≤ 4 * p.mantissa := by omega
          have : ((interval p).low : ℚ) + 2 ≤ 4 * p.mantissa := by exact_mod_cast this
          linarith
      nlinarith
  · nlinarith
  · exact le_trans (by norm_num) reach

lemma attracts_of_onGrid {grid : Int} {k : Nat}
    (found : onGrid (interval p) (quarterIn p.exponent grid).1 (quarterIn p.exponent grid).2 = some k) :
    0 < k ∧ p.Attracts (k * 10 ^ grid) ∧ ∀ e : Int, (10 : ℚ) ^ e ≤ p.size → (10 : ℚ) ^ e ≤ k * 10 ^ grid := by
  obtain ⟨positive, least, holds⟩ := onGrid_some found
  have proper := (quarterIn_pos p.exponent grid).2
  have unit := ten_zpow_pos grid
  refine ⟨positive, ?_, fun e under => ?_⟩
  · rw [Interval.holds_iff proper, quarterIn_div, ← mul_div_assoc, ← mul_div_assoc, div_le_iff₀ unit,
      le_div_iff₀ unit, div_lt_iff₀ unit, lt_div_iff₀ unit] at holds
    exact ⟨holds.1.1, holds.1.2, holds.2⟩
  · rcases lt_or_ge e grid with coarse | fine
    · calc (10 : ℚ) ^ e ≤ 10 ^ grid := zpow_le_zpow_right₀ (by norm_num) coarse.le
        _ ≤ k * 10 ^ grid := le_mul_of_one_le_left unit.le (by exact_mod_cast positive)
    · obtain ⟨n, rfl⟩ : ∃ n : Nat, e = grid + n := ⟨(e - grid).toNat, by omega⟩
      have whole : 10 ^ n ≤ (interval p).middle * (quarterIn p.exponent grid).1 / (quarterIn p.exponent grid).2 := by
        rw [Nat.le_div_iff_mul_le proper]
        have : (10 : ℚ) ^ n ≤ (interval p).middle * ((quarterIn p.exponent grid).1 / (quarterIn p.exponent grid).2) := by
          rw [quarterIn_div, ← mul_div_assoc, ← p.size_eq, le_div_iff₀ unit, ← zpow_natCast,
            ← zpow_add₀ (by norm_num), add_comm]
          exact under
        rw [← mul_div_assoc, le_div_iff₀ (by exact_mod_cast proper)] at this
        exact_mod_cast this
      have : (10 : ℚ) ^ n ≤ k := by exact_mod_cast whole.trans least
      rw [zpow_add₀ (by norm_num), mul_comm, zpow_natCast]
      exact mul_le_mul_of_nonneg_right this unit.le

lemma searchDigits_found {tries : Nat} {grid : Int} (some_try : ∃ j : Nat, j < tries ∧
      (onGrid (interval p) (quarterIn p.exponent (grid - j)).1 (quarterIn p.exponent (grid - j)).2).isSome = true) :
    onGrid (interval p) (quarterIn p.exponent (searchDigits (interval p) p.exponent tries grid).exponent).1
      (quarterIn p.exponent (searchDigits (interval p) p.exponent tries grid).exponent).2 =
        some (searchDigits (interval p) p.exponent tries grid).digits := by
  induction tries generalizing grid with
  | zero => exact absurd some_try.choose_spec.1 (Nat.not_lt_zero _)
  | succ tries ih =>
    unfold searchDigits
    simp only []
    cases here : onGrid (interval p) (quarterIn p.exponent grid).1 (quarterIn p.exponent grid).2 with
    | some digits => exact here
    | none =>
      obtain ⟨j, below, hit⟩ := some_try
      cases j with
      | zero => simp [here] at hit
      | succ j =>
        have moved : grid - ((j + 1 : Nat) : Int) = grid - 1 - j := by push_cast; ring
        rw [moved] at hit
        exact ih ⟨j, by omega, hit⟩

lemma Decimal.stripZeros_spec (bound : Nat) (d : Decimal) :
    (d.stripZeros bound).value = d.value ∧ (0 < d.digits → 0 < (d.stripZeros bound).digits) := by
  induction bound generalizing d with
  | zero => exact ⟨rfl, id⟩
  | succ bound ih =>
    unfold Decimal.stripZeros
    by_cases zero : d.digits ≠ 0 ∧ d.digits % 10 = 0
    · rw [if_pos (by simpa using zero)]
      obtain ⟨same, positive⟩ := ih ⟨d.digits / 10, d.exponent + 1⟩
      refine ⟨same.trans ?_, fun _ => positive ?_⟩
      · have whole : (d.digits : ℚ) = (d.digits / 10 : Nat) * 10 := by
          exact_mod_cast (Nat.div_mul_cancel (Nat.dvd_of_mod_eq_zero zero.2)).symm
        show ((d.digits / 10 : Nat) : ℚ) * 10 ^ (d.exponent + 1) = d.digits * 10 ^ d.exponent
        rw [whole, zpow_add_one₀ (by norm_num)]
        ring
      · dsimp only
        omega
    · rw [if_neg (by simpa using zero)]
      exact ⟨rfl, id⟩

section

variable {p : Parts} (canonical : p.Canonical) (positive : 0 < p.mantissa)

include canonical in
lemma Parts.Canonical.size_lt : p.size < 2 ^ (1024 : Int) := by
  have mantissa : (p.mantissa : ℚ) < 2 ^ (53 : Int) := by exact_mod_cast canonical.mantissa
  calc p.size < 2 ^ (53 : Int) * 2 ^ p.exponent := mul_lt_mul_of_pos_right mantissa (two_zpow_pos _)
    _ = 2 ^ (53 + p.exponent) := (zpow_add₀ (by norm_num) _ _).symm
    _ ≤ 2 ^ (1024 : Int) := zpow_le_zpow_right₀ (by norm_num) (by have := canonical.greatest; omega)

include canonical positive in
lemma Parts.Canonical.le_size : (2 : ℚ) ^ (-1074 : Int) ≤ p.size := by
  calc (2 : ℚ) ^ (-1074 : Int) ≤ 2 ^ p.exponent := zpow_le_zpow_right₀ (by norm_num) canonical.least
    _ ≤ p.mantissa * 2 ^ p.exponent := le_mul_of_one_le_left (two_zpow_pos _).le (by exact_mod_cast positive)

include canonical positive in
lemma shortest_spec :
    0 < (shortest p).digits ∧ p.Attracts (shortest p).value ∧
      ∀ e : Int, (10 : ℚ) ^ e ≤ p.size → (10 : ℚ) ^ e ≤ (shortest p).value := by
  have proper := @scaled_pos p.mantissa _ Nat.one_pos (-p.exponent)
  have size : ((scaled p.mantissa 1 (-p.exponent)).1 : ℚ) / (scaled p.mantissa 1 (-p.exponent)).2 = p.size := by
    rw [scaled_div Nat.one_pos, Nat.cast_one, div_one, zpow_neg, div_inv_eq_mul]
    rfl
  have start : 0 < (scaled p.mantissa 1 (-p.exponent)).1 := by
    have : (0 : ℚ) < (scaled p.mantissa 1 (-p.exponent)).1 / (scaled p.mantissa 1 (-p.exponent)).2 := by
      rw [size]
      exact (two_zpow_pos _).trans_le (canonical.le_size positive)
    exact_mod_cast (div_pos_iff_of_pos_right (by exact_mod_cast proper)).mp this
  have power := decimalExponent_spec start proper (by rw [size]; exact canonical.size_lt)
    (by rw [size]; exact canonical.le_size positive)
  rw [size] at power
  unfold shortest
  simp only []
  generalize decimalExponent (scaled p.mantissa 1 (-p.exponent)).1 (scaled p.mantissa 1 (-p.exponent)).2 = grid at power ⊢
  have last := @onGrid_isSome_of_le p canonical.mantissa (grid - (16 : Nat))
    (by push_cast; rw [sub_add_cancel]; exact power.1)
  have found := @searchDigits_found p 17 grid ⟨16, by decide, last⟩
  obtain ⟨digits, attracts, above⟩ := attracts_of_onGrid found
  obtain ⟨same, nonzero⟩ := (searchDigits (interval p) p.exponent 17 grid).stripZeros_spec 20
  rw [same]
  exact ⟨nonzero digits, attracts, above⟩

end

end TagScript.Binary64
