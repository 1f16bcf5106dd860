import Mathlib
import TagScript.Proofs.Number.Nearest

/-!
# Doubles by their bits
-/

namespace TagScript.Binary64

variable {x : Float}

def bits (x : Float) : Nat := x.toBits.toNat

lemma bits_lt (x : Float) : bits x < 2 ^ 64 := x.toBits.toNat_lt

lemma ofBits_bits (x : Float) : Float.ofBits (UInt64.ofNat (bits x)) = x := by
  unfold bits
  rw [UInt64.ofNat_toNat]
  exact Float.ofBits_toBits x

lemma eq_of_bits {y : Float} (same : bits x = bits y) : x = y := by
  rw [← ofBits_bits x, same, ofBits_bits]

def Parts.code (p : Parts) : Nat := (p.exponent + 1074).toNat * 2 ^ 52 + p.mantissa

lemma isNegative_iff (x : Float) : isNegative x = true ↔ 2 ^ 63 ≤ bits x := by
  have bound := bits_lt x
  unfold isNegative bits at *
  rw [decide_eq_true_eq, twoTo_eq]
  omega

lemma isFinite_iff (x : Float) : isFinite x = true ↔ bits x % 2 ^ 63 < 2047 * 2 ^ 52 := by
  unfold isFinite bits
  rw [decide_eq_true_eq, twoTo_eq, twoTo_eq]
  omega

lemma parts_cases (x : Float) :
    (bits x % 2 ^ 63 < 2 ^ 52 ∧ parts x = ⟨isNegative x, bits x % 2 ^ 52, -1074⟩) ∨
      (2 ^ 52 ≤ bits x % 2 ^ 63 ∧
        parts x = ⟨isNegative x, 2 ^ 52 + bits x % 2 ^ 52, ((bits x / 2 ^ 52 % 2 ^ 11 : Nat) : Int) - 1075⟩) := by
  have unfolded : parts x = if bits x / 2 ^ 52 % 2 ^ 11 = 0 then ⟨isNegative x, bits x % 2 ^ 52, -1074⟩
      else ⟨isNegative x, 2 ^ 52 + bits x % 2 ^ 52, ((bits x / 2 ^ 52 % 2 ^ 11 : Nat) : Int) - 1075⟩ := rfl
  rw [unfolded]
  by_cases empty : bits x / 2 ^ 52 % 2 ^ 11 = 0
  · rw [if_pos empty]
    exact Or.inl ⟨by omega, rfl⟩
  · rw [if_neg empty]
    exact Or.inr ⟨by omega, rfl⟩

lemma parts_negative (x : Float) : (parts x).negative = isNegative x := by
  rcases parts_cases x with ⟨_, same⟩ | ⟨_, same⟩ <;> rw [same]

lemma parts_canonical (finite : isFinite x = true) : (parts x).Canonical := by
  rw [isFinite_iff] at finite
  rcases parts_cases x with ⟨small, same⟩ | ⟨large, same⟩
  · rw [same]
    exact ⟨by dsimp only; omega, le_rfl, by dsimp only; omega, Or.inr rfl⟩
  · rw [same]
    exact ⟨by dsimp only; omega, by dsimp only; omega, by dsimp only; omega, Or.inl (by dsimp only; omega)⟩

lemma bits_eq_code (x : Float) : bits x = (if isNegative x then 2 ^ 63 else 0) + (parts x).code := by
  have bound := bits_lt x
  have sign := isNegative_iff x
  have field : (parts x).code = bits x % 2 ^ 63 := by
    unfold Parts.code
    rcases parts_cases x with ⟨small, same⟩ | ⟨large, same⟩
    · rw [same]
      dsimp only
      omega
    · rw [same]
      dsimp only
      omega
  by_cases negative : isNegative x = true
  · rw [if_pos negative]
    have := sign.mp negative
    omega
  · rw [if_neg negative]
    have : ¬ 2 ^ 63 ≤ bits x := fun above => negative (sign.mpr above)
    omega

/-! ## Turning the sign -/

section

open Float.Model Float.Model.UnpackedFloat

section

variable (s : Sign) (e : BitVec Format.binary64.exponentBits) (m : BitVec Format.binary64.mantissaBitsWithoutImplicit)
include s e m

lemma toNat_packComponents :
    (packComponents Format.binary64 s e m).toNat = s.toBitVec.toNat * 2 ^ 63 + e.toNat * 2 ^ 52 + m.toNat := by
  unfold packComponents
  rw [BitVec.toNat_append, BitVec.toNat_append, ← Nat.shiftLeft_add_eq_or_of_lt e.isLt,
    ← Nat.shiftLeft_add_eq_or_of_lt m.isLt]
  simp only [Nat.shiftLeft_eq]
  ring

lemma unpack_packComponents_neg : UnpackedFloat.unpack Format.binary64 (packComponents Format.binary64 (-s) e m) =
      (UnpackedFloat.unpack Format.binary64 (packComponents Format.binary64 s e m)).neg := by
  unfold UnpackedFloat.unpack
  simp only [unpackMantissa_packComponents, unpackExponent_packComponents, unpackSign_packComponents,
    Sign.ofBitVec_toBitVec]
  split_ifs <;> rfl

end

lemma bits_components (x : Float) :
    ∃ s e m, x.toModel.toBits.toBitVec = packComponents Format.binary64 s e m ∧
      bits x = s.toBitVec.toNat * 2 ^ 63 + e.toNat * 2 ^ 52 + m.toNat := by
  have whole := @packComponents_unpackSign_unpackExponent_unpackMantissa Format.binary64 x.toModel.toBits.toBitVec
  refine ⟨_, _, _, whole.symm, ?_⟩
  rw [← toNat_packComponents, whole]
  rfl

lemma bits_neg (finite : isFinite x = true) :
    bits (-x) = if isNegative x then bits x - 2 ^ 63 else bits x + 2 ^ 63 := by
  obtain ⟨s, e, m, packed, sum⟩ := bits_components x
  have fraction : m.toNat < 2 ^ 52 := m.isLt
  have field : e.toNat < 2 ^ 11 := e.isLt
  rw [isFinite_iff] at finite
  have proper : isNaNBits (packComponents Format.binary64 (-s) e m) = false := by
    unfold isNaNBits
    rw [unpackExponent_packComponents, decide_eq_false_iff_not]
    rintro ⟨ones, -⟩
    have : e.toNat = 2047 := by rw [ones]; rfl
    omega
  have turned : bits (-x) = (packComponents Format.binary64 (-s) e m).toNat := by
    show (UnpackedFloat.pack Format.binary64 (UnpackedFloat.unpack Format.binary64 x.toModel.toBits.toBitVec).neg).toNat = _
    rw [packed, ← unpack_packComponents_neg, pack_unpack _ (by decide), if_neg (by rw [proper]; decide)]
  have sign := isNegative_iff x
  rw [turned, toNat_packComponents]
  cases s with
  | positive =>
    have plus : bits x = e.toNat * 2 ^ 52 + m.toNat := by rw [sum]; simp [Sign.toBitVec]
    rw [if_neg (by rw [sign]; omega), plus]
    show 1 * 2 ^ 63 + _ + _ = _
    omega
  | negative =>
    have minus : bits x = 2 ^ 63 + e.toNat * 2 ^ 52 + m.toNat := by rw [sum]; simp [Sign.toBitVec]
    rw [if_pos (by rw [sign]; omega), minus]
    show 0 * 2 ^ 63 + _ + _ = _
    omega

end

section

variable (finite : isFinite x = true)
include finite

lemma isFinite_neg : isFinite (-x) = true := by
  have turned := bits_neg finite
  have sign := isNegative_iff x
  rw [isFinite_iff] at finite ⊢
  rw [turned]
  split <;> omega

lemma neg_neg_of_isFinite : - -x = x := by
  have once := bits_neg finite
  have twice := bits_neg (isFinite_neg finite)
  have sign := isNegative_iff x
  have sign' := isNegative_iff (-x)
  have bound := bits_lt x
  apply eq_of_bits
  rw [twice]
  by_cases negative : isNegative x = true
  · rw [if_pos negative] at once
    have := sign.mp negative
    rw [if_neg (by rw [sign']; omega)]
    omega
  · rw [if_neg negative] at once
    rw [if_pos (by rw [sign']; omega)]
    omega

lemma isNaN_of_isFinite : x.isNaN = false := by
  rw [Float.isNaN_eq_decide_eq_nan, decide_eq_false_iff_not]
  rintro rfl
  revert finite
  decide

lemma beq_self_of_isFinite : (x == x) = true := by
  have number := isNaN_of_isFinite finite
  rw [Float.isNaN_eq_decide_eq_nan, decide_eq_false_iff_not] at number
  exact Float.beq_self_iff.mpr number

end

open Float.Model Float.Model.UnpackedFloat in
lemma eq_infinity (infinite : isFinite x = false) (number : x.isNaN = false) :
    x = if isNegative x then -infinity else infinity := by
  obtain ⟨s, e, m, packed, sum⟩ := bits_components x
  have fraction : m.toNat < 2 ^ 52 := m.isLt
  have field : e.toNat < 2 ^ 11 := e.isLt
  have sign : s.toBitVec.toNat < 2 := s.toBitVec.isLt
  have beyond : ¬ bits x % 2 ^ 63 < 2047 * 2 ^ 52 := by
    rw [← isFinite_iff, infinite]
    decide
  have ones : e.toNat = 2047 := by omega
  have none : m.toNat = 0 := by
    by_contra some
    have nan := (isNaN_unpack_iff_of_valid x.toModel.valid (by decide)).mpr (x.toModel.valid.eq_packedNaN (by
      rw [packed, unpackExponent_packComponents]
      exact BitVec.eq_of_toNat_eq ones) (by
      rw [packed, unpackMantissa_packComponents]
      rintro rfl
      exact some rfl))
    exact Bool.false_ne_true (number.symm.trans nan)
  apply eq_of_bits
  have negative := isNegative_iff x
  split
  · rename_i minus
    have := negative.mp minus
    rw [show bits (-infinity) = 2 ^ 63 + 2047 * 2 ^ 52 by decide]
    omega
  · rename_i plus
    have below : ¬ 2 ^ 63 ≤ bits x := fun above => plus (negative.mpr above)
    rw [show bits infinity = 2047 * 2 ^ 52 by decide]
    omega
def magnitude (x : Float) : Float := if isNegative x then -x else x

lemma bits_magnitude (finite : isFinite x = true) : bits (magnitude x) = (parts x).code := by
  have whole := bits_eq_code x
  unfold magnitude
  by_cases negative : isNegative x = true
  · rw [if_pos negative, bits_neg finite, if_pos negative]
    rw [if_pos negative] at whole
    omega
  · rw [if_neg negative] at whole ⊢
    omega

/-! ## Reading doubles -/

lemma ofRatio_eq {num den : Nat} (finite : isFinite x = true) (positive : 0 < (parts x).mantissa)
    (num_pos : 0 < num) (den_pos : 0 < den) (attracts : (parts x).Attracts (num / den)) :
    ofRatio false num den = magnitude x := by
  have code := nearestBits_eq (parts_canonical finite) positive num_pos den_pos attracts
  rw [← ofBits_bits (magnitude x), bits_magnitude finite]
  unfold ofRatio
  rw [if_neg (Nat.ne_of_gt num_pos), code, ← Parts.code]
  rfl

lemma beq_ofRatio_zero (finite : isFinite x = true) (zero : (parts x).mantissa = 0) (den : Nat) :
    (ofRatio false 0 den == x) = true := by
  have code : (parts x).code = 0 := by
    have full := (parts_canonical finite).full
    unfold Parts.code
    omega
  have whole := bits_eq_code x
  rw [code] at whole
  have read : ofRatio false 0 den = Float.ofBits 0 := rfl
  rw [read]
  by_cases negative : isNegative x = true
  · rw [if_pos negative] at whole
    rw [eq_of_bits (y := Float.ofBits 0x8000000000000000) (whole.trans (by decide))]
    decide
  · rw [if_neg negative] at whole
    rw [eq_of_bits (y := Float.ofBits 0) (whole.trans (by decide))]
    decide

end TagScript.Binary64
