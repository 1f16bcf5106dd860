import TagScript.Datum.Order
import TagScript.Datum.Text
import TagScript.Proofs.Number.Double

/-!
# The two zeros

Which zero stands on the left of an operator makes no difference but for the sign of a zero that
comes out.
-/

namespace TagScript.Binary64

open Float.Model

variable {x y : Float}

/-- Equal but for the sign of a zero. -/
def Close (x y : Float) : Prop := x = y ∨ (x == 0) = true ∧ (y == 0) = true

lemma beq_zero_iff : (x == 0) = true ↔ x = 0 ∨ x = -0 := by
  rw [Float.beq_iff_ne_nan_and_eq]
  constructor
  · rintro ⟨_, _, rfl | ⟨rfl, _⟩ | ⟨rfl, _⟩⟩
    · exact .inl rfl
    · exact .inl rfl
    · exact .inr rfl
  · rintro (rfl | rfl)
    · exact ⟨by decide, by decide, .inl rfl⟩
    · exact ⟨by decide, by decide, .inr (.inr ⟨rfl, rfl⟩)⟩

lemma Close.congr {α : Type} {f : Float → α} (close : Close x y) (zeros : f 0 = f (-0)) : f x = f y := by
  rcases close with rfl | ⟨zero, zero'⟩
  · rfl
  · rcases beq_zero_iff.mp zero with rfl | rfl <;> rcases beq_zero_iff.mp zero' with rfl | rfl
    · rfl
    · exact zeros
    · exact zeros.symm
    · rfl

lemma Close.of_beq (equal : (x == y) = true) : Close x y := by
  obtain ⟨_, _, rfl | ⟨rfl, rfl⟩ | ⟨rfl, rfl⟩⟩ := Float.beq_iff_ne_nan_and_eq.mp equal
  · exact .inl rfl
  · exact .inr ⟨by decide, by decide⟩
  · exact .inr ⟨by decide, by decide⟩

lemma Close.beq_zero_eq (close : Close x y) : (x == 0) = (y == 0) := close.congr (f := (· == 0)) (by decide)

lemma Close.isNaN_eq (close : Close x y) : x.isNaN = y.isNaN := close.congr (f := Float.isNaN) (by decide)

lemma Close.isFinite_eq (close : Close x y) : isFinite x = isFinite y := close.congr (by decide)

/-! ## Arithmetic -/

lemma exists_unpack_of_beq_zero (zero : (x == 0) = true) : ∃ sign, x.toModel.unpack = .zero sign := by
  rcases beq_zero_iff.mp zero with rfl | rfl
  · exact ⟨.positive, rfl⟩
  · exact ⟨.negative, rfl⟩

lemma beq_zero_pack (sign : UnpackedFloat.Sign) : (Float.ofModel (pack (.zero sign)) == 0) = true := by
  cases sign <;> decide

lemma Close.operation {f : UnpackedFloat → UnpackedFloat → UnpackedFloat}
    (zeros : ∀ sign sign' u, f (.zero sign) u = f (.zero sign') u ∨
      ∃ made made', f (.zero sign) u = .zero made ∧ f (.zero sign') u = .zero made') (close : Close x y) (z : Float) :
    Close (.ofModel (pack (f x.toModel.unpack z.toModel.unpack)))
      (.ofModel (pack (f y.toModel.unpack z.toModel.unpack))) := by
  rcases close with rfl | ⟨zero, zero'⟩
  · exact .inl rfl
  · obtain ⟨sign, left⟩ := exists_unpack_of_beq_zero zero
    obtain ⟨sign', right⟩ := exists_unpack_of_beq_zero zero'
    rw [left, right]
    rcases zeros sign sign' z.toModel.unpack with same | ⟨made, made', here, there⟩
    · exact .inl (by rw [same])
    · rw [here, there]
      exact .inr ⟨beq_zero_pack made, beq_zero_pack made'⟩

section

variable (close : Close x y) (z : Float)
include close z

lemma Close.add : Close (x + z) (y + z) := by
  refine Close.operation (fun sign sign' u => ?_) close z
  cases u with
  | zero other =>
    right
    simp only [UnpackedFloat.add]
    split <;> split <;> exact ⟨_, _, rfl, rfl⟩
  | _ => exact .inl rfl

lemma Close.sub : Close (x - z) (y - z) := by
  refine Close.operation (fun sign sign' u => ?_) close z
  cases u with
  | zero other =>
    right
    simp only [UnpackedFloat.sub]
    split <;> split <;> exact ⟨_, _, rfl, rfl⟩
  | _ => exact .inl rfl

lemma Close.mul : Close (x * z) (y * z) := by
  refine Close.operation (fun sign sign' u => ?_) close z
  cases u with
  | zero | finite => exact .inr ⟨_, _, rfl, rfl⟩
  | _ => exact .inl rfl

lemma Close.div : Close (x / z) (y / z) := by
  refine Close.operation (fun sign sign' u => ?_) close z
  cases u with
  | infinity | finite => exact .inr ⟨_, _, rfl, rfl⟩
  | _ => exact .inl rfl

end

lemma Close.neg (close : Close x y) : Close (-x) (-y) := by
  rcases close with rfl | ⟨zero, zero'⟩
  · exact .inl rfl
  · refine .inr ⟨?_, ?_⟩
    · rcases beq_zero_iff.mp zero with rfl | rfl <;> decide
    · rcases beq_zero_iff.mp zero' with rfl | rfl <;> decide

lemma beq_zero_remainder (zero : (x == 0) = true) (z : Float) : (remainder x z == 0) = true := by
  have mantissa : (parts x).mantissa = 0 := by rcases beq_zero_iff.mp zero with rfl | rfl <;> decide
  have nothing : ∀ negative den, (ofRatio negative 0 den == 0) = true := by
    intro negative den
    change (Float.ofBits (UInt64.ofNat (if negative then twoTo 63 + 0 else 0)) == 0) = true
    cases negative <;> decide
  unfold remainder scaled
  simp only [mantissa, Nat.zero_mul, Nat.zero_mod]
  split <;> exact nothing _ _

lemma Close.remainder (close : Close x y) (z : Float) : Close (remainder x z) (remainder y z) := by
  rcases close with rfl | ⟨zero, zero'⟩
  · exact .inl rfl
  · exact .inr ⟨beq_zero_remainder zero z, beq_zero_remainder zero' z⟩

/-! ## Comparisons -/

lemma compare_zero (sign sign' : UnpackedFloat.Sign) (u : UnpackedFloat) :
    UnpackedFloat.compare (.zero sign) u = UnpackedFloat.compare (.zero sign') u ∧
      UnpackedFloat.compare u (.zero sign) = UnpackedFloat.compare u (.zero sign') := by
  cases u with
  | infinity other | finite other => cases other <;> exact ⟨rfl, rfl⟩
  | _ => exact ⟨rfl, rfl⟩

lemma Close.compare_eq (close : Close x y) (z : Float) :
    x.toModel.unpack.compare z.toModel.unpack = y.toModel.unpack.compare z.toModel.unpack ∧
      z.toModel.unpack.compare x.toModel.unpack = z.toModel.unpack.compare y.toModel.unpack := by
  rcases close with rfl | ⟨zero, zero'⟩
  · exact ⟨rfl, rfl⟩
  · obtain ⟨sign, left⟩ := exists_unpack_of_beq_zero zero
    obtain ⟨sign', right⟩ := exists_unpack_of_beq_zero zero'
    rw [left, right]
    exact compare_zero sign sign' _

lemma lt_eq : (x < y) = (x.toModel.unpack.compare y.toModel.unpack = some .lt) := by
  change (decide ((x.toModel.unpack.compare y.toModel.unpack == some .lt) = true) = true) = _
  simp

lemma beq_eq : (x == y) = (x.toModel.unpack.compare y.toModel.unpack == some .eq) := rfl

end TagScript.Binary64

namespace TagScript.Datum

open TagScript.Binary64

variable {x y : Float}

lemma compareFloats_of_close (close : Close x y) (z : Float) : compareFloats x z = compareFloats y z := by
  obtain ⟨left, right⟩ := close.compare_eq z
  have lower : x < z ↔ y < z := by rw [lt_eq, lt_eq, left]
  have greater : x > z ↔ y > z := by rw [gt_iff_lt, gt_iff_lt, lt_eq, lt_eq, right]
  have equal : (x == z) = (y == z) := by rw [beq_eq, beq_eq, left]
  exact if_congr lower rfl (if_congr greater rfl (by rw [equal]))

lemma compareWhole_of_close (close : Close x y) (i : Int) : compareWhole i x = compareWhole i y := by
  refine close.congr ?_
  rfl

lemma parts_zero : parts 0 = ⟨false, 0, -1074⟩ ∧ parts (-0) = ⟨true, 0, -1074⟩ := by decide

lemma isWhole_zero : isWhole 0 = true ∧ isWhole (-0) = true := by
  simp [isWhole, parts_zero]

lemma truncate_zero : truncate 0 = 0 ∧ truncate (-0) = 0 := by
  simp [truncate, parts_zero]

lemma numberText_of_close (close : Close x y) : numberText x = numberText y := by
  refine close.congr ?_
  have numbers : Float.isNaN 0 = false ∧ Float.isNaN (-0) = false := by decide
  have finite : isFinite 0 = true ∧ isFinite (-0) = true := by decide
  unfold numberText
  rw [isWhole_zero.1, isWhole_zero.2, truncate_zero.1, truncate_zero.2, numbers.1, numbers.2, finite.1, finite.2]
  rfl

end TagScript.Datum
