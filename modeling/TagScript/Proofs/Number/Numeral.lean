import TagScript.Datum.Literal
import TagScript.Number.Reading
import TagScript.Proofs.Number.Double
import TagScript.Proofs.Number.Shortest

/-!
# Numerals read back

The number that the digits stand for lies in the interval of the double that they were made from.
-/

namespace TagScript.Text

open List String Int

variable {c : Char}

variable (digit : c.isDigit = true)
include digit

lemma isDigit_bounds : 48 ≤ c.toNat ∧ c.toNat ≤ 57 := by
  simp only [Char.isDigit, Bool.and_eq_true, decide_eq_true_eq] at digit
  exact ⟨UInt32.le_iff_toNat_le.mp digit.1, UInt32.le_iff_toNat_le.mp digit.2⟩

lemma decimalValue?_of_isDigit : decimalValue? c = some (c.toNat - '0'.toNat) := by
  obtain ⟨low, high⟩ := isDigit_bounds digit
  unfold decimalValue? decimalZeros
  rw [find?_cons_of_pos (by simp; omega)]
  rfl

lemma isDigit_of_isDigit : isDigit c = true := by
  obtain ⟨low, high⟩ := isDigit_bounds digit
  simp [isDigit, digitRanges, Ranges.has, low, high]

lemma isBlank_of_isDigit : isBlank c = false := by
  obtain ⟨low, high⟩ := isDigit_bounds digit
  have first : ¬ c.toNat ≤ 13 := by omega
  have second : ¬ c.toNat ≤ 32 := by omega
  have third : c.toNat ≤ 133 := by omega
  simp only [isBlank, blankRanges, Ranges.has, if_neg first, if_neg second, if_pos third]
  simp
  omega

end TagScript.Text

namespace TagScript.Numeral

open Binary64 List Reading

/-- Digits, or digits with a point before the last `places` of them; `value` is the number that they are
without the point. -/
inductive Shows : List Char → Nat → Nat → Prop where
  | whole {ds : List Char} : ds ≠ [] → (∀ c ∈ ds, c.isDigit = true) → Shows ds (Nat.ofDigitChars 10 ds 0) 0
  | point {ws fs : List Char} : ws ≠ [] → (∀ c ∈ ws, c.isDigit = true) → (∀ c ∈ fs, c.isDigit = true) →
      Shows (ws ++ '.' :: fs) (Nat.ofDigitChars 10 (ws ++ fs) 0) fs.length

/-! ## Reading -/

lemma digits_eq {ds rest : List Char} (digits : ∀ c ∈ ds, c.isDigit = true)
    (stop : rest = [] ∨ ∃ after, rest = '.' :: after) (count value : Nat) (after : Bool) :
    Reading.digits count value after (ds ++ rest) = (count + ds.length, Nat.ofDigitChars 10 ds value, rest) := by
  induction ds generalizing count value after with
  | nil =>
    have point : Text.decimalValue? '.' = none := by decide +kernel
    rcases stop with rfl | ⟨after, rfl⟩
    · simp [Reading.digits]
    · simp [Reading.digits, point]
  | cons c ds ih =>
    have digit := digits c mem_cons_self
    have plain : c ≠ '_' := by
      rintro rfl
      revert digit
      decide
    rw [cons_append, Reading.digits]
    · rw [Text.decimalValue?_of_isDigit digit]
      dsimp only
      rw [ih fun c mem => digits c (mem_cons_of_mem _ mem), Nat.ofDigitChars_cons, length_cons]
      congr 1
      omega
    · intro d rest same
      exact fun _ => plain same

lemma trim_eq {cs : List Char} (none_blank : ∀ c ∈ cs, isBlank c = false) : trim cs = cs := by
  have drop : ∀ {cs : List Char}, (∀ c ∈ cs, isBlank c = false) → cs.dropWhile isBlank = cs := by
    intro cs none_blank
    cases cs with
    | nil => rfl
    | cons c rest => rw [dropWhile_cons_of_neg (by rw [none_blank c mem_cons_self]; decide)]
  unfold trim
  rw [drop none_blank, drop fun c mem => none_blank c (mem_reverse.mp mem), reverse_reverse]

lemma special?_eq_none {c : Char} (digit : c.isDigit = true) (rest : List Char) :
    special? (c :: rest) = none := by
  obtain ⟨low, high⟩ := Text.isDigit_bounds digit
  have lower : c.toLower = c := by
    unfold Char.toLower
    rw [dif_neg]
    rintro ⟨upper, _⟩
    have := UInt32.le_iff_toNat_le.mp upper
    have : 65 ≤ c.toNat := this
    omega
  have other : ∀ {d : Char} {word : List Char}, 57 < d.toNat →
      (String.ofList (c :: rest.map Char.toLower) == String.ofList (d :: word)) = false := by
    intro d word far
    rw [beq_eq_false_iff_ne]
    intro same
    have := (List.cons.inj (String.ofList_inj.mp same)).1
    rw [this] at high
    omega
  unfold special?
  rw [map_cons, lower]
  simp only [show "inf" = String.ofList ('i' :: ['n', 'f']) from rfl,
    show "infinity" = String.ofList ('i' :: ['n', 'f', 'i', 'n', 'i', 't', 'y']) from rfl,
    show "nan" = String.ofList ('n' :: ['a', 'n']) from rfl,
    other (d := 'i') (by decide), other (d := 'n') (by decide)]
  rfl

/-- What starts with a digit and has digits and points only is read without sign, blanks and special
words. -/
lemma float?_eq {c : Char} {rest : List Char} (first : c.isDigit = true)
    (others : ∀ d ∈ rest, d.isDigit = true ∨ d = '.') :
    trim (c :: rest) = c :: rest ∧ sign (c :: rest) = (false, c :: rest) := by
  constructor
  · refine trim_eq fun d mem => ?_
    have plain : d.isDigit = true ∨ d = '.' := by
      rcases mem_cons.mp mem with rfl | mem
      · exact Or.inl first
      · exact others d mem
    rcases plain with digit | rfl
    · rw [isBlank, Text.isBlank_of_isDigit digit, Bool.false_and]
    · decide
  · have minus : c ≠ '-' := by
      rintro rfl
      revert first
      decide
    have plus : c ≠ '+' := by
      rintro rfl
      revert first
      decide
    unfold sign
    split
    · rename_i same
      exact absurd (List.cons.inj same).1 minus
    · rename_i same
      exact absurd (List.cons.inj same).1 plus
    · rfl

variable {value places : Nat}

lemma float?_of_shows {cs : List Char} (shows : Shows cs value places) :
    Reading.float? (String.ofList cs) = some (ofDecimal false value (-places)) := by
  cases shows with
  | whole nonempty digits =>
    obtain ⟨c, rest, rfl⟩ := exists_cons_of_ne_nil nonempty
    have first := digits c mem_cons_self
    obtain ⟨trimmed, unsigned⟩ := float?_eq first fun d mem => Or.inl (digits d (mem_cons_of_mem _ mem))
    have read := digits_eq digits (Or.inl rfl) 0 0 false
    rw [append_nil] at read
    unfold Reading.float?
    rw [String.toList_ofList, trimmed, unsigned]
    dsimp only
    rw [special?_eq_none first]
    rw [read]
    simp [Reading.exponent?]
  | point nonempty wholes fractions =>
    rename_i ws fs
    obtain ⟨c, rest, rfl⟩ := exists_cons_of_ne_nil nonempty
    have first := wholes c mem_cons_self
    obtain ⟨trimmed, unsigned⟩ := @float?_eq c (rest ++ '.' :: fs) first fun d mem => by
      rcases mem_append.mp mem with mem | mem
      · exact Or.inl (wholes d (mem_cons_of_mem _ mem))
      · rcases mem_cons.mp mem with rfl | mem
        · exact Or.inr rfl
        · exact Or.inl (fractions d mem)
    have before := digits_eq wholes (Or.inr ⟨fs, rfl⟩) 0 0 false
    have after := digits_eq fractions (Or.inl rfl) 0 (Nat.ofDigitChars 10 (c :: rest) 0) false
    rw [append_nil] at after
    unfold Reading.float?
    rw [String.toList_ofList, cons_append, trimmed, unsigned]
    dsimp only
    rw [special?_eq_none first]
    rw [← cons_append, before, Nat.ofDigitChars_append]
    simp [after, Reading.exponent?]

/-! ## The double that is read -/

variable {x : Float}

lemma ofDecimal_eq (finite : isFinite x = true) (nonzero : 0 < (parts x).mantissa) (positive : 0 < value)
    (attracts : (parts x).Attracts (value / 10 ^ places)) :
    ofDecimal false value (-places) = magnitude x := by
  have canonical := parts_canonical finite
  have notSmall : -1200 ≤ -(places : Int) + (value.log2 : Int) := by
    have quarter : (2 : ℚ) ^ (-1076 : Int) ≤ (parts x).quarter :=
      zpow_le_zpow_right₀ (by norm_num) (by have := canonical.least; omega)
    have low : (1 : ℚ) ≤ (interval (parts x)).low := by
      have : 1 ≤ (interval (parts x)).low := by rcases interval_low (parts x) with ⟨_, _, same⟩ | ⟨_, same⟩ <;> omega
      exact_mod_cast this
    have size : (2 : ℚ) ^ (-1076 : Int) ≤ value / 10 ^ places :=
      calc (2 : ℚ) ^ (-1076 : Int) ≤ (parts x).quarter := quarter
        _ ≤ (interval (parts x)).low * (parts x).quarter := le_mul_of_one_le_left (parts x).quarter_pos.le low
        _ ≤ value / 10 ^ places := attracts.1
    rw [le_div_iff₀ (by positivity)] at size
    have powers : (2 : ℚ) ^ (-1076 + places : Int) < 2 ^ (value.log2 + 1 : Int) :=
      calc (2 : ℚ) ^ (-1076 + places : Int) = 2 ^ (-1076 : Int) * 2 ^ places := by
            rw [zpow_add₀ (by norm_num), zpow_natCast]
        _ ≤ 2 ^ (-1076 : Int) * 10 ^ places :=
            mul_le_mul_of_nonneg_left (pow_le_pow_left₀ (by norm_num) (by norm_num) _) (two_zpow_pos _).le
        _ ≤ value := size
        _ < 2 ^ (value.log2 + 1 : Int) := by exact_mod_cast Nat.lt_log2_self
    have := (zpow_lt_zpow_iff_right₀ (by norm_num : (1 : ℚ) < 2)).mp powers
    omega
  unfold ofDecimal
  rw [if_neg (ne_of_gt positive), if_neg (by omega), if_neg (by omega)]
  by_cases whole : places = 0
  · subst whole
    refine ofRatio_eq finite nonzero ?_ Nat.one_pos ?_
    · simpa [tenTo_eq] using positive
    · simpa [tenTo_eq] using attracts
  · rw [if_neg (by omega)]
    refine ofRatio_eq finite nonzero positive ?_ ?_
    · exact Nat.pow_pos (by decide)
    · simpa [tenTo_eq] using attracts

/-! ## Writing -/

lemma toList_zeros (n : Nat) : (zeros n).toList = replicate n '0' := by
  rw [zeros, String.toList_ofList]

lemma isDigit_of_mem_replicate {n : Nat} {c : Char} (mem : c ∈ replicate n '0') : c.isDigit = true := by
  rw [eq_of_mem_replicate mem]
  decide

lemma shows_positional {digits : List Char} (nonempty : digits ≠ []) (all : ∀ c ∈ digits, c.isDigit = true)
    (whole : Int) :
    ∃ value places, Shows (positional digits whole).toList value places ∧
      (value : ℚ) / 10 ^ places = Nat.ofDigitChars 10 digits 0 * 10 ^ (whole - digits.length) := by
  unfold positional
  by_cases small : whole ≤ 0
  · have text : ("0." ++ zeros whole.natAbs ++ String.ofList digits).toList =
        ['0'] ++ '.' :: (replicate whole.natAbs '0' ++ digits) := by
      simp [toList_zeros]
    rw [if_pos small, text]
    refine ⟨_, _, Shows.point (by simp) (fun c => isDigit_of_mem_replicate (n := 1)) fun c mem =>
      (mem_append.mp mem).elim isDigit_of_mem_replicate (all c), ?_⟩
    have value : Nat.ofDigitChars 10 (['0'] ++ (replicate whole.natAbs '0' ++ digits)) 0 =
        Nat.ofDigitChars 10 digits 0 := by
      rw [Nat.ofDigitChars_append, Nat.ofDigitChars_append]
      simp [Nat.ofDigitChars_cons]
    rw [value, div_eq_mul_inv, ← zpow_natCast, ← zpow_neg, length_append, length_replicate]
    congr 2
    omega
  · rw [if_neg small]
    obtain ⟨n, rfl⟩ : ∃ n : Nat, whole = n := ⟨whole.toNat, by omega⟩
    rw [Int.toNat_natCast]
    by_cases long : digits.length ≤ n
    · have text : (String.ofList digits ++ zeros (n - digits.length) ++ ".0").toList =
          (digits ++ replicate (n - digits.length) '0') ++ '.' :: ['0'] := by
        simp [toList_zeros]
      rw [if_pos long, text]
      refine ⟨_, _, Shows.point (by simp [nonempty]) (fun c mem =>
        (mem_append.mp mem).elim (all c) isDigit_of_mem_replicate) (fun c => isDigit_of_mem_replicate (n := 1)), ?_⟩
      have value : Nat.ofDigitChars 10 (digits ++ replicate (n - digits.length) '0' ++ ['0']) 0 =
          10 ^ (n - digits.length) * Nat.ofDigitChars 10 digits 0 * 10 := by
        rw [Nat.ofDigitChars_append, Nat.ofDigitChars_append, Nat.ofDigitChars_replicate_zero]
        simp [Nat.ofDigitChars_cons, mul_comm]
      have power : ((n : Int) - digits.length) = ((n - digits.length : Nat) : Int) := by omega
      rw [value, power, zpow_natCast]
      push_cast
      rw [length_singleton]
      ring
    · have text : (String.ofList (digits.take n) ++ "." ++ String.ofList (digits.drop n)).toList =
          digits.take n ++ '.' :: digits.drop n := by
        simp
      rw [if_neg long, text]
      refine ⟨_, _, Shows.point (by simp [nonempty]; omega) (fun c mem => all c (mem_of_mem_take mem))
        fun c mem => all c (mem_of_mem_drop mem), ?_⟩
      rw [take_append_drop, div_eq_mul_inv, ← zpow_natCast, ← zpow_neg, length_drop]
      congr 2
      omega

lemma shows_ofNat (n : Nat) : Shows (ofNat n).toList n 0 := by
  have shows := @Shows.whole (Nat.toDigits 10 n) Nat.toDigits_ne_nil
    fun c mem => Nat.isDigit_of_mem_toDigits (by decide) (by decide) mem
  rw [Nat.ofDigitChars_ten_toDigits] at shows
  rwa [ofNat, String.toList_ofList]

lemma shows_zeros {digits : List Char} (nonempty : digits ≠ []) (all : ∀ c ∈ digits, c.isDigit = true) (n : Nat) :
    Shows (String.ofList digits ++ zeros n).toList (10 ^ n * Nat.ofDigitChars 10 digits 0) 0 := by
  have shows := @Shows.whole (digits ++ replicate n '0') (by simp [nonempty])
    fun c mem => (mem_append.mp mem).elim (all c) isDigit_of_mem_replicate
  rw [Nat.ofDigitChars_append, Nat.ofDigitChars_replicate_zero] at shows
  rwa [String.toList_append, String.toList_ofList, toList_zeros]

def Spells (x : Float) (text : String) : Prop :=
  ∃ (minus : Bool) (body : List Char) (value places : Nat), text.toList = (if minus then ['-'] else []) ++ body ∧ Shows body value places ∧
    ((if minus then -ofDecimal false value (-places) else ofDecimal false value (-places)) == x) = true

lemma spells_zero (finite : isFinite x = true) (zero : (parts x).mantissa = 0) : Spells x (ofNat 0) :=
  ⟨false, _, 0, 0, rfl, shows_ofNat 0, beq_ofRatio_zero finite zero 1⟩

lemma spells_of_shows {body : String} (finite : isFinite x = true)
    (nonzero : 0 < (parts x).mantissa) (shows : Shows body.toList value places)
    (positive : 0 < value) (attracts : (parts x).Attracts (value / 10 ^ places)) :
    Spells x ((if isNegative x then "-" else "") ++ body) := by
  have read := ofDecimal_eq finite nonzero positive attracts
  refine ⟨isNegative x, body.toList, value, places, ?_, shows, ?_⟩
  · cases isNegative x <;> simp
  · rw [read]
    unfold magnitude
    by_cases negative : isNegative x = true
    · rw [if_pos negative, if_pos negative, neg_neg_of_isFinite finite]
      exact beq_self_of_isFinite finite
    · rw [if_neg negative, if_neg negative]
      exact beq_self_of_isFinite finite

section

variable {x : Float} (finite : isFinite x = true) (nonzero : 0 < (parts x).mantissa)

include finite nonzero

lemma spells_positional :
    Spells x ((if isNegative x then "-" else "") ++ positional (Nat.toDigits 10 (shortest (parts x)).digits)
      ((shortest (parts x)).exponent + (Nat.toDigits 10 (shortest (parts x)).digits).length)) := by
  obtain ⟨digits, attracts, _⟩ := shortest_spec (parts_canonical finite) nonzero
  obtain ⟨value, places, shows, same⟩ := @shows_positional (Nat.toDigits 10 (shortest (parts x)).digits)
    Nat.toDigits_ne_nil (fun c mem => Nat.isDigit_of_mem_toDigits (by decide) (by decide) mem)
    ((shortest (parts x)).exponent + (Nat.toDigits 10 (shortest (parts x)).digits).length)
  rw [Nat.ofDigitChars_ten_toDigits, add_sub_cancel_right] at same
  refine spells_of_shows finite nonzero shows ?_ (by rw [same]; exact attracts)
  have : (0 : ℚ) < value / 10 ^ places := by
    rw [same]
    exact mul_pos (by exact_mod_cast digits) (ten_zpow_pos _)
  have := (div_pos_iff_of_pos_right (by positivity)).mp this
  exact_mod_cast this

lemma spells_spelledOut : Spells x (spelledOut x) := by
  obtain ⟨digits, attracts, _⟩ := shortest_spec (parts_canonical finite) nonzero
  unfold spelledOut
  simp only [parts_negative]
  rw [if_neg (ne_of_gt nonzero)]
  split
  · rename_i up
    rw [String.append_assoc]
    refine spells_of_shows finite nonzero (shows_zeros Nat.toDigits_ne_nil
      (fun c mem => Nat.isDigit_of_mem_toDigits (by decide) (by decide) mem) _) ?_ ?_
    · rw [Nat.ofDigitChars_ten_toDigits]
      exact Nat.mul_pos (Nat.pow_pos (by decide)) digits
    · convert attracts using 1
      obtain ⟨n, same⟩ := Int.eq_ofNat_of_zero_le up
      rw [Nat.ofDigitChars_ten_toDigits, Decimal.value, same]
      push_cast
      rw [Int.toNat_natCast, zpow_natCast]
      ring
  · exact spells_positional finite nonzero

end

lemma truncate_eq (whole : isWhole x = true) :
    ∃ n : Nat, (n : ℚ) = (parts x).size ∧ truncate x = if isNegative x then -(n : Int) else n := by
  unfold isWhole at whole
  unfold truncate
  simp only [parts_negative, Bool.or_eq_true, decide_eq_true_eq] at whole ⊢
  unfold Parts.size
  by_cases up : 0 ≤ (parts x).exponent
  · refine ⟨_, ?_, by rw [if_pos up]⟩
    obtain ⟨n, same⟩ := Int.eq_ofNat_of_zero_le up
    rw [same, Int.toNat_natCast, twoTo_eq, zpow_natCast]
    push_cast
    rfl
  · refine ⟨_, ?_, by rw [if_neg up]⟩
    have exact := Nat.div_mul_cancel (Nat.dvd_of_mod_eq_zero (whole.resolve_left up))
    obtain ⟨n, same⟩ := Int.eq_negSucc_of_lt_zero (Int.not_le.mp up)
    rw [same, Int.natAbs_negSucc, twoTo_eq] at exact ⊢
    rw [zpow_negSucc, eq_mul_inv_iff_mul_eq₀ (by positivity)]
    exact_mod_cast exact

lemma spells_ofInt (finite : isFinite x = true) (whole : isWhole x = true) : Spells x (ofInt (truncate x)) := by
  obtain ⟨n, size, same⟩ := truncate_eq whole
  rcases Nat.eq_zero_or_pos (parts x).mantissa with zero | nonzero
  · obtain rfl : n = 0 := by
      rw [Parts.size, zero, Nat.cast_zero, zero_mul] at size
      exact_mod_cast size
    have text : ofInt (truncate x) = ofNat 0 := by
      rw [same]
      cases isNegative x <;> rfl
    rw [text]
    exact spells_zero finite zero
  · have unit : 0 < (parts x).size := mul_pos (by exact_mod_cast nonzero) (two_zpow_pos _)
    have positive : 0 < n := by
      rw [← size] at unit
      exact_mod_cast unit
    have text : ofInt (truncate x) = (if isNegative x then "-" else "") ++ ofNat n := by
      rw [same]
      unfold ofInt
      by_cases negative : isNegative x = true
      · rw [if_pos negative, if_pos negative, if_pos (by omega), Int.natAbs_neg, Int.natAbs_natCast]
      · rw [if_neg negative, if_neg negative, if_neg (by omega), Int.natAbs_natCast, String.empty_append]
    rw [text]
    refine spells_of_shows finite nonzero (shows_ofNat n) positive ?_
    rw [pow_zero, div_one, size]
    exact Parts.attracts_size nonzero

lemma isWhole_of_zero (zero : (parts x).mantissa = 0) : isWhole x = true := by
  unfold isWhole
  simp [zero]

lemma value_bounds {d : Decimal} (positive : 0 < d.digits) :
    (10 : ℚ) ^ (d.exponent + (Nat.toDigits 10 d.digits).length - 1) ≤ d.value ∧
      d.value < 10 ^ (d.exponent + (Nat.toDigits 10 d.digits).length) := by
  have some_digit := Nat.length_toDigits_pos (b := 10) (n := d.digits)
  generalize lengthIs : (Nat.toDigits 10 d.digits).length = length at some_digit
  have low : 10 ^ (length - 1) ≤ d.digits := by
    by_contra less
    rcases Nat.eq_zero_or_pos (length - 1) with one | more
    · rw [one] at less
      omega
    · have := (Nat.length_toDigits_le_iff (by decide) more).mpr (Nat.lt_of_not_le less)
      omega
  have high : d.digits < 10 ^ length :=
    (Nat.length_toDigits_le_iff (by decide) some_digit).mp lengthIs.le
  have unit := ten_zpow_pos d.exponent
  constructor
  · have shift : d.exponent + (length : Int) - 1 = (length - 1 : Nat) + d.exponent := by omega
    rw [shift, zpow_add₀ (by norm_num), zpow_natCast]
    exact mul_le_mul_of_nonneg_right (by exact_mod_cast low) unit.le
  · rw [add_comm, zpow_add₀ (by norm_num), zpow_natCast]
    exact mul_lt_mul_of_pos_right (by exact_mod_cast high) unit

lemma value_lt_of_fraction (finite : isFinite x = true) (nonzero : 0 < (parts x).mantissa)
    (fraction : isWhole x = false) : (shortest (parts x)).value < 10 ^ (16 : Int) := by
  obtain ⟨_, attracts, _⟩ := shortest_spec (parts_canonical finite) nonzero
  have low : (parts x).exponent < 0 := by
    unfold isWhole at fraction
    simp only [Bool.or_eq_false_iff, decide_eq_false_iff_not] at fraction
    omega
  have mantissa : ((parts x).mantissa : ℚ) + 1 ≤ 2 ^ 53 := by exact_mod_cast (parts_canonical finite).mantissa
  calc (shortest (parts x)).value ≤ (interval (parts x)).high * (parts x).quarter := attracts.2.1
    _ ≤ (interval (parts x)).high * (2 ^ (-3 : Int)) := by
        refine mul_le_mul_of_nonneg_left (zpow_le_zpow_right₀ (by norm_num) (by omega)) (by positivity)
    _ < 10 ^ (16 : Int) := by
        rw [interval_high]
        norm_num
        linarith

lemma ofFloat_cases (finite : isFinite x = true) (nonzero : 0 < (parts x).mantissa) :
    (ofFloat x = (if isNegative x then "-" else "") ++ positional (Nat.toDigits 10 (shortest (parts x)).digits)
      ((shortest (parts x)).exponent + (Nat.toDigits 10 (shortest (parts x)).digits).length)) ∨
      hasExponent x = true ∧
        ((shortest (parts x)).value < 10 ^ (-4 : Int) ∨ 10 ^ (16 : Int) ≤ (shortest (parts x)).value) := by
  obtain ⟨digits, _, _⟩ := shortest_spec (parts_canonical finite) nonzero
  obtain ⟨low, high⟩ := value_bounds digits
  have text : ofFloat x = (if isNegative x then "-" else "") ++ ofPositive (parts x) := by
    unfold ofFloat
    simp only [isNaN_of_isFinite finite, finite, Bool.false_eq_true, if_false, Bool.not_true,
      if_neg (Nat.ne_of_gt nonzero)]
  unfold hasExponent
  rw [text]
  unfold ofPositive
  dsimp only
  generalize (shortest (parts x)).exponent + ((Nat.toDigits 10 (shortest (parts x)).digits).length : Int) = whole
    at low high ⊢
  have choice : (decide (-4 ≤ whole - 1) && decide (whole - 1 < 16)) = true ↔ -4 ≤ whole - 1 ∧ whole - 1 < 16 := by
    rw [Bool.and_eq_true, decide_eq_true_eq, decide_eq_true_eq]
  by_cases inner : -4 ≤ whole - 1 ∧ whole - 1 < 16
  · left
    rw [if_pos (choice.mpr inner), sub_add_cancel]
  · right
    rw [if_neg fun chosen => inner (choice.mp chosen)]
    constructor
    · rw [String.toList_append, contains_eq_mem, decide_eq_true_eq]
      refine mem_append_right _ ?_
      simp [scientific]
    · rcases not_and_or.mp inner with below | above
      · exact Or.inl (high.trans_le (zpow_le_zpow_right₀ (by norm_num) (by omega)))
      · exact Or.inr ((zpow_le_zpow_right₀ (by norm_num) (by omega)).trans low)

lemma spells_numberText (finite : isFinite x = true)
    (range : (parts x).mantissa = 0 ∨ (10 : ℚ) ^ (-4 : Int) ≤ (parts x).size ∧ (parts x).size < 10 ^ (21 : Int)) :
    Spells x (Datum.numberText x) := by
  unfold Datum.numberText
  simp only [isNaN_of_isFinite finite, finite, Bool.false_eq_true, if_false, Bool.not_true]
  by_cases whole : isWhole x = true
  · have small : (truncate x).natAbs < tenTo 21 := by
      obtain ⟨n, size, same⟩ := truncate_eq whole
      have abs : (truncate x).natAbs = n := by
        rw [same]
        split <;> simp
      rw [abs, tenTo_eq]
      rcases range with zero | ⟨_, high⟩
      · rw [Parts.size, zero, Nat.cast_zero, zero_mul] at size
        have : n = 0 := by exact_mod_cast size
        rw [this]
        exact Nat.pow_pos (by decide)
      · rw [← size] at high
        exact_mod_cast high
    rw [if_pos (by simp [whole, small])]
    exact spells_ofInt finite whole
  · rw [if_neg (by simp [whole])]
    have nonzero : 0 < (parts x).mantissa := pos_of_ne_zero fun zero => whole (isWhole_of_zero zero)
    obtain ⟨_, _, above⟩ := shortest_spec (parts_canonical finite) nonzero
    have low := above _ (range.resolve_left (ne_of_gt nonzero)).1
    have high := value_lt_of_fraction finite nonzero (Bool.not_eq_true _ ▸ whole)
    rcases ofFloat_cases finite nonzero with text | ⟨_, outside | outside⟩
    · rw [text]
      exact spells_positional finite nonzero
    · exact absurd low (not_le.mpr outside)
    · exact absurd high (not_lt.mpr outside)

lemma spells_literal {n : Num} (finite : isFinite n.val = true) :
    ∃ text, Datum.literal? (.num n) = some text ∧ Spells n.val text := by
  have number := isNaN_of_isFinite finite
  have literal : Datum.literal? (.num n) =
      if hasExponent n.val then some (spelledOut n.val) else some (Datum.numberText n.val) := by
    simp only [Datum.literal?, number, finite, Bool.false_eq_true, if_false, Bool.not_true]
  rw [literal]
  rcases Nat.eq_zero_or_pos (parts n.val).mantissa with zero | nonzero
  · have plain : hasExponent n.val = false := by
      unfold hasExponent ofFloat
      simp only [number, finite, zero, Bool.false_eq_true, if_false, Bool.not_true, if_true]
      cases isNegative n.val <;> decide
    rw [plain]
    exact ⟨_, rfl, spells_numberText finite (Or.inl zero)⟩
  · by_cases marked : hasExponent n.val = true
    · rw [if_pos marked]
      exact ⟨_, rfl, spells_spelledOut finite nonzero⟩
    · rw [if_neg marked]
      refine ⟨_, rfl, ?_⟩
      unfold Datum.numberText
      simp only [number, finite, Bool.false_eq_true, if_false, Bool.not_true]
      by_cases whole : (isWhole n.val && decide ((truncate n.val).natAbs < tenTo 21)) = true
      · rw [if_pos whole]
        exact spells_ofInt finite (Bool.and_eq_true _ _ ▸ whole).1
      · rw [if_neg whole]
        rcases ofFloat_cases finite nonzero with text | ⟨exponent, _⟩
        · rw [text]
          exact spells_positional finite nonzero
        · exact absurd exponent marked

end TagScript.Numeral
