import DocTable.Proofs.Double.Exact

/-!
# Sums that are too large

A quotient is rounded to no double exactly if it reaches the middle between the greatest
double and the next power of two, where a tie would go to the power. So two doubles have no
sum exactly if their exact sum reaches that bound.
-/

namespace DocTable.Double

/-- The exact value of the greatest double. -/
def greatest : ℚ := 2 ^ 1024 - 2 ^ 971

/-- The least absolute value that is not rounded to a double: it is in the middle between the
greatest one and the next power of two. -/
def overflow : ℚ := 2 ^ 1024 - 2 ^ 970

theorem scale_div {numerator denominator : Nat} {power : ℤ} {top bottom : Nat}
    (positive : 0 < denominator) (scaled : scale numerator denominator power = (top, bottom)) :
    (top / bottom : ℚ) = numerator / denominator * 2 ^ power := by
  have exact := scale_exact scaled
  have divisor : (denominator : ℚ) ≠ 0 := by exact_mod_cast positive.ne'
  have divisorScaled : (bottom : ℚ) ≠ 0 := by exact_mod_cast (bottom_pos positive scaled).ne'
  field_simp
  linarith

/-- The binary exponent of a quotient is the greatest power of two in it. -/
theorem binaryExponent_bounds {numerator denominator : Nat} (positive : 0 < numerator)
    (divisor : 0 < denominator) :
    (2 ^ binaryExponent numerator denominator : ℚ) ≤ numerator / denominator ∧
      (numerator / denominator : ℚ) < 2 ^ (binaryExponent numerator denominator + 1) := by
  have log_bounds {value : Nat} (positive : 0 < value) :
      (2 ^ (value.log2 : ℤ) : ℚ) ≤ value ∧ (value : ℚ) < 2 ^ ((value.log2 : ℤ) + 1) := by
    rw [← Nat.cast_succ, zpow_natCast, zpow_natCast]
    exact ⟨by exact_mod_cast Nat.log2_self_le positive.ne', by exact_mod_cast Nat.lt_log2_self⟩
  obtain ⟨topLower, topUpper⟩ := log_bounds positive
  obtain ⟨bottomLower, bottomUpper⟩ := log_bounds divisor
  have denominatorPos : (0 : ℚ) < denominator := by exact_mod_cast divisor
  obtain ⟨guess, isGuess⟩ : ∃ guess : ℤ, guess = (numerator.log2 : ℤ) - denominator.log2 :=
    ⟨_, rfl⟩
  have upper : (numerator / denominator : ℚ) < 2 ^ (guess + 1) := by
    rw [div_lt_iff₀ denominatorPos]
    calc (numerator : ℚ) < 2 ^ ((numerator.log2 : ℤ) + 1) := topUpper
      _ = 2 ^ (guess + 1) * 2 ^ (denominator.log2 : ℤ) := by
          rw [← zpow_add₀ two_ne_zero, isGuess]
          congr 1
          ring
      _ ≤ 2 ^ (guess + 1) * denominator :=
          mul_le_mul_of_nonneg_left bottomLower (zpow_pos two_pos _).le
  have lower : (2 ^ (guess - 1) : ℚ) ≤ numerator / denominator := by
    rw [le_div_iff₀ denominatorPos]
    calc (2 ^ (guess - 1) * denominator : ℚ)
        ≤ 2 ^ (guess - 1) * 2 ^ ((denominator.log2 : ℤ) + 1) :=
          mul_le_mul_of_nonneg_left bottomUpper.le (zpow_pos two_pos _).le
      _ = 2 ^ (numerator.log2 : ℤ) := by
          rw [← zpow_add₀ two_ne_zero, isGuess]
          congr 1
          ring
      _ ≤ numerator := topLower
  rcases scaled : scale numerator denominator (-guess) with ⟨top, bottom⟩
  have quotient := scale_div divisor scaled
  have bottomPos : (0 : ℚ) < bottom := by exact_mod_cast bottom_pos divisor scaled
  have compared : bottom ≤ top ↔ (2 ^ guess : ℚ) ≤ numerator / denominator := by
    have scaledBack : (2 ^ guess : ℚ) ≤ numerator / denominator ↔ (1 : ℚ) ≤ top / bottom := by
      rw [quotient, zpow_neg, ← div_eq_mul_inv, le_div_iff₀ (zpow_pos two_pos _), one_mul]
    rw [scaledBack, le_div_iff₀ bottomPos, one_mul, Nat.cast_le]
  simp only [binaryExponent, ← isGuess, scaled, compared]
  split
  · next reached => exact ⟨reached, upper⟩
  · next missed => exact ⟨lower, by simpa using missed⟩

/-- A quotient that is at least a half above an odd number is rounded up from it. -/
theorem lt_roundHalfEven_of_odd {numerator denominator bound : Nat} (positive : 0 < denominator)
    (odd : bound % 2 = 1) (half : (2 * bound + 1) * denominator ≤ 2 * numerator) :
    bound < roundHalfEven numerator denominator := by
  have split_numerator := Nat.div_add_mod numerator denominator
  have remainder := Nat.mod_lt numerator positive
  have reached : bound ≤ numerator / denominator := by
    rw [Nat.le_div_iff_mul_le positive]
    nlinarith
  simp only [roundHalfEven]
  rcases Nat.lt_or_eq_of_le reached with above | same
  · split
    · exact above
    · split
      · omega
      · split <;> omega
  · rw [← same] at split_numerator ⊢
    have rest : denominator ≤ 2 * (numerator % denominator) := by nlinarith
    rw [if_neg (by omega)]
    split
    · omega
    · rw [if_neg (by omega)]
      omega

/-- A positive quotient in units of its last place: the place is that of a subnormal value, or the
leading bit of the quotient is the one that is not stored. -/
theorem exists_units {numerator denominator : Nat} (positive : 0 < numerator)
    (divisor : 0 < denominator) :
    ∃ exponent top bottom : Nat, 0 < bottom ∧
      (numerator / denominator : ℚ) = top / bottom * 2 ^ ((exponent : ℤ) - 1074) ∧
      (top / bottom : ℚ) < 2 ^ 53 ∧ (exponent = 0 ∨ (2 ^ 52 : ℚ) ≤ top / bottom) ∧
      ∀ negative, nearest? negative numerator denominator =
        assemble? negative (roundHalfEven top bottom) ((exponent : ℤ) - 1074) := by
  obtain ⟨lower, upper⟩ := binaryExponent_bounds positive divisor
  obtain ⟨exponent, field⟩ : ∃ exponent : ℕ,
      (exponent : ℤ) - 1074 = max (-1074) (binaryExponent numerator denominator - 52) :=
    ⟨(max (-1074) (binaryExponent numerator denominator - 52) + 1074).toNat, by omega⟩
  rcases scaled : scale numerator denominator (-((exponent : ℤ) - 1074)) with ⟨top, bottom⟩
  have quotient := scale_div divisor scaled
  have unit : (0 : ℚ) < 2 ^ (-((exponent : ℤ) - 1074)) := zpow_pos two_pos _
  refine ⟨exponent, top, bottom, bottom_pos divisor scaled, ?_, ?_, ?_, ?_⟩
  · rw [quotient, mul_assoc, ← zpow_add₀ two_ne_zero, neg_add_cancel, zpow_zero, mul_one]
  · calc (top / bottom : ℚ) = numerator / denominator * 2 ^ (-((exponent : ℤ) - 1074)) := quotient
      _ < 2 ^ (binaryExponent numerator denominator + 1) * 2 ^ (-((exponent : ℤ) - 1074)) :=
          mul_lt_mul_of_pos_right upper unit
      _ = 2 ^ (binaryExponent numerator denominator + 1 - ((exponent : ℤ) - 1074)) := by
          rw [← zpow_add₀ two_ne_zero, ← sub_eq_add_neg]
      _ ≤ 2 ^ (53 : ℤ) := zpow_le_zpow_right₀ one_le_two (by omega)
      _ = 2 ^ 53 := by norm_num
  · rcases Nat.eq_zero_or_pos exponent with subnormal | normal
    · exact .inl subnormal
    · right
      calc (2 ^ 52 : ℚ) = 2 ^ (52 : ℤ) := by norm_num
        _ = 2 ^ binaryExponent numerator denominator * 2 ^ (-((exponent : ℤ) - 1074)) := by
            rw [← zpow_add₀ two_ne_zero]
            congr 1
            omega
        _ ≤ numerator / denominator * 2 ^ (-((exponent : ℤ) - 1074)) :=
            mul_le_mul_of_nonneg_right lower unit.le
        _ = top / bottom := quotient.symm
  · intro negative
    simp only [nearest?, if_neg positive.ne', ← field, scaled]

theorem assemble?_eq_none_iff (negative : Bool) (significand exponent : Nat) :
    assemble? negative significand ((exponent : ℤ) - 1074) = none ↔
      magnitudeBound ≤ exponent * hiddenBit + significand := by
  have biased : ((exponent : ℤ) - 1074 + 1074).toNat = exponent := by omega
  rw [assemble?, biased, dite_eq_right_iff]
  constructor
  · intro infinite
    by_contra finite
    cases infinite (Nat.not_le.1 finite)
  · intro large finite
    exact absurd finite (Nat.not_lt.2 large)

/-- The unit of the last place of the greatest double. -/
def lastUnit : ℚ := 2 ^ (((2045 : ℕ) : ℤ) - 1074)

theorem lastUnit_pos : 0 < lastUnit := zpow_pos two_pos _

theorem lastUnit_eq : lastUnit = 2 ^ 971 := by
  have place : ((2045 : ℕ) : ℤ) - 1074 = (971 : ℕ) := by omega
  rw [lastUnit, place, zpow_natCast]

theorem greatest_eq : greatest = (2 ^ 53 - 1) * lastUnit := by
  have power : (2 ^ 1024 : ℚ) = 2 ^ 53 * 2 ^ 971 := by rw [← pow_add]
  rw [greatest, power, ← lastUnit_eq]
  ring

theorem overflow_eq : overflow = (2 ^ 53 - 1 / 2) * lastUnit := by
  have power : (2 ^ 1024 : ℚ) = 2 ^ 53 * 2 ^ 971 := by rw [← pow_add]
  have half : lastUnit = 2 ^ 970 * 2 := by rw [lastUnit_eq, ← pow_succ]
  rw [overflow, power, ← lastUnit_eq, half]
  generalize (2 ^ 970 : ℚ) = unit
  ring

theorem hiddenBit_eq : (hiddenBit : ℚ) = 2 ^ 52 := by norm_num [hiddenBit]

theorem overflow_pos : 0 < overflow := by
  rw [overflow_eq]
  exact mul_pos (by norm_num) lastUnit_pos

theorem unit_mul_two_le {place other : ℕ} (less : place < other) :
    (2 ^ ((place : ℤ) - 1074) * 2 : ℚ) ≤ 2 ^ ((other : ℤ) - 1074) := by
  rw [← zpow_add_one₀ two_ne_zero]
  exact zpow_le_zpow_right₀ one_le_two (by omega)

/-- Only quotients of the greatest last place reach the bound without passing all doubles. -/
theorem overflow_le_iff {value : ℚ} {exponent : Nat} (narrow : value < 2 ^ 53)
    (normal : exponent = 0 ∨ (2 ^ 52 : ℚ) ≤ value) :
    overflow ≤ value * 2 ^ ((exponent : ℤ) - 1074) ↔
      2045 < exponent ∨ exponent = 2045 ∧ (2 ^ 53 - 1 / 2 : ℚ) ≤ value := by
  have unit : (0 : ℚ) < 2 ^ ((exponent : ℤ) - 1074) := zpow_pos two_pos _
  rw [overflow_eq]
  rcases Nat.lt_trichotomy exponent 2045 with small | rfl | large
  · rw [iff_false_right (by omega), not_le]
    calc value * 2 ^ ((exponent : ℤ) - 1074)
        ≤ 2 ^ 53 * 2 ^ ((exponent : ℤ) - 1074) := mul_le_mul_of_nonneg_right narrow.le unit.le
      _ = 2 ^ 52 * (2 ^ ((exponent : ℤ) - 1074) * 2) := by ring
      _ ≤ 2 ^ 52 * lastUnit := mul_le_mul_of_nonneg_left (unit_mul_two_le small) (by norm_num)
      _ < (2 ^ 53 - 1 / 2) * lastUnit := mul_lt_mul_of_pos_right (by norm_num) lastUnit_pos
  · rw [lastUnit, mul_le_mul_iff_left₀ unit]
    simp
  · rw [iff_true_right (.inl large)]
    have least : (2 ^ 52 : ℚ) ≤ value := normal.resolve_left (by omega)
    calc (2 ^ 53 - 1 / 2) * lastUnit
        ≤ 2 ^ 53 * lastUnit := mul_le_mul_of_nonneg_right (by norm_num) lastUnit_pos.le
      _ = 2 ^ 52 * (lastUnit * 2) := by ring
      _ ≤ 2 ^ 52 * 2 ^ ((exponent : ℤ) - 1074) :=
          mul_le_mul_of_nonneg_left (unit_mul_two_le large) (by norm_num)
      _ ≤ value * 2 ^ ((exponent : ℤ) - 1074) := mul_le_mul_of_nonneg_right least unit.le

/-- A quotient is rounded up to the next power of two from a half below it on. -/
theorem two_mul_hiddenBit_le_iff {top bottom : Nat} (positive : 0 < bottom) :
    2 * hiddenBit ≤ roundHalfEven top bottom ↔ (2 ^ 53 - 1 / 2 : ℚ) ≤ top / bottom := by
  have divisor : (0 : ℚ) < bottom := by exact_mod_cast positive
  constructor
  · intro reached
    have above := (roundHalfEven_exact top positive).1
    qify at reached
    rw [hiddenBit_eq] at reached
    linarith
  · intro reached
    have half : (2 * (2 * hiddenBit - 1) + 1) * bottom ≤ 2 * top := by
      have units : 2 * (2 * hiddenBit - 1) + 1 = 2 ^ 54 - 1 := rfl
      rw [le_div_iff₀ divisor] at reached
      rw [units]
      qify
      norm_num at reached ⊢
      linarith
    exact lt_roundHalfEven_of_odd positive rfl half

/-- A quotient is rounded to no double if and only if it reaches the bound. -/
theorem nearest?_eq_none_iff (negative : Bool) (numerator : Nat) {denominator : Nat}
    (divisor : 0 < denominator) :
    nearest? negative numerator denominator = none ↔
      overflow ≤ (numerator / denominator : ℚ) := by
  rcases Nat.eq_zero_or_pos numerator with rfl | positive
  · simp [nearest?, overflow_pos]
  · obtain ⟨exponent, top, bottom, bottomPos, units, narrow, normal, rounded⟩ :=
      exists_units positive divisor
    obtain ⟨above, below⟩ := roundHalfEven_exact top bottomPos
    have greatest : roundHalfEven top bottom ≤ 2 * hiddenBit := by
      have under : (roundHalfEven top bottom : ℚ) < ((2 * hiddenBit + 1 : ℕ) : ℚ) := by
        push_cast
        rw [hiddenBit_eq]
        linarith
      exact Nat.lt_succ_iff.1 (by exact_mod_cast under)
    have least : exponent = 0 ∨ hiddenBit ≤ roundHalfEven top bottom := by
      apply normal.imp_right
      intro least
      have beyond : (hiddenBit : ℚ) < ((roundHalfEven top bottom + 1 : ℕ) : ℚ) := by
        push_cast
        rw [hiddenBit_eq]
        linarith
      exact Nat.lt_succ_iff.1 (by exact_mod_cast beyond)
    rw [rounded, assemble?_eq_none_iff, units, overflow_le_iff narrow normal,
      ← two_mul_hiddenBit_le_iff bottomPos]
    simp only [magnitudeBound, hiddenBit] at greatest least ⊢
    omega

/-! ## Sums -/

/-- The significand of a double in units of a place that is not above its own, with the sign. -/
def signedUnits (value : Double) (exponent : ℤ) : ℤ :=
  let shifted : ℤ := value.significand <<< (value.exponent - exponent).toNat
  if value.negative then -shifted else shifted

theorem signedUnits_mul {value : Double} {exponent : ℤ} (le : exponent ≤ value.exponent) :
    (value.signedUnits exponent * 2 ^ exponent : ℚ) = value.toRat := by
  have shift : (2 ^ (value.exponent - exponent).toNat * 2 ^ exponent : ℚ) = 2 ^ value.exponent := by
    rw [← zpow_natCast, ← zpow_add₀ two_ne_zero]
    congr 1
    omega
  have absolute : ((value.significand <<< (value.exponent - exponent).toNat : ℕ) : ℚ) *
      2 ^ exponent = value.significand * 2 ^ value.exponent := by
    rw [Nat.shiftLeft_eq]
    push_cast
    rw [mul_assoc, shift]
  rw [toRat, signedUnits]
  cases value.negative with
  | false => exact absolute
  | true => rw [if_pos rfl, if_pos rfl, Int.cast_neg, neg_mul, Int.cast_natCast, absolute]

theorem add?_eq (left right : Double) :
    ∃ sum exponent : ℤ, (sum * 2 ^ exponent : ℚ) = left.toRat + right.toRat ∧
      left.add? right = if sum = 0 then nearest? (left.negative && right.negative) 0 1
        else nearestScaled? (sum < 0) sum.natAbs 1 exponent := by
  refine ⟨left.signedUnits (min left.exponent right.exponent) +
    right.signedUnits (min left.exponent right.exponent), min left.exponent right.exponent, ?_, rfl⟩
  rw [Int.cast_add, add_mul, signedUnits_mul (min_le_left _ _), signedUnits_mul (min_le_right _ _)]

/-- Two doubles have no sum if and only if their exact sum reaches the bound. -/
theorem add?_eq_none_iff (left right : Double) :
    left.add? right = none ↔ overflow ≤ |left.toRat + right.toRat| := by
  obtain ⟨sum, exponent, exact, rounded⟩ := add?_eq left right
  rw [rounded, ← exact]
  by_cases zero : sum = 0
  · simp [zero, nearest?, overflow_pos]
  · rcases scaled : scale sum.natAbs 1 exponent with ⟨top, bottom⟩
    have quotient : (top / bottom : ℚ) = |(sum : ℚ) * 2 ^ exponent| := by
      have unit : (0 : ℚ) < 2 ^ exponent := zpow_pos two_pos _
      rw [scale_div Nat.one_pos scaled, abs_mul, abs_of_pos unit, Nat.cast_natAbs, Int.cast_abs,
        Nat.cast_one, div_one]
    rw [if_neg zero, nearestScaled?, scaled,
      nearest?_eq_none_iff _ _ (bottom_pos Nat.one_pos scaled), quotient]

theorem abs_toRat (value : Double) : |value.toRat| = atPlace value.magnitude := by
  rw [toRat_eq]
  split
  · rw [abs_neg, abs_of_nonneg (atPlace_nonneg _)]
  · rw [abs_of_nonneg (atPlace_nonneg _)]

theorem abs_toRat_le (value : Double) : |value.toRat| ≤ greatest := by
  have last : value.magnitude ≤ 2045 * hiddenBit + (2 * hiddenBit - 1) :=
    Nat.le_of_lt_succ value.magnitude_lt
  have place := atPlace_strictMono.monotone last
  have units : ((2 * hiddenBit - 1 : ℕ) : ℚ) = 2 ^ 53 - 1 := by
    rw [Nat.cast_sub (by decide)]
    push_cast
    rw [hiddenBit_eq]
    ring
  rw [atPlace_binade (.inr (by decide)) (by decide), units] at place
  rwa [abs_toRat, greatest_eq, lastUnit]

/-- Rounding does not lift an integer of 64 bits over the power of two behind them. -/
theorem abs_toRat_ofInt? {value : Int} {rounded : Double}
    (small : value.natAbs ≤ 0x10000000000000000) (found : ofInt? value = some rounded) :
    |rounded.toRat| ≤ 2 ^ 64 := by
  rw [abs_toRat]
  rcases Nat.eq_zero_or_pos value.natAbs with zero | positive
  · have rounded_eq : rounded.magnitude = 0 := by
      rw [ofInt?, zero] at found
      cases found
      rfl
    rw [rounded_eq, atPlace_zero]
    positivity
  · obtain ⟨place, finite, nearest, atMost, -⟩ := exists_place positive small
    obtain ⟨bound, power⟩ := exists_place_two_pow 64
    rw [ofInt?, nearest] at found
    cases found
    have reached : (value.natAbs : ℚ) ≤ atPlace bound := by
      rw [power]
      exact_mod_cast small
    exact (atPlace_strictMono.monotone (atMost bound reached)).trans_eq power

theorem two_pow_le_lastUnit : (2 ^ 66 : ℚ) ≤ lastUnit := by
  rw [lastUnit, ← zpow_natCast]
  exact zpow_le_zpow_right₀ one_le_two (by omega)

theorem two_pow_le_greatest : (2 ^ 64 : ℚ) ≤ greatest := by
  have wide := two_pow_le_lastUnit
  rw [greatest_eq]
  linarith

theorem abs_add_lt {small other : ℚ} (narrow : |small| ≤ 2 ^ 64) (finite : |other| ≤ greatest) :
    |small + other| < overflow := by
  have wide := two_pow_le_lastUnit
  rw [greatest_eq] at finite
  rw [overflow_eq]
  calc |small + other| ≤ |small| + |other| := abs_add_le _ _
    _ ≤ 2 ^ 64 + (2 ^ 53 - 1) * lastUnit := add_le_add narrow finite
    _ < (2 ^ 53 - 1 / 2) * lastUnit := by linarith

end DocTable.Double
