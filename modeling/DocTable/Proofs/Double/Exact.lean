import Mathlib.Algebra.Order.Field.Power
import Mathlib.Data.Rat.Cast.Order
import Mathlib.Tactic.FieldSimp
import Mathlib.Tactic.Linarith
import Mathlib.Tactic.NormNum
import Mathlib.Tactic.Qify
import Mathlib.Tactic.Ring
import DocTable.Double.Rounding

/-!
# The exact values of doubles

A double stands for a rational number. The nonnegative ones ascend with their
places, which are evenly spaced between two powers of two, so rounding an integer
never crosses another double: every double below the integer is below the
rounded one, and the same holds above. Nor does it turn the order of two integers
around: either a power of two stands between them, or they are rounded to the
same last place.
-/

namespace DocTable.Double

/-- The exact value. -/
def toRat (value : Double) : ℚ :=
  if value.negative then -(value.significand * 2 ^ value.exponent)
  else value.significand * 2 ^ value.exponent

/-- The exact value at a place among the nonnegative doubles. -/
def atPlace (place : Nat) : ℚ :=
  if place / hiddenBit = 0 then place * 2 ^ (-1074 : ℤ)
  else (hiddenBit + place % hiddenBit : ℕ) * 2 ^ (((place / hiddenBit : ℕ) : ℤ) - 1075)

theorem toRat_eq (value : Double) :
    value.toRat = if value.negative then -atPlace value.magnitude else atPlace value.magnitude := by
  have absolute : (value.significand * 2 ^ value.exponent : ℚ) = atPlace value.magnitude := by
    unfold significand exponent atPlace exponentField
    by_cases subnormal : value.magnitude / hiddenBit = 0
    · simp only [subnormal, if_true]
    · simp only [subnormal, if_false]
  rw [toRat, absolute]

/-- Between two powers of two, and below the least normal value, places are evenly spaced. -/
theorem atPlace_binade {exponent significand : Nat}
    (normal : exponent = 0 ∨ hiddenBit ≤ significand) (inside : significand ≤ 2 * hiddenBit) :
    atPlace (exponent * hiddenBit + significand) =
      significand * 2 ^ ((exponent : ℤ) - 1074) := by
  have positive : 0 < hiddenBit := by decide
  rcases Nat.lt_or_ge significand hiddenBit with small | large
  · have subnormal : exponent = 0 := by omega
    rw [subnormal, Nat.zero_mul, Nat.zero_add, atPlace, if_pos (Nat.div_eq_of_lt small)]
    rfl
  · rcases Nat.lt_or_eq_of_le inside with below | top
    · obtain ⟨fraction, rfl⟩ := Nat.exists_eq_add_of_le large
      have narrow : fraction < hiddenBit := by omega
      have place : exponent * hiddenBit + (hiddenBit + fraction) =
          fraction + hiddenBit * (exponent + 1) := by ring
      have field : (fraction + hiddenBit * (exponent + 1)) / hiddenBit = exponent + 1 := by
        rw [Nat.add_mul_div_left _ _ positive, Nat.div_eq_of_lt narrow, Nat.zero_add]
      have rest : (fraction + hiddenBit * (exponent + 1)) % hiddenBit = fraction := by
        rw [Nat.add_mul_mod_self_left, Nat.mod_eq_of_lt narrow]
      have power : ((exponent + 1 : ℕ) : ℤ) - 1075 = (exponent : ℤ) - 1074 := by omega
      rw [place, atPlace, field, rest, if_neg (Nat.succ_ne_zero _), power]
    · have place : exponent * hiddenBit + 2 * hiddenBit = hiddenBit * (exponent + 2) := by ring
      have power : ((exponent + 2 : ℕ) : ℤ) - 1075 = ((exponent : ℤ) - 1074) + 1 := by omega
      rw [top, place, atPlace, Nat.mul_div_cancel_left _ positive, Nat.mul_mod_right,
        if_neg (Nat.succ_ne_zero _), power, zpow_add_one₀ two_ne_zero]
      push_cast
      ring

theorem atPlace_strictMono : StrictMono atPlace := by
  apply strictMono_nat_of_lt_succ
  intro place
  obtain ⟨exponent, significand, rfl, normal, below⟩ : ∃ exponent significand,
      place = exponent * hiddenBit + significand ∧ (exponent = 0 ∨ hiddenBit ≤ significand) ∧
        significand < 2 * hiddenBit := by
    refine ⟨place / hiddenBit - 1, place - (place / hiddenBit - 1) * hiddenBit, ?_⟩
    simp only [hiddenBit]
    omega
  have later : exponent = 0 ∨ hiddenBit ≤ significand + 1 := by omega
  rw [Nat.add_assoc, atPlace_binade normal below.le, atPlace_binade later below]
  have unit : (0 : ℚ) < 2 ^ ((exponent : ℤ) - 1074) := zpow_pos two_pos _
  push_cast
  linarith

theorem atPlace_zero : atPlace 0 = 0 := by simp [atPlace]

theorem atPlace_nonneg (place : Nat) : 0 ≤ atPlace place := by
  rw [← atPlace_zero]
  exact atPlace_strictMono.monotone (Nat.zero_le place)

theorem orderKey_lt_of_toRat_lt {left right : Double} (less : left.toRat < right.toRat) :
    left.orderKey < right.orderKey := by
  have leftNonneg := atPlace_nonneg left.magnitude
  have rightNonneg := atPlace_nonneg right.magnitude
  rw [toRat_eq, toRat_eq] at less
  unfold orderKey
  cases leftSign : left.negative <;> cases rightSign : right.negative <;>
    simp only [leftSign, rightSign, Bool.false_eq_true, if_false, if_true] at less ⊢
  case false.false =>
    have places := atPlace_strictMono.lt_iff_lt.1 less
    omega
  case false.true => linarith
  case true.false => omega
  case true.true =>
    have places := atPlace_strictMono.lt_iff_lt.1 (neg_lt_neg_iff.1 less)
    omega

/-! ## Rounding integers -/

theorem binaryExponent_one {value : Nat} (positive : 0 < value) :
    binaryExponent value 1 = value.log2 := by
  have bound : 2 ^ value.log2 ≤ value := Nat.log2_self_le (Nat.ne_of_gt positive)
  have one : Nat.log2 1 = 0 := by decide
  have negated : (-(value.log2 : ℤ)).toNat = 0 := by omega
  simp [binaryExponent, scale, one, negated, Nat.shiftLeft_eq, bound]

theorem scale_exact {numerator denominator : Nat} {power : ℤ} {top bottom : Nat}
    (scaled : scale numerator denominator power = (top, bottom)) :
    (top * denominator : ℚ) = numerator * 2 ^ power * bottom := by
  rw [scale, Prod.mk.injEq, Nat.shiftLeft_eq, Nat.shiftLeft_eq] at scaled
  rcases scaled with ⟨rfl, rfl⟩
  cases power with
  | ofNat exponent =>
      have forward : (Int.ofNat exponent).toNat = exponent := rfl
      have backward : (-Int.ofNat exponent).toNat = 0 := by simp
      rw [forward, backward, Int.ofNat_eq_natCast, zpow_natCast]
      push_cast
      ring
  | negSucc exponent =>
      have forward : (Int.negSucc exponent).toNat = 0 := rfl
      have backward : (-Int.negSucc exponent).toNat = exponent + 1 := rfl
      rw [forward, backward, zpow_negSucc]
      push_cast
      field_simp

theorem bottom_pos {numerator denominator : Nat} {power : ℤ} {top bottom : Nat}
    (positive : 0 < denominator) (scaled : scale numerator denominator power = (top, bottom)) :
    0 < bottom := by
  rw [scale, Prod.mk.injEq, Nat.shiftLeft_eq denominator] at scaled
  rw [← scaled.2]
  exact Nat.mul_pos positive (Nat.two_pow_pos _)

theorem roundHalfEven_exact (numerator : Nat) {denominator : Nat} (positive : 0 < denominator) :
    (roundHalfEven numerator denominator : ℚ) ≤ numerator / denominator + 1 / 2 ∧
      (numerator / denominator : ℚ) ≤ roundHalfEven numerator denominator + 1 / 2 := by
  rcases roundHalfEven_near numerator denominator positive with ⟨above, below⟩
  have divisor : (0 : ℚ) < denominator := by exact_mod_cast positive
  qify at above below
  constructor
  · rw [← sub_le_iff_le_add, le_div_iff₀ divisor]
    linarith
  · rw [div_le_iff₀ divisor]
    linarith

/-- A value between two powers of two is not separated from the place whose significand is the
value in units of the last place, rounded. -/
theorem nearest_place {value : ℚ} {exponent significand : Nat}
    (lower : (2 ^ 52 : ℚ) ≤ value) (upper : value < 2 ^ 53)
    (above : (significand : ℚ) ≤ value + 1 / 2) (below : value ≤ significand + 1 / 2) :
    significand ≤ 2 * hiddenBit ∧
      (∀ other, value * 2 ^ ((exponent : ℤ) - 1074) ≤ atPlace other →
        exponent * hiddenBit + significand ≤ other) ∧
      ∀ other, atPlace other ≤ value * 2 ^ ((exponent : ℤ) - 1074) →
        other ≤ exponent * hiddenBit + significand := by
  have unit : (0 : ℚ) < 2 ^ ((exponent : ℤ) - 1074) := zpow_pos two_pos _
  have hidden : (hiddenBit : ℚ) = 2 ^ 52 := by norm_num [hiddenBit]
  have least : hiddenBit ≤ significand := by
    have under : (hiddenBit : ℚ) < significand + 1 := by linarith
    exact Nat.lt_succ_iff.1 (by exact_mod_cast under)
  have greatest : significand ≤ 2 * hiddenBit := by
    have under : (significand : ℚ) < ((2 * hiddenBit + 1 : ℕ) : ℚ) := by push_cast; linarith
    exact Nat.lt_succ_iff.1 (by exact_mod_cast under)
  refine ⟨greatest, ?_, ?_⟩
  · intro other bound
    by_contra! less
    rcases Nat.eq_or_lt_of_le least with power | inside
    · have place := atPlace_strictMono less
      rw [atPlace_binade (.inr least) greatest, ← power, hidden] at place
      have scaled := mul_le_mul_of_nonneg_right lower unit.le
      linarith
    · obtain ⟨previous, rfl⟩ := Nat.exists_eq_succ_of_ne_zero (Nat.ne_zero_of_lt inside)
      have before : other ≤ exponent * hiddenBit + previous := by omega
      have place := atPlace_strictMono.monotone before
      rw [atPlace_binade (.inr (Nat.lt_succ_iff.1 inside)) (Nat.le_of_succ_le greatest)] at place
      have between := le_of_mul_le_mul_right (bound.trans place) unit
      push_cast at above
      linarith
  · intro other bound
    by_contra! greater
    rcases Nat.eq_or_lt_of_le greatest with power | inside
    · have place := atPlace_strictMono greater
      rw [atPlace_binade (.inr least) greatest, power] at place
      push_cast [hidden] at place
      have scaled := mul_lt_mul_of_pos_right upper unit
      linarith
    · have behind : exponent * hiddenBit + (significand + 1) ≤ other := greater
      have place := atPlace_strictMono.monotone behind
      rw [atPlace_binade (.inr (Nat.le_succ_of_le least)) inside] at place
      have between := le_of_mul_le_mul_right (place.trans bound) unit
      push_cast at between
      linarith

/-- A positive integer is rounded to a place that no other place separates from it. -/
theorem exists_place {value : Nat} (positive : 0 < value)
    (small : value ≤ 0x10000000000000000) :
    ∃ place finite, (∀ negative, nearest? negative value 1 = some ⟨negative, place, finite⟩) ∧
      (∀ other, (value : ℚ) ≤ atPlace other → place ≤ other) ∧
        ∀ other, atPlace other ≤ value → other ≤ place := by
  have nonzero : value ≠ 0 := Nat.ne_of_gt positive
  have width : value.log2 < 65 := (Nat.log2_lt nonzero).2 (Nat.lt_of_le_of_lt small (by decide))
  -- the exponent of the last place, and the value in units of that place
  obtain ⟨exponent, field⟩ : ∃ exponent : ℕ, (exponent : ℤ) - 1074 = value.log2 - 52 :=
    ⟨value.log2 + 1022, by push_cast; ring⟩
  have unit : (0 : ℚ) < 2 ^ ((exponent : ℤ) - 1074) := zpow_pos two_pos _
  have units : (2 ^ 52 * 2 ^ ((exponent : ℤ) - 1074) : ℚ) = 2 ^ value.log2 := by
    rw [← zpow_natCast, ← zpow_natCast, ← zpow_add₀ two_ne_zero, field]
    congr 1
    push_cast
    ring
  have lower : (2 ^ 52 : ℚ) ≤ value * 2 ^ (-((exponent : ℤ) - 1074)) := by
    rw [zpow_neg, ← div_eq_mul_inv, le_div_iff₀ unit, units]
    exact_mod_cast Nat.log2_self_le nonzero
  have upper : (value * 2 ^ (-((exponent : ℤ) - 1074)) : ℚ) < 2 ^ 53 := by
    rw [zpow_neg, ← div_eq_mul_inv, div_lt_iff₀ unit, pow_succ 2 52, mul_right_comm, units]
    exact_mod_cast Nat.lt_log2_self
  rcases scaled : scale value 1 (-((exponent : ℤ) - 1074)) with ⟨top, bottom⟩
  have divisor := bottom_pos Nat.one_pos scaled
  have quotient : (top / bottom : ℚ) = value * 2 ^ (-((exponent : ℤ) - 1074)) := by
    have exact := scale_exact scaled
    rw [Nat.cast_one, mul_one] at exact
    rw [exact, mul_div_cancel_right₀ _ (by exact_mod_cast divisor.ne')]
  rcases roundHalfEven_exact top divisor with ⟨above, below⟩
  rw [quotient] at above below
  have back :
      (value * 2 ^ (-((exponent : ℤ) - 1074)) * 2 ^ ((exponent : ℤ) - 1074) : ℚ) = value := by
    rw [mul_assoc, ← zpow_add₀ two_ne_zero, neg_add_cancel, zpow_zero, mul_one]
  rcases nearest_place lower upper above below with ⟨greatest, atMost, atLeast⟩
  rw [back] at atMost atLeast
  have finite : exponent * hiddenBit + roundHalfEven top bottom < magnitudeBound := by
    have narrow : exponent ≤ 1100 := by omega
    calc exponent * hiddenBit + roundHalfEven top bottom
        ≤ 1100 * hiddenBit + 2 * hiddenBit :=
          Nat.add_le_add (Nat.mul_le_mul_right _ narrow) greatest
      _ < magnitudeBound := by decide
  refine ⟨_, finite, fun negative => ?_, atMost, atLeast⟩
  have normal : max (-1074) (binaryExponent value 1 - 52) = (exponent : ℤ) - 1074 := by
    rw [binaryExponent_one positive]
    omega
  have biased : ((exponent : ℤ) - 1074 + 1074).toNat = exponent := by omega
  simp only [nearest?, if_neg nonzero, normal, scaled, assemble?, biased]
  exact dif_pos finite

/-- A double above an integer is not below the rounded integer. -/
def RoundsTo (value : Int) (rounded : Double) : Prop :=
  ∀ other : Double, ((value : ℚ) < other.toRat → rounded.orderKey ≤ other.orderKey) ∧
    (other.toRat < value → other.orderKey ≤ rounded.orderKey)

theorem toRat_negate (value : Double) : value.negate.toRat = -value.toRat := by
  rw [toRat_eq, toRat_eq, negate]
  cases value.negative <;> simp

theorem orderKey_negate (value : Double) : value.negate.orderKey = -value.orderKey - 1 := by
  rw [orderKey, orderKey, negate]
  cases value.negative <;> simp

theorem RoundsTo.negate {value : Int} {rounded : Double} (rounds : RoundsTo value rounded) :
    RoundsTo (-value) rounded.negate := by
  intro other
  have mirrored := rounds other.negate
  rw [toRat_negate, orderKey_negate] at mirrored
  rw [orderKey_negate, Int.cast_neg]
  refine ⟨fun above => ?_, fun below => ?_⟩
  · have keys := mirrored.2 (neg_lt.1 above)
    omega
  · have keys := mirrored.1 (lt_neg.1 below)
    omega

theorem roundsTo_zero : RoundsTo 0 zero := by
  intro other
  have nonneg := atPlace_nonneg other.magnitude
  have key : zero.orderKey = 0 := rfl
  rw [toRat_eq, key, orderKey, Int.cast_zero]
  cases other.negative with
  | false => exact ⟨fun _ => Int.natCast_nonneg _, fun below => absurd nonneg (not_le.2 below)⟩
  | true =>
      simp only [if_true]
      exact ⟨fun above => by linarith, fun _ => by omega⟩

theorem roundsTo_natCast {value place : Nat} {finite : place < magnitudeBound}
    (atMost : ∀ other, (value : ℚ) ≤ atPlace other → place ≤ other)
    (atLeast : ∀ other, atPlace other ≤ value → other ≤ place) :
    RoundsTo value ⟨false, place, finite⟩ := by
  intro other
  have nonneg := atPlace_nonneg other.magnitude
  have own : (0 : ℚ) ≤ value := Nat.cast_nonneg value
  rw [toRat_eq, orderKey, orderKey, Int.cast_natCast]
  cases other.negative with
  | false =>
      simp only [Bool.false_eq_true, if_false]
      exact ⟨fun above => by exact_mod_cast atMost _ above.le,
        fun below => by exact_mod_cast atLeast _ below.le⟩
  | true =>
      simp only [Bool.false_eq_true, if_false, if_true]
      exact ⟨fun above => by linarith, fun _ => by omega⟩

/-- Every integer of 64 bits, signed or not, is rounded to a double. -/
theorem exists_ofInt? {value : Int} (small : value.natAbs ≤ 0x10000000000000000) :
    ∃ rounded, ofInt? value = some rounded ∧ RoundsTo value rounded := by
  rcases Int.lt_trichotomy value 0 with negative | rfl | positive
  · have mirrored : -(value.natAbs : Int) = value := by omega
    rcases exists_place (by omega) small with ⟨place, finite, rounded, atMost, atLeast⟩
    refine ⟨⟨true, place, finite⟩, ?_, ?_⟩
    · rw [ofInt?, decide_eq_true negative, rounded]
    · have rounds : RoundsTo value.natAbs ⟨false, place, finite⟩ := roundsTo_natCast atMost atLeast
      rw [← mirrored]
      exact rounds.negate
  · exact ⟨zero, rfl, roundsTo_zero⟩
  · have own : (value.natAbs : Int) = value := by omega
    rcases exists_place (by omega) small with ⟨place, finite, rounded, atMost, atLeast⟩
    refine ⟨⟨false, place, finite⟩, ?_, ?_⟩
    · rw [ofInt?, decide_eq_false (by omega), rounded]
    · rw [← own]
      exact roundsTo_natCast atMost atLeast

theorem roundHalfEven_mono {smaller greater : Nat} (le : smaller ≤ greater) (denominator : Nat) :
    roundHalfEven smaller denominator ≤ roundHalfEven greater denominator := by
  have between (numerator : Nat) : numerator / denominator ≤ roundHalfEven numerator denominator ∧
      roundHalfEven numerator denominator ≤ numerator / denominator + 1 := by
    simp only [roundHalfEven]
    split
    · omega
    · split
      · omega
      · split <;> omega
  rcases Nat.lt_or_eq_of_le (Nat.div_le_div_right le : smaller / denominator ≤
    greater / denominator) with less | same
  · exact (between smaller).2.trans (Nat.le_trans less (between greater).1)
  · -- With one quotient the remainders decide.
    have remainders : smaller % denominator ≤ greater % denominator := by
      have first := Nat.div_add_mod smaller denominator
      have second := Nat.div_add_mod greater denominator
      rw [same] at first
      omega
    simp only [roundHalfEven, same]
    split <;> split <;> try split <;> try split <;> try split
    all_goals omega

theorem exists_place_two_pow (power : Nat) : ∃ place, atPlace place = 2 ^ power := by
  refine ⟨(power + 1022) * hiddenBit + hiddenBit, ?_⟩
  have hidden : (hiddenBit : ℚ) = 2 ^ (52 : ℤ) := by norm_num [hiddenBit]
  have exponent : (52 : ℤ) + (((power + 1022 : ℕ) : ℤ) - 1074) = power := by push_cast; ring
  rw [atPlace_binade (.inr le_rfl) (by omega), hidden, ← zpow_add₀ two_ne_zero, exponent,
    zpow_natCast]

/-- The place of a rounded integer: the exponent depends on the bit length alone. -/
theorem magnitude_of_nearest? {value : Nat} (positive : 0 < value) {negative : Bool}
    {rounded : Double} (found : nearest? negative value 1 = some rounded) :
    ∃ exponent : ℤ, exponent = max (-1074) ((value.log2 : ℤ) - 52) ∧
      rounded.magnitude = (exponent + 1074).toNat * hiddenBit +
        roundHalfEven (scale value 1 (-exponent)).1 (scale value 1 (-exponent)).2 := by
  refine ⟨_, rfl, ?_⟩
  rw [nearest?, if_neg (Nat.ne_of_gt positive), binaryExponent_one positive] at found
  simp only [assemble?] at found
  split at found
  · cases found
    rfl
  · cases found

/-- Rounding keeps the order of absolute values. -/
theorem magnitude_le_of_nearest? {smaller greater : Nat} (le : smaller ≤ greater)
    (small : greater ≤ 0x10000000000000000) {negative : Bool} {left right : Double}
    (leftFound : nearest? negative smaller 1 = some left)
    (rightFound : nearest? negative greater 1 = some right) :
    left.magnitude ≤ right.magnitude := by
  rcases Nat.eq_zero_or_pos smaller with rfl | positive
  · cases leftFound
    exact Nat.zero_le _
  · have greaterPositive := Nat.lt_of_lt_of_le positive le
    rcases Nat.lt_or_eq_of_le ((Nat.le_log2 greaterPositive.ne').2
      ((Nat.log2_self_le positive.ne').trans le)) with less | same
    · -- The power of two between them is a double.
      rcases exists_place positive (le.trans small) with ⟨leftPlace, _, leftRounds, atMost, -⟩
      rcases exists_place greaterPositive small with ⟨rightPlace, _, rightRounds, -, atLeast⟩
      rcases exists_place_two_pow greater.log2 with ⟨place, power⟩
      rw [leftRounds negative] at leftFound
      rw [rightRounds negative] at rightFound
      cases leftFound
      cases rightFound
      have below : (smaller : ℚ) ≤ atPlace place := by
        rw [power]
        exact_mod_cast ((Nat.log2_lt (Nat.ne_of_gt positive)).1 less).le
      have above : atPlace place ≤ greater := by
        rw [power]
        exact_mod_cast Nat.log2_self_le (Nat.ne_of_gt greaterPositive)
      exact (atMost place below).trans (atLeast place above)
    · rcases magnitude_of_nearest? positive leftFound with ⟨exponent, own, leftPlace⟩
      rcases magnitude_of_nearest? greaterPositive rightFound with ⟨_, other, rightPlace⟩
      rw [← same, ← own] at other
      subst other
      rw [leftPlace, rightPlace]
      apply Nat.add_le_add_left
      simp only [scale, Nat.shiftLeft_eq]
      exact roundHalfEven_mono (Nat.mul_le_mul_right _ le) _

theorem negative_of_nearest? {negative : Bool} {value : Nat} {rounded : Double}
    (found : nearest? negative value 1 = some rounded) : rounded.negative = negative := by
  rw [nearest?] at found
  split at found
  · cases found
    rfl
  · simp only [assemble?] at found
    split at found
    · cases found
      rfl
    · cases found

/-- Rounding keeps the order of integers. -/
theorem orderKey_le_of_ofInt? {smaller greater : Int} (le : smaller ≤ greater)
    (leftSmall : smaller.natAbs ≤ 0x10000000000000000)
    (rightSmall : greater.natAbs ≤ 0x10000000000000000) {left right : Double}
    (leftFound : ofInt? smaller = some left) (rightFound : ofInt? greater = some right) :
    left.orderKey ≤ right.orderKey := by
  rw [ofInt?] at leftFound rightFound
  have leftSign := negative_of_nearest? leftFound
  have rightSign := negative_of_nearest? rightFound
  rw [orderKey, orderKey, leftSign, rightSign]
  rcases lt_or_ge smaller 0 with leftNegative | leftNonneg
  · rcases lt_or_ge greater 0 with rightNegative | rightNonneg
    · rw [decide_eq_true leftNegative] at leftFound
      rw [decide_eq_true rightNegative] at rightFound
      have magnitudes := magnitude_le_of_nearest? (by omega) leftSmall rightFound leftFound
      simp only [leftNegative, rightNegative, decide_true, if_true]
      omega
    · simp only [leftNegative, not_lt.2 rightNonneg, decide_true, decide_false, if_true,
        Bool.false_eq_true, if_false]
      omega
  · have rightNonneg := leftNonneg.trans le
    rw [decide_eq_false (not_lt.2 leftNonneg)] at leftFound
    rw [decide_eq_false (not_lt.2 rightNonneg)] at rightFound
    have magnitudes := magnitude_le_of_nearest? (by omega) rightSmall leftFound rightFound
    simp only [not_lt.2 leftNonneg, not_lt.2 rightNonneg, decide_false, Bool.false_eq_true,
      if_false]
    omega

end DocTable.Double
