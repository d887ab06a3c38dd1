import DocTable.Json.Number

/-!
# Numbers of equal value

Equality of numbers is an equivalence. It identifies nothing but the two zeros
among the doubles, and a sum of numbers does not tell them apart: it is the
same computation but for the sign of a zero.
-/

namespace DocTable

namespace Double

theorem same_iff (left right : Double) :
    left.same right = true ↔ left.magnitude = 0 ∧ right.magnitude = 0 ∨ left = right := by
  simp [same, isZero]

theorem same_symm {left right : Double} (same : left.same right = true) :
    right.same left = true := by
  rw [same_iff] at same ⊢
  exact same.imp And.symm Eq.symm

theorem same_trans {left middle right : Double} (first : left.same middle = true)
    (second : middle.same right = true) : left.same right = true := by
  rw [same_iff] at first second ⊢
  rcases first with ⟨zeroLeft, zero⟩ | rfl
  · rcases second with ⟨-, zeroRight⟩ | rfl
    · exact .inl ⟨zeroLeft, zeroRight⟩
    · exact .inl ⟨zeroLeft, zero⟩
  · exact second

/-- A zero of either sign adds the same to a double, up to the sign of a zero. -/
theorem add?_of_zero {left right : Double} (zeroLeft : left.magnitude = 0)
    (zeroRight : right.magnitude = 0) (amount : Double) :
    Option.Rel (fun first second => first.same second = true) (left.add? amount)
      (right.add? amount) := by
  have exponents : left.exponent = right.exponent := by
    simp [exponent, exponentField, zeroLeft, zeroRight]
  have significands : left.significand = 0 ∧ right.significand = 0 := by
    simp [significand, exponentField, zeroLeft, zeroRight]
  simp only [add?, exponents, significands, Nat.zero_shiftLeft, Int.ofNat_zero, Int.neg_zero,
    ite_self, Int.zero_add]
  generalize (if amount.negative = true then _ else _ : Int) = scaled
  by_cases isZero : scaled = 0
  · rw [if_pos isZero, if_pos isZero]
    exact .some (by simp [same_iff, zero])
  · rw [if_neg isZero, if_neg isZero]
    cases nearestScaled? _ _ _ _ with
    | none => exact .none
    | some sum => exact .some (same_self sum)

theorem add?_of_same {left right : Double} (same : left.same right = true) (amount : Double) :
    Option.Rel (fun first second => first.same second = true) (left.add? amount)
      (right.add? amount) := by
  rcases (same_iff left right).1 same with ⟨zeroLeft, zeroRight⟩ | rfl
  · exact add?_of_zero zeroLeft zeroRight amount
  · cases left.add? amount with
    | none => exact .none
    | some sum => exact .some (same_self sum)

end Double

namespace Number

theorem same_symm {left right : Number} (same : left.same right = true) :
    right.same left = true := by
  cases left with
  | integer _ _ =>
      cases right with
      | integer _ _ =>
          simp only [Number.same, beq_iff_eq] at same ⊢
          exact same.symm
      | double _ => cases same
  | double _ =>
      cases right with
      | integer _ _ => cases same
      | double _ => exact Double.same_symm same

theorem same_trans {left middle right : Number} (first : left.same middle = true)
    (second : middle.same right = true) : left.same right = true := by
  cases left with
  | integer _ _ =>
      cases middle with
      | integer _ _ =>
          cases right with
          | integer _ _ =>
              simp only [Number.same, beq_iff_eq] at first second ⊢
              exact first.trans second
          | double _ => cases second
      | double _ => cases first
  | double _ =>
      cases middle with
      | integer _ _ => cases first
      | double _ =>
          cases right with
          | integer _ _ => cases second
          | double _ => exact Double.same_trans first second

theorem add?_of_same {left right : Number} (same : left.same right = true) (amount : Number) :
    Option.Rel (fun first second => first.same second = true) (left.add? amount)
      (right.add? amount) := by
  cases left with
  | integer value inRange =>
      cases right with
      | integer other otherInRange =>
          simp only [Number.same, beq_iff_eq] at same
          subst same
          cases (integer value inRange).add? amount with
          | none => exact .none
          | some sum => exact .some (same_self sum)
      | double _ => cases same
  | double value =>
      cases right with
      | integer _ _ => cases same
      | double other =>
          have sums := Double.add?_of_same same amount.toDouble
          change Option.Rel _ ((value.add? amount.toDouble).map double)
            ((other.add? amount.toDouble).map double)
          generalize value.add? amount.toDouble = first, other.add? amount.toDouble = second
            at sums ⊢
          cases sums with
          | none => exact .none
          | some related => exact .some related

end Number

end DocTable
