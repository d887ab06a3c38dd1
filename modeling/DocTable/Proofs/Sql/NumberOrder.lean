import Mathlib.Order.Compare
import DocTable.Filter.Condition
import DocTable.Proofs.Json.Order
import DocTable.Sql.PathExpression

/-!
# Numbers in SQLite and in process

SQLite compares integers and doubles by their exact values. A condition that is
tested in process compares two integers of the signed range exactly, and any
other pair by the total order of the nearest doubles. The two orders differ where
an integer meets the double that it is rounded to, and where the two zeros meet.
-/

namespace DocTable

theorem Comparison.holds_injective {left right : Ordering} :
    (∀ comparison : Comparison, comparison.holds left = comparison.holds right) ↔ left = right := by
  constructor
  · intro same
    have equal := same .eq
    have greater := same .gt
    cases left <;> cases right <;> revert equal greater <;> decide
  · rintro rfl comparison
    rfl

namespace Sql

/-- The exact value of a number of the engine. -/
def Value.rational? : Value → Option ℚ
  | .integer value => some value
  | .real value => some value.toRat
  | .null | .text _ | .blob _ => none

namespace Sqlite

/-- What `json_extract` finds where a number is stored: an integer of the signed range as it is,
and for any other number the nearest double. -/
def extractedNumber : Number → Value
  | .integer value inRange =>
      if value < 0x8000000000000000 then .integer value
      else .real (Number.integer value inRange).toDouble
  | .double value => .real value

/-- The truth of a comparison of two numbers of the engine, by their exact values. -/
def comparesNumbers (comparison : Comparison) (left right : Value) : Option Bool := do
  return comparison.holds (cmp (← left.rational?) (← right.rational?))

/-- The exact value of what a number is for the engine. -/
def exactValue (number : Number) : ℚ :=
  match number.signed? with
  | some value => value
  | none => number.toDouble.toRat

theorem rational?_extractedNumber (number : Number) :
    (extractedNumber number).rational? = some (exactValue number) := by
  cases number with
  | double value => rfl
  | integer value inRange =>
      by_cases signed : value < 0x8000000000000000
      · simp [extractedNumber, exactValue, Number.signed?, signed, Value.rational?]
      · simp [extractedNumber, exactValue, Number.signed?, signed, Value.rational?]

theorem rational?_ofNumber (number : Number) :
    (Value.ofNumber number).rational? = some (exactValue number) := by
  unfold Value.ofNumber exactValue
  cases number.signed? <;> rfl

theorem comparesNumbers_eq (comparison : Comparison) (stored literal : Number) :
    comparesNumbers comparison (extractedNumber stored)
        (Dialect.literalValue (.json .sqlite) (.number literal)) =
      some (comparison.holds (cmp (exactValue stored) (exactValue literal))) := by
  have bound : Dialect.literalValue (.json .sqlite) (.number literal) =
      Value.ofNumber literal := rfl
  rw [bound, comparesNumbers, rational?_extractedNumber, rational?_ofNumber]
  rfl

theorem exactValue_of_signed {number : Number} {value : Int}
    (signed : number.signed? = some value) : exactValue number = value := by
  rw [exactValue, signed]

theorem roundsTo_toDouble {number : Number} {value : Int}
    (signed : number.signed? = some value) : Double.RoundsTo value number.toDouble := by
  rcases Number.ofInt?_of_signed signed with ⟨small, own⟩
  rcases Double.exists_ofInt? small with ⟨rounded, rounding, sound⟩
  cases own.symm.trans rounding
  exact sound

/-- Rounding one of two different numbers does not turn their order around. -/
theorem orderKey_le_of_exactValue_lt {left right : Number}
    (mixed : left.signed? = none ∨ right.signed? = none)
    (less : exactValue left < exactValue right) :
    left.toDouble.orderKey ≤ right.toDouble.orderKey := by
  unfold exactValue at less
  cases leftSigned : left.signed? with
  | some leftValue =>
      cases rightSigned : right.signed? with
      | some rightValue => simp [leftSigned, rightSigned] at mixed
      | none =>
          rw [leftSigned, rightSigned] at less
          exact (roundsTo_toDouble leftSigned right.toDouble).1 less
  | none =>
      cases rightSigned : right.signed? with
      | some rightValue =>
          rw [leftSigned, rightSigned] at less
          exact (roundsTo_toDouble rightSigned left.toDouble).2 less
      | none =>
          rw [leftSigned, rightSigned] at less
          exact (Double.orderKey_lt_of_toRat_lt less).le

theorem cmp_exactValue_of_signed {left right : Number} {leftValue rightValue : Int}
    (leftSigned : left.signed? = some leftValue) (rightSigned : right.signed? = some rightValue) :
    cmp (exactValue left) (exactValue right) = left.compare right := by
  rw [exactValue_of_signed leftSigned, exactValue_of_signed rightSigned,
    Number.compare_of_signed leftSigned rightSigned, ← cmp_eq_compare]
  exact Int.cast_strictMono.cmp_map_eq leftValue rightValue

/-- A map that keeps the order of two elements, and at most makes them equal, keeps their
comparison if it does not. -/
theorem cmp_eq_cmp_iff {α β : Type} [LinearOrder α] [LinearOrder β] {left right : α}
    {leftImage rightImage : β} (ascends : left < right → leftImage ≤ rightImage)
    (descends : right < left → rightImage ≤ leftImage) :
    cmp left right = cmp leftImage rightImage ↔ (leftImage = rightImage ↔ left = right) := by
  rcases lt_trichotomy left right with less | rfl | greater
  · rw [(cmp_eq_lt_iff _ _).2 less, eq_comm, cmp_eq_lt_iff, iff_false_right less.ne]
    exact ⟨fun strict => strict.ne, fun different => lt_of_le_of_ne (ascends less) different⟩
  · rw [cmp_self_eq_eq, eq_comm, cmp_eq_eq_iff, iff_true_right rfl]
  · rw [(cmp_eq_gt_iff _ _).2 greater, eq_comm, cmp_eq_gt_iff, iff_false_right greater.ne']
    exact ⟨fun strict => strict.ne', fun different =>
      lt_of_le_of_ne (descends greater) (Ne.symm different)⟩

theorem cmp_exactValue_of_mixed {left right : Number}
    (mixed : left.signed? = none ∨ right.signed? = none) :
    cmp (exactValue left) (exactValue right) = left.compare right ↔
      (left.toDouble = right.toDouble ↔ exactValue left = exactValue right) := by
  have keys : left.toDouble = right.toDouble ↔
      left.toDouble.orderKey = right.toDouble.orderKey :=
    ⟨congrArg Double.orderKey, Double.orderKey_injective⟩
  rw [Number.compare_of_unsigned mixed, ← cmp_eq_compare, keys]
  exact cmp_eq_cmp_iff (orderKey_le_of_exactValue_lt mixed)
    (orderKey_le_of_exactValue_lt mixed.symm)

/-- Two numbers are in the same order for both if both are integers of the signed range, or if
the nearest doubles are the same one exactly for equal numbers. -/
theorem cmp_exactValue_iff (left right : Number) :
    cmp (exactValue left) (exactValue right) = left.compare right ↔
      (left.signed?.isSome ∧ right.signed?.isSome) ∨
        (left.toDouble = right.toDouble ↔ exactValue left = exactValue right) := by
  cases leftSigned : left.signed? with
  | none =>
      rw [cmp_exactValue_of_mixed (.inl leftSigned)]
      simp
  | some leftValue =>
      cases rightSigned : right.signed? with
      | none =>
          rw [cmp_exactValue_of_mixed (.inr rightSigned)]
          simp
      | some rightValue =>
          exact iff_of_true (cmp_exactValue_of_signed leftSigned rightSigned) (.inl ⟨rfl, rfl⟩)

/-- All comparisons of a stored number come out as in process if and only if both numbers are
integers of the signed range, or the nearest doubles are the same one exactly for equal numbers. -/
theorem comparison_agrees_iff {document : Document} {path : FieldPath} {stored : Number}
    (found : document.lookup? path = some (.number stored)) (literal : Number) :
    (∀ comparison : Comparison,
      comparesNumbers comparison (extractedNumber stored)
          (Dialect.literalValue (.json .sqlite) (.number literal)) =
        some ((Condition.compare path comparison (.number literal)).holds document)) ↔
      (stored.signed?.isSome ∧ literal.signed?.isSome) ∨
        (stored.toDouble = literal.toDouble ↔ exactValue stored = exactValue literal) := by
  have inProcess (comparison : Comparison) :
      (Condition.compare path comparison (.number literal)).holds document =
        comparison.holds (stored.compare literal) := by
    rw [Condition.holds, found]
    rfl
  rw [← cmp_exactValue_iff, ← Comparison.holds_injective]
  apply forall_congr'
  intro comparison
  rw [comparesNumbers_eq, inProcess, Option.some_inj]

/-- The least integer that is no double, and the double next to the one that it is rounded to. -/
theorem comparison_agrees_iff_of_odd :
    comparesNumbers .lt (extractedNumber (.integer 9007199254740993 (by decide)))
        (Dialect.literalValue (.json .sqlite)
          (.number (.double ⟨false, 0x4340000000000001, by decide⟩))) =
      some ((Condition.compare ⟨["n"], by decide, by decide⟩ .lt
        (.number (.double ⟨false, 0x4340000000000001, by decide⟩))).holds
          ⟨[("n", .number (.integer 9007199254740993 (by decide)))]⟩) :=
  (comparison_agrees_iff rfl _).2 (.inr (by decide +kernel)) .lt

/-- The least integer that is no double is not equal to the double that it is rounded to, but in
process it is. -/
theorem comparison_differs_at_odd :
    comparesNumbers .eq (extractedNumber (.integer 9007199254740993 (by decide)))
          (Dialect.literalValue (.json .sqlite)
            (.number (.double ⟨false, 0x4340000000000000, by decide⟩))) = some false ∧
      (Condition.compare ⟨["n"], by decide, by decide⟩ .eq
        (.number (.double ⟨false, 0x4340000000000000, by decide⟩))).holds
          ⟨[("n", .number (.integer 9007199254740993 (by decide)))]⟩ = true := by
  decide +kernel

end Sqlite

end Sql

end DocTable
