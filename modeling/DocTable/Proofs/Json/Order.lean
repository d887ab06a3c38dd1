import DocTable.Document.Sorting
import DocTable.Proofs.Double.Exact

/-!
# When the order of values is transitive

Integers of the signed range are compared exactly, and any other pair of numbers
by the nearest doubles. Rounding keeps the order of two integers or makes them
equal, so the order can only fail to be transitive where two different integers
are rounded to the double of one and the same number that is not compared exactly
with them. Among numbers that are kept apart from this it is transitive, and with
it the order of arrays, objects and whole documents, however they are nested and
by whatever terms they are sorted.
-/

namespace DocTable

/-- What the comparisons of a first value with a second one and of that with a third one say of
the comparison of the ends: it does not descend if neither of them does, and then it finds the
ends equal only if both of them do. -/
def Chains (first second whole : Ordering) : Prop :=
  first ≠ .gt → second ≠ .gt → whole ≠ .gt ∧ (whole = .eq → first = .eq ∧ second = .eq)

namespace Chains

variable {first second whole : Ordering}

theorem symm (chains : Chains first second whole) : Chains second first whole := by
  intro secondAscends firstAscends
  rcases chains firstAscends secondAscends with ⟨ascends, equal⟩
  exact ⟨ascends, fun same => (equal same).symm⟩

theorem of_lt : Chains first second .lt := by
  intro _ _
  exact ⟨by decide, fun equal => absurd equal (by decide)⟩

/-- Comparisons that go on where both are undecided. -/
theorem andThen (chains : Chains first second whole) {nextFirst nextSecond nextWhole : Ordering}
    (next : first = .eq → second = .eq → Chains nextFirst nextSecond nextWhole) :
    Chains (first.then nextFirst) (second.then nextSecond) (whole.then nextWhole) := by
  intro firstAscends secondAscends
  have firstHead : first ≠ .gt := by
    rintro rfl
    exact firstAscends rfl
  have secondHead : second ≠ .gt := by
    rintro rfl
    exact secondAscends rfl
  rcases chains firstHead secondHead with ⟨ascends, equal⟩
  cases whole with
  | gt => contradiction
  | lt => exact of_lt firstAscends secondAscends
  | eq =>
      rcases equal rfl with ⟨rfl, rfl⟩
      exact next rfl rfl firstAscends secondAscends

/-- The comparisons of a total order. -/
theorem ofOrd {α : Type} [Ord α] [Std.TransOrd α] (first second third : α) :
    Chains (Ord.compare first second) (Ord.compare second third) (Ord.compare first third) := by
  intro firstAscends secondAscends
  have firstLE := Ordering.isLE_iff_ne_gt.2 firstAscends
  have secondLE := Ordering.isLE_iff_ne_gt.2 secondAscends
  refine ⟨Ordering.isLE_iff_ne_gt.1 (Std.TransCmp.isLE_trans firstLE secondLE), fun equal => ?_⟩
  have back : (Ord.compare third first).isLE := by
    rw [Std.OrientedCmp.eq_symm equal]
    rfl
  exact ⟨Std.OrientedCmp.isLE_antisymm firstLE (Std.TransCmp.isLE_trans secondLE back),
    Std.OrientedCmp.isLE_antisymm secondLE (Std.TransCmp.isLE_trans back firstLE)⟩

/-- An order that can be turned around is transitive in both directions. -/
theorem apply {α : Type} {compare : α → α → Ordering}
    (swap : ∀ left right, compare right left = (compare left right).swap) (order : SortOrder)
    {first second third : α}
    (ascending : Chains (compare first second) (compare second third) (compare first third))
    (descending : Chains (compare third second) (compare second first) (compare third first)) :
    Chains (order.apply (compare first second)) (order.apply (compare second third))
      (order.apply (compare first third)) := by
  cases order with
  | asc => exact ascending
  | desc =>
      simp only [SortOrder.apply, ← swap]
      exact descending.symm

end Chains

namespace Number

variable {left right : Number}

theorem ofInt?_of_signed {number : Number} {value : Int} (signed : number.signed? = some value) :
    value.natAbs ≤ 0x10000000000000000 ∧ Double.ofInt? value = some number.toDouble := by
  cases number with
  | double _ => cases signed
  | integer own inRange =>
      rw [signed?] at signed
      split at signed
      · cases signed
        have small : value.natAbs ≤ 0x10000000000000000 := by omega
        rcases Double.exists_ofInt? small with ⟨rounded, rounding, -⟩
        refine ⟨small, ?_⟩
        rw [toDouble, rounding]
        rfl
      · cases signed

theorem eq_of_signed? {value : Int} (leftSigned : left.signed? = some value)
    (rightSigned : right.signed? = some value) : left = right := by
  have integer {number : Number} (signed : number.signed? = some value) :
      ∃ inRange, number = .integer value inRange := by
    cases number with
    | double _ => cases signed
    | integer own inRange =>
        rw [signed?] at signed
        split at signed
        · cases signed
          exact ⟨inRange, rfl⟩
        · cases signed
  rcases integer leftSigned with ⟨_, rfl⟩
  rcases integer rightSigned with ⟨_, rfl⟩
  rfl

theorem compare_of_signed {leftValue rightValue : Int} (leftSigned : left.signed? = some leftValue)
    (rightSigned : right.signed? = some rightValue) :
    left.compare right = Ord.compare leftValue rightValue := by
  rw [compare, leftSigned, rightSigned]

theorem compare_of_unsigned (mixed : left.signed? = none ∨ right.signed? = none) :
    left.compare right = Ord.compare left.toDouble.orderKey right.toDouble.orderKey := by
  rw [compare]
  rcases mixed with unsigned | unsigned
  · rw [unsigned]
    rfl
  · rw [unsigned]
    cases left.signed? <;> rfl

/-- Either both numbers are compared exactly, or they are compared as doubles. -/
theorem signed_or_unsigned (left right : Number) :
    (∃ leftValue rightValue, left.signed? = some leftValue ∧ right.signed? = some rightValue) ∨
      (left.signed? = none ∨ right.signed? = none) := by
  cases left.signed? with
  | none => exact .inr (.inl rfl)
  | some leftValue =>
      cases right.signed? with
      | none => exact .inr (.inr rfl)
      | some rightValue => exact .inl ⟨leftValue, rightValue, rfl, rfl⟩

theorem compare_swap (left right : Number) : right.compare left = (left.compare right).swap := by
  rcases signed_or_unsigned left right with ⟨_, _, leftSigned, rightSigned⟩ | mixed
  · rw [compare_of_signed leftSigned rightSigned, compare_of_signed rightSigned leftSigned]
    exact Std.OrientedOrd.eq_swap
  · rw [compare_of_unsigned mixed, compare_of_unsigned mixed.symm]
    exact Std.OrientedOrd.eq_swap

theorem orderKey_le_of_compare (ascends : left.compare right ≠ .gt) :
    left.toDouble.orderKey ≤ right.toDouble.orderKey := by
  rcases signed_or_unsigned left right with ⟨_, _, leftSigned, rightSigned⟩ | mixed
  · rw [compare_of_signed leftSigned rightSigned, compare_le_iff_le] at ascends
    rcases ofInt?_of_signed leftSigned with ⟨leftSmall, leftRounded⟩
    rcases ofInt?_of_signed rightSigned with ⟨rightSmall, rightRounded⟩
    exact Double.orderKey_le_of_ofInt? ascends leftSmall rightSmall leftRounded rightRounded
  · rwa [compare_of_unsigned mixed, compare_le_iff_le] at ascends

/-- Integers of the signed range neither of which is above the other are equal. -/
theorem eq_of_compare (leftSome : left.signed?.isSome) (rightSome : right.signed?.isSome)
    (ascends : left.compare right ≠ .gt) (descends : right.compare left ≠ .gt) : left = right := by
  rcases Option.isSome_iff_exists.1 leftSome with ⟨leftValue, leftSigned⟩
  rcases Option.isSome_iff_exists.1 rightSome with ⟨rightValue, rightSigned⟩
  rw [compare_of_signed leftSigned rightSigned, compare_le_iff_le] at ascends
  rw [compare_of_signed rightSigned leftSigned, compare_le_iff_le] at descends
  have equal : leftValue = rightValue := le_antisymm ascends descends
  subst equal
  exact eq_of_signed? leftSigned rightSigned

/-- No two different integers of the signed range have the double of a third number that is
compared with them as a double. -/
def Separated (numbers : Number → Prop) : Prop :=
  ∀ left right other, numbers left → numbers right → numbers other →
    left.signed?.isSome → right.signed?.isSome → other.signed? = none →
    left.toDouble = other.toDouble → right.toDouble = other.toDouble → left = right

theorem separated_signed : Separated (·.signed?.isSome) := by
  intro left right other _ _ signed _ _ unsigned
  rw [unsigned] at signed
  cases signed

variable {numbers : Number → Prop}

/-- Two numbers with the double of a third one that is compared with them as a double are equal. -/
theorem Separated.compare_eq (separated : Separated numbers) {left right other : Number}
    (inLeft : numbers left) (inRight : numbers right) (inOther : numbers other)
    (leftKey : left.toDouble.orderKey = other.toDouble.orderKey)
    (rightKey : right.toDouble.orderKey = other.toDouble.orderKey)
    (unsigned : other.signed? = none) : left.compare right = .eq := by
  rcases signed_or_unsigned left right with ⟨_, _, leftSigned, rightSigned⟩ | mixed
  · have equal := separated left right other inLeft inRight inOther (by rw [leftSigned]; rfl)
      (by rw [rightSigned]; rfl) unsigned (Double.orderKey_injective leftKey)
      (Double.orderKey_injective rightKey)
    subst equal
    rw [compare_of_signed leftSigned leftSigned]
    exact Std.ReflOrd.compare_self
  · rw [compare_of_unsigned mixed, leftKey, rightKey]
    exact Std.ReflOrd.compare_self

theorem Separated.chains (separated : Separated numbers) {first second third : Number}
    (inFirst : numbers first) (inSecond : numbers second) (inThird : numbers third) :
    Chains (first.compare second) (second.compare third) (first.compare third) := by
  by_cases signed : first.signed?.isSome ∧ second.signed?.isSome ∧ third.signed?.isSome
  · rcases signed with ⟨firstSome, secondSome, thirdSome⟩
    rcases Option.isSome_iff_exists.1 firstSome with ⟨firstValue, firstSigned⟩
    rcases Option.isSome_iff_exists.1 secondSome with ⟨secondValue, secondSigned⟩
    rcases Option.isSome_iff_exists.1 thirdSome with ⟨thirdValue, thirdSigned⟩
    rw [compare_of_signed firstSigned secondSigned, compare_of_signed secondSigned thirdSigned,
      compare_of_signed firstSigned thirdSigned]
    exact Chains.ofOrd firstValue secondValue thirdValue
  · obtain ⟨other, member, inOther, unsigned⟩ :
        ∃ other ∈ [first, second, third], numbers other ∧ other.signed? = none := by
      simp only [not_and_or, Option.not_isSome_iff_eq_none] at signed
      rcases signed with unsigned | unsigned | unsigned
      · exact ⟨first, by simp, inFirst, unsigned⟩
      · exact ⟨second, by simp, inSecond, unsigned⟩
      · exact ⟨third, by simp, inThird, unsigned⟩
    intro firstAscends secondAscends
    have firstKeys := orderKey_le_of_compare firstAscends
    have secondKeys := orderKey_le_of_compare secondAscends
    -- Where the ends do not ascend, all three have one double, so all comparisons find them equal.
    have collapse (back : third.compare first ≠ .gt) : first.compare third = .eq ∧
        first.compare second = .eq ∧ second.compare third = .eq := by
      have backKeys := orderKey_le_of_compare back
      have keys : ∀ number ∈ [first, second, third],
          number.toDouble.orderKey = other.toDouble.orderKey := by
        simp only [List.mem_cons, List.not_mem_nil, or_false] at member
        rcases member with rfl | rfl | rfl <;> simp <;> omega
      have equal {left right : Number} (inLeft : numbers left) (inRight : numbers right)
          (leftMember : left ∈ [first, second, third])
          (rightMember : right ∈ [first, second, third]) : left.compare right = .eq :=
        separated.compare_eq inLeft inRight inOther (keys left leftMember)
          (keys right rightMember) unsigned
      exact ⟨equal inFirst inThird (by simp) (by simp), equal inFirst inSecond (by simp) (by simp),
        equal inSecond inThird (by simp) (by simp)⟩
    by_cases back : third.compare first = .gt
    · have less : first.compare third = .lt := by
        rw [compare_swap third, back]
        rfl
      rw [less]
      exact Chains.of_lt firstAscends secondAscends
    · rcases collapse back with ⟨whole, equal⟩
      rw [whole]
      exact ⟨by decide, fun _ => equal⟩

end Number

/-! ## Values -/

namespace Json

mutual

/-- Every number in the value has a property. -/
def EveryNumber (holds : Number → Prop) : Json → Prop
  | .number value => holds value
  | .array elements => EveryNumberElements holds elements
  | .object ⟨entries⟩ => EveryNumberEntries holds entries
  | .null | .bool _ | .string _ => True

/-- Every number in the elements has a property. -/
def EveryNumberElements (holds : Number → Prop) : List Json → Prop
  | [] => True
  | element :: rest => EveryNumber holds element ∧ EveryNumberElements holds rest

/-- Every number in the values of the entries has a property. -/
def EveryNumberEntries (holds : Number → Prop) : List (String × Json) → Prop
  | [] => True
  | (_, value) :: rest => EveryNumber holds value ∧ EveryNumberEntries holds rest

end

variable {numbers : Number → Prop}

theorem EveryNumber.get? {fields : Fields Json} {key : String} {value : Json}
    (every : (Json.object fields).EveryNumber numbers) (found : fields.get? key = some value) :
    value.EveryNumber numbers := by
  rcases fields with ⟨entries⟩
  rw [EveryNumber] at every
  rw [Fields.get?] at found
  induction entries with
  | nil => cases found
  | cons entry rest ih =>
      rcases entry with ⟨name, first⟩
      rw [EveryNumberEntries] at every
      rw [List.lookup_cons] at found
      split at found
      · cases found
        exact every.1
      · exact ih every.2 found

theorem EveryNumber.lookup? {value found : Json} (every : value.EveryNumber numbers)
    {path : List String} (result : value.lookup? path = some found) :
    found.EveryNumber numbers := by
  induction path generalizing value with
  | nil =>
      cases result
      exact every
  | cons key rest ih =>
      cases value with
      | object fields =>
          rw [lookup?_cons_object, Option.bind_eq_some_iff] at result
          rcases result with ⟨inner, atKey, inside⟩
          exact ih (every.get? atKey) inside
      | _ => cases result

/-- A value that may be missing. -/
theorem EveryNumber.getD {value : Option Json}
    (every : ∀ found ∈ value, found.EveryNumber numbers) :
    (value.getD .null).EveryNumber numbers := by
  cases value with
  | none => trivial
  | some found => exact every found rfl

/-- Values of one rank are of one type. -/
theorem exists_of_rank_eq {left right : Json} (same : left.rank = right.rank) :
    match left with
    | .null => right = .null
    | .bool _ => ∃ other, right = .bool other
    | .number _ => ∃ other, right = .number other
    | .string _ => ∃ other, right = .string other
    | .array _ => ∃ elements, right = .array elements
    | .object _ => ∃ fields, right = .object fields := by
  cases left <;> cases right <;> simp [rank] at same ⊢

theorem compare_of_rank_ne {left right : Json} (different : left.rank ≠ right.rank) :
    compare left right = Ord.compare left.rank right.rank := by
  cases left <;> cases right <;> first | rfl | exact absurd rfl different

theorem compare_eq_then (left right : Json) :
    compare left right = (Ord.compare left.rank right.rank).then (compare left right) := by
  cases left <;> cases right <;> rfl

mutual

theorem compare_swap (left right : Json) : compare right left = (compare left right).swap := by
  by_cases same : left.rank = right.rank
  · match left with
    | .null =>
        have equal : right = .null := exists_of_rank_eq same
        rw [equal]
        rfl
    | .bool _ | .string _ =>
        rcases exists_of_rank_eq same with ⟨_, rfl⟩
        exact Std.OrientedOrd.eq_swap
    | .number _ =>
        rcases exists_of_rank_eq same with ⟨_, rfl⟩
        exact Number.compare_swap _ _
    | .array elements =>
        rcases exists_of_rank_eq same with ⟨others, rfl⟩
        exact compareElements_swap elements others
    | .object ⟨entries⟩ =>
        rcases exists_of_rank_eq same with ⟨⟨others⟩, rfl⟩
        exact compareEntries_swap entries others
  · rw [compare_of_rank_ne same, compare_of_rank_ne (Ne.symm same)]
    exact Std.OrientedOrd.eq_swap

theorem compareElements_swap (left right : List Json) :
    compareElements right left = (compareElements left right).swap := by
  match left, right with
  | [], [] | [], _ :: _ | _ :: _, [] => rfl
  | first :: rest, other :: others =>
      rw [compareElements, compareElements, Ordering.swap_then, compare_swap first other,
        compareElements_swap rest others]

theorem compareEntries_swap (left right : List (String × Json)) :
    compareEntries right left = (compareEntries left right).swap := by
  match left, right with
  | [], [] | [], _ :: _ | _ :: _, [] => rfl
  | (key, first) :: rest, (otherKey, other) :: others =>
      have names : Ord.compare otherKey key = (Ord.compare key otherKey).swap :=
        Std.OrientedOrd.eq_swap
      rw [compareEntries, compareEntries, Ordering.swap_then, Ordering.swap_then, names,
        compare_swap first other, compareEntries_swap rest others]

end

theorem compare_self (value : Json) : compare value value = .eq :=
  Ordering.eq_eq_of_eq_swap (compare_swap value value)

mutual

theorem chains_compare (separated : Number.Separated numbers) (first second third : Json)
    (inFirst : first.EveryNumber numbers) (inSecond : second.EveryNumber numbers)
    (inThird : third.EveryNumber numbers) :
    Chains (compare first second) (compare second third) (compare first third) := by
  rw [compare_eq_then first second, compare_eq_then second third, compare_eq_then first third]
  apply (Chains.ofOrd first.rank second.rank third.rank).andThen
  intro firstRank secondRank
  have same : first.rank = second.rank := Std.LawfulEqOrd.eq_of_compare firstRank
  have again : first.rank = third.rank := same.trans (Std.LawfulEqOrd.eq_of_compare secondRank)
  match first with
  | .null =>
      have equal : second = .null := exists_of_rank_eq same
      have equalAgain : third = .null := exists_of_rank_eq again
      rw [equal, equalAgain]
      exact Chains.ofOrd 0 0 0
  | .bool _ | .string _ =>
      rcases exists_of_rank_eq same with ⟨_, rfl⟩
      rcases exists_of_rank_eq again with ⟨_, rfl⟩
      exact Chains.ofOrd _ _ _
  | .number _ =>
      rcases exists_of_rank_eq same with ⟨_, rfl⟩
      rcases exists_of_rank_eq again with ⟨_, rfl⟩
      exact separated.chains inFirst inSecond inThird
  | .array elements =>
      rcases exists_of_rank_eq same with ⟨others, rfl⟩
      rcases exists_of_rank_eq again with ⟨lasts, rfl⟩
      exact chains_compareElements separated elements others lasts inFirst inSecond inThird
  | .object ⟨entries⟩ =>
      rcases exists_of_rank_eq same with ⟨⟨others⟩, rfl⟩
      rcases exists_of_rank_eq again with ⟨⟨lasts⟩, rfl⟩
      exact chains_compareEntries separated entries others lasts inFirst inSecond inThird

theorem chains_compareElements (separated : Number.Separated numbers)
    (first second third : List Json) (inFirst : EveryNumberElements numbers first)
    (inSecond : EveryNumberElements numbers second)
    (inThird : EveryNumberElements numbers third) :
    Chains (compareElements first second) (compareElements second third)
      (compareElements first third) := by
  match first, second, third with
  | [], [], [] | [], [], _ :: _ | [], _ :: _, [] | [], _ :: _, _ :: _ | _ :: _, [], [] |
      _ :: _, [], _ :: _ | _ :: _, _ :: _, [] => simp [Chains, compareElements]
  | firstHead :: firstRest, secondHead :: secondRest, thirdHead :: thirdRest =>
      rw [EveryNumberElements] at inFirst inSecond inThird
      rw [compareElements, compareElements, compareElements]
      apply (chains_compare separated firstHead secondHead thirdHead inFirst.1 inSecond.1
        inThird.1).andThen
      intro _ _
      exact chains_compareElements separated firstRest secondRest thirdRest inFirst.2 inSecond.2
        inThird.2

theorem chains_compareEntries (separated : Number.Separated numbers)
    (first second third : List (String × Json)) (inFirst : EveryNumberEntries numbers first)
    (inSecond : EveryNumberEntries numbers second)
    (inThird : EveryNumberEntries numbers third) :
    Chains (compareEntries first second) (compareEntries second third)
      (compareEntries first third) := by
  match first, second, third with
  | [], [], [] | [], [], _ :: _ | [], _ :: _, [] | [], _ :: _, _ :: _ | _ :: _, [], [] |
      _ :: _, [], _ :: _ | _ :: _, _ :: _, [] => simp [Chains, compareEntries]
  | (firstKey, firstHead) :: firstRest, (secondKey, secondHead) :: secondRest,
      (thirdKey, thirdHead) :: thirdRest =>
      rw [EveryNumberEntries] at inFirst inSecond inThird
      rw [compareEntries, compareEntries, compareEntries]
      apply (Chains.ofOrd firstKey secondKey thirdKey).andThen
      intro _ _
      apply (chains_compare separated firstHead secondHead thirdHead inFirst.1 inSecond.1
        inThird.1).andThen
      intro _ _
      exact chains_compareEntries separated firstRest secondRest thirdRest inFirst.2 inSecond.2
        inThird.2

end

theorem compareOption_swap (left right : Option Json) :
    compareOption right left = (compareOption left right).swap := compare_swap _ _

end Json

namespace Document

theorem compareBy_swap (terms : List SortTerm) (left right : Document) :
    compareBy terms right left = (compareBy terms left right).swap := by
  induction terms with
  | nil => rfl
  | cons term rest ih =>
      rcases term with ⟨path, order⟩
      have value := Json.compareOption_swap (left.lookup? path) (right.lookup? path)
      rw [compareBy, compareBy, Ordering.swap_then, ih, value]
      cases order <;> rfl

theorem compareBy_self (terms : List SortTerm) (document : Document) :
    compareBy terms document document = .eq :=
  Ordering.eq_eq_of_eq_swap (compareBy_swap terms document document)

variable {numbers : Number → Prop}

/-- The values at a path, in ascending or in descending order. -/
theorem chains_order (separated : Number.Separated numbers) {first second third : Document}
    (inFirst : (Json.object first).EveryNumber numbers)
    (inSecond : (Json.object second).EveryNumber numbers)
    (inThird : (Json.object third).EveryNumber numbers) (path : FieldPath) (order : SortOrder) :
    Chains (order.apply (Json.compareOption (first.lookup? path) (second.lookup? path)))
      (order.apply (Json.compareOption (second.lookup? path) (third.lookup? path)))
      (order.apply (Json.compareOption (first.lookup? path) (third.lookup? path))) := by
  have every {document : Document} (inDocument : (Json.object document).EveryNumber numbers) :
      ((document.lookup? path).getD .null).EveryNumber numbers :=
    Json.EveryNumber.getD fun _ found => inDocument.lookup? found
  exact Chains.apply Json.compareOption_swap order
    (Json.chains_compare separated _ _ _ (every inFirst) (every inSecond) (every inThird))
    (Json.chains_compare separated _ _ _ (every inThird) (every inSecond) (every inFirst))

theorem chains_compareBy (separated : Number.Separated numbers) (terms : List SortTerm)
    {first second third : Document} (inFirst : (Json.object first).EveryNumber numbers)
    (inSecond : (Json.object second).EveryNumber numbers)
    (inThird : (Json.object third).EveryNumber numbers) :
    Chains (compareBy terms first second) (compareBy terms second third)
      (compareBy terms first third) := by
  induction terms with
  | nil => exact Chains.ofOrd 0 0 0
  | cons term rest ih =>
      rcases term with ⟨path, order⟩
      rw [compareBy, compareBy, compareBy]
      exact (chains_order separated inFirst inSecond inThird path order).andThen fun _ _ => ih

end Document

/-! ## Transitivity -/

namespace Json

/-- The order of values that may be missing, and of documents under whatever terms, is transitive
on all that is made of some numbers if and only if these are kept apart. -/
theorem order_transitive_iff (numbers : Number → Prop) :
    ((∀ first second third : Option Json,
        (∀ value ∈ first, value.EveryNumber numbers) →
        (∀ value ∈ second, value.EveryNumber numbers) →
        (∀ value ∈ third, value.EveryNumber numbers) →
        compareOption first second ≠ .gt → compareOption second third ≠ .gt →
        compareOption first third ≠ .gt) ∧
      ∀ (terms : List SortTerm) (first second third : Document),
        (object first).EveryNumber numbers → (object second).EveryNumber numbers →
        (object third).EveryNumber numbers →
        Document.compareBy terms first second ≠ .gt →
        Document.compareBy terms second third ≠ .gt →
        Document.compareBy terms first third ≠ .gt) ↔
      Number.Separated numbers := by
  constructor
  · intro transitive left right other inLeft inRight inOther leftSome rightSome unsigned
      leftDouble rightDouble
    have sameKey {one two : Number} (equal : one.toDouble = two.toDouble)
        (mixed : one.signed? = none ∨ two.signed? = none) : one.compare two ≠ .gt := by
      rw [Number.compare_of_unsigned mixed, equal, Std.ReflOrd.compare_self]
      exact nofun
    -- The third number stands between the two integers, whichever of them comes first.
    have ascends {first last : Number} (inFirst : numbers first) (inLast : numbers last)
        (firstDouble : first.toDouble = other.toDouble)
        (lastDouble : last.toDouble = other.toDouble) : first.compare last ≠ .gt :=
      transitive.1 (some (.number first)) (some (.number other)) (some (.number last))
        (by rintro value ⟨⟩; exact inFirst) (by rintro value ⟨⟩; exact inOther)
        (by rintro value ⟨⟩; exact inLast) (sameKey firstDouble (.inr unsigned))
        (sameKey lastDouble.symm (.inl unsigned))
    exact Number.eq_of_compare leftSome rightSome (ascends inLeft inRight leftDouble rightDouble)
      (ascends inRight inLeft rightDouble leftDouble)
  · intro separated
    constructor
    · intro first second third inFirst inSecond inThird firstAscends secondAscends
      exact (chains_compare separated _ _ _ (.getD inFirst) (.getD inSecond) (.getD inThird)
        firstAscends secondAscends).1
    · intro terms first second third inFirst inSecond inThird firstAscends secondAscends
      exact (Document.chains_compareBy separated terms inFirst inSecond inThird firstAscends
        secondAscends).1

/-- The least integer that is no double does not exceed the double that it is rounded to, and
that does not exceed the integer below, but the first integer exceeds the second. -/
theorem order_descends_across_double :
    compareOption (some (.number (.integer 9007199254740993 (by decide))))
        (some (.number (.double ⟨false, 0x4340000000000000, by decide⟩))) ≠ .gt ∧
      compareOption (some (.number (.double ⟨false, 0x4340000000000000, by decide⟩)))
        (some (.number (.integer 9007199254740992 (by decide)))) ≠ .gt ∧
      compareOption (some (.number (.integer 9007199254740993 (by decide))))
        (some (.number (.integer 9007199254740992 (by decide)))) = .gt := by
  decide +kernel

end Json

end DocTable
