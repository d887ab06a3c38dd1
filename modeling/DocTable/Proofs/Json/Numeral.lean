import DocTable.Json.Token

/-!
# The characters of numerals

The text of a number begins with a minus sign or a digit and consists of
characters that a scanner takes for parts of a number.
-/

namespace DocTable

open Json.Token

theorem isNumberChar_of_isDigit {char : Char} (digit : char.isDigit = true) :
    isNumberChar char = true := by
  simp [isNumberChar, digit]

theorem isNumberChar_of_mem_decimal {value : Nat} {char : Char} (member : char ∈ decimal value) :
    isNumberChar char = true :=
  isNumberChar_of_isDigit (isDigit_of_mem_decimal member)

theorem isNumberChar_of_mem_decimalInt {value : Int} {char : Char}
    (member : char ∈ decimalInt value) : isNumberChar char = true := by
  cases value with
  | ofNat value => exact isNumberChar_of_mem_decimal member
  | negSucc value =>
      rcases List.mem_cons.1 member with rfl | member
      · rfl
      · exact isNumberChar_of_mem_decimal member

/-- A minus sign or a digit. -/
def BeginsNumber (text : List Char) : Prop :=
  ∃ first rest, text = first :: rest ∧ (first = '-' ∨ first.isDigit = true)

theorem beginsNumber_decimal (value : Nat) : BeginsNumber (decimal value) := by
  have nonempty : decimal value ≠ [] := Nat.toDigits_ne_nil
  cases digits : decimal value with
  | nil => contradiction
  | cons first rest =>
      have member : first ∈ decimal value := by rw [digits]; simp
      exact ⟨first, rest, rfl, .inr (isDigit_of_mem_decimal member)⟩

theorem beginsNumber_append {text : List Char} (begins : BeginsNumber text) (rest : List Char) :
    BeginsNumber (text ++ rest) := by
  rcases begins with ⟨first, others, rfl, leading⟩
  exact ⟨first, others ++ rest, rfl, leading⟩

theorem beginsNumber_take {text : List Char} {count : Nat} (begins : BeginsNumber text)
    (positive : 0 < count) : BeginsNumber (text.take count) := by
  rcases begins with ⟨first, others, rfl, leading⟩
  rcases Nat.exists_eq_succ_of_ne_zero (Nat.ne_of_gt positive) with ⟨count, rfl⟩
  exact ⟨first, others.take count, rfl, leading⟩

namespace Double

theorem isNumberChar_of_mem_fraction {digits : List Char} {char : Char}
    (sound : ∀ digit ∈ digits, isNumberChar digit = true) (member : char ∈ fraction digits) :
    isNumberChar char = true := by
  cases digits with
  | nil =>
      simp only [fraction, List.mem_cons, List.not_mem_nil, or_false] at member
      rcases member with rfl | rfl <;> rfl
  | cons first rest =>
      rcases List.mem_cons.1 member with rfl | member
      · rfl
      · exact sound char member

theorem isNumberChar_of_mem_positional {digits : List Char} {leading : Int} {char : Char}
    (sound : ∀ digit ∈ digits, isNumberChar digit = true)
    (member : char ∈ positional digits leading) : isNumberChar char = true := by
  unfold positional at member
  split at member
  · simp only [List.cons_append, List.mem_cons, List.mem_append, List.mem_replicate] at member
    rcases member with rfl | rfl | ⟨-, rfl⟩ | member
    · rfl
    · rfl
    · rfl
    · exact sound char member
  · simp only [List.mem_append, List.mem_replicate] at member
    rcases member with (member | ⟨-, rfl⟩) | member
    · exact sound char (List.mem_of_mem_take member)
    · rfl
    · exact isNumberChar_of_mem_fraction
        (fun digit inDigits => sound digit (List.mem_of_mem_drop inDigits)) member

theorem isNumberChar_of_mem_scientific {plus : Bool} {digits : List Char} {leading : Int}
    {char : Char} (sound : ∀ digit ∈ digits, isNumberChar digit = true)
    (member : char ∈ scientific plus digits leading) : isNumberChar char = true := by
  have point : ∀ other ∈ (if digits.length ≤ 1 then [] else '.' :: digits.drop 1),
      isNumberChar other = true := by
    intro other inPoint
    split at inPoint
    · simp at inPoint
    · rcases List.mem_cons.1 inPoint with rfl | inDigits
      · rfl
      · exact sound other (List.mem_of_mem_drop inDigits)
  have sign : ∀ other ∈ (if (plus && decide (0 ≤ leading)) = true then ['+'] else []),
      isNumberChar other = true := by
    intro other inSign
    split at inSign
    · rcases List.mem_singleton.1 inSign with rfl
      rfl
    · simp at inSign
  simp only [scientific, List.mem_append, List.mem_cons] at member
  rcases member with ((member | member) | rfl | member) | member
  · exact sound char (List.mem_of_mem_take member)
  · exact point char member
  · rfl
  · exact sign char member
  · exact isNumberChar_of_mem_decimalInt member

theorem beginsNumber_positional {digits : List Char} (begins : BeginsNumber digits)
    (leading : Int) : BeginsNumber (positional digits leading) := by
  unfold positional
  split
  · exact ⟨'0', _, rfl, .inr rfl⟩
  · apply beginsNumber_append
    apply beginsNumber_append
    exact beginsNumber_take begins (Nat.succ_pos _)

theorem beginsNumber_scientific {plus : Bool} {digits : List Char} (begins : BeginsNumber digits)
    (leading : Int) : BeginsNumber (scientific plus digits leading) := by
  unfold scientific
  rw [List.append_assoc, List.append_assoc]
  apply beginsNumber_append
  exact beginsNumber_take begins Nat.one_pos

/-- The texts of doubles: a sign, and zero or digits in one of two layouts. -/
theorem write_cases (layout : Layout) (value : Double) :
    ∃ sign body, value.write layout = sign ++ body ∧ (sign = [] ∨ sign = ['-']) ∧
      (body = ['0', '.', '0'] ∨
        (∃ digits leading, body = positional (decimal digits) leading) ∨
          ∃ digits leading, body = scientific layout.exponentPlus (decimal digits) leading) := by
  have sign : (if value.negative then ['-'] else []) = [] ∨
      (if value.negative then ['-'] else []) = ['-'] := by
    cases value.negative with
    | false => exact .inl rfl
    | true => exact .inr rfl
  unfold write
  by_cases zero : value.isZero = true
  · exact ⟨_, ['0', '.', '0'], by rw [if_pos zero], sign, .inl rfl⟩
  · simp only [zero]
    generalize value.shortest layout.tie = shortest
    by_cases plain : layout.plainFrom ≤ shortest.exponent + (decimal shortest.digits).length - 1 ∧
        shortest.exponent + (decimal shortest.digits).length - 1 ≤ layout.plainTo
    · exact ⟨_, _, if_pos plain, sign, .inr (.inl ⟨_, _, rfl⟩)⟩
    · exact ⟨_, _, if_neg plain, sign, .inr (.inr ⟨_, _, rfl⟩)⟩

end Double

namespace Number

theorem beginsNumber_text (number : Number) : BeginsNumber number.text := by
  cases number with
  | integer value inRange =>
      cases value with
      | ofNat value => exact beginsNumber_decimal value
      | negSucc value => exact ⟨'-', _, rfl, .inl rfl⟩
  | double value =>
      rcases Double.write_cases textLayout value with ⟨sign, body, written, signed, shape⟩
      have begins : BeginsNumber body := by
        rcases shape with rfl | ⟨digits, leading, rfl⟩ | ⟨digits, leading, rfl⟩
        · exact ⟨'0', _, rfl, .inr rfl⟩
        · exact Double.beginsNumber_positional (beginsNumber_decimal digits) leading
        · exact Double.beginsNumber_scientific (beginsNumber_decimal digits) leading
      rw [text, written]
      rcases signed with rfl | rfl
      · exact begins
      · exact ⟨'-', body, rfl, .inl rfl⟩

theorem isNumberChar_of_mem_text {number : Number} {char : Char} (member : char ∈ number.text) :
    isNumberChar char = true := by
  cases number with
  | integer value inRange => exact isNumberChar_of_mem_decimalInt member
  | double value =>
      rcases Double.write_cases textLayout value with ⟨sign, body, written, signed, shape⟩
      have decimals (number : Nat) (digit : Char) (inDigits : digit ∈ decimal number) :
          isNumberChar digit = true :=
        isNumberChar_of_mem_decimal inDigits
      rw [text, written, List.mem_append] at member
      rcases member with member | member
      · rcases signed with rfl | rfl
        · simp at member
        · rcases List.mem_singleton.1 member with rfl
          rfl
      · rcases shape with rfl | ⟨digits, leading, rfl⟩ | ⟨digits, leading, rfl⟩
        · have zero : ['0', '.', '0'].all isNumberChar = true := rfl
          exact List.all_eq_true.1 zero char member
        · exact Double.isNumberChar_of_mem_positional (decimals digits) member
        · exact Double.isNumberChar_of_mem_scientific (decimals digits) member

end Number

end DocTable
