import Mathlib.Order.Compare

/-!
# The order of encoded texts

Texts are ordered by their characters, and engines order texts by the bytes of
their encoding. The encoding of a character begins with its length and goes on
with its digits, the most significant one first, so both orders are the same.
-/

namespace DocTable

/-- The bytes of a text. -/
def encoded (text : String) : List UInt8 := text.toByteArray.data.toList

theorem encoded_eq (text : String) :
    encoded text = text.toList.flatMap String.utf8EncodeChar := by
  rw [encoded, ← String.utf8Encode_toList, List.utf8Encode, List.toList_data_toByteArray]

theorem compare_ofNat {left right : Nat} (leftSmall : left < 256) (rightSmall : right < 256) :
    Ord.compare (UInt8.ofNat left) (UInt8.ofNat right) = Ord.compare left right := by
  have less : UInt8.ofNat left < UInt8.ofNat right ↔ left < right := by
    rw [UInt8.lt_iff_toNat_lt, UInt8.toNat_ofNat_of_lt' leftSmall,
      UInt8.toNat_ofNat_of_lt' rightSmall]
  have same : UInt8.ofNat left = UInt8.ofNat right ↔ left = right := by
    rw [← UInt8.toNat_inj, UInt8.toNat_ofNat_of_lt' leftSmall, UInt8.toNat_ofNat_of_lt' rightSmall]
  change compareOfLessAndEq _ _ = compareOfLessAndEq _ _
  simp only [compareOfLessAndEq, less, same]

/-- A byte in front decides, and the rest does where it is the same. -/
theorem compare_cons_eq_lt_iff {left right : Nat} {rest others : List UInt8}
    (leftSmall : left < 256) (rightSmall : right < 256) :
    Ord.compare (UInt8.ofNat left :: rest) (UInt8.ofNat right :: others) = .lt ↔
      left < right ∨ left = right ∧ Ord.compare rest others = .lt := by
  rw [List.compare_cons_cons, Ordering.then_eq_lt, compare_ofNat leftSmall rightSmall,
    Nat.compare_eq_lt, Nat.compare_eq_eq]

/-- The encodings of different characters are in order, whatever follows them. -/
theorem compare_utf8EncodeChar {left right : Char} (less : left < right)
    (rest others : List UInt8) :
    Ord.compare (String.utf8EncodeChar left ++ rest) (String.utf8EncodeChar right ++ others) =
      .lt := by
  have values : left.val.toNat < right.val.toNat := less
  have bounded : right.val.toNat < 0x110000 := by
    rcases right.valid with small | ⟨-, small⟩
    · exact Nat.lt_trans small (by decide)
    · exact small
  rw [String.utf8EncodeChar, String.utf8EncodeChar]
  generalize left.val.toNat = low at values ⊢
  generalize right.val.toNat = high at values bounded ⊢
  -- Each digit goes on where the one in front of it stops.
  have digits {number : Nat} (bounded : number < 0x110000) : number / 262144 % 8 = number / 262144 ∧
      number / 4096 / 64 = number / 262144 ∧ number / 64 / 64 = number / 4096 :=
    ⟨Nat.mod_eq_of_lt (by omega), Nat.div_div_eq_div_mul .., Nat.div_div_eq_div_mul ..⟩
  have lowDigits := digits (Nat.lt_trans values bounded)
  have highDigits := digits bounded
  -- The shorter encoding has the lesser first byte; of two equally long ones the first digits that
  -- differ decide.
  split_ifs <;>
    simp (disch := omega) only [List.cons_append, List.nil_append, compare_cons_eq_lt_iff] <;>
    omega

theorem compare_append_self (first rest others : List UInt8) :
    Ord.compare (first ++ rest) (first ++ others) = Ord.compare rest others := by
  induction first with
  | nil => rfl
  | cons byte first ih =>
      rw [List.cons_append, List.cons_append, List.compare_cons_cons, Std.ReflOrd.compare_self, ih]
      rfl

theorem compare_flatMap_of_lt {left right : List Char} (less : List.Lex (· < ·) left right) :
    Ord.compare (left.flatMap String.utf8EncodeChar) (right.flatMap String.utf8EncodeChar) =
      .lt := by
  induction less with
  | @nil char rest =>
      rcases List.exists_cons_of_ne_nil (String.utf8EncodeChar_ne_nil (c := char)) with
        ⟨byte, bytes, encoding⟩
      rw [List.flatMap_cons, encoding]
      rfl
  | rel first => exact compare_utf8EncodeChar first _ _
  | cons rest ih => rw [List.flatMap_cons, List.flatMap_cons, compare_append_self, ih]

theorem compare_encoded (left right : String) :
    Ord.compare (encoded left) (encoded right) = Ord.compare left right := by
  rw [encoded_eq, encoded_eq]
  change _ = compareOfLessAndEq left right
  by_cases less : left < right
  · rw [compareOfLessAndEq, if_pos less]
    exact compare_flatMap_of_lt less
  by_cases same : left = right
  · rw [compareOfLessAndEq, if_neg less, if_pos same, same]
    exact Std.ReflOrd.compare_self
  · rw [compareOfLessAndEq, if_neg less, if_neg same]
    have greater : right < left :=
      Std.lt_of_le_of_ne (String.not_lt.1 less) (Ne.symm same)
    rw [Std.OrientedOrd.eq_swap, compare_flatMap_of_lt greater]
    rfl

end DocTable
