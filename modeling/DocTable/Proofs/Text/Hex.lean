import DocTable.Text.Hex
import Mathlib.Data.Nat.ModEq

/-!
# Hexadecimal digits read back

A run of digits is read as the number that it was written for, as far as there are enough of them,
and two digits at a time as the bytes of that number.
-/

namespace DocTable

theorem hexValue?_hexDigit {value : Nat} (small : value < 16) :
    hexValue? (hexDigit value) = some value := by
  have all : ∀ value < 16, hexValue? (hexDigit value) = some value := by decide
  exact all value small

theorem hexNumber?_append (digits : List Char) (last : Char) :
    hexNumber? (digits ++ [last]) =
      (hexNumber? digits).bind fun value => (hexValue? last).map (16 * value + ·) := by
  rw [hexNumber?, List.foldlM_append]
  cases leading : hexNumber? digits with
  | none =>
      rw [hexNumber?] at leading
      rw [leading]
      rfl
  | some value =>
      rw [hexNumber?] at leading
      rw [leading]
      cases digit : hexValue? last <;> simp [digit]

/-- The written digits of a number are read as the number, if they are enough for it. -/
theorem hexNumber?_hexDigits (width value : Nat) :
    hexNumber? (hexDigits width value) = some (value % Nat.pow 16 width) := by
  induction width generalizing value with
  | zero => simp [hexDigits, hexNumber?, Nat.mod_one]
  | succ width ih =>
      have digit := hexValue?_hexDigit (Nat.mod_lt value (by decide : 0 < 16))
      rw [hexDigits, hexNumber?_append, ih, digit, Option.bind_some, Option.map_some]
      have power : Nat.pow 16 (width + 1) = 16 * Nat.pow 16 width := Nat.mul_comm _ _
      congr 1
      rw [power, Nat.mod_mul]
      omega

theorem hexDigits_congr {width left right : Nat} (same : left ≡ right [MOD 16 ^ width]) :
    hexDigits width left = hexDigits width right := by
  induction width generalizing left right with
  | zero => rfl
  | succ width ih =>
      rw [Nat.ModEq, Nat.pow_succ', Nat.mod_mul, Nat.mod_mul] at same
      have last : left % 16 = right % 16 := by omega
      have before : left / 16 % 16 ^ width = right / 16 % 16 ^ width := by omega
      rw [hexDigits, hexDigits, ih before, last]

/-- Digits are the same for numbers that agree as far as the digits go. -/
theorem hexDigits_eq_iff {width left right : Nat} :
    hexDigits width left = hexDigits width right ↔ left ≡ right [MOD 16 ^ width] := by
  refine ⟨fun same => ?_, hexDigits_congr⟩
  have read := congrArg hexNumber? same
  rw [hexNumber?_hexDigits, hexNumber?_hexDigits] at read
  exact Option.some.inj read

/-- Whether a character is a lower-case hexadecimal digit. -/
def isLowerHex (char : Char) : Bool := char.isDigit || ('a' ≤ char && char ≤ 'f')

/-- The last bytes of a number, the most significant one first. -/
def bigEndian : (width value : Nat) → List UInt8
  | 0, _ => []
  | width + 1, value => bigEndian width (value / 256) ++ [UInt8.ofNat value]

/-- The bytes that pairs of hexadecimal digits stand for. -/
def hexBytes? : List Char → Option (List UInt8)
  | [] => some []
  | high :: low :: rest => do
      let high ← hexValue? high
      let low ← hexValue? low
      return UInt8.ofNat (16 * high + low) :: (← hexBytes? rest)
  | [_] => none

/-- The two digits of a byte. -/
def hexPair (byte : UInt8) : List Char := hexDigits 2 byte.toNat

theorem hexPair_eq (byte : UInt8) :
    hexPair byte = [hexDigit (byte.toNat / 16 % 16), hexDigit (byte.toNat % 16)] := rfl

theorem hexDigit_isLowerHex {value : Nat} (small : value < 16) :
    isLowerHex (hexDigit value) = true := by
  have all : ∀ value < 16, isLowerHex (hexDigit value) = true := by decide
  exact all value small

theorem all_isLowerHex_hexDigits (width value : Nat) :
    (hexDigits width value).all isLowerHex = true := by
  induction width generalizing value with
  | zero => rfl
  | succ width ih =>
      have digit := hexDigit_isLowerHex (Nat.mod_lt value (by decide : 0 < 16))
      rw [hexDigits, List.all_append, ih, List.all_cons, digit]
      rfl

theorem hexDigits_two_mul (width value : Nat) :
    hexDigits (2 * width) value = (bigEndian width value).flatMap hexPair := by
  induction width generalizing value with
  | zero => rfl
  | succ width ih =>
      have pair : hexPair (UInt8.ofNat value) =
          [hexDigit (value / 16 % 16), hexDigit (value % 16)] := by
        have high : value % 256 / 16 % 16 = value / 16 % 16 := by omega
        have low : value % 256 % 16 = value % 16 := by omega
        rw [hexPair_eq, UInt8.toNat_ofNat', high, low]
      have halves : value / 16 / 16 = value / 256 := Nat.div_div_eq_div_mul ..
      rw [bigEndian, List.flatMap_append, ← ih, List.flatMap_singleton, pair, Nat.mul_succ,
        hexDigits, hexDigits, halves, List.append_assoc]
      rfl

theorem hexBytes?_flatMap (bytes : List UInt8) :
    hexBytes? (bytes.flatMap hexPair) = some bytes := by
  induction bytes with
  | nil => rfl
  | cons byte rest ih =>
      have high := hexValue?_hexDigit (Nat.mod_lt (byte.toNat / 16) (by decide : 0 < 16))
      have low := hexValue?_hexDigit (Nat.mod_lt byte.toNat (by decide : 0 < 16))
      have whole : 16 * (byte.toNat / 16 % 16) + byte.toNat % 16 = byte.toNat := by
        have small := byte.toNat_lt
        omega
      rw [List.flatMap_cons, hexPair_eq, List.cons_append, List.singleton_append, hexBytes?, high,
        low, ih]
      simp only [Option.bind_eq_bind, Option.bind_some, whole, UInt8.ofNat_toNat]
      rfl

end DocTable
