import DocTable.Identifier
import DocTable.Proofs.Text.Hex

/-!
# Ids in a row

A source is called for one id after the other. The counters of both kinds of ids are machine words
that wrap around, so the ids do not repeat for as many calls as the part of the counter that is
written has values: all 2^32 values of sequential ids, and 2^24 of the counter in an object id.
-/

namespace DocTable

namespace IdSource

variable {ι : Type}

/-- The state of a source behind some calls. -/
def after (ids : IdSource ι) (source : ι) : (calls : Nat) → ι
  | 0 => source
  | calls + 1 => after ids (ids source).2 calls

/-- The id that a call returns; the first call has the number one. -/
def call (ids : IdSource ι) (source : ι) (number : Nat) : String :=
  (ids (ids.after source (number - 1))).1

theorem take_eq_map (ids : IdSource ι) (count : Nat) (source : ι) :
    ids.take count source = (List.range count).map fun index => ids.call source (index + 1) := by
  induction count generalizing source with
  | zero => rfl
  | succ count ih =>
      rw [take, List.range_succ_eq_map, List.map_cons, List.map_map]
      exact congrArg (List.cons _) (ih (ids source).2)

end IdSource

theorem toNat_counted (start : UInt32) (calls : Nat) :
    (start + UInt32.ofNat calls).toNat = (start.toNat + calls) % 2 ^ 32 := by
  rw [UInt32.toNat_add, UInt32.toNat_ofNat', Nat.add_mod_mod]

namespace SequentialIds

theorem after_eq (ids : SequentialIds) (calls : Nat) :
    fresh.after ids calls = { ids with next := ids.next + UInt32.ofNat calls } := by
  induction calls generalizing ids with
  | zero => simp [IdSource.after]
  | succ calls ih =>
      rw [IdSource.after, ih]
      simp [fresh, UInt32.ofNat_add, UInt32.add_assoc, UInt32.add_comm]

theorem call_eq (stem : String) {number : Nat} (first : 1 ≤ number) :
    fresh.call { stem } number =
      stem ++ String.ofList (decimalPadded 6 (number % 2 ^ 32)) := by
  have count : (1 + UInt32.ofNat (number - 1)).toNat = number % 2 ^ 32 := by
    rw [toNat_counted, UInt32.toNat_one, Nat.add_sub_cancel' first]
  rw [IdSource.call, after_eq, fresh, count]

/-- The ids repeat after 2^32 calls and no sooner. They are the ids of the calls from the first on,
and those of two calls are equal if and only if the numbers of the calls are congruent, whatever the
text in front of the numbers ends with. -/
theorem repeats_iff (stem : String) :
    (∀ count, IdSource.take fresh count { stem } =
        (List.range count).map fun index => fresh.call { stem } (index + 1)) ∧
      ∀ first second, 1 ≤ first → 1 ≤ second →
        (fresh.call { stem } first = fresh.call { stem } second ↔
          first ≡ second [MOD 2 ^ 32]) := by
  refine ⟨fun count => fresh.take_eq_map count { stem }, ?_⟩
  intro first second one other
  rw [call_eq stem one, call_eq stem other, String.append_right_inj, String.ofList_inj, Nat.ModEq]
  exact ⟨decimalPadded_injective, congrArg _⟩

/-- A stem that ends with a digit, before and after the numbers take a seventh digit, and behind the
last number. -/
theorem repeats_iff_of_wrapped :
    fresh.call { stem := "n0" } 1 ≠ fresh.call { stem := "n0" } 1000001 ∧
      fresh.call { stem := "n0" } 1 = fresh.call { stem := "n0" } 4294967297 := by
  have repeats := (repeats_iff "n0").2
  constructor
  · rw [Ne, repeats 1 1000001 (by decide) (by decide)]
    decide
  · rw [repeats 1 4294967297 (by decide) (by decide)]
    decide

end SequentialIds

/-! ## Object ids -/

namespace ObjectIds

/-- What the clock says at a call. -/
def reading {ι : Type} (clock : ι → Int × ι) (time : ι) (number : Nat) : Int :=
  (clock ((fun time => (clock time).2)^[number - 1] time)).1

/-- The bytes of the next id at a time: four of the time, three of the host, two of the process and
three of the counter. -/
def bytes (seconds : Int) (ids : ObjectIds) : List UInt8 :=
  bigEndian 4 (timeWord seconds) ++ bigEndian 3 ids.host ++ bigEndian 2 ids.process.toNat ++
    bigEndian 3 ids.counter.toNat

variable {ι : Type} {clock : ι → Int × ι} {time : ι}

theorem digits_eq (seconds : Int) (ids : ObjectIds) :
    digits seconds ids = (bytes seconds ids).flatMap hexPair := by
  rw [digits, bytes, List.flatMap_append, List.flatMap_append, List.flatMap_append,
    ← hexDigits_two_mul, ← hexDigits_two_mul, ← hexDigits_two_mul, ← hexDigits_two_mul]

theorem all_isLowerHex_digits (seconds : Int) (ids : ObjectIds) :
    (digits seconds ids).all isLowerHex = true := by
  simp [digits, List.all_append, all_isLowerHex_hexDigits]

theorem middle_digits (seconds : Int) (ids : ObjectIds) :
    ((digits seconds ids).drop 8).take 10 =
      hexDigits 6 ids.host ++ hexDigits 4 ids.process.toNat := by
  rw [digits, List.append_assoc, List.append_assoc, List.drop_left' (length_hexDigits 8 _),
    ← List.append_assoc, List.take_left' (by simp)]

theorem last_digits (seconds : Int) (ids : ObjectIds) :
    (digits seconds ids).drop 18 = hexDigits 6 ids.counter.toNat := by
  rw [digits, List.drop_left' (by simp)]

theorem after_eq (ids : ObjectIds) (time : ι) (calls : Nat) :
    (fresh clock).after (ids, time) calls =
      ({ ids with counter := ids.counter + UInt32.ofNat calls },
        (fun time => (clock time).2)^[calls] time) := by
  induction calls generalizing ids time with
  | zero => simp [IdSource.after]
  | succ calls ih =>
      rw [IdSource.after, fresh, ih]
      simp [freshAt, UInt32.ofNat_add, UInt32.add_assoc, UInt32.add_comm]

theorem toList_call (ids : ObjectIds) (time : ι) (number : Nat) :
    ((fresh clock).call (ids, time) number).toList =
      digits (reading clock time number)
        { ids with counter := ids.counter + UInt32.ofNat (number - 1) } := by
  rw [IdSource.call, after_eq]
  exact String.toList_ofList

/-- The digits of the counter are the same for calls whose numbers are congruent. -/
theorem last_digits_call_eq_iff (clock : ι → Int × ι) (ids : ObjectIds) (time : ι)
    {first second : Nat} (one : 1 ≤ first) (other : 1 ≤ second) :
    ((fresh clock).call (ids, time) first).toList.drop 18 =
        ((fresh clock).call (ids, time) second).toList.drop 18 ↔
      first ≡ second [MOD 2 ^ 24] := by
  rw [toList_call, toList_call, last_digits, last_digits, hexDigits_eq_iff, toNat_counted,
    toNat_counted]
  simp only [Nat.ModEq, Nat.reducePow]
  omega

/-- The ids of a source do not repeat within 2^24 calls, whatever its counter begins with, the clock
says, and the host and the process are. They are the ids of the calls from the first on. Each has
twenty-four lower-case digits, which are read as the bytes of the time at the call, of the host, of
the process, and of the counter. The digits of host and process are the same in all of them. Those
of the counter are the same in two of them if and only if the numbers of the calls are congruent, so
they tell calls apart that are fewer than 2^24 calls away from each other. -/
theorem distinct_within (clock : ι → Int × ι) (time : ι) (ids : ObjectIds) :
    (∀ count, IdSource.take (fresh clock) count (ids, time) =
        (List.range count).map fun index => (fresh clock).call (ids, time) (index + 1)) ∧
      (∀ number, ∃ id : List Char, ((fresh clock).call (ids, time) number).toList = id ∧
        id.length = 24 ∧ id.all isLowerHex = true ∧
        hexBytes? id = some (bytes (reading clock time number)
          { ids with counter := ids.counter + UInt32.ofNat (number - 1) }) ∧
        (id.drop 8).take 10 = hexDigits 6 ids.host ++ hexDigits 4 ids.process.toNat) ∧
      ∀ first second, 1 ≤ first → 1 ≤ second →
        (((fresh clock).call (ids, time) first).toList.drop 18 =
            ((fresh clock).call (ids, time) second).toList.drop 18 ↔
          first ≡ second [MOD 2 ^ 24]) ∧
        (first < second → second < first + 2 ^ 24 →
          ((fresh clock).call (ids, time) first).toList.drop 18 ≠
            ((fresh clock).call (ids, time) second).toList.drop 18 ∧
          (fresh clock).call (ids, time) first ≠ (fresh clock).call (ids, time) second) := by
  refine ⟨fun count => (fresh clock).take_eq_map count _, ?_, ?_⟩
  · intro number
    refine ⟨_, toList_call ids time number, length_digits _ _, all_isLowerHex_digits _ _, ?_,
      middle_digits _ _⟩
    rw [digits_eq, hexBytes?_flatMap]
  · intro first second one other
    have tails := last_digits_call_eq_iff clock ids time one other
    refine ⟨tails, ?_⟩
    intro before close
    have apart : ¬first ≡ second [MOD 2 ^ 24] :=
      fun same => before.not_ge (same.symm.le_of_lt_add close)
    exact ⟨fun same => apart (tails.1 same),
      fun same => apart (tails.1 (congrArg (·.toList.drop 18) same))⟩

/-- The counter leaves its last three bytes with the second call, and the whole word later on. -/
theorem distinct_within_of_wrapped :
    let source := fresh fun time : Int => (time, time)
    let start : ObjectIds × Int := (⟨0xABCDEF, 4660, 0xFFFFFF⟩, 1700000000)
    source.call start 1 ≠ source.call start 2 ∧
      source.call start 4278190081 ≠ source.call start 4278190082 ∧
      (source.call start 1).toList.drop 18 = (source.call start 16777217).toList.drop 18 := by
  intro source start
  have distinct := (distinct_within (fun time : Int => (time, time)) 1700000000
    ⟨0xABCDEF, 4660, 0xFFFFFF⟩).2.2
  refine ⟨?_, ?_, ?_⟩
  · exact ((distinct 1 2 (by decide) (by decide)).2 (by decide) (by decide)).2
  · exact ((distinct 4278190081 4278190082 (by decide) (by decide)).2 (by decide) (by decide)).2
  · exact (distinct 1 16777217 (by decide) (by decide)).1.2 (by decide)

end ObjectIds

end DocTable
