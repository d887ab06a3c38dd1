import DocTable.Session
import DocTable.Text.Decimal
import DocTable.Text.Hex

/-!
# Ids

Two sources of ids. Object ids have a fixed shape of twelve bytes, written as lower-case
hexadecimal digits: the time, the host, the process and a counter. Sequential ids count upwards
behind a fixed text. Both counters are machine words and begin again after their last value.
-/

namespace DocTable

/-- The first ids of a source. -/
def IdSource.take {ι : Type} (ids : IdSource ι) : (count : Nat) → ι → List String
  | 0, _ => []
  | count + 1, source =>
    let (id, source) := ids source
    id :: take ids count source

/-- The state of a source of sequential ids. -/
structure SequentialIds where
  /-- The text in front of each number. -/
  stem : String
  /-- The number of the next id. -/
  next : UInt32 := 1
deriving DecidableEq, Repr

/-- The next sequential id: the number has six digits at least. -/
def SequentialIds.fresh : IdSource SequentialIds := fun ids =>
  (ids.stem ++ String.ofList (decimalPadded 6 ids.next.toNat), { ids with next := ids.next + 1 })

/-- The state of a source of object ids. -/
structure ObjectIds where
  /-- A number of three bytes for the host. -/
  host : Nat
  /-- The number of the process. -/
  process : UInt16
  /-- The counter, whose last three bytes are used. -/
  counter : UInt32
deriving DecidableEq, Repr

namespace ObjectIds

/-- A time in seconds as a word of four bytes; a time out of range is the last one. -/
def timeWord (seconds : Int) : Nat :=
  if 0 ≤ seconds ∧ seconds < 0x100000000 then seconds.toNat else 0xFFFFFFFF

/-- The digits of the next object id at a time. -/
def digits (seconds : Int) (ids : ObjectIds) : List Char :=
  hexDigits 8 (timeWord seconds) ++ hexDigits 6 ids.host ++ hexDigits 4 ids.process.toNat ++
    hexDigits 6 ids.counter.toNat

/-- The next object id at a time. -/
def freshAt (seconds : Int) (ids : ObjectIds) : String × ObjectIds :=
  (String.ofList (digits seconds ids), { ids with counter := ids.counter + 1 })

/-- Every object id has twenty-four digits. -/
@[simp] theorem length_digits (seconds : Int) (ids : ObjectIds) :
    (digits seconds ids).length = 24 := by
  simp [digits]

/-- The source whose clock is read before each id. -/
def fresh {ι : Type} (clock : ι → Int × ι) : IdSource (ObjectIds × ι) := fun (ids, time) =>
  let (seconds, time) := clock time
  let (id, ids) := ids.freshAt seconds
  (id, (ids, time))

end ObjectIds

end DocTable
