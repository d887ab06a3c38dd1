import Mathlib.Data.List.TakeDrop
import Mathlib.Data.List.TakeWhile
import DocTable.Document.Basic
import DocTable.Proofs.Json.Proper
import DocTable.Proofs.Json.Rereading

/-!
# Values that survive their own texts

A value is read back from its text exactly if no object in it repeats a name, at
most as many containers are nested in it as a reader opens, and each of its
doubles is read back from its own digits. Integers always are. A document is
decoded from what it was stored as under the same conditions.
-/

namespace DocTable

theorem head?_decimal {value : Nat} (positive : 0 < value) :
    (decimal value).head? ≠ some '0' := by
  induction value using Nat.strongRecOn with
  | ind value ih =>
      rw [decimal, Nat.toDigits_eq_if (by decide)]
      split
      · next small =>
          have nonzero : ∀ digit < 10, 0 < digit → Nat.digitChar digit ≠ '0' := by decide
          simpa using nonzero value small positive
      · next large =>
          have leading := ih (value / 10) (by omega) (by omega)
          have nonempty : decimal (value / 10) ≠ [] := Nat.toDigits_ne_nil
          rwa [← decimal, List.head?_append_of_ne_nil _ nonempty]

theorem decimal_wellFormed (value : Nat) :
    ¬(decimal value = [] ∨ ((decimal value).head? = some '0' ∧ 1 < (decimal value).length)) := by
  rintro (empty | ⟨leading, long⟩)
  · exact Nat.toDigits_ne_nil empty
  · rcases Nat.eq_zero_or_pos value with rfl | positive
    · exact absurd long (by decide)
    · exact head?_decimal positive leading

theorem span_decimal (value : Nat) : (decimal value).span Char.isDigit = (decimal value, []) := by
  have digits : ∀ char ∈ decimal value, char.isDigit = true :=
    fun _ member => isDigit_of_mem_decimal member
  rw [List.span_eq_takeWhile_dropWhile, List.takeWhile_eq_self_iff.2 digits,
    List.dropWhile_eq_nil_iff.2 digits]

namespace Number

theorem literal_decimal (value : Nat) :
    Literal.ofText? (decimal value) = some ⟨false, decimal value, none, none⟩ := by
  have unsigned : ((decimal value).head? == some '-') = false := by
    rw [beq_eq_false_iff_ne]
    intro minus
    exact absurd (isDigit_of_mem_decimal (List.mem_of_mem_head? minus)) (by decide)
  simp only [Literal.ofText?, unsigned, Bool.false_eq_true, if_false, span_decimal,
    if_neg (decimal_wellFormed value)]
  rfl

theorem literal_minus_decimal (value : Nat) :
    Literal.ofText? ('-' :: decimal value) = some ⟨true, decimal value, none, none⟩ := by
  have signed : (('-' :: decimal value).head? == some '-') = true := rfl
  simp only [Literal.ofText?, signed, if_true, List.drop_succ_cons, List.drop_zero, span_decimal,
    if_neg (decimal_wellFormed value)]
  rfl

theorem ofText?_text_integer (value : Int)
    (inRange : -0x8000000000000000 ≤ value ∧ value < 0x10000000000000000) :
    ofText? (Number.integer value inRange).text = some (.integer value inRange) := by
  cases value with
  | ofNat value =>
      have fits : (value : Int) < 0x10000000000000000 := inRange.2
      rw [text, decimalInt, ofText?, literal_decimal, Option.bind_some]
      simp only [Literal.toNumber?, Option.isNone_none, Bool.and_self, if_true,
        Bool.false_eq_true, if_false, decimalValue_decimal, if_pos fits]
      exact dif_pos inRange
  | negSucc value =>
      have negative : -((value + 1 : Nat) : Int) = Int.negSucc value := rfl
      have nonzero : ¬((value + 1 : Nat) : Int) = 0 := by omega
      have fits : ((value + 1 : Nat) : Int) ≤ 0x8000000000000000 := by omega
      rw [text, decimalInt, ofText?, literal_minus_decimal, Option.bind_some]
      simp only [Literal.toNumber?, Option.isNone_none, Bool.and_self, if_true,
        decimalValue_decimal, if_neg nonzero, if_pos fits, negative]
      exact dif_pos inRange

end Number

/-- The double is what its own text is read as. -/
def Double.ReadsBack (value : Double) : Prop :=
  Number.ofText? (Number.double value).text = some (.double value)

instance (value : Double) : Decidable value.ReadsBack :=
  inferInstanceAs (Decidable (Number.ofText? (Number.double value).text = some (.double value)))

/-- Minus zero and one and a half are read back, but not every double is: the reader rounds more
than once on the way from the digits to the value. -/
example : Double.ReadsBack ⟨true, 0, by decide⟩ ∧
    Double.ReadsBack ⟨false, 0x3FF8000000000000, by decide⟩ ∧
      ¬Double.ReadsBack ⟨false, 0x3FF0035E55F11B66, by decide⟩ := by decide +kernel

namespace Json

mutual

/-- How many containers are nested in a value, the value itself among them. -/
def depth : Json → Nat
  | .array elements => depthElements elements + 1
  | .object ⟨entries⟩ => depthEntries entries + 1
  | .null | .bool _ | .number _ | .string _ => 0

/-- The greatest depth of an element. -/
def depthElements : List Json → Nat
  | [] => 0
  | element :: rest => max (depth element) (depthElements rest)

/-- The greatest depth of the value of an entry. -/
def depthEntries : List (String × Json) → Nat
  | [] => 0
  | (_, value) :: rest => max (depth value) (depthEntries rest)

end

mutual

/-- The doubles in a value, in order. -/
def doubles : Json → List Double
  | .number (.double value) => [value]
  | .array elements => doublesOfElements elements
  | .object ⟨entries⟩ => doublesOfEntries entries
  | .null | .bool _ | .number (.integer _ _) | .string _ => []

/-- The doubles in the elements, in order. -/
def doublesOfElements : List Json → List Double
  | [] => []
  | element :: rest => doubles element ++ doublesOfElements rest

/-- The doubles in the values of the entries, in order. -/
def doublesOfEntries : List (String × Json) → List Double
  | [] => []
  | (_, value) :: rest => doubles value ++ doublesOfEntries rest

end

theorem depthEntries_le_iff {entries : List (String × Json)} {bound : Nat} :
    depthEntries entries ≤ bound ↔ ∀ entry ∈ entries, entry.2.depth ≤ bound := by
  induction entries with
  | nil => simp [depthEntries]
  | cons entry rest ih => rw [depthEntries, Nat.max_le, ih, List.forall_mem_cons]

theorem mem_doublesOfEntries {entries : List (String × Json)} {double : Double} :
    double ∈ doublesOfEntries entries ↔ ∃ entry ∈ entries, double ∈ entry.2.doubles := by
  induction entries with
  | nil => simp [doublesOfEntries]
  | cons entry rest ih => simp [doublesOfEntries, ih]

mutual

/-- The numbers of a value are read as they are if its doubles are. -/
theorem renumbered?_eq_self_iff (value : Json) :
    renumbered? value = some value ↔ ∀ double ∈ value.doubles, double.ReadsBack := by
  match value with
  | .null | .bool _ | .string _ => simp [renumbered?, doubles]
  | .number (.integer own inRange) =>
      simp [renumbered?, doubles, Number.ofText?_text_integer own inRange]
  | .number (.double own) => simp [renumbered?, doubles, Double.ReadsBack]
  | .array elements =>
      rw [doubles, ← renumberedElements?_eq_self_iff elements, renumbered?]
      simp
  | .object ⟨entries⟩ =>
      rw [doubles, ← renumberedEntries?_eq_self_iff entries, renumbered?]
      simp

theorem renumberedElements?_eq_self_iff (elements : List Json) :
    renumberedElements? elements = some elements ↔
      ∀ double ∈ doublesOfElements elements, double.ReadsBack := by
  match elements with
  | [] => simp [renumberedElements?, doublesOfElements]
  | element :: rest =>
      rw [doublesOfElements, List.forall_mem_append, ← renumbered?_eq_self_iff element,
        ← renumberedElements?_eq_self_iff rest, renumberedElements?]
      cases renumbered? element <;> cases renumberedElements? rest <;> simp

theorem renumberedEntries?_eq_self_iff (entries : List (String × Json)) :
    renumberedEntries? entries = some entries ↔
      ∀ double ∈ doublesOfEntries entries, double.ReadsBack := by
  match entries with
  | [] => simp [renumberedEntries?, doublesOfEntries]
  | (key, value) :: rest =>
      rw [doublesOfEntries, List.forall_mem_append, ← renumbered?_eq_self_iff value,
        ← renumberedEntries?_eq_self_iff rest, renumberedEntries?]
      cases renumbered? value <;> cases renumberedEntries? rest <;> simp

end

mutual

theorem Proper.of_renumbered? {value renumbered : Json} (proper : value.Proper)
    (read : renumbered? value = some renumbered) : renumbered.Proper := by
  match value with
  | .null | .bool _ | .string _ =>
      cases read
      exact trivial
  | .number own =>
      rcases Option.map_eq_some_iff.1 read with ⟨other, -, rfl⟩
      exact trivial
  | .array elements =>
      rw [Proper] at proper
      rw [renumbered?] at read
      rcases Option.map_eq_some_iff.1 read with ⟨others, inside, rfl⟩
      exact properElements_of_renumbered? proper inside
  | .object ⟨entries⟩ =>
      rw [Proper] at proper
      rw [renumbered?] at read
      rcases Option.map_eq_some_iff.1 read with ⟨others, inside, rfl⟩
      have keys := keys_of_renumberedEntries? inside
      have distinct : (Fields.mk others).Distinct := by
        rw [Fields.Distinct, Fields.keys, keys]
        exact proper.1
      exact ⟨distinct, properEntries_of_renumbered? proper.2 inside⟩

theorem properElements_of_renumbered? {elements renumbered : List Json}
    (proper : ProperElements elements) (read : renumberedElements? elements = some renumbered) :
    ProperElements renumbered := by
  match elements with
  | [] =>
      cases read
      exact trivial
  | element :: rest =>
      rw [ProperElements] at proper
      rcases renumberedElements?_cons.1 read with ⟨own, others, first, later, rfl⟩
      exact ⟨proper.1.of_renumbered? first, properElements_of_renumbered? proper.2 later⟩

theorem properEntries_of_renumbered? {entries renumbered : List (String × Json)}
    (proper : ProperEntries entries) (read : renumberedEntries? entries = some renumbered) :
    ProperEntries renumbered := by
  match entries with
  | [] =>
      cases read
      exact trivial
  | (key, value) :: rest =>
      rw [ProperEntries] at proper
      rcases renumberedEntries?_cons.1 read with ⟨own, others, first, later, rfl⟩
      exact ⟨proper.1.of_renumbered? first, properEntries_of_renumbered? proper.2 later⟩

end

/-! ## Room for nested containers -/

mutual

theorem depth_of_renumbered? {value renumbered : Json}
    (read : renumbered? value = some renumbered) : renumbered.depth = value.depth := by
  match value with
  | .null | .bool _ | .string _ =>
      cases read
      rfl
  | .number own =>
      rcases Option.map_eq_some_iff.1 read with ⟨other, -, rfl⟩
      rw [depth, depth]
  | .array elements =>
      rw [renumbered?] at read
      rcases Option.map_eq_some_iff.1 read with ⟨others, inside, rfl⟩
      rw [depth, depth, depthElements_of_renumbered? inside]
  | .object ⟨entries⟩ =>
      rw [renumbered?] at read
      rcases Option.map_eq_some_iff.1 read with ⟨others, inside, rfl⟩
      rw [depth, depth, depthEntries_of_renumbered? inside]

theorem depthElements_of_renumbered? {elements renumbered : List Json}
    (read : renumberedElements? elements = some renumbered) :
    depthElements renumbered = depthElements elements := by
  match elements with
  | [] =>
      cases read
      rfl
  | element :: rest =>
      rcases renumberedElements?_cons.1 read with ⟨own, others, first, later, rfl⟩
      rw [depthElements, depthElements, depth_of_renumbered? first,
        depthElements_of_renumbered? later]

theorem depthEntries_of_renumbered? {entries renumbered : List (String × Json)}
    (read : renumberedEntries? entries = some renumbered) :
    depthEntries renumbered = depthEntries entries := by
  match entries with
  | [] =>
      cases read
      rfl
  | (key, value) :: rest =>
      rcases renumberedEntries?_cons.1 read with ⟨own, others, first, later, rfl⟩
      rw [depthEntries, depthEntries, depth_of_renumbered? first, depthEntries_of_renumbered? later]

end

mutual

theorem settle?_of_proper (room : Nat) {value : Json} (proper : value.Proper) :
    settle? room value = if value.depth ≤ room then some value else none := by
  match value with
  | .null | .bool _ | .number _ | .string _ => simp [settle?, depth]
  | .array elements =>
      rw [Proper] at proper
      rw [settle?, depth, settleElements?_of_proper (room - 1) proper]
      by_cases full : room = 0
      · simp [full]
      · have shifted : depthElements elements + 1 ≤ room ↔ depthElements elements ≤ room - 1 := by
          omega
        by_cases fits : depthElements elements ≤ room - 1 <;> simp [full, shifted, fits]
  | .object ⟨entries⟩ =>
      rw [Proper] at proper
      rw [settle?, depth, settleEntries?_of_proper (room - 1) ∅ proper.1 proper.2]
      by_cases full : room = 0
      · simp [full]
      · have shifted : depthEntries entries + 1 ≤ room ↔ depthEntries entries ≤ room - 1 := by
          omega
        by_cases fits : depthEntries entries ≤ room - 1 <;> simp [full, shifted, fits]
        rfl

theorem settleElements?_of_proper (room : Nat) {elements : List Json}
    (proper : ProperElements elements) :
    settleElements? room elements =
      if depthElements elements ≤ room then some elements else none := by
  match elements with
  | [] => simp [settleElements?, depthElements]
  | element :: rest =>
      rw [ProperElements] at proper
      rw [settleElements?, depthElements, settle?_of_proper room proper.1,
        settleElements?_of_proper room proper.2]
      by_cases first : element.depth ≤ room <;>
        by_cases later : depthElements rest ≤ room <;> simp [first, later]

/-- Entries with new names settle behind those that are there. -/
theorem settleEntries?_of_proper (room : Nat) (before : Fields Json)
    {entries : List (String × Json)}
    (distinct : (Fields.mk (before.entries ++ entries)).Distinct)
    (proper : ProperEntries entries) :
    settleEntries? room before entries =
      if depthEntries entries ≤ room then some ⟨before.entries ++ entries⟩ else none := by
  match entries with
  | [] => simp [settleEntries?, depthEntries]
  | (key, value) :: rest =>
      rw [ProperEntries] at proper
      have fresh : key ∉ before.keys := by
        rw [Fields.Distinct, Fields.keys, List.map_append] at distinct
        have apart := (List.nodup_append.1 distinct).2.2
        intro member
        exact apart key member key (by simp) rfl
      have put : before.insert key value = ⟨before.entries ++ [(key, value)]⟩ :=
        Fields.insert_of_notMem fresh
      rw [settleEntries?, depthEntries, settle?_of_proper room proper.1]
      by_cases first : value.depth ≤ room
      · have shifted : (Fields.mk ((before.insert key value).entries ++ rest)).Distinct := by
          simpa [put] using distinct
        rw [if_pos first, Option.bind_eq_bind, Option.bind_some,
          settleEntries?_of_proper room (before.insert key value) shifted proper.2, put]
        simp [first]
      · rw [if_neg first, if_neg fun fits => first (Nat.max_le.1 fits).1]
        rfl

end

/-- Nothing is read from the text of a proper value that is nested too deeply. -/
theorem read?_text_of_deep {value : Json} (proper : value.Proper)
    (deep : depthLimit < value.depth) : read? value.text = none := by
  rw [read?_text]
  cases read : renumbered? value with
  | none => rfl
  | some renumbered =>
      have still : ¬renumbered.depth ≤ depthLimit := by
        rw [depth_of_renumbered? read]
        exact Nat.not_le_of_lt deep
      rw [Option.bind_some, settle?_of_proper depthLimit (proper.of_renumbered? read),
        if_neg still]

/-- What a value needs to be read back from its text. -/
structure Legible (value : Json) : Prop where
  proper : value.Proper
  shallow : value.depth ≤ depthLimit
  exact : ∀ double ∈ value.doubles, double.ReadsBack

/-- A value is read back from its text if and only if it is legible. -/
theorem read?_text_eq_some_iff (value : Json) : read? value.text = some value ↔ value.Legible := by
  constructor
  · intro read
    have proper := proper_of_read? read
    rw [read?_text] at read
    rcases Option.bind_eq_some_iff.1 read with ⟨renumbered, numbers, settled⟩
    rw [settle?_of_proper depthLimit (proper.of_renumbered? numbers)] at settled
    split at settled
    · next shallow =>
        cases settled
        exact ⟨proper, shallow, (renumbered?_eq_self_iff value).1 numbers⟩
    · cases settled
  · rintro ⟨proper, shallow, exact⟩
    rw [read?_text, (renumbered?_eq_self_iff value).2 exact, Option.bind_some,
      settle?_of_proper depthLimit proper, if_pos shallow]

end Json

namespace Document

theorem decode_eq_ok_iff {raw : String} {document : Document} :
    decode raw = .ok document ↔ Json.read? raw = some (.object document) := by
  unfold decode
  cases Json.read? raw with
  | none => simp [throw, throwThe, MonadExceptOf.throw]
  | some value =>
      cases value <;> simp [throw, throwThe, MonadExceptOf.throw, pure, Except.pure]

theorem proper_of_decode {raw : String} {document : Document}
    (decoded : decode raw = .ok document) : (Json.object document).Proper :=
  Json.proper_of_read? (decode_eq_ok_iff.1 decoded)

theorem decode_text {document : Document} (legible : (Json.object document).Legible) :
    decode document.text = .ok document :=
  decode_eq_ok_iff.2 ((Json.read?_text_eq_some_iff _).2 legible)

/-- A document is what its stored text is decoded to, order of names and kinds of numbers
included, if and only if it is legible. -/
theorem decode_text_eq_ok_iff (document : Document) :
    decode document.text = .ok document ↔ (Json.object document).Legible := by
  constructor
  · intro decoded
    exact (Json.read?_text_eq_some_iff _).1 (decode_eq_ok_iff.1 decoded)
  · exact decode_text

end Document

end DocTable
