import DocTable.Proofs.Json.Sum
import DocTable.Proofs.Update.Rearrangement

/-!
# Increments

An entry that is independent of the others does its action to what the document had at its
path. So an increment leaves the sum with the number that was there, and null in place of a
sum that is too large for a double. Two integers are added exactly as long as nothing leaves
the signed range, above which an integer is turned into a double even by an increment of zero.
-/

namespace DocTable

open Json

namespace Edit

variable {edits : List Edit} {edit : Edit} {path : List String}

theorem follow?_run_of_apart (apart : ∀ edit ∈ edits, Apart edit.path path)
    (place : Option Json) : follow? (run edits place) path = follow? place path := by
  induction edits generalizing place with
  | nil => rfl
  | cons edit rest ih =>
      obtain ⟨head, tail⟩ := List.forall_mem_cons.1 apart
      rw [run_cons, ih tail, apply, follow?_alter_of_not_prefix head.1 head.2]

/-- Each of several independent edits does its action to what stood at the end of its path. -/
theorem follow?_run_of_mem
    (independent : edits.Pairwise fun first second => Apart first.path second.path)
    (member : edit ∈ edits) (place : Option Json) :
    follow? (run edits place) edit.path = edit.action.result (follow? place edit.path) := by
  induction edits generalizing place with
  | nil => cases member
  | cons first rest ih =>
      obtain ⟨head, tail⟩ := List.pairwise_cons.1 independent
      rw [run_cons]
      cases member with
      | head =>
          rw [follow?_run_of_apart fun other later => (head other later).symm, apply,
            follow?_alter_self]
      | tail _ later =>
          have apart := head edit later
          rw [ih tail later, apply, follow?_alter_of_not_prefix apart.1 apart.2]

end Edit

namespace Update

variable {assignments : List (FieldPath × Json)} {increments : List (FieldPath × Number)}
variable {removals : List FieldPath} {path : FieldPath} {amount : Number} {document : Document}

/-- An increment that is independent of the other entries acts on what the document had. -/
theorem lookup?_apply_of_mem (independent : (paths assignments increments removals).Pairwise Apart)
    (listed : (path, amount) ∈ increments) (document : Document) :
    ((operators assignments increments removals).apply document).1.lookup? path =
      (incremented? (document.lookup? path) amount).or (document.lookup? path) := by
  have member : ⟨path.segments, .add amount⟩ ∈ edits assignments increments removals := by
    simp only [edits, List.mem_append, List.mem_map]
    exact .inl (.inr ⟨_, listed, rfl⟩)
  have acted := Edit.follow?_run_of_mem (edits_apart independent) member (some (.object document))
  rw [← (apply_operators assignments increments removals document).1] at acted
  exact acted

/-- An increment of a number leaves a number as long as the exact sum stays below the bound from
which on there is no double, and null otherwise. -/
theorem increment_leaves_number_iff
    (independent : (paths assignments increments removals).Pairwise Apart)
    (listed : (path, amount) ∈ increments) {value : Number}
    (found : document.lookup? path = some (.number value)) :
    let after := ((operators assignments increments removals).apply document).1
    ((∃ sum, after.lookup? path = some (.number sum)) ↔
        |value.toRat + amount.toRat| < Double.overflow) ∧
      (Double.overflow ≤ |value.toRat + amount.toRat| → after.lookup? path = some .null) := by
  intro after
  have result : after.lookup? path = some (((value.add? amount).map .number).getD .null) := by
    rw [lookup?_apply_of_mem independent listed, found, incremented?, Option.some_or]
  have infinite := Number.add?_eq_none_iff value amount
  cases added : value.add? amount with
  | none =>
      have reached := infinite.1 added
      rw [result, added]
      simpa using reached
  | some sum =>
      have below : |value.toRat + amount.toRat| < Double.overflow := by
        rw [← not_le, ← infinite, added]
        exact Option.some_ne_none sum
      rw [result, added]
      simpa using below

/-- An increment next to an assignment and a removal that are apart from it. -/
theorem increment_leaves_number_of_integers :
    ∃ sum, ((operators [(⟨["m", "a"], by decide, by decide⟩, .null)]
        [(⟨["n"], by decide, by decide⟩, .integer (-3) (by decide))]
        [⟨["m", "b"], by decide, by decide⟩]).apply
          ⟨[("n", .number (.integer 1 (by decide)))]⟩).1.lookup?
            ⟨["n"], by decide, by decide⟩ = some (.number sum) := by
  refine (increment_leaves_number_iff (by decide) List.mem_cons_self rfl).1.2 ?_
  exact (Number.add?_integer_ne_none (.inl rfl)).2

/-- The greatest double that is added to itself is no number any more. -/
theorem number_lost_by_increment :
    ((operators [] [(⟨["n"], by decide, by decide⟩,
        .double ⟨false, 0x7FEFFFFFFFFFFFFF, by decide⟩)] []).apply
      ⟨[("n", .number (.double ⟨false, 0x7FEFFFFFFFFFFFFF, by decide⟩))]⟩).1.lookup?
        ⟨["n"], by decide, by decide⟩ = some .null := by
  have infinite : (Number.double ⟨false, 0x7FEFFFFFFFFFFFFF, by decide⟩).add?
      (.double ⟨false, 0x7FEFFFFFFFFFFFFF, by decide⟩) = none := by
    decide +kernel
  have found : Document.lookup? ⟨[("n", .number (.double ⟨false, 0x7FEFFFFFFFFFFFFF, by decide⟩))]⟩
      ⟨["n"], by decide, by decide⟩ =
        some (.number (.double ⟨false, 0x7FEFFFFFFFFFFFFF, by decide⟩)) := rfl
  rw [lookup?_apply_of_mem (List.pairwise_singleton _ _) List.mem_cons_self, found, incremented?,
    infinite]
  rfl

theorem apply_increment (path : FieldPath) (amount : Number) {document : Document} {current : Json}
    (found : document.lookup? path = some current) :
    let result := (operators [] [(path, amount)] []).apply document
    result.1.lookup? path = (incremented? (some current) amount).or (some current) ∧
      result.2 = (incremented? (some current) amount).any fun next => !same current next := by
  have flag := (apply_operators [] [(path, amount)] [] document).2
  have lookup : follow? (some (.object document)) path.segments = some current := found
  refine ⟨?_, ?_⟩
  · rw [← found]
    exact lookup?_apply_of_mem (List.pairwise_singleton _ _) List.mem_cons_self document
  · simpa [edits, Edit.runChanges, Edit.changes, Action.changes, lookup, sameOption] using flag

/-- Let an increment by an integer be made where an integer is, and let their sum be in the range
of the integers. It is stored if and only if neither of the three is above the signed range;
otherwise the sum of the nearest doubles is. A change is reported of every increment but zero, and
of zero too if the integer is above the signed range. -/
theorem increment_exact_iff {path : FieldPath} {document : Document} {value amount : Int}
    {valueRange : -0x8000000000000000 ≤ value ∧ value < 0x10000000000000000}
    (amountRange : -0x8000000000000000 ≤ amount ∧ amount < 0x10000000000000000)
    (found : document.lookup? path = some (.number (.integer value valueRange)))
    (sumRange : -0x8000000000000000 ≤ value + amount ∧ value + amount < 0x10000000000000000) :
    let result := (operators [] [(path, .integer amount amountRange)] []).apply document
    let signed := value < 0x8000000000000000 ∧ amount < 0x8000000000000000 ∧
      value + amount < 0x8000000000000000
    (result.1.lookup? path = some (.number (.integer (value + amount) sumRange)) ↔ signed) ∧
      (¬signed → ∃ sum, (Number.integer value valueRange).toDouble.add?
            (Number.integer amount amountRange).toDouble = some sum ∧
          result.1.lookup? path = some (.number (.double sum))) ∧
        (result.2 = true ↔ amount ≠ 0 ∨ 0x8000000000000000 ≤ value) := by
  intro result signed
  obtain ⟨stored, flag⟩ := apply_increment path (.integer amount amountRange) found
  rw [incremented?, Option.some_or] at stored
  rw [incremented?, Option.any_some] at flag
  by_cases small : signed
  · obtain ⟨valueSigned, amountSigned, sumSigned⟩ := small
    have exact : (Number.integer value valueRange).add? (.integer amount amountRange) =
        some (.integer (value + amount) sumRange) :=
      Number.add?_integer_of_signed _ _ valueSigned amountSigned sumSigned sumRange
    rw [exact] at stored flag
    refine ⟨iff_of_true stored ⟨valueSigned, amountSigned, sumSigned⟩,
      fun large => absurd ⟨valueSigned, amountSigned, sumSigned⟩ large, ?_⟩
    have changed : (!same (.number (.integer value valueRange))
        (.number (.integer (value + amount) sumRange))) = true ↔ value ≠ value + amount := by
      simp [same, Number.same]
    rw [flag, Option.map_some, Option.getD_some, changed]
    omega
  · obtain ⟨sum, added, rounded⟩ := Number.exists_double_of_unsigned valueRange amountRange
      fun inside => small ⟨inside.1, inside.2.1, inside.2.2.2⟩
    rw [rounded] at stored flag
    refine ⟨iff_of_false ?_ small, fun _ => ⟨sum, added, stored⟩, iff_of_true flag ?_⟩
    · rw [stored]
      simp
    · by_contra zero
      obtain ⟨zero, less⟩ := not_or.1 zero
      exact small (by omega)

/-- The greatest integer of the signed range is reached exactly. -/
theorem increment_exact_iff_of_limit :
    let document : Document := ⟨[("n", .number (.integer 0x7FFFFFFFFFFFFFFE (by decide)))]⟩
    let path : FieldPath := ⟨["n"], by decide, by decide⟩
    let result := (operators [] [(path, .integer 1 (by decide))] []).apply document
    result.1.lookup? path =
        some (.number (.integer (0x7FFFFFFFFFFFFFFE + 1) (by decide))) ∧
      result.2 = true := by
  intro document path result
  have found : document.lookup? path =
      some (.number (.integer 0x7FFFFFFFFFFFFFFE (by decide))) := rfl
  have one : -0x8000000000000000 ≤ (1 : Int) ∧ (1 : Int) < 0x10000000000000000 := by decide
  obtain ⟨stored, -, flag⟩ := increment_exact_iff one found (by decide)
  exact ⟨stored.2 (by decide), flag.2 (.inl (by decide))⟩

/-- One above the signed range, an increment of one leaves the double of the integer, and so does
an increment of zero, which is reported. -/
theorem integer_lost_by_increment :
    let document : Document := ⟨[("n", .number (.integer 0x8000000000000000 (by decide)))]⟩
    let path : FieldPath := ⟨["n"], by decide, by decide⟩
    let increased := (operators [] [(path, .integer 1 (by decide))] []).apply document
    let kept := (operators [] [(path, .integer 0 (by decide))] []).apply document
    increased.1.lookup? path = some (.number (.double ⟨false, 0x43E0000000000000, by decide⟩)) ∧
      kept.1.lookup? path = some (.number (.double ⟨false, 0x43E0000000000000, by decide⟩)) ∧
        kept.2 = true := by
  have rounded : (Number.integer 0x8000000000000000 (by decide)).add?
      (.integer 1 (by decide)) = some (.double ⟨false, 0x43E0000000000000, by decide⟩) := by
    decide +kernel
  have same : (Number.integer 0x8000000000000000 (by decide)).add?
      (.integer 0 (by decide)) = some (.double ⟨false, 0x43E0000000000000, by decide⟩) := by
    decide +kernel
  intro document path increased kept
  have found : document.lookup? path =
      some (.number (.integer 0x8000000000000000 (by decide))) := rfl
  obtain ⟨stored, -⟩ := apply_increment path (.integer 1 (by decide)) found
  obtain ⟨storedZero, flag⟩ := apply_increment path (.integer 0 (by decide)) found
  rw [incremented?, rounded] at stored
  rw [incremented?, same] at storedZero flag
  exact ⟨stored, storedZero, flag⟩

end Update

end DocTable
