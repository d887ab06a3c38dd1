import Mathlib.Data.List.Perm.Basic
import DocTable.Proofs.Filter.Meaning
import DocTable.Proofs.Json.Reordering

/-!
# Filters and documents up to the order of keys

The entries of a match document are joined by conjunction and those of a document
are found by their names, so the order of neither matters, at no depth: reordered
match documents are both accepted or both refused, and match the same documents
up to reordering.
-/

namespace DocTable.MatchDocument

open Json

theorem accepts_eq_all (entries : List (String × Json)) :
    accepts entries = entries.all fun entry => acceptsEntry entry.1 entry.2 := by
  induction entries with
  | nil => rfl
  | cons entry rest ih => rw [accepts, ih, List.all_cons]

theorem acceptsOperators_eq_all (entries : List (String × Json)) :
    acceptsOperators entries = entries.all fun entry => acceptsOperator entry.1 entry.2 := by
  induction entries with
  | nil => rfl
  | cons entry rest ih => rw [acceptsOperators, ih, List.all_cons]

variable {alike : Number → Number → Prop}

theorem isLiteral_of_reordered {left right : Json} (reordered : Reordered alike left right) :
    isLiteral left = isLiteral right := by
  have shape := reordered.shape
  cases left with
  | null | bool _ | string _ => rw [shape]
  | number _ | array _ =>
      rcases shape with ⟨_, rfl, -⟩
      rfl
  | object _ =>
      rcases shape with ⟨_, rfl, -⟩
      rfl

theorem isEmpty_of_reorderedElements {left right : List Json}
    (reordered : ReorderedElements alike left right) : left.isEmpty = right.isEmpty := by
  match left, right with
  | [], [] | _ :: _, _ :: _ => rfl
  | [], _ :: _ | _ :: _, [] => exact False.elim reordered

theorem isEmpty_of_reorderedEntries {left right : List (String × Json)}
    (reordered : ReorderedEntries alike left right) : left.isEmpty = right.isEmpty := by
  cases left with
  | nil =>
      rw [ReorderedEntries] at reordered
      rw [reordered]
  | cons entry rest =>
      rw [ReorderedEntries] at reordered
      rcases reordered with ⟨before, other, after, rfl, -⟩
      simp

theorem map_eq_of_reorderedElements {α : Type} {left right : List Json} {first second : Json → α}
    (reordered : ReorderedElements alike left right)
    (each : ∀ element other, Reordered alike element other → first element = second other) :
    left.map first = right.map second := by
  induction left generalizing right with
  | nil =>
      cases right with
      | nil => rfl
      | cons _ _ => exact False.elim reordered
  | cons element rest ih =>
      cases right with
      | nil => exact False.elim reordered
      | cons other others =>
          rw [ReorderedElements] at reordered
          rw [List.map_cons, List.map_cons, each element other reordered.1, ih reordered.2]

mutual

theorem acceptsOperators_of_reordered (left right : List (String × Json))
    (reordered : ReorderedEntries alike left right) :
    acceptsOperators left = acceptsOperators right := by
  match left with
  | [] =>
      rw [ReorderedEntries] at reordered
      rw [reordered]
  | (key, operand) :: rest =>
      rw [ReorderedEntries] at reordered
      rcases reordered with ⟨before, other, after, rfl, -, head, tail⟩
      rw [acceptsOperators, acceptsOperator_of_reordered key operand other head,
        acceptsOperators_of_reordered rest (before ++ after) tail, acceptsOperators_eq_all,
        acceptsOperators_eq_all, List.perm_middle.all_eq, List.all_cons]

theorem acceptsOperator_of_reordered (key : String) (left right : Json)
    (reordered : Reordered alike left right) :
    acceptsOperator key left = acceptsOperator key right := by
  have shape := reordered.shape
  match left with
  | .null | .bool _ | .string _ => rw [shape]
  | .number _ =>
      rcases shape with ⟨_, rfl, -⟩
      rfl
  | .array elements =>
      rcases shape with ⟨others, rfl, inner⟩
      have literals := map_eq_of_reorderedElements inner fun _ _ => isLiteral_of_reordered
      have every : elements.all isLiteral = others.all isLiteral := by
        simpa using congrArg (List.all · id) literals
      rw [acceptsOperator, acceptsOperator, every]
  | .object ⟨entries⟩ =>
      rcases shape with ⟨others, rfl, inner⟩
      rw [acceptsOperator, acceptsOperator, isEmpty_of_reorderedEntries inner,
        acceptsOperators_of_reordered entries others inner]

end

mutual

theorem accepts_of_reordered (left right : List (String × Json))
    (reordered : ReorderedEntries alike left right) : accepts left = accepts right := by
  match left with
  | [] =>
      rw [ReorderedEntries] at reordered
      rw [reordered]
  | (key, value) :: rest =>
      rw [ReorderedEntries] at reordered
      rcases reordered with ⟨before, other, after, rfl, -, head, tail⟩
      rw [accepts, acceptsEntry_of_reordered key value other head,
        accepts_of_reordered rest (before ++ after) tail, accepts_eq_all, accepts_eq_all,
        List.perm_middle.all_eq, List.all_cons]

theorem acceptsEntry_of_reordered (key : String) (left right : Json)
    (reordered : Reordered alike left right) : acceptsEntry key left = acceptsEntry key right := by
  have shape := reordered.shape
  match left with
  | .null | .bool _ | .string _ => rw [shape]
  | .number _ =>
      rcases shape with ⟨_, rfl, -⟩
      rfl
  | .array elements =>
      rcases shape with ⟨others, rfl, inner⟩
      rw [acceptsEntry, acceptsEntry, isEmpty_of_reorderedElements inner,
        acceptsAll_of_reordered elements others inner]
  | .object ⟨entries⟩ =>
      rcases shape with ⟨others, rfl, inner⟩
      rw [acceptsEntry, acceptsEntry, accepts_of_reordered entries others inner,
        isEmpty_of_reorderedEntries inner, acceptsOperators_of_reordered entries others inner]

theorem acceptsAll_of_reordered (left right : List Json)
    (reordered : ReorderedElements alike left right) : acceptsAll left = acceptsAll right := by
  match left, right with
  | [], [] => rfl
  | [], _ :: _ | _ :: _, [] => exact False.elim reordered
  | first :: rest, other :: others =>
      rw [ReorderedElements] at reordered
      have shape := reordered.1.shape
      match first with
      | .null | .bool _ | .string _ =>
          rw [shape]
          rfl
      | .number _ | .array _ =>
          rcases shape with ⟨_, rfl, -⟩
          rfl
      | .object ⟨entries⟩ =>
          rcases shape with ⟨ours, rfl, inner⟩
          rw [acceptsAll, acceptsAll, accepts_of_reordered entries ours inner,
            acceptsAll_of_reordered rest others reordered.2]

end

/-! ## Matching -/

theorem passesAll_eq_all (value : Option Json) (entries : List (String × Json)) :
    passesAll value entries = entries.all fun entry => passesOperator value entry.1 entry.2 := by
  induction entries with
  | nil => rfl
  | cons entry rest ih => rw [passesAll, ih, List.all_cons]

theorem selects_eq_all (document : Document) (entries : List (String × Json)) :
    selects document entries =
      entries.all fun entry => selectsEntry document entry.1 entry.2 := by
  induction entries with
  | nil => rfl
  | cons entry rest ih => rw [selects, ih, List.all_cons]

theorem order?_eq_none {value operand : Json}
    (container : isLiteral value = false ∨ isLiteral operand = false) :
    order? value operand = none := by
  rcases container with container | container
  · cases value with
    | array _ | object _ => rfl
    | null | bool _ | number _ | string _ => cases container
  · cases operand with
    | array _ | object _ => cases value <;> rfl
    | null | bool _ | number _ | string _ => cases container

theorem eq_or_containers {left right : Json} (reordered : Reordered Eq left right) :
    left = right ∨ isLiteral left = false ∧ isLiteral right = false := by
  have shape := reordered.shape
  cases left with
  | null | bool _ | string _ => exact .inl shape.symm
  | number _ =>
      rcases shape with ⟨_, rfl, rfl⟩
      exact .inl rfl
  | array _ =>
      rcases shape with ⟨_, rfl, -⟩
      exact .inr ⟨rfl, rfl⟩
  | object _ =>
      rcases shape with ⟨_, rfl, -⟩
      exact .inr ⟨rfl, rfl⟩

theorem order?_of_reordered {value other operand counterpart : Json}
    (values : Reordered Eq value other) (operands : Reordered Eq operand counterpart) :
    order? value operand = order? other counterpart := by
  rcases eq_or_containers values with rfl | ⟨container, again⟩
  · rcases eq_or_containers operands with rfl | ⟨container, again⟩
    · rfl
    · rw [order?_eq_none (.inr container), order?_eq_none (.inr again)]
  · rw [order?_eq_none (.inl container), order?_eq_none (.inl again)]

variable {value other : Option Json} {operand counterpart : Json}

theorem related_of_reordered (orders : List Ordering)
    (values : Option.Rel (Reordered Eq) value other) (operands : Reordered Eq operand counterpart) :
    related orders value operand = related orders other counterpart := by
  cases values with
  | none => rfl
  | some inner => rw [related, related, Option.bind_some, Option.bind_some,
      order?_of_reordered inner operands]

theorem equalTo_null_eq_false {stored : Json} (container : isLiteral stored = false) :
    equalTo (some stored) .null = false := by
  cases stored with
  | array _ | object _ => rfl
  | null | bool _ | number _ | string _ => cases container

theorem equalTo_null_of_reordered (values : Option.Rel (Reordered Eq) value other) :
    equalTo value .null = equalTo other .null := by
  cases values with
  | none => rfl
  | some inner =>
      rcases eq_or_containers inner with rfl | ⟨container, again⟩
      · rfl
      · rw [equalTo_null_eq_false container, equalTo_null_eq_false again]

theorem equalTo_of_reordered (values : Option.Rel (Reordered Eq) value other)
    (operands : Reordered Eq operand counterpart) :
    equalTo value operand = equalTo other counterpart := by
  have related := related_of_reordered [.eq] values operands
  have shape := operands.shape
  cases operand with
  | null =>
      rw [shape]
      exact equalTo_null_of_reordered values
  | bool _ | string _ =>
      rw [shape] at related ⊢
      exact related
  | number _ | array _ =>
      rcases shape with ⟨_, rfl, -⟩
      exact related
  | object _ =>
      rcases shape with ⟨_, rfl, -⟩
      exact related

theorem isSome_of_reordered (values : Option.Rel (Reordered Eq) value other) :
    value.isSome = other.isSome := by
  cases values <;> rfl

theorem passes_of_reordered (values : Option.Rel (Reordered Eq) value other) (key : String)
    (literal : Scalar) : passes value key literal.toJson = passes other key literal.toJson := by
  have own : Reordered Eq literal.toJson literal.toJson := by
    cases literal <;> trivial
  simp only [passes, equalTo_of_reordered values own, related_of_reordered _ values own,
    isSome_of_reordered values]

mutual

theorem passesAll_of_reordered (values : Option.Rel (Reordered Eq) value other)
    (left right : List (String × Json)) (reordered : ReorderedEntries Eq left right) :
    passesAll value left = passesAll other right := by
  match left with
  | [] =>
      rw [ReorderedEntries] at reordered
      rw [reordered]
      rfl
  | (key, operand) :: rest =>
      rw [ReorderedEntries] at reordered
      rcases reordered with ⟨before, counterpart, after, rfl, -, head, tail⟩
      rw [passesAll, passesOperator_of_reordered values key operand counterpart head,
        passesAll_of_reordered values rest (before ++ after) tail, passesAll_eq_all,
        passesAll_eq_all, List.perm_middle.all_eq, List.all_cons]

theorem passesOperator_of_reordered (values : Option.Rel (Reordered Eq) value other)
    (key : String) (left right : Json) (reordered : Reordered Eq left right) :
    passesOperator value key left = passesOperator other key right := by
  have shape := reordered.shape
  match left with
  | .null =>
      rw [shape]
      exact passes_of_reordered values key .null
  | .bool truth =>
      rw [shape]
      exact passes_of_reordered values key (.bool truth)
  | .string text =>
      rw [shape]
      exact passes_of_reordered values key (.string text)
  | .number own =>
      rcases shape with ⟨_, rfl, rfl⟩
      exact passes_of_reordered values key (.number own)
  | .array elements =>
      rcases shape with ⟨others, rfl, inner⟩
      have equal := map_eq_of_reorderedElements inner fun _ _ => equalTo_of_reordered values
      have some : elements.any (equalTo value) = others.any (equalTo other) := by
        simpa using congrArg (List.any · id) equal
      rw [passesOperator, passesOperator, some]
  | .object ⟨entries⟩ =>
      rcases shape with ⟨others, rfl, inner⟩
      rw [passesOperator, passesOperator, passesAll_of_reordered values entries others inner]

end

variable {document otherDocument : Document}

theorem valueAt_of_reordered (documents : Reordered Eq (.object document) (.object otherDocument))
    (key : String) :
    Option.Rel (Reordered Eq) (valueAt document key) (valueAt otherDocument key) :=
  documents.lookup? _

mutual

theorem selects_of_reordered (documents : Reordered Eq (.object document) (.object otherDocument))
    (left right : List (String × Json)) (reordered : ReorderedEntries Eq left right) :
    selects document left = selects otherDocument right := by
  match left with
  | [] =>
      rw [ReorderedEntries] at reordered
      rw [reordered]
      rfl
  | (key, value) :: rest =>
      rw [ReorderedEntries] at reordered
      rcases reordered with ⟨before, other, after, rfl, -, head, tail⟩
      rw [selects, selectsEntry_of_reordered documents key value other head,
        selects_of_reordered documents rest (before ++ after) tail, selects_eq_all,
        selects_eq_all, List.perm_middle.all_eq, List.all_cons]
termination_by structural left

theorem selectsEntry_of_reordered
    (documents : Reordered Eq (.object document) (.object otherDocument)) (key : String)
    (left right : Json) (reordered : Reordered Eq left right) :
    selectsEntry document key left = selectsEntry otherDocument key right := by
  have values := valueAt_of_reordered documents key
  have shape := reordered.shape
  match left with
  | .null | .bool _ | .string _ =>
      rw [shape] at reordered ⊢
      exact equalTo_of_reordered values reordered
  | .number _ =>
      rcases shape with ⟨_, rfl, rfl⟩
      exact equalTo_of_reordered values reordered
  | .array elements =>
      rcases shape with ⟨others, rfl, inner⟩
      rw [selectsEntry, selectsEntry, selectsAll_of_reordered documents elements others inner,
        selectsAny_of_reordered documents elements others inner]
  | .object ⟨entries⟩ =>
      rcases shape with ⟨others, rfl, inner⟩
      rw [selectsEntry, selectsEntry, selects_of_reordered documents entries others inner,
        passesAll_of_reordered values entries others inner]
termination_by structural left

theorem selectsAll_of_reordered
    (documents : Reordered Eq (.object document) (.object otherDocument)) (left right : List Json)
    (reordered : ReorderedElements Eq left right) :
    selectsAll document left = selectsAll otherDocument right := by
  match left, right with
  | [], [] => rfl
  | [], _ :: _ | _ :: _, [] => exact False.elim reordered
  | first :: rest, other :: others =>
      rw [ReorderedElements] at reordered
      have shape := reordered.1.shape
      match first with
      | .null | .bool _ | .string _ =>
          rw [shape]
          rfl
      | .number _ | .array _ =>
          rcases shape with ⟨_, rfl, -⟩
          rfl
      | .object ⟨entries⟩ =>
          rcases shape with ⟨ours, rfl, inner⟩
          rw [selectsAll, selectsAll, selects_of_reordered documents entries ours inner,
            selectsAll_of_reordered documents rest others reordered.2]
termination_by structural left

theorem selectsAny_of_reordered
    (documents : Reordered Eq (.object document) (.object otherDocument)) (left right : List Json)
    (reordered : ReorderedElements Eq left right) :
    selectsAny document left = selectsAny otherDocument right := by
  match left, right with
  | [], [] => rfl
  | [], _ :: _ | _ :: _, [] => exact False.elim reordered
  | first :: rest, other :: others =>
      rw [ReorderedElements] at reordered
      have shape := reordered.1.shape
      match first with
      | .null | .bool _ | .string _ =>
          rw [shape]
          rfl
      | .number _ | .array _ =>
          rcases shape with ⟨_, rfl, -⟩
          rfl
      | .object ⟨entries⟩ =>
          rcases shape with ⟨ours, rfl, inner⟩
          rw [selectsAny, selectsAny, selects_of_reordered documents entries ours inner,
            selectsAny_of_reordered documents rest others reordered.2]
termination_by structural left

end

end DocTable.MatchDocument

namespace DocTable.Condition

open Json

/-- Reordered match documents are both read or both refused, and if they are read, the first
one's condition holds of a document exactly if the second one's holds of a reordered document. -/
theorem ofDocument_reordered {filter otherFilter document otherDocument : Document}
    (filters : Reordered Eq (.object filter) (.object otherFilter))
    (documents : Reordered Eq (.object document) (.object otherDocument)) :
    ((∃ condition, ofDocument filter = .ok condition) ↔
        ∃ condition, ofDocument otherFilter = .ok condition) ∧
      ∀ condition other, ofDocument filter = .ok condition → ofDocument otherFilter = .ok other →
        condition.holds document = other.holds otherDocument := by
  have first := ofDocument_verdict filter
  have second := ofDocument_verdict otherFilter
  have accepted := MatchDocument.accepts_of_reordered filter.entries otherFilter.entries filters
  constructor
  · rw [first.exists_ok_iff, second.exists_ok_iff, accepted]
  · intro condition other read readOther
    rw [(first.of_ok read).holds_eq, (second.of_ok readOther).holds_eq]
    exact MatchDocument.selects_of_reordered documents _ _ filters

/-- Fields, operators and the entries of a nested object have changed places. -/
theorem ofDocument_reordered_of_nested :
    ∃ condition other,
      ofDocument ⟨[("x.y", .object ⟨[("$ne", .null), ("$exists", .bool true)]⟩),
        ("p", .bool true)]⟩ = .ok condition ∧
      ofDocument ⟨[("p", .bool true),
        ("x.y", .object ⟨[("$exists", .bool true), ("$ne", .null)]⟩)]⟩ = .ok other ∧
      condition.holds ⟨[("x", .object ⟨[("y", .string "v"), ("z", .null)]⟩),
        ("p", .bool true)]⟩ = true ∧
      other.holds ⟨[("p", .bool true),
        ("x", .object ⟨[("z", .null), ("y", .string "v")]⟩)]⟩ = true := by
  have filters : Reordered Eq
      (.object ⟨[("x.y", .object ⟨[("$ne", .null), ("$exists", .bool true)]⟩), ("p", .bool true)]⟩)
      (.object ⟨[("p", .bool true),
        ("x.y", .object ⟨[("$exists", .bool true), ("$ne", .null)]⟩)]⟩) :=
    ⟨[("p", .bool true)], .object ⟨[("$exists", .bool true), ("$ne", .null)]⟩, [], rfl, by decide,
      ⟨[("$exists", .bool true)], .null, [], rfl, by decide, trivial,
        [], .bool true, [], rfl, by decide, rfl, rfl⟩,
      [], .bool true, [], rfl, by decide, rfl, rfl⟩
  have documents : Reordered Eq
      (.object ⟨[("x", .object ⟨[("y", .string "v"), ("z", .null)]⟩), ("p", .bool true)]⟩)
      (.object ⟨[("p", .bool true), ("x", .object ⟨[("z", .null), ("y", .string "v")]⟩)]⟩) :=
    ⟨[("p", .bool true)], .object ⟨[("z", .null), ("y", .string "v")]⟩, [], rfl, by decide,
      ⟨[("z", .null)], .string "v", [], rfl, by decide, rfl,
        [], .null, [], rfl, by decide, trivial, rfl⟩,
      [], .bool true, [], rfl, by decide, rfl, rfl⟩
  have alike := ofDocument_reordered filters documents
  have verdict := ofDocument_verdict
    ⟨[("x.y", .object ⟨[("$ne", .null), ("$exists", .bool true)]⟩), ("p", .bool true)]⟩
  rcases verdict.exists_ok_iff.2 rfl with ⟨condition, read⟩
  rcases alike.1.1 ⟨condition, read⟩ with ⟨other, readOther⟩
  have holds := (verdict.of_ok read).holds_eq
    ⟨[("x", .object ⟨[("y", .string "v"), ("z", .null)]⟩), ("p", .bool true)]⟩
  have selected : condition.holds
      ⟨[("x", .object ⟨[("y", .string "v"), ("z", .null)]⟩), ("p", .bool true)]⟩ = true :=
    holds.trans rfl
  exact ⟨condition, other, read, readOther, selected,
    (alike.2 condition other read readOther).symm.trans selected⟩

end DocTable.Condition
