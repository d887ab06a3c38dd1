import DocTable.Proofs.Json.Order
import DocTable.Proofs.Json.Reordering

/-!
# The order of reordered values

Values are compared entry by entry, so their order sees in which order the keys
of objects stand. Values that differ in nothing else are ordered as the lists of
their keys are, read from left to right at all depths. They tie exactly if these
lists are the same, and then no comparison with a third value tells them apart.
-/

namespace DocTable

/-- Lists with beginnings of one length are ordered by these and then by the rest. -/
theorem compare_append {first second : List String} (same : first.length = second.length)
    (left right : List String) :
    Ord.compare (first ++ left) (second ++ right) =
      (Ord.compare first second).then (Ord.compare left right) := by
  induction first generalizing second with
  | nil =>
      have empty : second = [] := List.length_eq_zero_iff.1 same.symm
      rw [empty]
      rfl
  | cons head tail ih =>
      cases second with
      | nil => cases same
      | cons other others =>
          rw [List.cons_append, List.cons_append, List.compare_cons_cons, List.compare_cons_cons,
            ih (Nat.succ.inj same), Ordering.then_assoc]

namespace Json

mutual

/-- The keys of all objects in a value, from left to right. -/
def allKeys : Json → List String
  | .array elements => allKeysElements elements
  | .object ⟨entries⟩ => allKeysEntries entries
  | .null | .bool _ | .number _ | .string _ => []

/-- The keys of all objects in the elements. -/
def allKeysElements : List Json → List String
  | [] => []
  | element :: rest => allKeys element ++ allKeysElements rest

/-- The keys of the entries, each in front of the keys in its value. -/
def allKeysEntries : List (String × Json) → List String
  | [] => []
  | (key, value) :: rest => key :: (allKeys value ++ allKeysEntries rest)

end

theorem allKeysEntries_append (first second : List (String × Json)) :
    allKeysEntries (first ++ second) = allKeysEntries first ++ allKeysEntries second := by
  induction first with
  | nil => rfl
  | cons entry rest ih => simp [allKeysEntries, ih]

variable {alike : Number → Number → Prop}

mutual

theorem length_allKeys_of_reordered (left right : Json) (reordered : Reordered alike left right) :
    left.allKeys.length = right.allKeys.length := by
  have shape := reordered.shape
  match left with
  | .null | .bool _ | .string _ =>
      rw [shape]
  | .number _ =>
      rcases shape with ⟨_, rfl, -⟩
      rfl
  | .array elements =>
      rcases shape with ⟨others, rfl, inner⟩
      exact length_allKeysElements_of_reordered elements others inner
  | .object ⟨entries⟩ =>
      rcases shape with ⟨others, rfl, inner⟩
      exact length_allKeysEntries_of_reordered entries others inner

theorem length_allKeysElements_of_reordered (left right : List Json)
    (reordered : ReorderedElements alike left right) :
    (allKeysElements left).length = (allKeysElements right).length := by
  match left, right with
  | [], [] => rfl
  | [], _ :: _ | _ :: _, [] => exact False.elim reordered
  | first :: rest, other :: others =>
      rw [ReorderedElements] at reordered
      rw [allKeysElements, allKeysElements, List.length_append, List.length_append,
        length_allKeys_of_reordered first other reordered.1,
        length_allKeysElements_of_reordered rest others reordered.2]

theorem length_allKeysEntries_of_reordered (left right : List (String × Json))
    (reordered : ReorderedEntries alike left right) :
    (allKeysEntries left).length = (allKeysEntries right).length := by
  match left with
  | [] =>
      rw [ReorderedEntries] at reordered
      rw [reordered]
  | (key, value) :: rest =>
      rw [ReorderedEntries] at reordered
      rcases reordered with ⟨before, other, after, rfl, -, head, tail⟩
      have inValue := length_allKeys_of_reordered value other head
      have inRest := length_allKeysEntries_of_reordered rest (before ++ after) tail
      simp only [allKeysEntries_append, allKeysEntries, List.length_append,
        List.length_cons] at inRest ⊢
      omega

end

mutual

theorem compare_of_reordered (left right : Json) (reordered : Reordered Eq left right) :
    compare left right = Ord.compare left.allKeys right.allKeys := by
  have shape := reordered.shape
  match left with
  | .null | .bool _ | .string _ =>
      rw [shape]
      exact compare_self _
  | .number _ =>
      rcases shape with ⟨_, rfl, rfl⟩
      exact compare_self _
  | .array elements =>
      rcases shape with ⟨others, rfl, inner⟩
      exact compareElements_of_reordered elements others inner
  | .object ⟨entries⟩ =>
      rcases shape with ⟨others, rfl, inner⟩
      exact compareEntries_of_reordered entries others inner

theorem compareElements_of_reordered (left right : List Json)
    (reordered : ReorderedElements Eq left right) :
    compareElements left right = Ord.compare (allKeysElements left) (allKeysElements right) := by
  match left, right with
  | [], [] => rfl
  | [], _ :: _ | _ :: _, [] => exact False.elim reordered
  | first :: rest, other :: others =>
      rw [ReorderedElements] at reordered
      rw [compareElements, allKeysElements, allKeysElements,
        compare_append (length_allKeys_of_reordered first other reordered.1),
        compare_of_reordered first other reordered.1,
        compareElements_of_reordered rest others reordered.2]

/-- Where the first names agree, the entries under them are counterparts. -/
theorem compareEntries_of_reordered (left right : List (String × Json))
    (reordered : ReorderedEntries Eq left right) :
    compareEntries left right = Ord.compare (allKeysEntries left) (allKeysEntries right) := by
  match left with
  | [] =>
      rw [ReorderedEntries] at reordered
      rw [reordered]
      rfl
  | (key, value) :: rest =>
      rw [ReorderedEntries] at reordered
      rcases reordered with ⟨before, other, after, rfl, fresh, head, tail⟩
      cases before with
      | nil =>
          rw [List.nil_append] at tail ⊢
          rw [compareEntries, allKeysEntries, allKeysEntries, List.compare_cons_cons,
            compare_append (length_allKeys_of_reordered value other head),
            compare_of_reordered value other head, compareEntries_of_reordered rest after tail]
      | cons entry before =>
          rcases entry with ⟨name, first⟩
          have different : Ord.compare key name ≠ .eq := by
            intro equal
            rw [Std.compare_eq_iff_eq] at equal
            exact fresh (by simp [equal])
          rw [List.cons_append, compareEntries, allKeysEntries, allKeysEntries,
            List.compare_cons_cons]
          cases decided : Ord.compare key name with
          | eq => contradiction
          | lt | gt => rfl

end

mutual

/-- Reordered values with the same keys from left to right are the same. -/
theorem eq_of_allKeys_eq (left right : Json) (reordered : Reordered Eq left right)
    (keys : left.allKeys = right.allKeys) : left = right := by
  have shape := reordered.shape
  match left with
  | .null | .bool _ | .string _ => exact shape.symm
  | .number _ =>
      rcases shape with ⟨_, rfl, rfl⟩
      rfl
  | .array elements =>
      rcases shape with ⟨others, rfl, inner⟩
      rw [eq_of_allKeysElements_eq elements others inner keys]
  | .object ⟨entries⟩ =>
      rcases shape with ⟨others, rfl, inner⟩
      rw [eq_of_allKeysEntries_eq entries others inner keys]

theorem eq_of_allKeysElements_eq (left right : List Json)
    (reordered : ReorderedElements Eq left right)
    (keys : allKeysElements left = allKeysElements right) : left = right := by
  match left, right with
  | [], [] => rfl
  | [], _ :: _ | _ :: _, [] => exact False.elim reordered
  | first :: rest, other :: others =>
      rw [ReorderedElements] at reordered
      rw [allKeysElements, allKeysElements] at keys
      rcases List.append_inj keys (length_allKeys_of_reordered first other reordered.1) with
        ⟨head, tail⟩
      rw [eq_of_allKeys_eq first other reordered.1 head,
        eq_of_allKeysElements_eq rest others reordered.2 tail]

theorem eq_of_allKeysEntries_eq (left right : List (String × Json))
    (reordered : ReorderedEntries Eq left right)
    (keys : allKeysEntries left = allKeysEntries right) : left = right := by
  match left with
  | [] =>
      rw [ReorderedEntries] at reordered
      exact reordered.symm
  | (key, value) :: rest =>
      rw [ReorderedEntries] at reordered
      rcases reordered with ⟨before, other, after, rfl, fresh, head, tail⟩
      cases before with
      | nil =>
          rw [List.nil_append] at tail keys ⊢
          rw [allKeysEntries, allKeysEntries, List.cons.injEq] at keys
          rcases List.append_inj keys.2 (length_allKeys_of_reordered value other head) with
            ⟨inValue, inRest⟩
          rw [eq_of_allKeys_eq value other head inValue,
            eq_of_allKeysEntries_eq rest after tail inRest]
      | cons entry before =>
          rcases entry with ⟨name, first⟩
          rw [List.cons_append, allKeysEntries, allKeysEntries, List.cons.injEq] at keys
          exact absurd (by simp [keys.1]) fresh

end

theorem compareOption_of_reordered {left right : Option Json}
    (reordered : Option.Rel (Reordered Eq) left right) :
    compareOption left right =
      Ord.compare (left.getD .null).allKeys (right.getD .null).allKeys := by
  cases reordered with
  | none => exact compare_self .null
  | some inner => exact compare_of_reordered _ _ inner

end Json

/-- The keys of all objects in the value at a path, from left to right. -/
def Document.keysAt (document : Document) (path : FieldPath) : List String :=
  ((document.lookup? path).getD .null).allKeys

/-- Documents with reordered values at a path are ordered there as the keys of these values are. -/
theorem Document.compareBy_of_reordered {left right : Document} {path : FieldPath}
    (reordered : Option.Rel (Json.Reordered Eq) (left.lookup? path) (right.lookup? path))
    (order : SortOrder) (rest : List SortTerm) :
    compareBy ((path, order) :: rest) left right =
      (order.apply (Ord.compare (left.keysAt path) (right.keysAt path))).then
        (compareBy rest left right) := by
  rw [compareBy, Json.compareOption_of_reordered reordered]
  rfl

namespace Json

/-- Equality of documents is reordering, with the two zeros alike. Reordered values with the same
numbers are ordered as their keys from left to right are. They tie exactly if these are the same,
and then nothing tells them apart; documents in which they stand are ordered by these keys before
the next term decides. -/
theorem reordered_tie_iff :
    (∀ left right : Json, left.Proper →
      (same left right = true ↔ Reordered SameNumbers left right)) ∧
    (∀ left right : Json, Reordered Eq left right →
      compareOption (some left) (some right) = Ord.compare left.allKeys right.allKeys ∧
      (compareOption (some left) (some right) = .eq ↔ left.allKeys = right.allKeys) ∧
      (left.allKeys = right.allKeys → ∀ other : Option Json,
        compareOption (some left) other = compareOption (some right) other)) ∧
    ∀ (path : FieldPath) (order : SortOrder) (rest : List SortTerm) (left right : Document),
      Option.Rel (Reordered Eq) (left.lookup? path) (right.lookup? path) →
      Document.compareBy ((path, order) :: rest) left right =
        (order.apply (Ord.compare (left.keysAt path) (right.keysAt path))).then
          (Document.compareBy rest left right) := by
  refine ⟨same_iff_reordered, ?_, ?_⟩
  · intro left right reordered
    have ordered := compareOption_of_reordered (.some reordered)
    refine ⟨ordered, ?_, ?_⟩
    · rw [ordered]
      exact Std.compare_eq_iff_eq
    · intro keys other
      rw [eq_of_allKeys_eq left right reordered keys]
  · intro path order rest left right reordered
    exact Document.compareBy_of_reordered reordered order rest

/-- The entries of an object have changed places: it is the same as a document, it does not tie,
and documents with it at the first term are ordered by its keys. -/
theorem reordered_tie_iff_of_swapped :
    same (.object ⟨[("a", .null), ("b", .bool true)]⟩)
        (.object ⟨[("b", .bool true), ("a", .null)]⟩) = true ∧
      compareOption (some (.object ⟨[("a", .null), ("b", .bool true)]⟩))
        (some (.object ⟨[("b", .bool true), ("a", .null)]⟩)) ≠ .eq ∧
      Document.compareBy [(.ofName "k" (by decide), .desc)]
        ⟨[("k", .object ⟨[("a", .null), ("b", .bool true)]⟩)]⟩
        ⟨[("k", .object ⟨[("b", .bool true), ("a", .null)]⟩)]⟩ = .gt := by
  have reordered (alike : Number → Number → Prop) :
      Reordered alike (.object ⟨[("a", .null), ("b", .bool true)]⟩)
        (.object ⟨[("b", .bool true), ("a", .null)]⟩) :=
    ⟨[("b", .bool true)], .null, [], rfl, by decide, trivial,
      [], .bool true, [], rfl, by decide, rfl, rfl⟩
  have proper : (Json.object ⟨[("a", .null), ("b", .bool true)]⟩).Proper :=
    ⟨by simp [Fields.Distinct, Fields.keys], trivial, trivial, trivial⟩
  refine ⟨(reordered_tie_iff.1 _ _ proper).2 (reordered _), fun tie => ?_, ?_⟩
  · have keys := (reordered_tie_iff.2.1 _ _ (reordered Eq)).2.1.1 tie
    exact absurd keys (by decide)
  · have ordered := reordered_tie_iff.2.2 (.ofName "k" (by decide)) .desc []
      ⟨[("k", .object ⟨[("a", .null), ("b", .bool true)]⟩)]⟩
      ⟨[("k", .object ⟨[("b", .bool true), ("a", .null)]⟩)]⟩ (.some (reordered Eq))
    rw [ordered]
    decide +kernel

/-- Two objects are the same as documents and do not tie, so documents with these objects at the
first sort key are not ordered by the second one. -/
theorem same_objects_ordered :
    same (.object ⟨[("a", .null), ("b", .null)]⟩) (.object ⟨[("b", .null), ("a", .null)]⟩) = true ∧
      compareOption (some (.object ⟨[("a", .null), ("b", .null)]⟩))
        (some (.object ⟨[("b", .null), ("a", .null)]⟩)) = .lt ∧
      Document.compareBy [(.ofName "k" (by decide), .asc), (.ofName "n" (by decide), .asc)]
        ⟨[("k", .object ⟨[("a", .null), ("b", .null)]⟩), ("n", .bool true)]⟩
        ⟨[("k", .object ⟨[("b", .null), ("a", .null)]⟩), ("n", .bool false)]⟩ = .lt ∧
      Document.compareBy [(.ofName "n" (by decide), .asc)]
        ⟨[("k", .object ⟨[("a", .null), ("b", .null)]⟩), ("n", .bool true)]⟩
        ⟨[("k", .object ⟨[("b", .null), ("a", .null)]⟩), ("n", .bool false)]⟩ = .gt := by
  decide +kernel

end Json

end DocTable
