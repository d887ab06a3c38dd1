import DocTable.Json.Basic

/-!
# Merge patches

A merge patch changes a value into another: an object is merged field by field, a null removes a
field, and anything else takes the place of what was there.
-/

namespace DocTable.Json

mutual

/-- A value changed by a patch. -/
def mergePatch (target : Json) : Json → Json
  | .object ⟨entries⟩ => .object (mergeEntries target.fieldsOrEmpty entries)
  | patch => patch

/-- Fields changed by the entries of a patch. -/
def mergeEntries (fields : Fields Json) : List (String × Json) → Fields Json
  | [] => fields
  | (key, .null) :: rest => mergeEntries (fields.erase key) rest
  | (key, patch) :: rest =>
    mergeEntries (fields.insert key (mergePatch ((fields.get? key).getD .null) patch)) rest

end

/-- A null removes a field, and an object reaches into one. -/
example : (mergePatch (.object ⟨[("a", .bool true), ("b", .object ⟨[("c", .null)]⟩)]⟩)
    (.object ⟨[("a", .null), ("b", .object ⟨[("d", .string "x")]⟩)]⟩)).same
    (.object ⟨[("b", .object ⟨[("d", .string "x"), ("c", .null)]⟩)]⟩) = true := by
  decide +kernel

end DocTable.Json
