import DocTable.Error
import DocTable.Text.Blank
import DocTable.Text.Split

/-!
# Field paths

A dotted path such as `address.city` names a value inside a document. A segment is never empty and
holds no character that some dialect could not write in a quoted path, so a path can be quoted by
doubling single quotes alone.
-/

namespace DocTable

/-- Whether a character may stand in a segment. -/
def isQuotable (char : Char) : Bool := char != '"' && char != '\\' && !isControl char

/-- A path of names into a document. -/
structure FieldPath where
  /-- The names, the outermost first. -/
  segments : List String
  /-- There is at least one name. -/
  segments_ne_nil : segments ≠ []
  /-- Every name can be quoted in every dialect. -/
  quotable : ∀ segment ∈ segments, segment.toList ≠ [] ∧ segment.toList.all isQuotable
deriving DecidableEq, Repr

namespace FieldPath

/-- The greatest number of segments. -/
def maxDepth : Nat := 32

/-- The outermost name. -/
def head (path : FieldPath) : String := path.segments.head path.segments_ne_nil

/-- The path as it is written, with dots between the names. -/
def text (path : FieldPath) : String :=
  String.ofList (joinWith ['.'] (path.segments.map String.toList))

instance : ToString FieldPath := ⟨text⟩

/-- The path of a single name. -/
def ofName (name : String) (quotable : name.toList ≠ [] ∧ name.toList.all isQuotable) :
    FieldPath where
  segments := [name]
  segments_ne_nil := by simp
  quotable := by simpa using quotable

/-- Whether a part of a text is no segment: it is empty, or a character cannot be quoted. -/
def isFaulty (part : List Char) : Bool := part.isEmpty || !part.all isQuotable

/-- The path of parts none of which is faulty. -/
def ofParts (parts : List (List Char)) (nonempty : parts ≠ [])
    (sound : parts.find? isFaulty = none) : FieldPath where
  segments := parts.map String.ofList
  segments_ne_nil := by simpa using nonempty
  quotable := by
    intro segment member
    obtain ⟨part, inParts, rfl⟩ := List.mem_map.1 member
    have faultless := List.find?_eq_none.1 sound part inParts
    simpa [isFaulty] using faultless

/-- Reads a path. -/
def parse (path : String) : Except Error FieldPath :=
  if path.isEmpty then throw (PathError.empty : Error)
  else if path.toList.head? = some '$' then throw (PathError.operator path : Error)
  else
    let parts := splitAt '.' path.toList
    if maxDepth < parts.length then throw (PathError.tooDeep path maxDepth : Error)
    else match sound : parts.find? isFaulty with
      | some [] => throw (PathError.emptySegment path : Error)
      | some _ => throw (PathError.unquotable path : Error)
      | none => pure (ofParts parts (splitAt_ne_nil _ _) sound)

end FieldPath

end DocTable
