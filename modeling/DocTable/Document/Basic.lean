import DocTable.FieldPath
import DocTable.Json.Path
import DocTable.Json.Reader

/-!
# Documents

A document is the content of a JSON object. It is stored as its compact text, carries its id as a
string under `_id`, and is read and changed through field paths.
-/

namespace DocTable

/-- The name under which a document carries its id. -/
def idField : String := "_id"

namespace Document

/-- Reads a stored text. -/
def decode (text : String) : Except DecodeError Document :=
  match Json.read? text with
  | some (.object fields) => pure fields
  | some other => throw (.notObject other.typeName)
  | none => throw .malformed

/-- The id, if it is a string. -/
def id? (document : Document) : Option String :=
  match document.get? idField with
  | some (.string id) => some id
  | _ => none

/-- The id that comes with a document to be stored, if any. It must be a string. -/
def suppliedId? (document : Document) : Except Error (Option String) :=
  match document.get? idField with
  | some (.string id) => pure (some id)
  | some other => throw (.compilation (.idNotString other))
  | none => pure none

/-- The document with the id in front. -/
def withId (document : Document) (id : String) : Document :=
  ⟨(idField, .string id) :: (document.erase idField).entries⟩

/-- The value at a path. -/
def lookup? (document : Document) (path : FieldPath) : Option Json :=
  (Json.object document).lookup? path.segments

/-- The document with a value put at a path; objects on the way are created. -/
def put (document : Document) (path : FieldPath) (value : Json) : Document :=
  (Json.write value path.segments (.object document)).fieldsOrEmpty

/-- The document without the value at a path. -/
def remove (document : Document) (path : FieldPath) : Document :=
  ((Json.object document).erase path.segments).fieldsOrEmpty

/-- Puts a value at a path and tells whether another value, or none, was there before. -/
def set (document : Document) (path : FieldPath) (value : Json) : Document × Bool :=
  (document.put path value, !Json.sameOption (document.lookup? path) (some value))

/-- Removes the value at a path and tells whether there was one. -/
def unset (document : Document) (path : FieldPath) : Document × Bool :=
  (document.remove path, (document.lookup? path).isSome)

end Document

/-- The parts of a document to keep. -/
structure Projection where
  /-- The paths to keep; nested ones are rebuilt as nested objects. -/
  fields : List FieldPath
  /-- Whether the id is kept as well. -/
  includeId : Bool
deriving DecidableEq, Repr

/-- Adds to a document what another one has at a path. -/
def Document.copyFrom (source target : Document) (path : FieldPath) : Document :=
  match source.lookup? path with
  | some value => target.put path value
  | none => target

/-- The kept parts of a document, the id first and the others in the order of the projection. -/
def Projection.apply (projection : Projection) (document : Document) : Document :=
  let start : Document := match projection.includeId, document.get? idField with
    | true, some id => ⟨[(idField, id)]⟩
    | _, _ => ∅
  projection.fields.foldl document.copyFrom start

end DocTable
