import DocTable.Update.Basic

/-!
# Applying updates

Applying an update yields the new document and whether it changed. The parts of an update are
applied one after the other, and the update changes the document if one of them does.
-/

namespace DocTable

/-- Applies changes in order; the flag tells whether one of them changed the document. -/
def applyEach {α : Type} (change : Document → α → Document × Bool) (document : Document) :
    List α → Document × Bool
  | [] => (document, false)
  | first :: rest =>
    let (next, changed) := change document first
    let (last, more) := applyEach change next rest
    (last, changed || more)

/-- Puts a field over the top level unless it is the id or has the same value already. -/
def Document.mergeField (document : Document) (field : String × Json) : Document × Bool :=
  let (key, value) := field
  if key = idField then (document, false)
  else if Json.sameOption (document.get? key) (some value) then (document, false)
  else (document.insert key value, true)

/-- The value that an increment leaves in place of the one at its path, or `none` if that is not a
number. A missing value counts as no number at all and becomes the increment; a sum that is not
finite becomes null. -/
def incremented? (current : Option Json) (amount : Number) : Option Json :=
  match current with
  | none => some (.number amount)
  | some (.number value) => some (((value.add? amount).map .number).getD .null)
  | some _ => none

/-- Adds to the number at a path. -/
def Document.incrementAt (document : Document) (increment : FieldPath × Number) :
    Document × Bool :=
  match incremented? (document.lookup? increment.1) increment.2 with
  | some value => document.set increment.1 value
  | none => (document, false)

/-- Applies an update. -/
def Update.apply (update : Update) (document : Document) : Document × Bool :=
  match update with
  | .merge fields => applyEach Document.mergeField document fields.entries
  | .operators assignments increments removals =>
    let (document, assigned) :=
      applyEach (fun document (path, value) => document.set path value) document assignments
    let (document, added) := applyEach Document.incrementAt document increments
    let (document, removed) := applyEach Document.unset document removals
    (document, assigned || added || removed)

/-- Puts a replacement in place of a document, whose id stays in front. -/
def Document.replaceWith (replacement document : Document) : Document × Bool :=
  let start : Document := match document.get? idField with
    | some id => ⟨[(idField, id)]⟩
    | none => ∅
  let next := start.insertMany replacement.entries
  (next, !Json.same (.object next) (.object document))

end DocTable
