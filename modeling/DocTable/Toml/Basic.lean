import DocTable.Json.Fields

/-!
# TOML values

The values of a configuration text. A table remembers in which way it came into being, because
that decides which later lines may still add to it.
-/

namespace DocTable

namespace Toml

/-- How a table came into being. -/
inductive Origin where
  /-- As an inline table, which is complete. -/
  | inline
  /-- Under its own header. -/
  | header
  /-- On the way to the table of a header. -/
  | implied
  /-- On the way of a dotted key. -/
  | dotted
deriving DecidableEq, Repr

end Toml

/-- A TOML value. Of a float nothing is kept but whether it is finite as a double, or meant to be
infinite or no number, and of dates and times nothing but their presence. -/
inductive Toml where
  | string (value : String)
  | integer (value : Int)
  | float (inRange : Bool)
  | boolean (value : Bool)
  | dateTime
  | array (elements : List Toml)
  /-- An array of tables, each under its own header, the last one first. -/
  | tables (elements : List (Fields Toml))
  | table (origin : Toml.Origin) (fields : Fields Toml)
deriving Repr

namespace Toml

/-- The fields of a table. -/
abbrev Table : Type := Fields Toml

mutual

/-- Whether all numbers of a value are in range: integers have 128 bits, with or without a sign. -/
def inRange : Toml → Bool
  | .string _ | .boolean _ | .dateTime => true
  | .integer value => -0x80000000000000000000000000000000 ≤ value &&
      value < 0x100000000000000000000000000000000
  | .float inRange => inRange
  | .array elements => elementsInRange elements
  | .tables elements => tablesInRange elements
  | .table _ ⟨entries⟩ => entriesInRange entries

/-- Whether all numbers of some elements are in range. -/
def elementsInRange : List Toml → Bool
  | [] => true
  | element :: rest => element.inRange && elementsInRange rest

/-- Whether all numbers of some tables are in range. -/
def tablesInRange : List (Fields Toml) → Bool
  | [] => true
  | ⟨entries⟩ :: rest => entriesInRange entries && tablesInRange rest

/-- Whether all numbers of some entries are in range. -/
def entriesInRange : List (String × Toml) → Bool
  | [] => true
  | (_, value) :: rest => value.inRange && entriesInRange rest

end

/-- A table that is being written to, and how it came into being. -/
structure Place where
  origin : Origin
  fields : Table

/-- Changes the table that a path leads to; missing tables on the way are created with the given
origin. A header may lead through every table that is not inline and through the last table of an
array; a dotted key may lead only through tables that have no header. -/
def modify? (creating : Origin) (change : Place → Option Table) :
    List String → Place → Option Table
  | [], place => change place
  | key :: rest, place =>
    match place.fields.get? key with
    | none => do
      let inner ← modify? creating change rest ⟨creating, ∅⟩
      return place.fields.insert key (.table creating inner)
    | some (.tables (last :: before)) => do
      let inner ← modify? creating change rest ⟨.header, last⟩
      return place.fields.insert key (.tables (inner :: before))
    | some (.table origin fields) =>
      if origin = .inline || (creating == .dotted && origin == .header) then none
      else do
        let inner ← modify? creating change rest ⟨origin, fields⟩
        return place.fields.insert key (.table origin inner)
    | some _ => none

/-- A table with a value put under a dotted key. The key must be new, and the table that it leads
to must not be one that a header has created. -/
def assign? (path : List String) (value : Toml) (origin : Origin) (fields : Table) :
    Option Table :=
  match path.getLast? with
  | none => none
  | some name =>
    let way := path.dropLast
    modify? .dotted (fun place =>
      if place.fields.contains name then none
      else if way ≠ [] ∧ place.origin ≠ .dotted then none
      else some (place.fields.insert name value)) way ⟨origin, fields⟩

/-- A document with the table of a header. A table may have only one header, and none if dotted
keys have written to it. -/
def openTable? (path : List String) (document : Table) : Option Table :=
  match path.getLast? with
  | none => none
  | some name =>
    modify? .implied (fun place =>
      match place.fields.get? name with
      | none => some (place.fields.insert name (.table .header ∅))
      | some (.table .implied inner) => some (place.fields.insert name (.table .header inner))
      | some _ => none) path.dropLast ⟨.header, document⟩

/-- A document with one more table in the array of a header. -/
def openElement? (path : List String) (document : Table) : Option Table :=
  match path.getLast? with
  | none => none
  | some name =>
    modify? .implied (fun place =>
      match place.fields.get? name with
      | none => some (place.fields.insert name (.tables [∅]))
      | some (.tables elements) => some (place.fields.insert name (.tables (∅ :: elements)))
      | some _ => none) path.dropLast ⟨.header, document⟩

/-- A document with a value put under a dotted key of the table that a header has opened. -/
def assignUnder? (header path : List String) (value : Toml) (document : Table) : Option Table :=
  modify? .implied (fun place => assign? path value place.origin place.fields) header
    ⟨.header, document⟩

end Toml

end DocTable
