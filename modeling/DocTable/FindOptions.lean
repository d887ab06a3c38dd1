import DocTable.Document.Basic

/-!
# Options of a search

How the documents found are ordered, which of them are returned and which of their parts. A limit
or a skip of zero is none.
-/

namespace DocTable

/-- The two directions of a sort key. -/
inductive SortOrder where
  | asc
  | desc
deriving DecidableEq, Repr

/-- The word for a direction. -/
def SortOrder.name : SortOrder → String
  | .asc => "asc"
  | .desc => "desc"

/-- A field to sort by, not yet read as a path. -/
structure SortKey where
  field : String
  order : SortOrder
deriving DecidableEq, Repr

/-- The fields to keep, not yet read as paths. -/
structure ProjectionRequest where
  fields : List String
  includeId : Bool := true
deriving DecidableEq, Repr

/-- The options of a search. -/
structure FindOptions where
  /-- The sort keys, the most significant one first. -/
  sort : Option (List SortKey) := none
  /-- The greatest number of documents to return. -/
  limit : Option Nat := none
  /-- The number of documents to leave out at the beginning. -/
  skip : Option Nat := none
  /-- The parts of the documents to return. -/
  projection : Option ProjectionRequest := none
deriving DecidableEq, Repr

namespace FindOptions

instance : Inhabited FindOptions := ⟨{}⟩

/-- The limit, if there is one. -/
def effectiveLimit (options : FindOptions) : Option Nat := options.limit.filter (0 < ·)

/-- The skip, if there is one. -/
def effectiveSkip (options : FindOptions) : Option Nat := options.skip.filter (0 < ·)

/-- The sort keys. -/
def sortKeys (options : FindOptions) : List SortKey := options.sort.getD []

end FindOptions

/-- The parts of a record in the order of their names: the fields of an object, where others are
ignored, or the elements of an array that is not too long. -/
def recordParts? (names : List String) : Json → Option (List (Option Json))
  | .object fields => some (names.map fields.get?)
  | .array elements =>
    if elements.length ≤ names.length then
      some (elements.map some ++ List.replicate (names.length - elements.length) none)
    else none
  | _ => none

/-- A part that may be missing or null, read with `read?`. -/
def optionalPart? {α : Type} (read? : Json → Option α) : Option Json → Option (Option α)
  | none => some none
  | some .null => some none
  | some value => (read? value).map some

/-- An unsigned number of 64 bits. -/
def countOfJson? : Json → Option Nat
  | .number (.integer value _) => if 0 ≤ value then some value.toNat else none
  | _ => none

/-- A string. -/
def stringOfJson? : Json → Option String
  | .string value => some value
  | _ => none

/-- A truth value. -/
def boolOfJson? : Json → Option Bool
  | .bool value => some value
  | _ => none

/-- A list whose elements are read with `read?`. -/
def listOfJson? {α : Type} (read? : Json → Option α) : Json → Option (List α)
  | .array elements => elements.mapM read?
  | _ => none

/-- The direction of a name. -/
def SortOrder.ofName? (name : String) : Option SortOrder :=
  if name = "asc" then some .asc else if name = "desc" then some .desc else none

/-- A direction: its name, or an object that holds nothing but null under its name. -/
def SortOrder.ofJson? : Json → Option SortOrder
  | .string name => ofName? name
  | .object ⟨[(name, .null)]⟩ => ofName? name
  | _ => none

/-- A sort key. -/
def SortKey.ofJson? (value : Json) : Option SortKey := do
  match ← recordParts? ["field", "order"] value with
  | [some field, some order] => return ⟨← stringOfJson? field, ← SortOrder.ofJson? order⟩
  | _ => none

/-- The request of a projection. The id is kept unless the request says otherwise. -/
def ProjectionRequest.ofJson? (value : Json) : Option ProjectionRequest := do
  match ← recordParts? ["fields", "include_id"] value with
  | [some fields, some includeId] =>
    return ⟨← listOfJson? stringOfJson? fields, ← boolOfJson? includeId⟩
  | [some fields, none] => return ⟨← listOfJson? stringOfJson? fields, true⟩
  | _ => none

namespace FindOptions

/-- Reads options; every one of them may be missing or null. -/
def ofJson? (value : Json) : Option FindOptions := do
  match ← recordParts? ["sort", "limit", "skip", "projection"] value with
  | [sort, limit, skip, projection] =>
    return {
      sort := ← optionalPart? (listOfJson? SortKey.ofJson?) sort
      limit := ← optionalPart? countOfJson? limit
      skip := ← optionalPart? countOfJson? skip
      projection := ← optionalPart? ProjectionRequest.ofJson? projection }
  | _ => none

/-- A count as a number; one beyond 64 bits, which no request holds, would be null. -/
def countToJson (count : Nat) : Json := ((Number.ofInt? count).map Json.number).getD .null

/-- The options as an object with all four of them. -/
def toJson (options : FindOptions) : Json :=
  let sortKey (key : SortKey) : Json :=
    .object ⟨[("field", .string key.field), ("order", .string key.order.name)]⟩
  let projection (request : ProjectionRequest) : Json :=
    .object ⟨[("fields", .array (request.fields.map .string)),
      ("include_id", .bool request.includeId)]⟩
  .object ⟨[
    ("sort", (options.sort.map fun keys => Json.array (keys.map sortKey)).getD .null),
    ("limit", (options.limit.map countToJson).getD .null),
    ("skip", (options.skip.map countToJson).getD .null),
    ("projection", (options.projection.map projection).getD .null)]⟩

end FindOptions

end DocTable
