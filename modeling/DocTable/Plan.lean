import DocTable.Filter.Basic
import DocTable.Sql.Command

/-!
# Plans

A filter is either left to the engine, as a predicate, or every row is read and tested in process.
The second way is taken for tests given as functions and for dialects that cannot look inside
documents. All operations on a filter make this choice in the same place; only a filter that is
compiled on its own is read without it.
-/

namespace DocTable

/-- How the rows of a filter are chosen. -/
structure RowChoice where
  /-- The test that is left to the engine. -/
  predicate : Sql.Predicate
  /-- The test that remains to be done on each row, if any. -/
  rowTest : Option RowTest

namespace Filter

/-- The way in which a filter is carried out. A match document is read in any case. -/
def choice (dialect : Sql.Dialect) : Filter → Except Error RowChoice
  | .predicate test => pure ⟨.constant true, some (.function test)⟩
  | .declarative filter => do
    let condition ← Condition.ofDocument filter
    return match dialect with
      | .json _ => ⟨condition.toPredicate, none⟩
      | .text => ⟨.constant true, some (.condition condition)⟩

/-- The predicate of a filter as a statement of its own, and the test that remains. -/
def whereClause (dialect : Sql.Dialect) (filter : Filter) :
    Except Error (Sql.Statement × Option RowTest) := do
  let choice ← filter.choice dialect
  let fragment ← choice.predicate.fragment dialect
  return (fragment.statement dialect, choice.rowTest)

/-- The predicate of a filter as a statement of its own, if the engine does the whole test. -/
def compile (dialect : Sql.Dialect) : Filter → Except Error (Option Sql.Statement)
  | .predicate _ => pure none
  | .declarative filter => do
    let condition ← Condition.ofDocument filter
    match dialect with
    | .text => return none
    | .json _ =>
      let fragment ← condition.toPredicate.fragment dialect
      return some (fragment.statement dialect)

/-- A filter compiled on its own is its clause, unless a test remains. -/
theorem compile_eq_whereClause (dialect : Sql.Dialect) (filter : Filter) :
    filter.compile dialect = do
      let clause ← filter.whereClause dialect
      return if clause.2.isSome then none else some clause.1 := by
  cases filter with
  | predicate test => rfl
  | declarative document =>
    rw [compile, whereClause, choice]
    cases Condition.ofDocument document with
    | error error => rfl
    | ok condition =>
      cases dialect with
      | text => rfl
      | json engine =>
        change (condition.toPredicate.fragment (.json engine) >>= fun fragment => _) =
          ((condition.toPredicate.fragment (.json engine) >>= fun fragment => _) >>= _)
        cases condition.toPredicate.fragment (.json engine) <;> rfl

/-- The call of a command over a filter if the engine does the whole test. -/
def callWhere? (dialect : Sql.Dialect) (table : String) (command : Sql.Predicate → Sql.Command)
    (filter : Filter) : Except Error (Option Sql.Call) := do
  let choice ← filter.choice dialect
  if choice.rowTest.isSome then return none
  return some (← (command choice.predicate).call dialect table)

end Filter

/-- The projection of a request. -/
def ProjectionRequest.resolve (request : ProjectionRequest) : Except Error Projection := do
  return ⟨← request.fields.mapM FieldPath.parse, request.includeId⟩

/-- What is left to do with the rows of a search when every row is read. -/
structure ScanPlan where
  /-- The test of each row. -/
  test : RowTest
  /-- The order of the rows that pass. -/
  sort : List SortTerm
  /-- The number of rows to leave out at the beginning. -/
  skip : Nat
  /-- The greatest number of rows to return. -/
  limit : Option Nat

/-- A search, ready to be carried out. -/
structure FindPlan where
  /-- The one call that reads the rows. -/
  call : Sql.Call
  /-- What is left to do with the rows, unless the engine does it all. -/
  scan : Option ScanPlan
  /-- The parts of the documents to return. -/
  projection : Option Projection

/-- Plans a search. -/
def FindPlan.build (dialect : Sql.Dialect) (table : String) (filter : Filter)
    (options : FindOptions) : Except Error FindPlan := do
  let projection ← options.projection.mapM ProjectionRequest.resolve
  let sort ← sortTerms options.sortKeys
  let choice ← filter.choice dialect
  match choice.rowTest with
  | none =>
    let order := if sort.isEmpty then none else some sort
    let command := Sql.Command.select choice.predicate order options.effectiveLimit
      options.effectiveSkip
    return ⟨← command.call dialect table, none, projection⟩
  | some test =>
    let command := Sql.Command.select choice.predicate (some []) none none
    let scan : ScanPlan := {
      test, sort, skip := options.effectiveSkip.getD 0, limit := options.effectiveLimit }
    return ⟨← command.call dialect table, some scan, projection⟩

end DocTable
