import DocTable.Proofs.Cursor.Answer
import DocTable.Proofs.Cursor.Planned
import DocTable.Proofs.Document.Sorting

/-!
# The answers of a sorted scan

A sorted scan reads all rows before it answers. If one of them cannot be read,
its error is the only answer; otherwise the answers are a slice of the rows that
pass the test in their sorting, which keeps the order of rows that compare equal.
-/

namespace DocTable

/-- The order of rows under a list of sort terms. -/
def StoredRow.compareBy (terms : List SortTerm) (left right : StoredRow) : Ordering :=
  Document.compareBy terms left.document right.document

namespace Scan

variable {test : RowTest} {values : List Sql.Value} {stored : List StoredRow}

theorem passing_of_read (read : values.mapM StoredRow.ofValue = .ok stored) :
    passing test values = .ok (stored.filter fun row => test.accepts row.document) := by
  induction values generalizing stored with
  | nil =>
      cases read
      rfl
  | cons value rest ih =>
      rw [List.mapM_cons] at read
      rcases exists_of_bind_eq_ok read with ⟨row, decoded, read⟩
      rcases exists_of_bind_eq_ok read with ⟨rows, others, read⟩
      cases read
      rw [passing, decoded, ih others, List.filter_cons]
      rfl

end Scan

theorem StoredRow.compareBy_swap (terms : List SortTerm) (left right : StoredRow) :
    compareBy terms right left = (compareBy terms left right).swap :=
  Document.compareBy_swap terms left.document right.document

/-- Rows whose numbers are all integers of 64 bits with a sign have a sorting,
which is found. -/
theorem StoredRow.exists_sorting (terms : List SortTerm) {rows : List StoredRow}
    (integral : ∀ row ∈ rows, (Json.object row.document).EveryNumber (·.signed?.isSome)) :
    ∃ arranged, IsSorting (compareBy terms) rows arranged ∧
      arranged.map Prod.fst = stableSort (compareBy terms) rows :=
  DocTable.exists_sorting (compareBy_swap terms)
    (fun _ _ _ inFirst inSecond inThird =>
      Document.chains_compareBy Number.separated_signed terms inFirst inSecond inThird) integral

end DocTable
