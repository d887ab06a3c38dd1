import DocTable.Directory
import DocTable.Main
import DocTable.Proofs.Collection.Discipline
import DocTable.Proofs.Collection.Insertion
import DocTable.Proofs.Collection.Readdressing
import DocTable.Proofs.CommandLine.SortText
import DocTable.Proofs.Cursor.Streaming
import DocTable.Proofs.Document.Access
import DocTable.Proofs.Document.Projection
import DocTable.Proofs.Filter.Comparison
import DocTable.Proofs.Filter.Reordering
import DocTable.Proofs.Identifier
import DocTable.Proofs.Json.KeyOrder
import DocTable.Proofs.Sql.Acceptance
import DocTable.Proofs.Sql.Arrangement
import DocTable.Proofs.Sql.Clause
import DocTable.Proofs.Sql.Draft
import DocTable.Proofs.Sql.Outline
import DocTable.Proofs.Sql.Quoting
import DocTable.Proofs.Sql.Selector
import DocTable.Proofs.Sql.Statement
import DocTable.Proofs.Trace
import DocTable.Proofs.Update.Increment
import DocTable.Proofs.Update.Report
