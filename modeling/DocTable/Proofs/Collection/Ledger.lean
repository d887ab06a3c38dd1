import Mathlib.Data.List.Induction
import DocTable.Proofs.Collection.History
import DocTable.Proofs.Document.Proper

/-!
# The documents behind the rows

A ledger lists the documents that a table of texts was written from, row by row:
each operation appends the documents that it stores, puts a new document in
place of one that it changes, and drops those that it deletes. Writing does not
look at how deeply a document is nested, and reading does. So a row is read as
the document in the ledger exactly if that document can be read from its text.
-/

namespace DocTable

variable {ι : Type} {ids : IdSource ι} {name : String} {rows : List Sql.Value}

namespace Document

theorem document?_row_iff {document : Document} :
    document.row.document? = some document ↔ (Json.object document).Legible := by
  rw [row, Sql.Value.document?_text, decode_eq_ok_iff, text, Json.read?_text_eq_some_iff]

theorem document?_row_of_deep (document : Document) (proper : (Json.object document).Proper)
    (deep : Json.depthLimit < (Json.object document).depth) : document.row.document? = none := by
  cases read : document.row.document? with
  | none => rfl
  | some other =>
      rw [row, Sql.Value.document?_text, decode_eq_ok_iff, text,
        Json.read?_text_of_deep proper deep] at read
      cases read

end Document

namespace Json

/-- Arrays nested in each other. -/
def nested : Nat → Json
  | 0 => .null
  | depth + 1 => .array [nested depth]

theorem proper_nested (count : Nat) : (nested count).Proper := by
  induction count with
  | zero => exact trivial
  | succ count ih => exact ⟨ih, trivial⟩

end Json

/-- The document behind a row that a change has passed: the new one if the document that is read
from the row passes the test and is changed. -/
def RowTest.recorded (test : RowTest) (change : Document → Document × Bool)
    (written : Document) : Document :=
  match test.chosen? written.row with
  | some row => if (change row.document).2 then (change row.document).1 else written
  | none => written

theorem RowTest.rewritten_row (test : RowTest) (change : Document → Document × Bool)
    (written : Document) :
    test.rewritten change written.row = (test.recorded change written).row := by
  unfold rewritten recorded
  cases test.chosen? written.row with
  | none => rfl
  | some row => cases changed : (change row.document).2 <;> simp [changed, Document.row]

/-- The first document whose row passes the test may have been changed. -/
def RecordedFirst (test : RowTest) (change : Document → Document × Bool)
    (before after : List Document) : Prop :=
  after = before ∨ ∃ front document back, before = front ++ document :: back ∧
    (∀ other ∈ front, test.chosen? other.row = none) ∧
    after = front ++ test.recorded change document :: back

/-- What an operation records. -/
def Operation.Records (before after : List Document) : Operation → Prop
  | .insertOne document => after = before ∨ ∃ id, after = before ++ [document.withId id]
  | .insertMany documents => ∃ own : List String,
      after = before ++ List.zipWith Document.withId documents own
  | .changeOne filter change => after = before ∨ ∃ test function, filter.rowTest = .ok test ∧
      change.function = .ok function ∧ RecordedFirst test function before after
  | .changeMany filter change => after = before ∨ ∃ test function, filter.rowTest = .ok test ∧
      change.function = .ok function ∧ after = before.map (test.recorded function)
  | .deleteOne _ | .deleteMany _ => after.Sublist before
  | .find .. | .count _ => after = before

open Session

/-- A report that all or the first of the rows have been rewritten is one about their documents. -/
theorem RewrittenFirst.recorded {test : RowTest} {change : Document → Document × Bool}
    {before : List Document} {after : List Sql.Value} {report : UpdateReport}
    (rewritten : RewrittenFirst test change (before.map Document.row) after report) :
    ∃ later, after = later.map Document.row ∧ RecordedFirst test change before later := by
  generalize isRows : before.map Document.row = rows at rewritten
  cases rewritten with
  | missed unmatched => exact ⟨before, isRows.symm, .inl rfl⟩
  | @found front back row unmatched matched =>
      rcases List.map_eq_append_iff.1 isRows with ⟨earlier, tail, rfl, rfl, inTail⟩
      rcases List.map_eq_cons_iff.1 inTail with ⟨document, later, rfl, rfl, rfl⟩
      refine ⟨earlier ++ test.recorded change document :: later, ?_, .inr ⟨_, _, _, rfl, ?_, rfl⟩⟩
      · rw [List.map_append, List.map_cons, test.rewritten_row]
      · intro other member
        have passed := unmatched other.row (List.mem_map_of_mem member)
        simpa [RowTest.matches] using passed

/-- Each operation, whether it succeeds or fails, leaves the rows of documents, and these are what
it records. -/
theorem Operation.ends_recorded {before : List Document}
    (keyed : Keyed (before.map Document.row)) (operation : Operation) :
    Ends ids name (before.map Document.row) (operation.session ⟨name, .text⟩) fun _ after =>
      ∃ later, after = later.map Document.row ∧ operation.Records before later := by
  have unchanged {after : List Sql.Value} (same : after = before.map Document.row) :
      ∃ later, after = later.map Document.row ∧ later = before := ⟨before, same, rfl⟩
  cases operation with
  | insertOne document =>
      apply (ends_insertOne document).ignoring
      intro result after inserted
      cases result with
      | error error => exact ⟨before, inserted, .inl rfl⟩
      | ok id =>
          rcases inserted with ⟨rfl, -⟩
          exact ⟨before ++ [document.withId id], by simp [Document.row], .inr ⟨id, rfl⟩⟩
  | insertMany documents =>
      apply (ends_insertMany keyed documents).ignoring
      intro result after inserted
      rcases inserted with ⟨-, own, rfl⟩
      exact ⟨_, List.map_append.symm, own, rfl⟩
  | changeOne filter change =>
      apply (change.ends_applyOne keyed filter).ignoring
      intro result after outcome
      cases result with
      | error error => exact ⟨before, outcome, .inl rfl⟩
      | ok report =>
          rcases outcome with ⟨test, function, tested, read, rewritten⟩
          rcases rewritten.recorded with ⟨later, rfl, recorded⟩
          exact ⟨later, rfl, .inr ⟨test, function, tested, read, recorded⟩⟩
  | changeMany filter change =>
      apply (change.ends_applyMany keyed filter).ignoring
      intro result after outcome
      cases result with
      | error error => exact ⟨before, outcome, .inl rfl⟩
      | ok report =>
          rcases outcome with ⟨test, function, tested, read, rewritten⟩
          refine ⟨before.map (test.recorded function), ?_, .inr ⟨test, function, tested, read, rfl⟩⟩
          rw [rewritten.rows, List.map_map, List.map_map]
          exact List.map_congr_left fun document _ => test.rewritten_row function document
  | deleteOne filter =>
      apply (ends_deleteOne filter).ignoring
      intro result after fewer
      rcases List.sublist_map_iff.1 fewer with ⟨later, sublist, rfl⟩
      exact ⟨later, rfl, sublist⟩
  | deleteMany filter =>
      apply (ends_deleteMany filter).ignoring
      intro result after fewer
      rcases List.sublist_map_iff.1 fewer with ⟨later, sublist, rfl⟩
      exact ⟨later, rfl, sublist⟩
  | find filter options =>
      apply Ends.ignoring (reads_find filter options)
      intro result after outcome
      exact unchanged outcome.1
  | count filter =>
      apply Ends.ignoring (reads_count filter)
      intro result after outcome
      exact unchanged outcome.1

/-- The document that a change is given. -/
def Change.argument : Change → Document
  | .update document | .replacement document => document

theorem Change.keepsProper_function {change : Change} {function : Document → Document × Bool}
    (proper : (Json.object change.argument).Proper) (read : change.function = .ok function) :
    KeepsProper function := by
  cases change with
  | update document =>
      rw [Change.function] at read
      exact ((Update.ofDocument_proper proper).map fun _ keeps => keeps).of_ok function read
  | replacement document =>
      have ensures : Ensures KeepsProper (Change.replacement document).function := by
        apply (Ensures.trivially (checkReplacement document)).bind
        intro _ _
        split
        · exact Ensures.throw _
        · exact Ensures.pure (Document.keepsProper_replaceWith proper)
      exact ensures.of_ok function read

/-- No document that is given to the operation repeats a name. -/
def Operation.Proper : Operation → Prop
  | .insertOne document => (Json.object document).Proper
  | .insertMany documents => ∀ document ∈ documents, (Json.object document).Proper
  | .changeOne _ change | .changeMany _ change => (Json.object change.argument).Proper
  | .deleteOne _ | .deleteMany _ | .find .. | .count _ => True

/-- What is recorded for a row is proper: it has been read or computed from what has been read. -/
theorem RowTest.proper_recorded {test : RowTest} {change : Document → Document × Bool}
    {written : Document} (keeps : KeepsProper change) (proper : (Json.object written).Proper) :
    (Json.object (test.recorded change written)).Proper := by
  rw [recorded]
  split
  · next row chosen =>
      split
      · exact keeps row.document (Document.proper_of_decode (stored_of_chosen? chosen).2)
      · exact proper
  · exact proper

theorem Operation.proper_records {operation : Operation} {before after : List Document}
    (own : operation.Proper) (records : operation.Records before after)
    (proper : ∀ document ∈ before, (Json.object document).Proper) :
    ∀ document ∈ after, (Json.object document).Proper := by
  cases operation with
  | insertOne document =>
      rcases records with rfl | ⟨id, rfl⟩
      · exact proper
      · rw [List.forall_mem_append]
        refine ⟨proper, ?_⟩
        intro stamped member
        rw [List.mem_singleton.1 member]
        exact Document.proper_withId own id
  | insertMany documents =>
      rcases records with ⟨ids, rfl⟩
      rw [List.forall_mem_append]
      refine ⟨proper, ?_⟩
      intro stamped member
      rw [← List.map_uncurry_zip_eq_zipWith] at member
      rcases List.mem_map.1 member with ⟨⟨document, id⟩, inBoth, rfl⟩
      exact Document.proper_withId (own document (List.of_mem_zip inBoth).1) id
  | changeOne filter change =>
      rcases records with
        rfl | ⟨test, function, -, read, rfl | ⟨front, document, back, rfl, -, rfl⟩⟩
      · exact proper
      · exact proper
      · have keeps := Change.keepsProper_function own read
        rw [List.forall_mem_append, List.forall_mem_cons] at proper ⊢
        exact ⟨proper.1, RowTest.proper_recorded keeps proper.2.1, proper.2.2⟩
  | changeMany filter change =>
      rcases records with rfl | ⟨test, function, -, read, rfl⟩
      · exact proper
      · have keeps := Change.keepsProper_function own read
        intro document member
        rcases List.mem_map.1 member with ⟨earlier, inBefore, rfl⟩
        exact RowTest.proper_recorded keeps (proper earlier inBefore)
  | deleteOne filter | deleteMany filter =>
      intro document member
      exact proper document (records.subset member)
  | find filter options | count filter =>
      have same : after = before := records
      rw [same]
      exact proper

/-! ## Histories -/

/-- The documents that operations on an empty table have recorded. -/
inductive Ledger : List Operation → List Document → Prop where
  | empty : Ledger [] []
  | next {operations : List Operation} {operation : Operation} {before after : List Document}
      (ledger : Ledger operations before) (records : operation.Records before after) :
      Ledger (operations ++ [operation]) after

theorem Ledger.proper {operations : List Operation} {written : List Document}
    (ledger : Ledger operations written) (own : ∀ operation ∈ operations, operation.Proper) :
    ∀ document ∈ written, (Json.object document).Proper := by
  induction ledger with
  | empty => exact nofun
  | next ledger records ih =>
      rcases List.forall_mem_append.1 own with ⟨earlier, last⟩
      exact Operation.proper_records (last _ List.mem_cons_self) records (ih earlier)

namespace Collection

/-- Every history has a ledger, and its documents are those that the rows were written from. -/
theorem history_recorded (ids : IdSource ι) (name : String) (store : MemoryStore) (source : ι)
    (empty : store.rows? name = some []) (operations : List Operation) :
    ∃ written, Ledger operations written ∧
      (history ids ⟨name, .text⟩ operations (store, source)).1.rows? name =
        some (written.map Document.row) ∧ Keyed (written.map Document.row) := by
  induction operations using List.reverseRecOn with
  | nil => exact ⟨[], .empty, empty, Keyed.nil⟩
  | append_singleton operations operation ih =>
      rcases ih with ⟨before, ledger, reached, keyed⟩
      have keeps : Ends ids name (before.map Document.row) (operation.session ⟨name, .text⟩)
          fun _ after => Keyed after ∧ operation.Permits (before.map Document.row) after :=
        operation.ends_session keyed
      rcases keeps.and (operation.ends_recorded keyed) _
          (history ids ⟨name, .text⟩ operations (store, source)).2 reached with
        ⟨result, last, next, after, run, known, ⟨keyedAfter, -⟩, later, rfl, records⟩
      refine ⟨later, ledger.next records, ?_, keyedAfter⟩
      rw [history_append, Operation.step, run]
      exact known

/-- Whatever has been done to a table, its rows are the texts of the documents in a ledger. A row
is read as its document if and only if at most as many containers are nested in it as a reader
opens and its doubles are read back from their digits. If more are nested in it, the row holds no
document. -/
theorem history_ledger (ids : IdSource ι) (name : String) (store : MemoryStore) (source : ι)
    (empty : store.rows? name = some []) (operations : List Operation)
    (proper : ∀ operation ∈ operations, operation.Proper) :
    ∃ written, Ledger operations written ∧
      (history ids ⟨name, .text⟩ operations (store, source)).1.rows? name =
        some (written.map Document.row) ∧
      ∀ document ∈ written,
        (document.row.document? = some document ↔
          (Json.object document).depth ≤ Json.depthLimit ∧
            ∀ double ∈ (Json.object document).doubles, double.ReadsBack) ∧
        (Json.depthLimit < (Json.object document).depth → document.row.document? = none) := by
  rcases history_recorded ids name store source empty operations with
    ⟨written, ledger, reached, -⟩
  refine ⟨written, ledger, reached, ?_⟩
  intro document member
  have own := ledger.proper proper document member
  refine ⟨?_, document.document?_row_of_deep own⟩
  rw [Document.document?_row_iff]
  constructor
  · rintro ⟨-, shallow, exact⟩
    exact ⟨shallow, exact⟩
  · rintro ⟨shallow, exact⟩
    exact ⟨own, shallow, exact⟩

/-- The document that has been stored and updated is read. -/
theorem history_ledger_of_update :
    MemoryStore.rows? ⟨[⟨"notes", []⟩]⟩ "notes" = some [] ∧
    (∀ operation ∈ [Operation.insertOne ⟨[("title", .string "draft")]⟩,
        .changeMany .all (.update ⟨[("title", .string "note")]⟩)], operation.Proper) ∧
    ∃ written,
      Ledger [.insertOne ⟨[("title", .string "draft")]⟩,
        .changeMany .all (.update ⟨[("title", .string "note")]⟩)] written ∧
      (history SequentialIds.fresh ⟨"notes", .text⟩
        [.insertOne ⟨[("title", .string "draft")]⟩,
          .changeMany .all (.update ⟨[("title", .string "note")]⟩)]
        (⟨[⟨"notes", []⟩]⟩, ⟨"note-", 1⟩)).1.rows? "notes" = some (written.map Document.row) ∧
      ∀ document ∈ written,
        (document.row.document? = some document ↔
          (Json.object document).depth ≤ Json.depthLimit ∧
            ∀ double ∈ (Json.object document).doubles, double.ReadsBack) ∧
        (Json.depthLimit < (Json.object document).depth → document.row.document? = none) := by
  have proper : ∀ operation ∈ [Operation.insertOne ⟨[("title", .string "draft")]⟩,
      .changeMany .all (.update ⟨[("title", .string "note")]⟩)], operation.Proper := by
    simp [Operation.Proper, Change.argument, Fields.Distinct, Fields.keys, Json.Proper,
      Json.ProperEntries]
  exact ⟨rfl, proper, history_ledger SequentialIds.fresh "notes" ⟨[⟨"notes", []⟩]⟩ ⟨"note-", 1⟩ rfl
    _ proper⟩

/-- An update that a reader can read puts a value eight names deep into a document. It succeeds,
and the row behind it holds no document. -/
theorem history_ledger_unreadable :
    (Json.object ⟨[("$set", .object ⟨[("a.b.c.d.e.f.g.h", .nested 120)]⟩)]⟩).depth = 122 ∧
    ∃ document : Document,
      (history SequentialIds.fresh ⟨"notes", .text⟩
        [.insertOne ⟨[("_id", .string "x")]⟩,
          .changeMany .all (.update
            ⟨[("$set", .object ⟨[("a.b.c.d.e.f.g.h", .nested 120)]⟩)]⟩)]
        (⟨[⟨"notes", []⟩]⟩, ⟨"note-", 1⟩)).1.rows? "notes" = some [document.row] ∧
      document.row.document? = none := by
  have start : (Json.object ⟨[("_id", .string "x")]⟩).Proper := by
    simp [Fields.Distinct, Fields.keys, Json.Proper, Json.ProperEntries]
  refine ⟨by decide +kernel, Document.put ⟨[("_id", .string "x")]⟩
    ⟨["a", "b", "c", "d", "e", "f", "g", "h"], by decide, by decide⟩ (.nested 120), ?_, ?_⟩
  · decide +kernel
  · apply Document.document?_row_of_deep
    · exact Document.proper_put start _ (Json.proper_nested 120)
    · decide +kernel

end Collection

end DocTable
