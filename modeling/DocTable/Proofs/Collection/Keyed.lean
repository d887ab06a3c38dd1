import DocTable.Engine.Memory
import DocTable.Proofs.Document.Stamped
import DocTable.Proofs.Scan

/-!
# Tables with an id in every document

The rows of a collection are texts, each document among them carries its id in
front, and no two documents carry the same one. Appending a document under an
id that is not taken, dropping rows and writing over documents under their own
ids keep a table in this form. Two documents of such a table have different
texts, so a row with a document can be addressed by its text.
-/

namespace DocTable

/-- The row that a document is stored as. -/
def Document.row (document : Document) : Sql.Value := .text document.text

/-- Every row is a text, the documents are stamped, and their ids differ. -/
structure Keyed (rows : List Sql.Value) : Prop where
  texts : ∀ row ∈ rows, ∃ raw, row = .text raw
  stamped : ∀ row ∈ rows, ∀ document, row.document? = some document →
    ∃ id, document.Stamped id
  distinct : rows.Pairwise fun left right => ∀ one other, left.document? = some one →
    right.document? = some other → one.id? ≠ other.id?

theorem Sql.Value.document?_eq_some_iff {value : Sql.Value} {document : Document} :
    value.document? = some document ↔
      ∃ raw, value.asRead = .text raw ∧ Document.decode raw = .ok document := by
  rw [Sql.Value.document?]
  cases value.asRead with
  | text raw =>
      cases decoded : Document.decode raw with
      | error error => simp [decoded, Except.toOption]
      | ok own => simp [decoded, Except.toOption]
  | null | integer _ | real _ | blob _ => simp

theorem Sql.Value.document?_text {raw : String} {document : Document} :
    (Sql.Value.text raw).document? = some document ↔ Document.decode raw = .ok document := by
  simp [Sql.Value.document?_eq_some_iff, Sql.Value.asRead]

theorem RowTest.stored_of_chosen? {test : RowTest} {value : Sql.Value} {row : StoredRow}
    (chosen : test.chosen? value = some row) :
    value = .text row.raw ∧ Document.decode row.raw = .ok row.document :=
  StoredRow.ofValue_eq_ok_iff.1 (RowTest.chosen?_eq_some_iff.1 chosen).1

theorem RowTest.document?_of_chosen? {test : RowTest} {value : Sql.Value} {row : StoredRow}
    (chosen : test.chosen? value = some row) : value.document? = some row.document := by
  rcases RowTest.stored_of_chosen? chosen with ⟨rfl, decoded⟩
  exact Sql.Value.document?_text.2 decoded

/-- The later row is a text, and its document has the stamp of the document
that was in the earlier row. -/
structure Sql.Value.Succeeds (before after : Sql.Value) : Prop where
  text : ∃ raw, after = .text raw
  stamp : ∀ document, after.document? = some document → ∃ earlier id,
    before.document? = some earlier ∧ earlier.Stamped id ∧ document.Stamped id

namespace Keyed

variable {rows : List Sql.Value}

theorem nil : Keyed [] := by
  constructor
  · simp
  · simp
  · exact List.Pairwise.nil

theorem sublist {fewer : List Sql.Value} (keyed : Keyed rows) (sublist : fewer.Sublist rows) :
    Keyed fewer := by
  constructor
  · intro row member
    exact keyed.texts row (sublist.subset member)
  · intro row member
    exact keyed.stamped row (sublist.subset member)
  · exact keyed.distinct.sublist sublist

theorem map_asRead (keyed : Keyed rows) : rows.map Sql.Value.asRead = rows := by
  have unchanged : ∀ row ∈ rows, row.asRead = id row := by
    intro row member
    rcases keyed.texts row member with ⟨raw, rfl⟩
    rfl
  rw [List.map_congr_left unchanged, List.map_id]

theorem append {document : Document} {id : String} (keyed : Keyed rows)
    (stamped : document.Stamped id)
    (free : ∀ row ∈ rows, ∀ other, row.document? = some other → ¬other.Stamped id) :
    Keyed (rows ++ [.text document.text]) := by
  have stampOf {read : Document} (decoded : (Sql.Value.text document.text).document? = some read) :
      read.Stamped id :=
    stamped.of_decode_text (Sql.Value.document?_text.1 decoded)
  constructor
  · intro row member
    rcases List.mem_append.1 member with member | member
    · exact keyed.texts row member
    · exact ⟨document.text, List.mem_singleton.1 member⟩
  · intro row member read decoded
    rcases List.mem_append.1 member with member | member
    · exact keyed.stamped row member read decoded
    · rw [List.mem_singleton.1 member] at decoded
      exact ⟨id, stampOf decoded⟩
  · rw [List.pairwise_append]
    refine ⟨keyed.distinct, List.pairwise_singleton _ _, ?_⟩
    intro row member last isLast one other oneRead otherRead same
    rw [List.mem_singleton.1 isLast] at otherRead
    rcases keyed.stamped row member one oneRead with ⟨own, oneStamped⟩
    rw [oneStamped.id?_eq, (stampOf otherRead).id?_eq] at same
    cases same
    exact free row member one oneRead oneStamped

theorem succeeds_self (keyed : Keyed rows) {row : Sql.Value} (member : row ∈ rows) :
    row.Succeeds row := by
  constructor
  · exact keyed.texts row member
  · intro document decoded
    rcases keyed.stamped row member document decoded with ⟨id, stamped⟩
    exact ⟨document, id, decoded, stamped, stamped⟩

theorem map {change : Sql.Value → Sql.Value} (keyed : Keyed rows)
    (each : ∀ row ∈ rows, row.Succeeds (change row)) : Keyed (rows.map change) := by
  constructor
  · intro row member
    rcases List.mem_map.1 member with ⟨before, inRows, rfl⟩
    exact (each before inRows).text
  · intro row member document decoded
    rcases List.mem_map.1 member with ⟨before, inRows, rfl⟩
    rcases (each before inRows).stamp document decoded with ⟨earlier, id, -, -, stamped⟩
    exact ⟨id, stamped⟩
  · rw [List.pairwise_map]
    apply keyed.distinct.imp_of_mem
    intro left right inLeft inRight different one other oneRead otherRead
    rcases (each left inLeft).stamp one oneRead with
      ⟨first, firstId, firstRead, firstStamped, oneStamped⟩
    rcases (each right inRight).stamp other otherRead with
      ⟨second, secondId, secondRead, secondStamped, otherStamped⟩
    have apart := different first second firstRead secondRead
    rw [firstStamped.id?_eq, secondStamped.id?_eq] at apart
    rw [oneStamped.id?_eq, otherStamped.id?_eq]
    exact apart

/-- The documents that are chosen from a table have ids of their own. -/
theorem pairwise_filterMap_chosen? (keyed : Keyed rows) (test : RowTest) :
    (rows.filterMap test.chosen?).Pairwise fun left right =>
      left.document.id? ≠ right.document.id? := by
  rw [List.pairwise_filterMap]
  apply keyed.distinct.imp
  intro left right different one oneChosen other otherChosen
  exact different _ _ (RowTest.document?_of_chosen? oneChosen)
    (RowTest.document?_of_chosen? otherChosen)

end Keyed

end DocTable
